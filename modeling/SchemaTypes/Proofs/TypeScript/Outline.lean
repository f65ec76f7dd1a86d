import SchemaTypes.Proofs.TypeScript.Naming
import SchemaTypes.Proofs.TypeScript.Rows
import Mathlib.Data.List.Basic

/-!
# Outlines

The outline of a declaration is what it says to a compiler: whether it is an enum or a record, its
name, and its members in order. Documentation is not part of it. The code of an outline is a list of
lines, and nothing that follows these lines can be taken for a part of them.

## Main definitions

* `TypeScript.Outline`, `TypeScript.Declaration.outline`: outlines
* `TypeScript.Outline.code`: the lines of code of an outline

## Main results

* `TypeScript.Outline.code_append_cancel`: two outlines at the start of one code are the same
* `TypeScript.Outline.eq_of_flatMap_code_eq`: a code tells its outlines
-/

namespace SchemaTypes

namespace TypeScript

/-- What a member of a record says. -/
structure FieldOutline where
  name : String
  optional : Bool
  type : String
deriving DecidableEq

/-- What a member of an enum says. -/
structure CaseOutline where
  name : String
  literal : String
deriving DecidableEq

/-- What a declaration says. -/
inductive Outline
  | enumeration (name : String) (members : List CaseOutline)
  | record (name : String) (members : List FieldOutline)
deriving DecidableEq

/-- The outline of a declaration. -/
def Declaration.outline : Declaration → Outline
  | enumeration declaration =>
    .enumeration declaration.name
      (declaration.members.map fun member => ⟨member.name, literalOf member.value⟩)
  | record declaration =>
    .record declaration.name
      (declaration.members.map fun member => ⟨member.name, member.optional, member.type⟩)

/-! ### Lines of members -/

/-- The line of a member of a record. -/
def FieldOutline.line (field : FieldOutline) : String :=
  memberName field.name ++ (if field.optional then "?" else "") ++ ": " ++ field.type ++ ";"

/-- The line of a member of an enum. -/
def CaseOutline.line (case : CaseOutline) : String :=
  memberName case.name ++ " = " ++ case.literal ++ ","

/-- What stands behind the name of a field. -/
def FieldOutline.ending (field : FieldOutline) : List Char :=
  (if field.optional then ['?'] else []) ++ ':' :: ' ' :: (field.type.toList ++ [';'])

theorem FieldOutline.toList_line (field : FieldOutline) :
    field.line.toList = (memberName field.name).toList ++ field.ending := by
  rw [line, ending]
  cases field.optional <;> simp

theorem CaseOutline.toList_line (case : CaseOutline) :
    case.line.toList =
      (memberName case.name).toList ++ ' ' :: '=' :: ' ' :: (case.literal.toList ++ [',']) := by
  simp [line]

theorem FieldOutline.head?_ending (field : FieldOutline) :
    ∀ c ∈ field.ending.head?, isIdentifierPart c = false := by
  rw [ending]
  split <;> (intro c hc; cases hc; decide)

theorem FieldOutline.ending_injective {f g : FieldOutline} (h : f.ending = g.ending) :
    f.optional = g.optional ∧ f.type = g.type := by
  rw [ending, ending] at h
  have htail : ∀ {s t : String},
      ':' :: ' ' :: (s.toList ++ [';']) = ':' :: ' ' :: (t.toList ++ [';']) → s = t := by
    intro s t hst
    have hrest := (List.cons.inj (List.cons.inj hst).2).2
    exact String.toList_inj.mp (List.append_cancel_right hrest)
  cases hf : f.optional <;> cases hg : g.optional <;> rw [hf, hg] at h
  · exact ⟨rfl, htail h⟩
  -- a mark on one side only would have to be a colon
  · exact absurd (List.cons.inj h).1 (by decide)
  · exact absurd (List.cons.inj h).1 (by decide)
  · exact ⟨rfl, htail (List.cons.inj h).2⟩

/-- **The line of a field tells the field.** -/
theorem FieldOutline.line_injective : Function.Injective FieldOutline.line := by
  intro f g h
  have hchars := congrArg String.toList h
  rw [toList_line, toList_line] at hchars
  obtain ⟨hname, hending⟩ := memberName_append_cancel f.head?_ending g.head?_ending hchars
  obtain ⟨hoptional, htype⟩ := ending_injective hending
  obtain ⟨fname, foptional, ftype⟩ := f
  obtain ⟨gname, goptional, gtype⟩ := g
  obtain rfl : fname = gname := hname
  obtain rfl : foptional = goptional := hoptional
  obtain rfl : ftype = gtype := htype
  rfl

/-- **The line of a member of an enum tells the member.** -/
theorem CaseOutline.line_injective : Function.Injective CaseOutline.line := by
  intro c d h
  have hblank : ∀ {rest : List Char}, ∀ b ∈ (' ' :: rest).head?, isIdentifierPart b = false := by
    intro rest b hb
    cases hb
    decide
  have hchars := congrArg String.toList h
  rw [toList_line, toList_line] at hchars
  obtain ⟨hname, hending⟩ := memberName_append_cancel hblank hblank hchars
  have hrest := (List.cons.inj (List.cons.inj (List.cons.inj hending).2).2).2
  obtain ⟨cname, cliteral⟩ := c
  obtain ⟨dname, dliteral⟩ := d
  obtain rfl : cname = dname := hname
  obtain rfl : cliteral = dliteral := String.toList_inj.mp (List.append_cancel_right hrest)
  rfl

/-! ### The code of an outline -/

namespace Outline

def name : Outline → String
  | enumeration name _ => name
  | record name _ => name

def keyword : Outline → String
  | enumeration _ _ => "enum "
  | record _ _ => "interface "

def lines : Outline → List String
  | enumeration _ members => members.map CaseOutline.line
  | record _ members => members.map FieldOutline.line

/-- The line of the head. -/
def head (exported : Bool) (outline : Outline) : String :=
  Statement.exportMark exported ++ outline.keyword ++ outline.name ++
    opening outline.lines.isEmpty

/-- What follows the line of the head. -/
def body (outline : Outline) : List String :=
  if outline.lines.isEmpty then [] else outline.lines ++ ["\x7d"]

/-- The lines of code of an outline. -/
def code (exported : Bool) (outline : Outline) : List String :=
  outline.head exported :: outline.body

theorem notMem_lines (outline : Outline) : "\x7d" ∉ outline.lines := by
  have hname : ∀ (name : String) (rest : List Char),
      ['\x7d'] ≠ (memberName name).toList ++ rest := by
    intro name rest h
    obtain ⟨c, tail, hname, hc⟩ := exists_cons_memberName name
    rw [hname, List.cons_append] at h
    obtain rfl := (List.cons.inj h).1
    split at hc <;> exact absurd hc (by decide)
  intro h
  cases outline with
  | enumeration name members =>
    obtain ⟨case, -, hline⟩ := List.mem_map.mp h
    exact hname _ _ ((congrArg String.toList hline).symm.trans case.toList_line)
  | record name members =>
    obtain ⟨field, -, hline⟩ := List.mem_map.mp h
    exact hname _ _ ((congrArg String.toList hline).symm.trans field.toList_line)

/-- The heads of two outlines agree only if their names do, and both have members or neither. -/
theorem head_injective {exported : Bool} {o p : Outline} (ho : isIdentifier o.name = true)
    (hp : isIdentifier p.name = true) (h : o.head exported = p.head exported) :
    o.keyword = p.keyword ∧ o.name = p.name ∧ o.lines.isEmpty = p.lines.isEmpty := by
  have hchars := congrArg String.toList h
  simp only [head, String.toList_append, List.append_assoc] at hchars
  have hrest := List.append_cancel_left hchars
  have hopening : ∀ {empty : Bool},
      ∀ c ∈ (opening empty).toList.head?, isIdentifierPart c = false := by
    intro empty c hc
    cases empty <;> cases hc <;> decide
  have hempty : ∀ a b, (opening a).toList = (opening b).toList → a = b := by decide
  have hnames : o.keyword = p.keyword →
      o.name = p.name ∧ o.lines.isEmpty = p.lines.isEmpty := by
    intro hkeyword
    rw [hkeyword, ← memberName_of_isIdentifier ho, ← memberName_of_isIdentifier hp] at hrest
    obtain ⟨hname, htail⟩ :=
      memberName_append_cancel hopening hopening (List.append_cancel_left hrest)
    exact ⟨hname, hempty _ _ htail⟩
  have hkeywords : ∀ {xs ys : List Char}, "enum ".toList ++ xs ≠ "interface ".toList ++ ys := by
    intro xs ys h
    -- they differ in their first character
    have hfirst := congrArg List.head? h
    simp at hfirst
  cases o with
  | enumeration oname omembers =>
    cases p with
    | enumeration pname pmembers => exact ⟨rfl, hnames rfl⟩
    | record pname pmembers => exact absurd hrest hkeywords
  | record oname omembers =>
    cases p with
    | enumeration pname pmembers => exact absurd hrest.symm hkeywords
    | record pname pmembers => exact ⟨rfl, hnames rfl⟩

/-- The bodies at the start of one code are the same, once the heads agree on whether there are
members. -/
theorem body_append_cancel {o p : Outline} (hempty : o.lines.isEmpty = p.lines.isEmpty)
    {xs ys : List String} (h : o.body ++ xs = p.body ++ ys) : o.lines = p.lines ∧ xs = ys := by
  rw [body, body] at h
  cases hp : p.lines.isEmpty with
  | true =>
    rw [hempty, hp, if_pos rfl, if_pos rfl] at h
    rw [hp] at hempty
    exact ⟨(List.isEmpty_iff.mp hempty).trans (List.isEmpty_iff.mp hp).symm, h⟩
  | false =>
    rw [hempty, hp, if_neg Bool.false_ne_true, if_neg Bool.false_ne_true, List.append_assoc,
      List.append_assoc, List.singleton_append, List.singleton_append] at h
    -- the members go up to the first closing line
    have hsplit := congrArg (List.splitOn "\x7d") h
    rw [List.splitOn_append_cons_self_of_not_mem o.notMem_lines,
      List.splitOn_append_cons_self_of_not_mem p.notMem_lines] at hsplit
    have hlines := (List.cons.inj hsplit).1
    rw [hlines] at h
    exact ⟨hlines, (List.cons.inj (List.append_cancel_left h)).2⟩

/-- **Two outlines at the start of one code are the same**, and so is what follows them. -/
theorem code_append_cancel {exported : Bool} {o p : Outline} (ho : isIdentifier o.name = true)
    (hp : isIdentifier p.name = true) {xs ys : List String}
    (h : o.code exported ++ xs = p.code exported ++ ys) : o = p ∧ xs = ys := by
  obtain ⟨hhead, hbody⟩ := List.cons.inj h
  obtain ⟨hkeyword, hname, hempty⟩ := head_injective ho hp hhead
  obtain ⟨hlines, hrest⟩ := body_append_cancel hempty hbody
  refine ⟨?_, hrest⟩
  cases o with
  | enumeration oname omembers =>
    cases p with
    | enumeration pname pmembers =>
      obtain rfl : oname = pname := hname
      obtain rfl := CaseOutline.line_injective.list_map hlines
      rfl
    | record pname pmembers => exact absurd hkeyword (by simp [keyword])
  | record oname omembers =>
    cases p with
    | enumeration pname pmembers => exact absurd hkeyword (by simp [keyword])
    | record pname pmembers =>
      obtain rfl : oname = pname := hname
      obtain rfl := FieldOutline.line_injective.list_map hlines
      rfl

/-- **A code tells its outlines**, as long as their names are identifiers. -/
theorem eq_of_flatMap_code_eq {exported : Bool} {os ps : List Outline}
    (hos : ∀ o ∈ os, isIdentifier o.name = true) (hps : ∀ p ∈ ps, isIdentifier p.name = true)
    (h : os.flatMap (code exported) = ps.flatMap (code exported)) : os = ps := by
  induction os generalizing ps with
  | nil =>
    cases ps with
    | nil => rfl
    | cons p ps => exact absurd h (List.cons_ne_nil _ _).symm
  | cons o os ih =>
    cases ps with
    | nil => exact absurd h (List.cons_ne_nil _ _)
    | cons p ps =>
      obtain ⟨ho, hos'⟩ := List.forall_mem_cons.mp hos
      obtain ⟨hp, hps'⟩ := List.forall_mem_cons.mp hps
      rw [List.flatMap_cons, List.flatMap_cons] at h
      obtain ⟨hop, hrest⟩ := code_append_cancel ho hp h
      rw [hop, ih hos' hps' hrest]

end Outline

end TypeScript

end SchemaTypes
