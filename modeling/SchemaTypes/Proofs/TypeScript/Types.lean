import SchemaTypes.Proofs.Emission.Reference
import SchemaTypes.Proofs.TypeScript.Naming

/-!
# Types read back

Types nest, and the keys of an object are text from outside that may hold brackets, commas and
quotes of its own. A type can be read back all the same, because each part tells where it ends: an
array and an object by their closing brackets, a name where no character of a name follows, and a
key by its own spelling. What follows a type decides nothing, as long as it neither goes on with a
name nor opens a bracket. Two types that are written alike are then the same up to what is not
written at all, which is whether a name stands for a primitive.

## Main definitions

* `TypeScript.TypeExpr.plain`: a type in which each primitive is told as it is written
* `TypeScript.TypeExpr.IsPlain`: a type of arrays, objects and identifiers only
* `TypeScript.TypeExpr.EndsItself`: a type that tells where it ends

## Main results

* `TypeScript.TypeExpr.IsPlain.endsItself`: every plain type does
* `TypeScript.TypeExpr.render_eq_iff`: which types are written alike
-/

namespace SchemaTypes

namespace TypeScript

namespace TypeExpr

/-! ### Primitives as they are written -/

mutual

/-- A type in which each primitive is told as it is written. -/
def plain : TypeExpr → TypeExpr
  | primitive .array => array (named "any")
  | primitive type => named (primitiveName type)
  | named name => named name
  | array element => array element.plain
  | object members => object (plainMembers members)

/-- Members whose types are told as they are written. -/
def plainMembers : List (String × TypeExpr) → List (String × TypeExpr)
  | [] => []
  | (name, type) :: rest => (name, type.plain) :: plainMembers rest

end

theorem renderMembers_cons_cons (name : String) (type : TypeExpr) (next : String × TypeExpr)
    (rest : List (String × TypeExpr)) :
    renderMembers ((name, type) :: next :: rest) =
      memberName name ++ ": " ++ type.render ++ ", " ++ renderMembers (next :: rest) :=
  rfl

mutual

theorem render_plain (type : TypeExpr) : type.plain.render = type.render := by
  match type with
  | primitive type => cases type <;> rfl
  | named name => rfl
  | array element => rw [plain, render, render, render_plain element]
  | object [] => rfl
  | object ((name, type) :: rest) =>
    have hmembers := renderMembers_plain ((name, type) :: rest)
    rw [plainMembers] at hmembers
    rw [plain, plainMembers, render, render, hmembers]

theorem renderMembers_plain (members : List (String × TypeExpr)) :
    renderMembers (plainMembers members) = renderMembers members := by
  match members with
  | [] => rfl
  | [(name, type)] => rw [plainMembers, plainMembers, renderMembers, renderMembers, render_plain]
  | (name, type) :: (next, nextType) :: rest =>
    have hrest := renderMembers_plain ((next, nextType) :: rest)
    rw [plainMembers] at hrest
    rw [plainMembers, plainMembers, renderMembers_cons_cons, renderMembers_cons_cons,
      render_plain type, hrest]

end

/-- A type of arrays, objects and identifiers only. The keys of an object are any texts. -/
inductive IsPlain : TypeExpr → Prop
  | named {name : String} (h : isIdentifier name = true) : IsPlain (named name)
  | array {element : TypeExpr} (h : IsPlain element) : IsPlain (array element)
  | object {members : List (String × TypeExpr)} (h : ∀ member ∈ members, IsPlain member.2) :
    IsPlain (object members)

mutual

theorem isPlain_plain {type : TypeExpr} (h : ∀ name ∈ type.names, isIdentifier name = true) :
    IsPlain type.plain := by
  match type with
  | .primitive type =>
    cases type
    case array => exact .array (.named (by decide))
    all_goals exact .named (by decide)
  | .named name => exact .named (h name (List.mem_singleton_self name))
  | .array element => exact .array (isPlain_plain h)
  | .object members => exact .object (isPlain_plainMembers h)

theorem isPlain_plainMembers {members : List (String × TypeExpr)}
    (h : ∀ name ∈ namesOfMembers members, isIdentifier name = true) :
    ∀ member ∈ plainMembers members, IsPlain member.2 := by
  match members with
  | [] => exact List.forall_mem_nil _
  | (name, type) :: rest =>
    obtain ⟨htype, hrest⟩ := List.forall_mem_append.mp h
    exact List.forall_mem_cons.mpr ⟨isPlain_plain htype, isPlain_plainMembers hrest⟩

end

/-! ### The text of a type -/

/-- The text of members behind others, each with a comma in front. -/
def furtherMembers (members : List (String × TypeExpr)) : List Char :=
  members.flatMap fun member =>
    ',' :: ' ' :: ((memberName member.1).toList ++ ':' :: ' ' :: member.2.render.toList)

theorem furtherMembers_cons (name : String) (type : TypeExpr)
    (rest : List (String × TypeExpr)) (xs : List Char) :
    furtherMembers ((name, type) :: rest) ++ xs =
      ',' :: ' ' :: ((memberName name).toList ++
        ':' :: ' ' :: (type.render.toList ++ (furtherMembers rest ++ xs))) := by
  simp [furtherMembers]

/-- The first member is written like the others, less the comma. -/
theorem toList_renderMembers (member : String × TypeExpr) (rest : List (String × TypeExpr)) :
    ',' :: ' ' :: (renderMembers (member :: rest)).toList = furtherMembers (member :: rest) := by
  induction rest generalizing member with
  | nil => simp [renderMembers, furtherMembers]
  | cons next rest ih =>
    rw [furtherMembers, List.flatMap_cons, ← furtherMembers, ← ih next,
      renderMembers_cons_cons member.1]
    simp

theorem toList_array (element : TypeExpr) (xs : List Char) :
    (array element).render.toList ++ xs =
      "Array".toList ++ '<' :: (element.render.toList ++ '>' :: xs) := by
  simp [render]

theorem toList_object_cons (member : String × TypeExpr) (rest : List (String × TypeExpr))
    (xs : List Char) :
    (object (member :: rest)).render.toList ++ xs =
      '{' :: ' ' :: ((renderMembers (member :: rest)).toList ++ ' ' :: '}' :: xs) := by
  simp [render]

/-! ### Two types at the start of one text -/

/-- What can follow a type: nothing that goes on with a name or opens the bracket of an array. -/
def Ends (rest : List Char) : Prop :=
  ∀ c ∈ rest.head?, isIdentifierPart c = false ∧ c ≠ '<'

theorem ends_cons {c : Char} (hpart : isIdentifierPart c = false) (hbracket : c ≠ '<')
    (rest : List Char) : Ends (c :: rest) := by
  simp [Ends, hpart, hbracket]

/-- Behind the type of a member stands a comma, or the blank in front of the closing bracket. -/
theorem ends_furtherMembers (rest : List (String × TypeExpr)) (xs : List Char) :
    Ends (furtherMembers rest ++ ' ' :: '}' :: xs) := by
  cases rest with
  | nil => exact ends_cons (by decide) (by decide) _
  | cons member rest => exact ends_cons (by decide) (by decide) _

/-- A type that tells where it ends: whatever plain type the same text starts with is this type, and
so what follows is the same. -/
def EndsItself (type : TypeExpr) : Prop :=
  ∀ u : TypeExpr, IsPlain u → ∀ xs ys, Ends xs → Ends ys →
    type.render.toList ++ xs = u.render.toList ++ ys → type = u ∧ xs = ys

theorem exists_cons_object (members : List (String × TypeExpr)) :
    ∃ rest, (object members).render.toList = '{' :: rest := by
  cases members with
  | nil => exact ⟨['}'], rfl⟩
  | cons member rest => exact ⟨_, by rw [← List.append_nil (render _).toList, toList_object_cons]⟩

theorem object_append_ne_array (members : List (String × TypeExpr)) (element : TypeExpr)
    (xs ys : List Char) :
    (object members).render.toList ++ xs ≠ (array element).render.toList ++ ys := by
  obtain ⟨inner, hinner⟩ := exists_cons_object members
  rw [hinner, toList_array]
  exact fun h => absurd (List.cons.inj h).1 (by decide)

/-- An identifier ends where no character of an identifier follows. -/
theorem endsItself_named {name : String} (hname : isIdentifier name = true) :
    EndsItself (named name) := by
  intro u hu xs ys hxs hys h
  have hpart : ∀ c ∈ xs.head?, isIdentifierPart c = false := fun c hc => (hxs c hc).1
  rw [render] at h
  cases hu with
  | named hother =>
    obtain ⟨rfl, hrest⟩ := identifier_append_cancel hname hother hpart (fun c hc => (hys c hc).1) h
    exact ⟨rfl, hrest⟩
  | array _ =>
    -- the name would be the one in front of the bracket, and the bracket would follow it
    rw [toList_array] at h
    have hbracket : isIdentifierPart '<' = false := by decide
    obtain ⟨-, rfl⟩ := identifier_append_cancel hname (b := "Array") (by decide) hpart
      (by simpa using hbracket) h
    exact absurd rfl (hxs '<' rfl).2
  | @object members _ =>
    obtain ⟨c, rest, hcons, hstart, -⟩ := exists_cons_of_isIdentifier hname
    obtain ⟨inner, hinner⟩ := exists_cons_object members
    rw [hcons, hinner] at h
    obtain rfl := (List.cons.inj h).1
    exact absurd hstart (by decide)

/-- An array ends with its bracket. -/
theorem endsItself_array {element : TypeExpr} (hplain : IsPlain element)
    (helement : EndsItself element) : EndsItself (array element) := by
  intro u hu xs ys hxs hys h
  cases hu with
  | named hname => cases (endsItself_named hname _ (.array hplain) ys xs hys hxs h.symm).1
  | array hother =>
    rw [toList_array, toList_array] at h
    have hinner := (List.cons.inj (List.append_cancel_left h)).2
    obtain ⟨rfl, hrest⟩ := helement _ hother _ _ (ends_cons (by decide) (by decide) xs)
      (ends_cons (by decide) (by decide) ys) hinner
    exact ⟨rfl, (List.cons.inj hrest).2⟩
  | object _ => exact absurd h.symm (object_append_ne_array _ _ _ _)

/-- Members behind others end in front of the closing bracket. -/
theorem furtherMembers_append_cancel {members others : List (String × TypeExpr)}
    (hmembers : ∀ member ∈ members, EndsItself member.2)
    (hothers : ∀ other ∈ others, IsPlain other.2) {xs ys : List Char}
    (h : furtherMembers members ++ ' ' :: '}' :: xs = furtherMembers others ++ ' ' :: '}' :: ys) :
    members = others ∧ xs = ys := by
  induction members generalizing others with
  | nil =>
    cases others with
    | nil => exact ⟨rfl, (List.cons.inj (List.cons.inj h).2).2⟩
    | cons other rest => exact absurd (List.cons.inj h).1 (by decide)
  | cons member rest ih =>
    obtain ⟨key, type⟩ := member
    obtain ⟨htype, hrest⟩ := List.forall_mem_cons.mp hmembers
    cases others with
    | nil => exact absurd (List.cons.inj h).1 (by decide)
    | cons other others =>
      obtain ⟨otherKey, otherType⟩ := other
      obtain ⟨hother, hotherRest⟩ := List.forall_mem_cons.mp hothers
      rw [furtherMembers_cons, furtherMembers_cons] at h
      have hcolon : isIdentifierPart ':' = false := by decide
      obtain ⟨rfl, hvalue⟩ := memberName_append_cancel (by simpa using hcolon)
        (by simpa using hcolon) (List.cons.inj (List.cons.inj h).2).2
      obtain ⟨rfl, hmore⟩ := htype _ hother _ _ (ends_furtherMembers rest xs)
        (ends_furtherMembers others ys) (List.cons.inj (List.cons.inj hvalue).2).2
      obtain ⟨rfl, hend⟩ := ih hrest hotherRest hmore
      exact ⟨rfl, hend⟩

/-- An object ends with its bracket, whatever its keys hold. -/
theorem endsItself_object {members : List (String × TypeExpr)}
    (hplain : ∀ member ∈ members, IsPlain member.2)
    (hmembers : ∀ member ∈ members, EndsItself member.2) : EndsItself (object members) := by
  intro u hu xs ys hxs hys h
  cases hu with
  | named hname => cases (endsItself_named hname _ (.object hplain) ys xs hys hxs h.symm).1
  | array _ => exact absurd h (object_append_ne_array _ _ _ _)
  | @object others hothers =>
    cases members with
    | nil =>
      cases others with
      | nil => exact ⟨rfl, (List.cons.inj (List.cons.inj h).2).2⟩
      | cons other rest =>
        rw [toList_object_cons] at h
        exact absurd (List.cons.inj (List.cons.inj h).2).1 (by decide)
    | cons member rest =>
      cases others with
      | nil =>
        rw [toList_object_cons] at h
        exact absurd (List.cons.inj (List.cons.inj h).2).1 (by decide)
      | cons other others =>
        rw [toList_object_cons, toList_object_cons] at h
        -- with a comma in front the first members are written like the others
        have hall := congrArg (',' :: ' ' :: ·) (List.cons.inj (List.cons.inj h).2).2
        simp only [← List.cons_append, toList_renderMembers] at hall
        obtain ⟨hsame, hend⟩ := furtherMembers_append_cancel hmembers hothers hall
        exact ⟨congrArg object hsame, hend⟩

/-- **A plain type tells where it ends.** -/
theorem IsPlain.endsItself {type : TypeExpr} (h : IsPlain type) : EndsItself type := by
  induction h with
  | named hname => exact endsItself_named hname
  | array hplain ih => exact endsItself_array hplain ih
  | object hplain ih => exact endsItself_object hplain ih

/-- **Which types are written alike.** If all names are identifiers, two types are written alike
exactly if they are the same once each primitive is told as it is written. The keys of objects can
be any texts. -/
theorem render_eq_iff {t u : TypeExpr} (ht : ∀ name ∈ t.names, isIdentifier name = true)
    (hu : ∀ name ∈ u.names, isIdentifier name = true) :
    t.render = u.render ↔ t.plain = u.plain := by
  constructor
  · intro h
    have htext : t.plain.render.toList ++ [] = u.plain.render.toList ++ [] := by
      rw [render_plain, render_plain, h]
    have hnothing : Ends [] := by simp [Ends]
    exact ((isPlain_plain ht).endsItself _ (isPlain_plain hu) [] [] hnothing hnothing htext).1
  · intro h
    rw [← t.render_plain, ← u.render_plain, h]

/-- A key that looks like the end of an object and another member is a key all the same. Integers
and numbers under it are written alike. -/
theorem render_eq_iff_crooked_key :
    let key := "a: any \x7d, \"b"
    let t : TypeExpr := object [(key, array (primitive .integer)), ("c", named "Pet")]
    let u : TypeExpr := object [(key, array (primitive .number)), ("c", named "Pet")]
    let v : TypeExpr := object [("a", primitive .unknown), ("b", array (primitive .integer)),
      ("c", named "Pet")]
    (∀ type ∈ [t, u, v], ∀ name ∈ type.names, isIdentifier name = true) ∧
      t.render = u.render ∧ t.render ≠ v.render := by
  intro key t u v
  have hpet : ∀ name ∈ ["Pet"], isIdentifier name = true := by decide
  have hnames : ∀ type ∈ [t, u, v], ∀ name ∈ type.names, isIdentifier name = true :=
    List.forall_mem_cons.mpr ⟨hpet, List.forall_mem_cons.mpr ⟨hpet,
      List.forall_mem_singleton.mpr hpet⟩⟩
  have halike : t.render = u.render ↔ t.plain = u.plain := render_eq_iff hpet hpet
  have hapart : t.render = v.render ↔ t.plain = v.plain := render_eq_iff hpet hpet
  refine ⟨hnames, halike.mpr rfl, fun h => ?_⟩
  have hplain := hapart.mp h
  simp [t, v, plain, plainMembers] at hplain

end TypeExpr

end TypeScript

end SchemaTypes
