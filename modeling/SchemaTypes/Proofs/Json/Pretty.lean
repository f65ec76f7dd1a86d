import SchemaTypes.Proofs.Code.CommentLayout
import SchemaTypes.Proofs.Decimal.Denoted
import SchemaTypes.Proofs.Json.Literal

/-!
# The rows of a JSON text

A value that is written with one part a line breaks lines between tokens only, because a literal
holds no control character. Each row has a token on it, and a token starts with none of the
characters that mark up a text. So such a text can stand among the lines of another one.

## Main definitions

* `Json.IsRow`: a line with something on it that is no markup
* `Json.Laid`: a text of such rows

## Main results

* `Json.Value.laid_pretty`: a value with one part a line
* `Json.Laid.protectEnd`: it may stand in a comment
* `Json.Laid.lines`: and is split there into its rows
-/

namespace SchemaTypes

namespace Json

open Code

/-- No character of the text breaks a line. -/
def OnLine (text : List Char) : Prop :=
  ∀ c ∈ text, c ≠ '\n' ∧ c ≠ '\r'

instance (text : List Char) : Decidable (OnLine text) :=
  List.decidableBAll (fun c => c ≠ '\n' ∧ c ≠ '\r') text

/-- A line with something on it that does not start with a backtick. -/
structure IsRow (row : List Char) : Prop where
  line : OnLine row
  ne_nil : row ≠ []
  start : row.head? ≠ some '`'

instance (row : List Char) : Decidable (IsRow row) :=
  decidable_of_iff (OnLine row ∧ row ≠ [] ∧ row.head? ≠ some '`')
    ⟨fun h => ⟨h.1, h.2.1, h.2.2⟩, fun h => ⟨h.line, h.ne_nil, h.start⟩⟩

/-- A text of rows with breaks between them. -/
inductive Laid : List Char → Prop
  | row {row : List Char} (h : IsRow row) : Laid row
  | feed {row rest : List Char} (h : IsRow row) (hrest : Laid rest) : Laid (row ++ '\n' :: rest)

/-! ### Rows -/

namespace OnLine

variable {text more : List Char}

theorem feed (h : OnLine text) : '\n' ∉ text :=
  fun hmem => (h _ hmem).1 rfl

theorem carriage (h : OnLine text) : '\r' ∉ text :=
  fun hmem => (h _ hmem).2 rfl

theorem append (h : OnLine text) (hmore : OnLine more) : OnLine (text ++ more) := by
  intro c hc
  rcases List.mem_append.mp hc with hc | hc
  · exact h c hc
  · exact hmore c hc

/-- Tabs break no line. -/
theorem tabs (n : Nat) : OnLine (List.replicate n '\t') := by
  intro c hc
  obtain rfl := List.eq_of_mem_replicate hc
  decide

/-- A literal breaks no line. -/
theorem literal (text : String) : OnLine (Text.literal text).toList := by
  intro c hc
  have hprinted := Text.le_of_mem_literal hc
  constructor <;>
  · rintro rfl
    exact absurd hprinted (by decide)

/-- A number breaks no line. -/
theorem number (number : Number) : OnLine number.render.toList := by
  intro c hc
  have hnumeral := number.isNumeral_render c hc
  constructor <;>
  · rintro rfl
    exact absurd hnumeral (by decide)

end OnLine

namespace IsRow

variable {row more : List Char}

theorem feed (h : IsRow row) : '\n' ∉ row :=
  h.line.feed

theorem append (h : IsRow row) (hmore : OnLine more) : IsRow (row ++ more) where
  line := h.line.append hmore
  ne_nil := List.append_ne_nil_of_left_ne_nil h.ne_nil more
  start := by
    rw [List.head?_append_of_ne_nil _ h.ne_nil]
    exact h.start

/-- Something in front of a row that is no backtick. -/
theorem prepend {front : List Char} (h : IsRow row) (hfront : OnLine front)
    (hstart : front.head? ≠ some '`') : IsRow (front ++ row) := by
  cases front with
  | nil => exact h
  | cons c front => exact ⟨hfront.append h.line, List.cons_ne_nil _ _, hstart⟩

theorem head?_replicate_tab (n : Nat) : (List.replicate n '\t').head? ≠ some '`' := by
  cases n with
  | zero => exact fun h => nomatch h
  | succ n => simp [List.replicate_succ]

/-- Indentation in front of a row. -/
theorem tabs (h : IsRow row) (n : Nat) : IsRow (List.replicate n '\t' ++ row) :=
  h.prepend (.tabs n) (head?_replicate_tab n)

theorem literal (text : String) : IsRow (Text.literal text).toList where
  line := .literal text
  ne_nil := by rw [Text.toList_literal]; exact List.cons_ne_nil _ _
  start := by rw [Text.toList_literal]; simp

theorem number (number : Number) : IsRow number.render.toList where
  line := .number number
  ne_nil := by
    cases number with
    | integer value =>
      rw [Number.render, Decimal.toList_intText]
      exact List.append_ne_nil_of_right_ne_nil _ Nat.toDigits_ne_nil
    | floating value =>
      obtain ⟨⟨c, rest, hmagnitude, -⟩, -⟩ := floatFormat.renderMagnitude_shape value.magnitude
      rw [Number.render, Decimal.Format.render, String.toList_ofList, hmagnitude]
      exact List.append_ne_nil_of_right_ne_nil _ (List.cons_ne_nil c rest)
  start h := absurd (number.isNumeral_render _ (List.mem_of_head? h)) (by decide)

end IsRow

/-! ### Texts of rows -/

namespace Laid

variable {text more : List Char}

theorem join (h : Laid text) (hmore : Laid more) : Laid (text ++ '\n' :: more) := by
  induction h with
  | row h => exact .feed h hmore
  | feed h hrest ih =>
    rw [List.append_assoc, List.cons_append]
    exact .feed h ih

/-- The last row can go on. -/
theorem append (h : Laid text) (hmore : OnLine more) : Laid (text ++ more) := by
  induction h with
  | row h => exact .row (h.append hmore)
  | feed h hrest ih =>
    rw [List.append_assoc, List.cons_append]
    exact .feed h ih

/-- Something can stand in front of the first row. -/
theorem prepend {front : List Char} (h : Laid text) (hfront : OnLine front)
    (hstart : front.head? ≠ some '`') : Laid (front ++ text) := by
  cases h with
  | row h => exact .row (h.prepend hfront hstart)
  | feed h hrest =>
    rw [← List.append_assoc]
    exact .feed (h.prepend hfront hstart) hrest

/-- Every line of such a text is a row. -/
theorem isRow_of_mem_splitOn (h : Laid text) : ∀ row ∈ text.splitOn '\n', IsRow row := by
  induction h with
  | row h =>
    rw [List.splitOn_eq_singleton h.feed]
    exact List.forall_mem_singleton.mpr h
  | feed h hrest ih =>
    rw [List.splitOn_append_cons_self_of_not_mem h.feed]
    exact List.forall_mem_cons.mpr ⟨h, ih⟩

/-- The lines of such a text among the lines of a longer one. -/
theorem lines (h : Laid text) (rest : List Char) :
    Text.lines (text ++ '\n' :: rest) = text.splitOn '\n' ++ Text.lines rest := by
  have hreturn : ∀ {row : List Char}, IsRow row → row.getLast? ≠ some '\r' :=
    fun hrow hlast => hrow.line.carriage (List.mem_of_getLast? hlast)
  induction h with
  | row h => rw [List.splitOn_eq_singleton h.feed, Text.lines_feed h.feed (hreturn h)]; rfl
  | feed h hrest ih =>
    rw [List.append_assoc, List.cons_append, Text.lines_feed h.feed (hreturn h), ih,
      List.splitOn_append_cons_self_of_not_mem h.feed]
    rfl

end Laid

/-! ### A value with one part a line -/

/-- A line break and indentation, behind the break. -/
theorem toList_breakLine (level : Nat) :
    (Value.breakLine level).toList = '\n' :: List.replicate level '\t' :=
  String.toList_ofList

namespace Value

/-- A bracket or a brace around parts, each of which starts on a line of its own. -/
theorem laid_around {first last : Char} (hfirst : IsRow [first]) (hlast : IsRow [last])
    {parts : List Char} (h : Laid parts) (level : Nat) :
    Laid (first :: '\n' :: (parts ++ '\n' :: (List.replicate level '\t' ++ [last]))) :=
  .feed hfirst (h.join (.row (hlast.tabs level)))

/-- A part behind its indentation and its key. -/
theorem laid_part {front part : List Char} (level : Nat) (hfront : OnLine front)
    (hstart : front.head? ≠ some '`') (h : Laid part) :
    Laid (List.replicate level '\t' ++ (front ++ part)) :=
  (h.prepend hfront hstart).prepend (.tabs level) (IsRow.head?_replicate_tab level)

mutual

/-- A value at a level breaks its lines between its parts. -/
theorem laid_prettyAt (level : Nat) : ∀ value : Value, Laid (prettyAt level value).toList
  | null => .row (show IsRow "null".toList by decide)
  | boolean true => .row (show IsRow "true".toList by decide)
  | boolean false => .row (show IsRow "false".toList by decide)
  | number value => .row (.number value)
  | text value => .row (.literal value)
  | array [] => .row (show IsRow "[]".toList by decide)
  | array (item :: rest) => by
    obtain ⟨parts, hparts, hlaid⟩ := laid_prettyItems (level + 1) (List.cons_ne_nil item rest)
    have hwritten : (prettyAt level (array (item :: rest))).toList =
        '[' :: '\n' :: (parts ++ '\n' :: (List.replicate level '\t' ++ [']'])) := by
      simp [prettyAt, hparts, toList_breakLine]
    rw [hwritten]
    exact laid_around (by decide) (by decide) hlaid level
  | object [] => .row (show IsRow "\x7b\x7d".toList by decide)
  | object (entry :: rest) => by
    obtain ⟨parts, hparts, hlaid⟩ := laid_prettyEntries (level + 1) (List.cons_ne_nil entry rest)
    have hwritten : (prettyAt level (object (entry :: rest))).toList =
        '\x7b' :: '\n' :: (parts ++ '\n' :: (List.replicate level '\t' ++ ['\x7d'])) := by
      simp [prettyAt, hparts, toList_breakLine]
    rw [hwritten]
    exact laid_around (by decide) (by decide) hlaid level

/-- Items, the first of which starts with a line break. -/
theorem laid_prettyItems (level : Nat) : ∀ {items : List Value}, items ≠ [] →
    ∃ parts, (prettyItems level items).toList = '\n' :: parts ∧ Laid parts
  | [], h => absurd rfl h
  | [item], _ => by
    have hfront : OnLine [] := by decide
    have hitem := laid_part level hfront (by decide) (laid_prettyAt level item)
    refine ⟨_, ?_, hitem⟩
    simp [prettyItems, toList_breakLine]
  | item :: next :: rest, _ => by
    have hfront : OnLine [] := by decide
    have hitem := laid_part level hfront (by decide) (laid_prettyAt level item)
    obtain ⟨parts, hparts, hlaid⟩ := laid_prettyItems level (List.cons_ne_nil next rest)
    have hcomma : OnLine [','] := by decide
    refine ⟨_, ?_, (hitem.append hcomma).join hlaid⟩
    simp [prettyItems, toList_breakLine, hparts]

/-- Entries, the first of which starts with a line break. -/
theorem laid_prettyEntries (level : Nat) :
    ∀ {entries : List (String × Value)}, entries ≠ [] →
      ∃ parts, (prettyEntries level entries).toList = '\n' :: parts ∧ Laid parts
  | [], h => absurd rfl h
  | [(key, value)], _ => by
    have hcolon : OnLine [':', ' '] := by decide
    have hkey := IsRow.append (.literal key) hcolon
    have hentry := laid_part level hkey.line hkey.start (laid_prettyAt level value)
    refine ⟨_, ?_, hentry⟩
    simp [prettyEntries, toList_breakLine]
  | (key, value) :: next :: rest, _ => by
    have hcolon : OnLine [':', ' '] := by decide
    have hkey := IsRow.append (.literal key) hcolon
    have hentry := laid_part level hkey.line hkey.start (laid_prettyAt level value)
    obtain ⟨parts, hparts, hlaid⟩ := laid_prettyEntries level (List.cons_ne_nil next rest)
    have hcomma : OnLine [','] := by decide
    refine ⟨_, ?_, (hentry.append hcomma).join hlaid⟩
    simp [prettyEntries, toList_breakLine, hparts]

end

/-- **A value with one part a line** is a text of rows. -/
theorem laid_pretty (value : Value) : Laid value.pretty.toList :=
  laid_prettyAt 0 value

end Value

/-! ### In a comment -/

/-- A row that is protected is a row. -/
theorem IsRow.protectEnd {row : List Char} (h : IsRow row) : IsRow (protectEnd row) where
  line c hc := by
    by_cases hbackslash : c = '\\'
    · rw [hbackslash]
      decide
    · exact h.line c ((mem_protectEnd hbackslash).mp hc)
  ne_nil hnil := by
    have hhead := head?_protectEnd row
    rw [hnil] at hhead
    exact h.ne_nil (List.head?_eq_none_iff.mp hhead.symm)
  start := by
    rw [head?_protectEnd]
    exact h.start

/-- Breaking up end marks leaves the rows apart. -/
theorem Laid.protectEnd {text : List Char} (h : Laid text) : Laid (protectEnd text) := by
  induction h with
  | row h => exact .row h.protectEnd
  | feed h hrest ih =>
    rw [protectEnd_feed]
    exact .feed h.protectEnd ih

end Json

end SchemaTypes
