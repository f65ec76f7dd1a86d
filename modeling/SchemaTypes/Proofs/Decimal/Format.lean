import SchemaTypes.Json.Value

/-!
# The characters of a number

A number is written with digits, a point, signs and the mark of an exponent. None of these ends a
line or closes anything, so a number can stand wherever a value can.

## Main definitions

* `Decimal.isNumeralChar`: the characters that a number is written with
* `Decimal.IsNumeral`: a text of such characters

## Main results

* `Json.Number.isNumeral_render`: a number is written with these characters only
-/

namespace SchemaTypes

namespace Decimal

/-- The characters that a number is written with. -/
def isNumeralChar (c : Char) : Bool :=
  c.isDigit || c = '.' || c = 'e' || c = '+' || c = '-'

/-- Nothing but characters of numbers. -/
def IsNumeral (text : List Char) : Prop :=
  ∀ c ∈ text, isNumeralChar c = true

namespace IsNumeral

theorem nil : IsNumeral [] :=
  List.forall_mem_nil _

theorem append {s t : List Char} (hs : IsNumeral s) (ht : IsNumeral t) : IsNumeral (s ++ t) :=
  List.forall_mem_append.mpr ⟨hs, ht⟩

theorem cons {c : Char} {t : List Char} (hc : isNumeralChar c = true) (ht : IsNumeral t) :
    IsNumeral (c :: t) :=
  List.forall_mem_cons.mpr ⟨hc, ht⟩

theorem of_subset {s t : List Char} (ht : IsNumeral t) (h : ∀ c ∈ s, c ∈ t) : IsNumeral s :=
  fun c hc => ht c (h c hc)

theorem replicate_zero (n : Nat) : IsNumeral (List.replicate n '0') := by
  intro c hc
  obtain rfl := List.eq_of_mem_replicate hc
  decide

theorem digits (n : Nat) : IsNumeral (Decimal.digits n) := by
  intro c hc
  have hdigit : c.isDigit = true := Nat.isDigit_of_mem_toDigits (by decide) (by decide) hc
  simp [isNumeralChar, hdigit]

end IsNumeral

namespace Format

theorem isNumeral_plain {digits : List Char} (h : IsNumeral digits) (lead : Int) :
    IsNumeral (plain digits lead) := by
  rw [plain]
  split
  · exact .cons (by decide) (.cons (by decide) ((IsNumeral.replicate_zero _).append h))
  · intro c hc
    simp only at hc
    split at hc
    · have hends : IsNumeral ['.', '0'] := .cons (by decide) (.cons (by decide) .nil)
      exact ((h.append (IsNumeral.replicate_zero _)).append hends) c hc
    · have htake : IsNumeral (digits.take (lead.toNat + 1)) :=
        h.of_subset fun _ => List.mem_of_mem_take
      have hdrop : IsNumeral (digits.drop (lead.toNat + 1)) :=
        h.of_subset fun _ => List.mem_of_mem_drop
      exact (htake.append (.cons (by decide) hdrop)) c hc

theorem isNumeral_scientific {digits : List Char} (h : IsNumeral digits) (lead : Int) :
    IsNumeral (scientific digits lead) := by
  have hfirst : IsNumeral (digits.take 1) := h.of_subset fun _ => List.mem_of_mem_take
  have hfraction : IsNumeral (if digits.length ≤ 1 then [] else '.' :: digits.drop 1) := by
    split
    · exact .nil
    · exact .cons (by decide) (h.of_subset fun _ => List.mem_of_mem_drop)
  have hmark : IsNumeral ['e', if lead < 0 then '-' else '+'] := by
    split <;> exact .cons (by decide) (.cons (by decide) .nil)
  exact ((hfirst.append hfraction).append hmark).append (.digits _)

theorem isNumeral_renderMagnitude (format : Format) (x : Binary) :
    IsNumeral (format.renderMagnitude x) := by
  rw [renderMagnitude]
  split
  · exact .cons (by decide) (.cons (by decide) (.cons (by decide) .nil))
  · simp only
    split
    · exact isNumeral_plain (.digits _) _
    · exact isNumeral_scientific (.digits _) _

theorem isNumeral_render (format : Format) (x : Binary64) :
    IsNumeral (format.render x).toList := by
  rw [render, String.toList_ofList]
  refine .append ?_ (isNumeral_renderMagnitude format _)
  split
  · exact .cons (by decide) .nil
  · exact .nil

end Format

theorem isNumeral_natText (n : Nat) : IsNumeral (natText n).toList := by
  rw [natText, String.toList_ofList]
  exact .digits n

theorem isNumeral_intText (n : Int) : IsNumeral (intText n).toList := by
  rw [intText]
  split
  · rw [String.toList_append]
    exact .cons (by decide) (isNumeral_natText _)
  · exact isNumeral_natText _

end Decimal

namespace Json

/-- A number is written with the characters of numbers only. -/
theorem Number.isNumeral_render (number : Number) : Decimal.IsNumeral number.render.toList := by
  cases number with
  | integer value => exact Decimal.isNumeral_intText value
  | floating value => exact floatFormat.isNumeral_render value

end Json

end SchemaTypes
