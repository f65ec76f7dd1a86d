import SchemaTypes.Json.Value
import SchemaTypes.Proofs.Decimal.Format
import SchemaTypes.Proofs.Decimal.ReadsBack
import Mathlib.Data.List.TakeWhile

/-!
# Different numbers are written differently

However the digits of a number are laid out, the text can be read as a decimal again, and it is the
decimal that was chosen. That decimal reads back as one magnitude alone, and the sign is written in
front of it. So no two floating point numbers have the same text, and none has the text of an
integer, which has neither a point nor the mark of an exponent.

## Main definitions

* `Decimal.denoted`: the number a text without a sign stands for

## Main results

* `Decimal.Format.denoted_renderMagnitude`: the text of a magnitude stands for its decimal
* `Json.Number.render_injective`: numbers with the same text are the same
-/

namespace SchemaTypes

namespace Decimal

/-! ### Reading a text -/

/-- The number that digits with a point among them stand for. -/
def significand (text : List Char) : ℚ :=
  Nat.ofDigitChars 10 (text.filter (· ≠ '.')) 0 /
    10 ^ ((text.dropWhile (· ≠ '.')).length - 1)

/-- The exponent behind its mark and a sign. -/
def exponentOf : List Char → ℤ
  | _ :: '-' :: digits => -Nat.ofDigitChars 10 digits 0
  | _ :: _ :: digits => Nat.ofDigitChars 10 digits 0
  | _ => 0

/-- The number that a text without a sign stands for. -/
def denoted (text : List Char) : ℚ :=
  significand (text.takeWhile (· ≠ 'e')) * 10 ^ exponentOf (text.dropWhile (· ≠ 'e'))

/-- Nothing but digits. -/
def IsDigits (text : List Char) : Prop :=
  ∀ c ∈ text, c.isDigit = true

namespace IsDigits

variable {text fraction whole : List Char}

theorem ne (h : IsDigits text) {c d : Char} (hc : c ∈ text) (hd : d.isDigit = false) : c ≠ d := by
  rintro rfl
  rw [h c hc] at hd
  cases hd

theorem digits (n : ℕ) : IsDigits (Decimal.digits n) :=
  fun _ => Nat.isDigit_of_mem_toDigits (by norm_num) (by norm_num)

theorem replicate_zero (n : ℕ) : IsDigits (List.replicate n '0') := by
  intro c hc
  obtain rfl := List.eq_of_mem_replicate hc
  rfl

theorem append (hw : IsDigits whole) (hf : IsDigits fraction) : IsDigits (whole ++ fraction) :=
  List.forall_mem_append.mpr ⟨hw, hf⟩

theorem filter_point (h : IsDigits text) : text.filter (· ≠ '.') = text :=
  List.filter_eq_self.mpr fun _ hc => decide_eq_true (h.ne hc rfl)

end IsDigits

section Reading

variable {text fraction whole : List Char}

/-- Digits behind a point. -/
theorem significand_point (hw : IsDigits whole) (hf : IsDigits fraction) :
    significand (whole ++ '.' :: fraction) =
      Nat.ofDigitChars 10 (whole ++ fraction) 0 / 10 ^ fraction.length := by
  have hfilter : (whole ++ '.' :: fraction).filter (· ≠ '.') = whole ++ fraction := by
    rw [List.filter_append, List.filter_cons_of_neg (by simp), hw.filter_point, hf.filter_point]
  have hdrop : (whole ++ '.' :: fraction).dropWhile (· ≠ '.') = '.' :: fraction := by
    rw [List.dropWhile_append_of_pos fun c hc => decide_eq_true (hw.ne hc rfl),
      List.dropWhile_cons_of_neg (by simp)]
  rw [significand, hfilter, hdrop, List.length_cons, Nat.add_sub_cancel]

/-- Digits without a point. -/
theorem significand_digits (h : IsDigits text) :
    significand text = Nat.ofDigitChars 10 text 0 := by
  have hdrop : text.dropWhile (· ≠ '.') = [] :=
    List.dropWhile_eq_nil_iff.mpr fun c hc => decide_eq_true (h.ne hc rfl)
  rw [significand, h.filter_point, hdrop, List.length_nil, Nat.zero_sub, pow_zero, div_one]

/-- A text without the mark of an exponent. -/
theorem denoted_of_not_mem (h : 'e' ∉ text) : denoted text = significand text := by
  have hall : ∀ c ∈ text, decide (c ≠ 'e') = true :=
    fun c hc => decide_eq_true (ne_of_mem_of_not_mem hc h)
  rw [denoted, List.takeWhile_eq_self_iff.mpr hall, List.dropWhile_eq_nil_iff.mpr hall,
    show exponentOf [] = 0 from rfl, zpow_zero, mul_one]

/-- A text with the mark of an exponent. -/
theorem denoted_mark (h : 'e' ∉ text) (rest : List Char) :
    denoted (text ++ 'e' :: rest) = significand text * 10 ^ exponentOf ('e' :: rest) := by
  have hall : ∀ c ∈ text, decide (c ≠ 'e') = true :=
    fun c hc => decide_eq_true (ne_of_mem_of_not_mem hc h)
  rw [denoted, List.takeWhile_append_of_pos hall, List.dropWhile_append_of_pos hall,
    List.takeWhile_cons_of_neg (by simp), List.dropWhile_cons_of_neg (by simp), List.append_nil]

theorem mark_not_mem (hw : IsDigits whole) (hf : IsDigits fraction) :
    'e' ∉ whole ++ '.' :: fraction := by
  rw [List.mem_append, List.mem_cons, not_or, not_or]
  exact ⟨fun hc => hw.ne hc rfl rfl, by decide, fun hc => hf.ne hc rfl rfl⟩

end Reading

/-! ### The sign -/

/-- A sign in front of a digit can be told from the digit. -/
theorem sign_cancel {negative negative' : Bool} {s t : List Char}
    (hs : ∃ c rest, s = c :: rest ∧ c.isDigit = true)
    (ht : ∃ c rest, t = c :: rest ∧ c.isDigit = true)
    (h : (if negative then ['-'] else []) ++ s = (if negative' then ['-'] else []) ++ t) :
    negative = negative' ∧ s = t := by
  obtain ⟨c, restc, rfl, hc⟩ := hs
  obtain ⟨d, restd, rfl, hd⟩ := ht
  cases negative <;> cases negative'
  · exact ⟨rfl, h⟩
  · obtain rfl : c = '-' := (List.cons.inj h).1
    cases hc
  · obtain rfl : '-' = d := (List.cons.inj h).1
    cases hd
  · exact ⟨rfl, (List.cons.inj h).2⟩

theorem toList_intText (i : ℤ) :
    (intText i).toList = (if decide (i < 0) then ['-'] else []) ++ digits i.natAbs := by
  rw [intText]
  split <;> simp [natText, *]

/-- Different integers are written differently. -/
theorem intText_injective : Function.Injective intText := by
  have hdigit (n : ℕ) : ∃ c rest, digits n = c :: rest ∧ c.isDigit = true := by
    obtain ⟨c, rest, h⟩ := List.exists_cons_of_ne_nil (show digits n ≠ [] from Nat.toDigits_ne_nil)
    exact ⟨c, rest, h, IsDigits.digits n c (h ▸ List.mem_cons_self)⟩
  intro i j h
  have hlists := congrArg String.toList h
  rw [toList_intText, toList_intText] at hlists
  obtain ⟨hsign, hdigits⟩ := sign_cancel (hdigit _) (hdigit _) hlists
  have habs : i.natAbs = j.natAbs := by
    rw [← Nat.ofDigitChars_ten_toDigits (n := i.natAbs), ← Nat.ofDigitChars_ten_toDigits
      (n := j.natAbs)]
    exact congrArg (Nat.ofDigitChars 10 · 0) hdigits
  rw [decide_eq_decide] at hsign
  omega

/-! ### The layouts -/

namespace Format

variable {digits : List Char}

/-- Zeros at the front count for nothing. -/
theorem ofDigitChars_replicate_append (n : ℕ) (digits : List Char) :
    Nat.ofDigitChars 10 (List.replicate n '0' ++ digits) 0 = Nat.ofDigitChars 10 digits 0 := by
  rw [Nat.ofDigitChars_append, Nat.ofDigitChars_replicate_zero, Nat.mul_zero]

theorem div_pow_eq {k : ℕ} {i : ℤ} (h : i = -k) (a : ℚ) : a / 10 ^ k = a * 10 ^ i := by
  rw [h, zpow_neg, zpow_natCast, div_eq_mul_inv]

/-- A point between digits. -/
theorem exists_point_of_plain (h : IsDigits digits) (lead : ℤ) :
    ∃ whole fraction, IsDigits whole ∧ IsDigits fraction ∧ whole ≠ [] ∧
      plain digits lead = whole ++ '.' :: fraction ∧
      (Nat.ofDigitChars 10 (whole ++ fraction) 0 : ℚ) / 10 ^ fraction.length =
        Nat.ofDigitChars 10 digits 0 * 10 ^ (lead + 1 - digits.length) := by
  rw [plain]
  split
  · next hlead =>
    refine ⟨['0'], List.replicate (-lead - 1).toNat '0' ++ digits, .replicate_zero 1,
      (IsDigits.replicate_zero _).append h, List.cons_ne_nil _ _, rfl, ?_⟩
    rw [← List.append_assoc, ← List.replicate_one, List.replicate_append_replicate,
      ofDigitChars_replicate_append]
    apply div_pow_eq
    rw [List.length_append, List.length_replicate]
    omega
  · next hlead =>
    simp only
    split
    · next hshort =>
      refine ⟨digits ++ List.replicate (lead.toNat + 1 - digits.length) '0', ['0'],
        h.append (.replicate_zero _), .replicate_zero 1, ?_, rfl, ?_⟩
      · apply List.ne_nil_of_length_pos
        rw [List.length_append, List.length_replicate]
        omega
      · rw [List.append_assoc, ← List.replicate_one, List.replicate_append_replicate,
          Nat.ofDigitChars_append, Nat.ofDigitChars_replicate_zero, Nat.cast_mul, Nat.cast_pow,
          Nat.cast_ofNat, mul_comm, mul_div_assoc, ← zpow_natCast, ← zpow_natCast,
          ← zpow_sub₀ (by norm_num), List.length_replicate]
        congr 2
        omega
    · next hlong =>
      refine ⟨digits.take (lead.toNat + 1), digits.drop (lead.toNat + 1),
        fun c hc => h c (List.mem_of_mem_take hc), fun c hc => h c (List.mem_of_mem_drop hc), ?_,
        rfl, ?_⟩
      · apply List.ne_nil_of_length_pos
        rw [List.length_take]
        omega
      · rw [List.take_append_drop]
        apply div_pow_eq
        rw [List.length_drop]
        omega

/-- A point among the digits moves them to the right place. -/
theorem denoted_plain (h : IsDigits digits) (lead : ℤ) :
    denoted (plain digits lead) =
      Nat.ofDigitChars 10 digits 0 * 10 ^ (lead + 1 - digits.length) := by
  obtain ⟨whole, fraction, hw, hf, -, htext, hvalue⟩ := exists_point_of_plain h lead
  rw [htext, denoted_of_not_mem (mark_not_mem hw hf), significand_point hw hf, hvalue]

theorem exponentOf_mark (lead : ℤ) :
    exponentOf ('e' :: (if lead < 0 then '-' else '+') :: Decimal.digits lead.natAbs) = lead := by
  split
  · rw [exponentOf, Decimal.digits, Nat.ofDigitChars_ten_toDigits]
    omega
  · rw [exponentOf, Decimal.digits, Nat.ofDigitChars_ten_toDigits]
    · omega
    · decide

/-- The exponent moves the digits to the right place. -/
theorem denoted_scientific (h : IsDigits digits) (hne : digits ≠ []) (lead : ℤ) :
    denoted (scientific digits lead) =
      Nat.ofDigitChars 10 digits 0 * 10 ^ (lead + 1 - digits.length) := by
  obtain ⟨first, fraction, rfl⟩ := List.exists_cons_of_ne_nil hne
  obtain ⟨hfirst, hfraction⟩ := List.forall_mem_cons.mp h
  have hone : IsDigits [first] := List.forall_mem_singleton.mpr hfirst
  obtain ⟨mantissa, htext, hmark, hvalue⟩ : ∃ mantissa,
      scientific (first :: fraction) lead =
        mantissa ++ 'e' :: (if lead < 0 then '-' else '+') :: Decimal.digits lead.natAbs ∧
      'e' ∉ mantissa ∧
      significand mantissa = Nat.ofDigitChars 10 (first :: fraction) 0 / 10 ^ fraction.length := by
    cases fraction with
    | nil =>
      refine ⟨[first], rfl, fun hc => hone.ne hc rfl rfl, ?_⟩
      rw [significand_digits hone, List.length_nil, pow_zero, div_one]
    | cons second rest =>
      refine ⟨[first] ++ '.' :: second :: rest, ?_, mark_not_mem hone hfraction,
        significand_point hone hfraction⟩
      simp [scientific]
  rw [htext, denoted_mark hmark, exponentOf_mark, hvalue, div_pow_eq rfl, mul_assoc,
    ← zpow_add₀ (by norm_num), List.length_cons]
  congr 2
  omega

/-- The text of a magnitude starts with a digit and has a point or the mark of an exponent. -/
theorem renderMagnitude_shape (format : Format) (x : Binary) :
    (∃ c rest, format.renderMagnitude x = c :: rest ∧ c.isDigit = true) ∧
      ('.' ∈ format.renderMagnitude x ∨ 'e' ∈ format.renderMagnitude x) := by
  rw [renderMagnitude]
  split
  · exact ⟨⟨'0', ['.', '0'], rfl, rfl⟩, .inl (by decide)⟩
  · simp only
    have hdigits := IsDigits.digits ((x.shortest format.tie).strip 400).value
    generalize ((x.shortest format.tie).strip 400).exponent + _ - 1 = lead
    split
    · obtain ⟨whole, fraction, hw, -, hne, htext, -⟩ := exists_point_of_plain hdigits lead
      obtain ⟨c, rest, rfl⟩ := List.exists_cons_of_ne_nil hne
      rw [htext]
      exact ⟨⟨c, rest ++ '.' :: fraction, rfl, hw c List.mem_cons_self⟩, .inl (by simp)⟩
    · obtain ⟨c, rest, hcons⟩ := List.exists_cons_of_ne_nil
        (show Decimal.digits ((x.shortest format.tie).strip 400).value ≠ [] from
          Nat.toDigits_ne_nil)
      rw [hcons] at hdigits ⊢
      exact ⟨⟨c, _, rfl, hdigits c List.mem_cons_self⟩, .inr (by simp [scientific])⟩

variable {x y : Binary}

/-- The text of a magnitude stands for the decimal that is chosen for it. -/
theorem denoted_renderMagnitude (format : Format) (hm : x.m ≠ 0) :
    denoted (format.renderMagnitude x) = (x.shortest format.tie).toRat := by
  have hdigits := IsDigits.digits ((x.shortest format.tie).strip 400).value
  rw [renderMagnitude, if_neg hm, ← Digits.toRat_strip 400, Digits.toRat]
  simp only
  split
  · rw [denoted_plain hdigits, Decimal.digits, Nat.ofDigitChars_ten_toDigits]
    congr 2
    omega
  · rw [denoted_scientific hdigits Nat.toDigits_ne_nil, Decimal.digits,
      Nat.ofDigitChars_ten_toDigits]
    congr 2
    omega

/-- The text of zero stands for zero. -/
theorem denoted_renderMagnitude_zero (format : Format) (hm : x.m = 0) :
    denoted (format.renderMagnitude x) = 0 := by
  have hzero := IsDigits.replicate_zero 1
  rw [renderMagnitude, if_pos hm]
  exact (denoted_of_not_mem (mark_not_mem hzero hzero)).trans <|
    (significand_point hzero hzero).trans (zero_div _)

/-- The text of a magnitude other than zero does not stand for zero. -/
theorem denoted_renderMagnitude_pos (format : Format) (hx : x.Canonical) (hm : x.m ≠ 0) :
    0 < denoted (format.renderMagnitude x) := by
  have hlow : 0 < x.low := by
    have hunits : 0 < x.lowUnits := by
      rw [Binary.lowUnits]
      split <;> omega
    rw [Binary.low]
    positivity
  rw [denoted_renderMagnitude format hm]
  obtain ⟨hlt | ⟨-, heq⟩, -⟩ := Binary.readsBack_iff.mp (hx.readsBack_shortest hm format.tie)
  · exact hlow.trans hlt
  · exact heq ▸ hlow

/-- **Different magnitudes are written differently.** -/
theorem eq_of_renderMagnitude (format : Format) (hx : x.Canonical) (hy : y.Canonical)
    (h : format.renderMagnitude x = format.renderMagnitude y) : x.m = y.m ∧ x.q = y.q := by
  rcases Nat.eq_zero_or_pos x.m with hxm | hxm <;> rcases Nat.eq_zero_or_pos y.m with hym | hym
  · have hxleast := hx.normal
    have hyleast := hy.normal
    omega
  · have hpos := denoted_renderMagnitude_pos format hy hym.ne'
    rw [← h, denoted_renderMagnitude_zero format hxm] at hpos
    exact absurd hpos (lt_irrefl 0)
  · have hpos := denoted_renderMagnitude_pos format hx hxm.ne'
    rw [h, denoted_renderMagnitude_zero format hym] at hpos
    exact absurd hpos (lt_irrefl 0)
  · refine hx.eq_of_readsBack hy ?_ (hx.readsBack_shortest hxm.ne' format.tie)
      (hy.readsBack_shortest hym.ne' format.tie)
    rw [← denoted_renderMagnitude format hxm.ne', ← denoted_renderMagnitude format hym.ne', h]

/-- **Different numbers are written differently.** -/
theorem render_injective (format : Format) : Function.Injective format.render := by
  intro x y h
  have htext := congrArg String.toList h
  rw [render, render, String.toList_ofList, String.toList_ofList] at htext
  obtain ⟨hsign, hmagnitude⟩ := sign_cancel (renderMagnitude_shape format x.magnitude).1
    (renderMagnitude_shape format y.magnitude).1 htext
  obtain ⟨hm, hq⟩ :=
    eq_of_renderMagnitude format x.canonical_magnitude y.canonical_magnitude hmagnitude
  exact Binary64.eq_of_magnitude hsign hm hq

end Format

end Decimal

namespace Json

/-- An integer is not written as a floating point number is. -/
theorem Number.intText_ne_render (value : ℤ) (x : Decimal.Binary64) :
    Decimal.intText value ≠ floatFormat.render x := by
  intro h
  have hchars : ∀ c ∈ (Decimal.intText value).toList, c.isDigit = true ∨ c = '-' := by
    rw [Decimal.toList_intText]
    intro c hc
    rcases List.mem_append.mp hc with hc | hc
    · split at hc
      · exact .inr (List.mem_singleton.mp hc)
      · cases hc
    · exact .inl (Decimal.IsDigits.digits _ c hc)
  rw [h, Decimal.Format.render, String.toList_ofList] at hchars
  obtain ⟨-, hpoint | hmark⟩ := floatFormat.renderMagnitude_shape x.magnitude
  · exact absurd (hchars '.' (List.mem_append_right _ hpoint)) (by decide)
  · exact absurd (hchars 'e' (List.mem_append_right _ hmark)) (by decide)

/-- **Numbers with the same text are the same.** -/
theorem Number.render_injective : Function.Injective Number.render := by
  rintro (i | x) (j | y) h
  · rw [Decimal.intText_injective h]
  · exact absurd h (intText_ne_render i y)
  · exact absurd h.symm (intText_ne_render j x)
  · rw [floatFormat.render_injective h]

end Json

end SchemaTypes
