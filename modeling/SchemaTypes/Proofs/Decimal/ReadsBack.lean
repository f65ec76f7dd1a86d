import SchemaTypes.Decimal.Shortest
import Mathlib.Algebra.Order.Field.Power
import Mathlib.Data.Rat.Cast.Order
import Mathlib.Tactic.FieldSimp
import Mathlib.Tactic.Linarith
import Mathlib.Tactic.Positivity
import Mathlib.Tactic.Ring

/-!
# The shortest decimal reads back

The decimals that read back as a number are those in its interval, whose ends lie halfway to its
neighbours. The intervals of two numbers have at most one end in common, which belongs to one of
them at most, so a decimal reads back as one number alone. The decimal that is chosen for a number
reads back as that number, since seventeen digits always do: the grid of seventeen digits is finer
than the interval is wide.

## Main definitions

* `Decimal.Digits.toRat`, `Decimal.Binary.toRat`: the numbers they stand for
* `Decimal.Binary.low`, `Decimal.Binary.high`: the ends of the interval of a number
* `Decimal.Binary.Canonical`: the significand and the exponent of a number of the format

## Main results

* `Decimal.Binary.Canonical.eq_of_readsBack`: a decimal reads back as one number alone
* `Decimal.Binary.Canonical.readsBack_shortest`: the decimal that is chosen reads back
* `Decimal.Binary64.canonical_magnitude`: the magnitudes of numbers are canonical
-/

namespace SchemaTypes

namespace Decimal

/-- The number a decimal stands for. -/
def Digits.toRat (d : Digits) : ℚ :=
  d.value * 10 ^ d.exponent

/-! ### Comparing -/

theorem zpow_mul_toNat_neg {b : ℚ} (hb : b ≠ 0) (i : ℤ) : b ^ i * b ^ (-i).toNat = b ^ i.toNat := by
  rw [← zpow_natCast, ← zpow_natCast, ← zpow_add₀ hb]
  congr 1
  omega

/-- Both sides of a comparison are brought to whole numbers by one factor. -/
theorem exists_scaled (a : ℕ) (i : ℤ) (n : ℕ) (j : ℤ) :
    ∃ c : ℚ, 0 < c ∧
      ((a * Nat.pow 10 i.toNat * Nat.pow 2 (-j).toNat : ℕ) : ℚ) = a * 10 ^ i * c ∧
      ((n * Nat.pow 2 j.toNat * Nat.pow 10 (-i).toNat : ℕ) : ℚ) = n * 2 ^ j * c := by
  refine ⟨10 ^ (-i).toNat * 2 ^ (-j).toNat, by positivity, ?_, ?_⟩
  · have hten := zpow_mul_toNat_neg (show (10 : ℚ) ≠ 0 by norm_num) i
    push_cast [Nat.pow_eq]
    rw [← hten]
    ring
  · have htwo := zpow_mul_toNat_neg (show (2 : ℚ) ≠ 0 by norm_num) j
    push_cast [Nat.pow_eq]
    rw [← htwo]
    ring

theorem compareScaled_eq_lt {a n : ℕ} {i j : ℤ} :
    compareScaled a i n j = .lt ↔ (a : ℚ) * 10 ^ i < n * 2 ^ j := by
  obtain ⟨c, hc, ha, hn⟩ := exists_scaled a i n j
  rw [compareScaled, Nat.compare_eq_lt, ← Nat.cast_lt (α := ℚ), ha, hn, mul_lt_mul_iff_left₀ hc]

theorem compareScaled_eq_gt {a n : ℕ} {i j : ℤ} :
    compareScaled a i n j = .gt ↔ (n : ℚ) * 2 ^ j < a * 10 ^ i := by
  obtain ⟨c, hc, ha, hn⟩ := exists_scaled a i n j
  rw [compareScaled, Nat.compare_eq_gt, ← Nat.cast_lt (α := ℚ), ha, hn, mul_lt_mul_iff_left₀ hc]

theorem compareScaled_eq_eq {a n : ℕ} {i j : ℤ} :
    compareScaled a i n j = .eq ↔ (a : ℚ) * 10 ^ i = n * 2 ^ j := by
  obtain ⟨c, hc, ha, hn⟩ := exists_scaled a i n j
  rw [compareScaled, Nat.compare_eq_eq, ← Nat.cast_inj (R := ℚ), ha, hn, mul_left_inj' hc.ne']

namespace Binary

variable {x y : Binary} {d : Digits}

/-- The number a magnitude is. -/
def toRat (x : Binary) : ℚ :=
  x.m * 2 ^ x.q

/-- Four times the lower end of the interval, in units of the last place. -/
def lowUnits (x : Binary) : ℕ :=
  if x.narrowBelow then 4 * x.m - 1 else 4 * x.m - 2

/-- The lower end of the interval. -/
def low (x : Binary) : ℚ :=
  x.lowUnits * 2 ^ (x.q - 2)

/-- The upper end of the interval. -/
def high (x : Binary) : ℚ :=
  (4 * x.m + 2 : ℕ) * 2 ^ (x.q - 2)

/-- A decimal reads back as a number if it lies in the interval, to which the ends belong if the
significand is even. -/
theorem readsBack_iff :
    x.readsBack d = true ↔
      (x.low < d.toRat ∨ x.m % 2 = 0 ∧ d.toRat = x.low) ∧
        (d.toRat < x.high ∨ x.m % 2 = 0 ∧ d.toRat = x.high) := by
  simp only [readsBack, Bool.and_eq_true, Bool.or_eq_true, decide_eq_true_eq, compareScaled_eq_lt,
    compareScaled_eq_gt, compareScaled_eq_eq]
  rfl

/-! ### One number alone -/

/-- The significand and the exponent of a number of the format. All numbers but the smallest have a
significand of fifty-three bits. -/
structure Canonical (x : Binary) : Prop where
  lt : x.m < 2 ^ 53
  least : -1074 ≤ x.q
  greatest : x.q ≤ 972
  normal : x.q = -1074 ∨ 2 ^ 52 ≤ x.m
  narrow : x.narrowBelow = true ↔ x.m = 2 ^ 52 ∧ x.q ≠ -1074

/-- Where the gap below is as wide as the gap above, the interval is too. -/
theorem Canonical.lowUnits_of_regular (hx : x.Canonical) (h : x.m = 2 ^ 52 → x.q = -1074) :
    x.lowUnits = 4 * x.m - 2 := by
  rw [lowUnits, if_neg]
  intro hnarrow
  obtain ⟨hm, hq⟩ := hx.narrow.mp hnarrow
  exact hq (h hm)

/-- The lower end of a number that is not one of the smallest. -/
theorem Canonical.le_lowUnits (hx : x.Canonical) (hq : x.q ≠ -1074) :
    2 ^ 54 - 1 ≤ x.lowUnits := by
  have hnormal := hx.normal.resolve_left hq
  by_cases hm : x.m = 2 ^ 52
  · rw [lowUnits, if_pos (hx.narrow.mpr ⟨hm, hq⟩)]
    omega
  · rw [hx.lowUnits_of_regular fun h => absurd h hm]
    omega

/-- The ends of two intervals in units of the smaller number. -/
theorem Canonical.high_le_lowUnits (hx : x.Canonical) (hy : y.Canonical) {k : ℕ}
    (hq : y.q = x.q + k) (h : k = 0 → x.m < y.m) :
    4 * x.m + 2 < y.lowUnits * 2 ^ k ∨
      4 * x.m + 2 = y.lowUnits * 2 ^ k ∧ (x.m % 2 = 1 ∨ y.m % 2 = 1) := by
  have hlt := hx.lt
  rcases Nat.eq_zero_or_pos k with rfl | hk
  · have hm := h rfl
    have hregular : y.m = 2 ^ 52 → y.q = -1074 := by
      intro hym
      rcases hx.normal with hleast | hnormal <;> omega
    rw [hy.lowUnits_of_regular hregular, pow_zero, mul_one]
    omega
  · have hleast := hx.least
    have hlow := hy.le_lowUnits (by omega)
    have hpow : 2 ^ 1 ≤ 2 ^ k := Nat.pow_le_pow_right (by norm_num) hk
    have hmul : (2 ^ 54 - 1) * 2 ≤ y.lowUnits * 2 ^ k := Nat.mul_le_mul hlow hpow
    omega

/-- The interval of a number ends before that of a greater one starts. If the two ends are the same,
one of the significands is odd. -/
theorem Canonical.high_le_low (hx : x.Canonical) (hy : y.Canonical)
    (h : x.q < y.q ∨ x.q = y.q ∧ x.m < y.m) :
    x.high < y.low ∨ x.high = y.low ∧ (x.m % 2 = 1 ∨ y.m % 2 = 1) := by
  obtain ⟨k, hk⟩ : ∃ k : ℕ, y.q = x.q + k := ⟨(y.q - x.q).toNat, by omega⟩
  have hunit : (0 : ℚ) < 2 ^ (x.q - 2) := by positivity
  have hlow : y.low = (y.lowUnits * 2 ^ k : ℕ) * 2 ^ (x.q - 2) := by
    rw [low, hk, show x.q + k - 2 = x.q - 2 + k by ring, zpow_add₀ (by norm_num), zpow_natCast]
    push_cast
    ring
  rw [high, hlow]
  rcases hx.high_le_lowUnits hy hk (by omega) with hlt | ⟨heq, hodd⟩
  · exact .inl (mul_lt_mul_of_pos_right (Nat.cast_lt.mpr hlt) hunit)
  · exact .inr ⟨by rw [heq], hodd⟩

/-- A decimal does not read back as a number and as a greater one. -/
theorem Canonical.not_readsBack_of_lt (hx : x.Canonical) (hy : y.Canonical)
    (h : x.q < y.q ∨ x.q = y.q ∧ x.m < y.m) {e : Digits} (heq : d.toRat = e.toRat)
    (hreadsx : x.readsBack d = true) (hreadsy : y.readsBack e = true) : False := by
  obtain ⟨-, hhigh⟩ := readsBack_iff.mp hreadsx
  obtain ⟨hlow, -⟩ := readsBack_iff.mp hreadsy
  rw [← heq] at hlow
  rcases hx.high_le_low hy h with hlt | ⟨hend, hodd⟩
  · rcases hhigh with hhigh | ⟨-, hhigh⟩ <;> rcases hlow with hlow | ⟨-, hlow⟩ <;> linarith
  · rcases hhigh with hhigh | ⟨hevenx, hhigh⟩ <;> rcases hlow with hlow | ⟨heveny, hlow⟩
    · linarith
    · linarith
    · linarith
    · omega

/-- **A decimal reads back as one number alone.** -/
theorem Canonical.eq_of_readsBack (hx : x.Canonical) (hy : y.Canonical) {e : Digits}
    (heq : d.toRat = e.toRat) (hreadsx : x.readsBack d = true) (hreadsy : y.readsBack e = true) :
    x.m = y.m ∧ x.q = y.q := by
  by_contra hne
  have horder : (x.q < y.q ∨ x.q = y.q ∧ x.m < y.m) ∨ (y.q < x.q ∨ y.q = x.q ∧ y.m < x.m) := by
    omega
  rcases horder with h | h
  · exact hx.not_readsBack_of_lt hy h heq hreadsx hreadsy
  · exact hy.not_readsBack_of_lt hx h heq.symm hreadsy hreadsx

/-! ### The scale -/

/-- A multiple of `P / N`, which is hardly above the decimal logarithm of two, is hardly above the
decimal logarithm of a power of two. -/
theorem ten_zpow_le {N P : ℕ} (hN : N ≠ 0) (hlow : Nat.pow 2 N ≤ Nat.pow 10 P)
    (hhigh : Nat.pow 10 P ≤ Nat.pow 2 (N + 1)) {f k : ℤ} (hf : f * N ≤ P * k) (hk : k ≤ 3 * N) :
    (10 : ℚ) ^ (f - 1) ≤ 2 ^ k := by
  have hlow' : (2 : ℚ) ^ N ≤ 10 ^ P := by exact_mod_cast hlow
  have hhigh' : (10 : ℚ) ^ P ≤ 2 ^ (N + 1) := by exact_mod_cast hhigh
  apply le_of_pow_le_pow_left₀ hN (by positivity)
  have hright : ((2 : ℚ) ^ k) ^ N = (2 ^ N) ^ k := by
    rw [← zpow_natCast, ← zpow_natCast, zpow_comm]
  have hleft : ((10 : ℚ) ^ (f - 1)) ^ N ≤ (10 ^ P) ^ k / 10 ^ N := by
    rw [← zpow_natCast, ← zpow_mul, ← zpow_natCast, ← zpow_mul, ← zpow_natCast,
      ← zpow_sub₀ (by norm_num)]
    exact zpow_le_zpow_right₀ (by norm_num) (by linarith)
  rw [hright]
  refine hleft.trans ?_
  rw [div_le_iff₀ (by positivity)]
  obtain ⟨n, rfl | rfl⟩ := k.eq_nat_or_neg
  · have hn : (2 : ℚ) ^ n ≤ 10 ^ N := by
      calc (2 : ℚ) ^ n ≤ 2 ^ (3 * N) := pow_le_pow_right₀ (by norm_num) (by exact_mod_cast hk)
        _ = 8 ^ N := by rw [pow_mul]; norm_num
        _ ≤ 10 ^ N := pow_le_pow_left₀ (by norm_num) (by norm_num) N
    rw [zpow_natCast, zpow_natCast]
    calc ((10 : ℚ) ^ P) ^ n ≤ (2 ^ (N + 1)) ^ n := pow_le_pow_left₀ (by positivity) hhigh' n
      _ = (2 ^ N) ^ n * 2 ^ n := by rw [pow_succ, mul_pow]
      _ ≤ (2 ^ N) ^ n * 10 ^ N := by gcongr
  · have hinv : ((10 : ℚ) ^ P) ^ (-n : ℤ) ≤ (2 ^ N) ^ (-n : ℤ) := by
      rw [zpow_neg, zpow_neg, zpow_natCast, zpow_natCast]
      exact inv_anti₀ (by positivity) (pow_le_pow_left₀ (by positivity) hlow' n)
    have hone : (1 : ℚ) ≤ 10 ^ N := one_le_pow₀ (by norm_num)
    exact hinv.trans (le_mul_of_one_le_right (by positivity) hone)

/-- The start of the search for the scale is not too high. -/
theorem start_le {k : ℤ} (h : k ≤ 1024) : (10 : ℚ) ^ ((k * 30103).fdiv 100000 - 1) ≤ 2 ^ k := by
  refine ten_zpow_le (N := 100000) (P := 30103) (by norm_num) (by decide +kernel)
    (by decide +kernel) ?_ (by omega)
  rw [Int.fdiv_eq_ediv_of_nonneg _ (by norm_num)]
  push_cast
  omega

theorem scaleFrom_le (x : Binary) (fuel : ℕ) {k : ℤ} (h : (10 : ℚ) ^ (k - 1) ≤ x.toRat) :
    (10 : ℚ) ^ (x.scaleFrom fuel k - 1) ≤ x.toRat := by
  induction fuel generalizing k with
  | zero => exact h
  | succ fuel ih =>
    rw [scaleFrom]
    split
    · exact h
    · next hle =>
      apply ih
      rw [compareScaled_eq_gt, not_lt, Nat.cast_one, one_mul] at hle
      rw [add_sub_cancel_right]
      exact hle

/-- The scale is not too high: the number has a digit just below it. -/
theorem Canonical.scale_le (hx : x.Canonical) (hm : x.m ≠ 0) :
    (10 : ℚ) ^ (x.scale - 1) ≤ x.toRat := by
  have hlog : 2 ^ x.m.log2 ≤ x.m := Nat.log2_self_le hm
  have hbits : x.m.log2 < 53 := (Nat.log2_lt hm).mpr hx.lt
  have hgreatest := hx.greatest
  apply scaleFrom_le
  calc (10 : ℚ) ^ (((x.m.log2 + x.q) * 30103).fdiv 100000 - 1)
      ≤ 2 ^ (x.m.log2 + x.q) := start_le (by omega)
    _ = (2 ^ x.m.log2 : ℕ) * 2 ^ x.q := by
      rw [zpow_add₀ (by norm_num), zpow_natCast, Nat.cast_pow, Nat.cast_ofNat]
    _ ≤ x.m * 2 ^ x.q := by gcongr

/-! ### On a grid -/

/-- The quotient of two numbers that are scaled by one factor. -/
theorem div_bounds {A B : ℕ} {a b c : ℚ} (hc : 0 < c) (hb : 0 < b) (hA : (A : ℚ) = a * c)
    (hB : (B : ℚ) = b * c) :
    (A / B : ℕ) * b ≤ a ∧ a < (A / B + 1 : ℕ) * b := by
  have hpos : 0 < B := by
    rw [← Nat.cast_pos (α := ℚ), hB]
    positivity
  have hle : A / B * B ≤ A := Nat.div_mul_le_self A B
  have hlt : A < (A / B + 1) * B := (Nat.div_lt_iff_lt_mul hpos).mp (Nat.lt_succ_self _)
  rw [← Nat.cast_le (α := ℚ), Nat.cast_mul, hA, hB, ← mul_assoc] at hle
  rw [← Nat.cast_lt (α := ℚ), Nat.cast_mul, hA, hB, ← mul_assoc] at hlt
  exact ⟨le_of_mul_le_mul_right hle hc, lt_of_mul_lt_mul_right hlt hc.le⟩

/-- The number lies from one point of the grid on and below the next. -/
theorem wholeUnits_bounds (x : Binary) (e : ℤ) :
    x.wholeUnits e * 10 ^ e ≤ x.toRat ∧ x.toRat < (x.wholeUnits e + 1 : ℕ) * 10 ^ e := by
  obtain ⟨c, hc, hten, htwo⟩ := exists_scaled 1 e x.m x.q
  rw [one_mul, Nat.cast_one, one_mul] at hten
  rw [wholeUnits, Nat.mul_comm (Nat.pow 2 (-x.q).toNat)]
  exact div_bounds hc (by positivity) htwo hten

/-- A number lies inside its interval, which is wider than a grid of seventeen digits. -/
theorem Canonical.interval (hx : x.Canonical) (hm : x.m ≠ 0) :
    x.low < x.toRat ∧ x.toRat < x.high ∧ x.toRat / 10 ^ 16 < x.high - x.low := by
  have hunit : (0 : ℚ) < 2 ^ (x.q - 2) := by positivity
  have hsplit : x.toRat = (4 * x.m : ℕ) * 2 ^ (x.q - 2) := by
    rw [toRat, zpow_sub₀ (by norm_num)]
    push_cast
    ring
  have hlt := hx.lt
  have hlow : x.lowUnits < 4 * x.m := by
    rw [lowUnits]
    split <;> omega
  have hwide : 4 * x.m < (4 * x.m + 2 - x.lowUnits) * 10 ^ 16 := by
    rw [lowUnits]
    split
    · next hnarrow =>
      have := (hx.narrow.mp hnarrow).1
      omega
    · omega
  refine ⟨?_, ?_, ?_⟩
  · rw [low, hsplit]
    gcongr
  · rw [high, hsplit]
    gcongr
    omega
  · rw [div_lt_iff₀ (by norm_num), hsplit, high, low, ← sub_mul, mul_right_comm]
    have hle : x.lowUnits ≤ 4 * x.m + 2 := by omega
    rw [← Nat.cast_sub hle]
    gcongr
    exact_mod_cast hwide

theorem readsBack_of_nearestOnGrid {tie : Tie} {e : ℤ}
    (h : x.nearestOnGrid tie e = some d) : x.readsBack d = true := by
  rw [nearestOnGrid] at h
  split at h
  · next hbelow _ => exact Option.some.inj h ▸ hbelow
  · next _ habove => exact Option.some.inj h ▸ habove
  · cases h
  · next hbelow habove =>
    split at h
    · exact Option.some.inj h ▸ hbelow
    · exact Option.some.inj h ▸ habove
    · split at h
      · exact Option.some.inj h ▸ habove
      · exact Option.some.inj h ▸ hbelow

/-- On the grid of seventeen digits a decimal reads back. -/
theorem Canonical.nearestOnGrid_ne_none (hx : x.Canonical) (hm : x.m ≠ 0) (tie : Tie) :
    x.nearestOnGrid tie (x.scale - 17) ≠ none := by
  intro hnone
  obtain ⟨hbelow, habove⟩ : ¬ x.readsBack ⟨x.wholeUnits (x.scale - 17), x.scale - 17⟩ ∧
      ¬ x.readsBack ⟨x.wholeUnits (x.scale - 17) + 1, x.scale - 17⟩ := by
    rw [nearestOnGrid] at hnone
    split at hnone
    · cases hnone
    · cases hnone
    · next hbelow habove => simp [hbelow, habove]
    · split at hnone <;> cases hnone
  obtain ⟨hle, hlt⟩ := x.wholeUnits_bounds (x.scale - 17)
  obtain ⟨hlow, hhigh, hwide⟩ := hx.interval hm
  have hstep : (10 : ℚ) ^ (x.scale - 17) ≤ x.toRat / 10 ^ 16 := by
    rw [le_div_iff₀ (by norm_num), ← zpow_natCast, ← zpow_add₀ (by norm_num),
      show x.scale - 17 + (16 : ℕ) = x.scale - 1 by omega]
    exact hx.scale_le hm
  have hbelowlow : x.wholeUnits (x.scale - 17) * 10 ^ (x.scale - 17) ≤ x.low := by
    by_contra hgt
    exact hbelow (readsBack_iff.mpr ⟨.inl (not_le.mp hgt), .inl (hle.trans_lt hhigh)⟩)
  have habovehigh : x.high ≤ (x.wholeUnits (x.scale - 17) + 1 : ℕ) * 10 ^ (x.scale - 17) := by
    by_contra hgt
    exact habove (readsBack_iff.mpr ⟨.inl (hlow.trans hlt), .inl (not_le.mp hgt)⟩)
  rw [Nat.cast_succ, add_mul, one_mul] at habovehigh
  linarith

theorem readsBack_shortestFrom {tie : Tie} {top : ℤ} {fuel places : ℕ}
    (h : ∃ n, places ≤ n ∧ n < places + fuel ∧ x.nearestOnGrid tie (top - n) ≠ none) :
    x.readsBack (x.shortestFrom tie top fuel places) = true := by
  induction fuel generalizing places with
  | zero => omega
  | succ fuel ih =>
    rw [shortestFrom]
    split
    · next hsome => exact readsBack_of_nearestOnGrid hsome
    · next hnone =>
      obtain ⟨n, hfrom, hto, hne⟩ := h
      have hplaces : places ≠ n := fun heq => hne (heq ▸ hnone)
      exact ih ⟨n, by omega, by omega, hne⟩

/-- **The decimal that is chosen reads back.** -/
theorem Canonical.readsBack_shortest (hx : x.Canonical) (hm : x.m ≠ 0) (tie : Tie) :
    x.readsBack (x.shortest tie) = true :=
  readsBack_shortestFrom ⟨17, by omega, by omega, hx.nearestOnGrid_ne_none hm tie⟩

end Binary

/-- A decimal without its zeros at the end stands for the same number. -/
theorem Digits.toRat_strip (fuel : ℕ) (d : Digits) : (d.strip fuel).toRat = d.toRat := by
  induction fuel generalizing d with
  | zero => rfl
  | succ fuel ih =>
    rw [strip]
    split
    · next hzero =>
      obtain ⟨n, hn⟩ := Nat.dvd_of_mod_eq_zero hzero
      rw [ih, toRat, toRat, hn, Nat.mul_div_cancel_left n (by norm_num), zpow_add₀ (by norm_num)]
      push_cast
      ring
    · rfl

/-! ### The numbers of the format -/

namespace Binary64

variable {x y : Binary64}

/-- The exponent field of a number. -/
theorem toNat_biased (x : Binary64) :
    ((x.bits >>> 52) &&& 0x7FF).toNat = x.bits.toNat / 2 ^ 52 % 2 ^ 11 := by
  rw [UInt64.toNat_and, UInt64.toNat_shiftRight]
  exact (Nat.and_two_pow_sub_one_eq_mod _ 11).trans (by rw [Nat.shiftRight_eq_div_pow]; rfl)

/-- The fraction field of a number. -/
theorem toNat_fraction (x : Binary64) :
    (x.bits &&& 0xFFFFFFFFFFFFF).toNat = x.bits.toNat % 2 ^ 52 := by
  rw [UInt64.toNat_and]
  exact Nat.and_two_pow_sub_one_eq_mod _ 52

theorem isNegative_iff (x : Binary64) : x.isNegative = true ↔ x.bits.toNat / 2 ^ 63 = 1 := by
  rw [isNegative, beq_iff_eq, ← UInt64.toNat_inj, UInt64.toNat_shiftRight,
    Nat.shiftRight_eq_div_pow]
  rfl

theorem magnitude_m (x : Binary64) :
    x.magnitude.m =
      if x.bits.toNat / 2 ^ 52 % 2 ^ 11 = 0 then x.bits.toNat % 2 ^ 52
      else 2 ^ 52 + x.bits.toNat % 2 ^ 52 := by
  rw [magnitude, toNat_biased, toNat_fraction]
  split <;> rfl

theorem magnitude_q (x : Binary64) :
    x.magnitude.q = max 1 ((x.bits.toNat / 2 ^ 52 % 2 ^ 11 : ℕ) : ℤ) - 1075 := by
  rw [magnitude, toNat_biased]
  split
  · next hbiased => rw [hbiased]; rfl
  · exact show (_ : ℤ) - 1075 = _ by omega

theorem canonical_magnitude (x : Binary64) : x.magnitude.Canonical := by
  rw [magnitude, toNat_biased, toNat_fraction]
  have hfraction : x.bits.toNat % 2 ^ 52 < 2 ^ 52 := Nat.mod_lt _ (by norm_num)
  have hbiased : x.bits.toNat / 2 ^ 52 % 2 ^ 11 < 2 ^ 11 := Nat.mod_lt _ (by norm_num)
  generalize x.bits.toNat % 2 ^ 52 = fraction at hfraction ⊢
  generalize x.bits.toNat / 2 ^ 52 % 2 ^ 11 = biased at hbiased ⊢
  simp only [Nat.pow_eq]
  split
  · refine ⟨?_, le_refl _, ?_, .inl rfl, by simp⟩
    · exact show fraction < 2 ^ 53 by omega
    · exact show (-1074 : ℤ) ≤ 972 by norm_num
  · refine ⟨?_, ?_, ?_, .inr ?_, ?_⟩
    · exact show 2 ^ 52 + fraction < 2 ^ 53 by omega
    · exact show -1074 ≤ (biased : ℤ) - 1075 by omega
    · exact show (biased : ℤ) - 1075 ≤ 972 by omega
    · exact Nat.le_add_right _ _
    · simp only [Bool.and_eq_true, decide_eq_true_eq]
      omega

/-- The sign and the magnitude of a number are all there is to it. -/
theorem eq_of_magnitude (hsign : x.isNegative = y.isNegative)
    (hm : x.magnitude.m = y.magnitude.m) (hq : x.magnitude.q = y.magnitude.q) : x = y := by
  have hsign' : x.bits.toNat / 2 ^ 63 = 1 ↔ y.bits.toNat / 2 ^ 63 = 1 := by
    rw [← isNegative_iff, ← isNegative_iff, hsign]
  have hx := x.bits.toNat_lt
  have hy := y.bits.toNat_lt
  suffices x.bits.toNat = y.bits.toNat by
    cases x
    cases y
    exact congrArg mk (UInt64.toNat_inj.mp this)
  rw [magnitude_m, magnitude_m] at hm
  rw [magnitude_q, magnitude_q] at hq
  split at hm <;> split at hm <;> omega

end Binary64

end Decimal

end SchemaTypes
