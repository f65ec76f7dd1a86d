import SchemaTypes.Proofs.Json.Record
import Mathlib.Data.List.Forall2
import Mathlib.Data.List.TakeWhile

/-!
# The tokens of a text inside a longer one

A text means the same wherever it stands, provided that what follows does not prolong its last
token. Only a number can be prolonged: a quoted text ends with its quote, and a word or a mark has
its length. Where the text stands shows in the places of its tokens, and in the places of the faults
that reading them may give, and in nothing else.

## Main definitions

* `Json.Parting`: what follows does not prolong a number
* `Json.Lexeme.Leads`: a sound token, and one that reads at least as well

## Main results

* `Json.tokenAt_append`: a token with something behind it
* `Json.tokensFrom_append`: the tokens of a text with something behind it
-/

namespace SchemaTypes

namespace Json

variable {pos : Nat} {text : List Char}

/-! ### Quoted texts -/

theorem length_of_mapM {α β : Type} {f : α → Option β} {xs : List α} {ys : List β}
    (h : xs.mapM f = some ys) : ys.length = xs.length := by
  induction xs generalizing ys with
  | nil =>
    obtain rfl : [] = ys := by simpa using h
    rfl
  | cons x xs ih =>
    rw [List.mapM_cons] at h
    obtain ⟨y, -, h⟩ := Option.bind_eq_some_iff.mp h
    obtain ⟨rest, hrest, h⟩ := Option.bind_eq_some_iff.mp h
    rw [← Option.some.inj h, List.length_cons, List.length_cons, ih hrest]

/-- Four digits are read whatever follows them. -/
theorem readUnit_append {unit : Nat} (h : readUnit pos text = .ok unit) (other : Nat)
    (suffix : List Char) : readUnit other (text ++ suffix) = .ok unit ∧ 4 ≤ text.length := by
  rw [readUnit] at h
  split at h
  · next a b c d hdigits =>
    have hlength : 4 ≤ text.length := by
      have hfour := length_of_mapM hdigits
      rw [List.length_take] at hfour
      simp only [List.length_cons, List.length_nil] at hfour
      omega
    rw [readUnit, List.take_append_of_le_length hlength, hdigits]
    exact ⟨h, hlength⟩
  · dsimp only at h
    split at h <;> cases h

theorem checkEscape_append {taken : Nat} (h : checkEscape pos text = .ok taken) (other : Nat)
    (suffix : List Char) :
    checkEscape other (text ++ suffix) = .ok taken ∧ taken ≤ text.length := by
  cases text with
  | nil => cases h
  | cons letter rest =>
    rw [checkEscape] at h
    rw [List.cons_append, checkEscape]
    split at h
    · next hu =>
      obtain ⟨unit, hunit, rfl⟩ := map_eq_ok.mp h
      obtain ⟨hread, hlength⟩ := readUnit_append hunit (other + 1) suffix
      rw [if_pos hu, hread]
      exact ⟨rfl, Nat.succ_le_succ hlength⟩
    · next hu =>
      split at h
      · next hletter =>
        obtain rfl := Except.ok.inj h
        rw [if_neg hu, if_pos hletter]
        exact ⟨rfl, Nat.succ_le_succ (Nat.zero_le _)⟩
      · cases h

/-- A quoted text that ends with its quote ends there whatever follows. -/
theorem checkText_append {pass width stop total : Nat}
    (h : checkText pass pos width text = .ok (stop, total)) (other : Nat) (suffix : List Char) :
    (∃ stop, checkText pass other width (text ++ suffix) = .ok (stop, total)) ∧
      total ≤ width + text.length := by
  induction text generalizing pass pos other width with
  | nil => cases h
  | cons c rest ih =>
    rw [List.cons_append, List.length_cons]
    cases pass with
    | succ pass =>
      rw [checkText] at h ⊢
      obtain ⟨hcheck, htotal⟩ := ih h (other + c.utf8Size)
      exact ⟨hcheck, by omega⟩
    | zero =>
      rw [checkText] at h ⊢
      split at h
      · next hquote =>
        obtain ⟨-, rfl⟩ := Prod.mk.inj (Except.ok.inj h)
        rw [if_pos hquote]
        exact ⟨⟨_, rfl⟩, by omega⟩
      next hquote =>
      rw [if_neg hquote]
      split at h
      · next hbackslash =>
        split at h
        · next taken hescape =>
          rw [if_pos hbackslash, (checkEscape_append hescape (other + 1) suffix).1]
          obtain ⟨hcheck, htotal⟩ := ih h (other + 1)
          exact ⟨hcheck, by omega⟩
        · cases h
      next hbackslash =>
      split at h
      · cases h
      next hcontrol =>
      rw [if_neg hbackslash, if_neg hcontrol]
      obtain ⟨hcheck, htotal⟩ := ih h (other + c.utf8Size)
      exact ⟨hcheck, by omega⟩

theorem readSecondHalf_append {unit : Nat} (h : readSecondHalf pos text = .ok unit) (other : Nat)
    (suffix : List Char) : readSecondHalf other (text ++ suffix) = .ok unit := by
  cases text with
  | nil => cases h
  | cons c rest =>
    rw [readSecondHalf.eq_def] at h
    rw [List.cons_append, readSecondHalf.eq_def]
    dsimp only at h ⊢
    split at h
    · next hbackslash =>
      cases rest with
      | nil => cases h
      | cons letter digits =>
        dsimp only at h
        split at h
        · next hu =>
          obtain ⟨read, hread, h⟩ := bind_eq_ok.mp h
          rw [if_pos hbackslash, List.cons_append]
          dsimp only
          rw [if_pos hu, (readUnit_append hread (other + 2) suffix).1]
          split at h
          · next hsecond => exact (if_pos hsecond).trans h
          · cases h
        · cases h
    · cases h

theorem readEscape_append {c : Char} {taken : Nat} (h : readEscape pos text = .ok (c, taken))
    (other : Nat) (suffix : List Char) : readEscape other (text ++ suffix) = .ok (c, taken) := by
  cases text with
  | nil => cases h
  | cons letter rest =>
    rw [readEscape] at h
    rw [List.cons_append, readEscape]
    split at h
    · next hu =>
      obtain ⟨unit, hunit, h⟩ := bind_eq_ok.mp h
      obtain ⟨hread, hlength⟩ := readUnit_append hunit (other + 1) suffix
      rw [if_pos hu, hread, List.drop_append_of_le_length hlength]
      show (if isSecondHalf unit then _ else _) = _
      split at h
      · cases h
      next hsecond =>
      rw [if_neg hsecond]
      split at h
      · next hfirst =>
        obtain ⟨second, hhalf, h⟩ := bind_eq_ok.mp h
        rw [if_pos hfirst, readSecondHalf_append hhalf (other + 5) suffix]
        exact h
      · next hfirst => exact (if_neg hfirst).trans h
    · next hu =>
      rw [if_neg hu]
      split at h
      · exact h
      · cases h

/-- A quoted text reads the same whatever follows it. -/
theorem readText_append {pass : Nat} {read : List Char} (h : readText pass pos text = .ok read)
    (other : Nat) (suffix : List Char) : readText pass other (text ++ suffix) = .ok read := by
  induction text generalizing pass pos other read with
  | nil => cases h
  | cons c rest ih =>
    rw [List.cons_append]
    cases pass with
    | succ pass =>
      rw [readText] at h ⊢
      exact ih h (other + c.utf8Size)
    | zero =>
      rw [readText] at h ⊢
      split at h
      · next hquote => exact (if_pos hquote).trans h
      next hquote =>
      rw [if_neg hquote]
      split at h
      · next hbackslash =>
        split at h
        · next escaped taken hescape =>
          obtain ⟨later, hlater, rfl⟩ := map_eq_ok.mp h
          rw [if_pos hbackslash, readEscape_append hescape (other + 1) suffix]
          exact congrArg (Except.map (escaped :: ·)) (ih hlater (other + 1))
        · cases h
      next hbackslash =>
      split at h
      · cases h
      next hcontrol =>
      obtain ⟨later, hlater, rfl⟩ := map_eq_ok.mp h
      rw [if_neg hbackslash, if_neg hcontrol]
      exact congrArg (Except.map (c :: ·)) (ih hlater (other + c.utf8Size))

/-! ### Plain scalars -/

/-- A word ends with its last letter. -/
theorem matchWord_append {letters : List Char} (h : matchWord pos letters text = .ok ())
    (other : Nat) (suffix : List Char) :
    matchWord other letters (text ++ suffix) = .ok () ∧ letters.length ≤ text.length := by
  induction letters generalizing pos other text with
  | nil => exact ⟨rfl, Nat.zero_le _⟩
  | cons letter letters ih =>
    cases text with
    | nil => cases h
    | cons c rest =>
      rw [matchWord] at h
      split at h
      · next hc =>
        obtain ⟨hmatch, hlength⟩ := ih h (other + 1)
        rw [List.cons_append, matchWord, if_pos hc]
        exact ⟨hmatch, Nat.succ_le_succ hlength⟩
      · cases h

/-- A text does not prolong a number that stands before it. -/
def Parting (suffix : List Char) : Prop :=
  ∀ c ∈ suffix.head?, c.isDigit = false ∧ c ≠ '.' ∧ c ≠ 'e' ∧ c ≠ 'E'

namespace Numeral

variable {offset : Nat} {suffix : List Char}

theorem digitsOf_append (h : Parting suffix) (text : List Char) :
    digitsOf (text ++ suffix) = digitsOf text ∧
      afterDigits (text ++ suffix) = afterDigits text ++ suffix := by
  have hnone : suffix.takeWhile Char.isDigit = [] ∧ suffix.dropWhile Char.isDigit = suffix := by
    cases suffix with
    | nil => exact ⟨rfl, rfl⟩
    | cons c rest =>
      have hc : ¬ c.isDigit = true := by simp [(h c rfl).1]
      exact ⟨List.takeWhile_cons_of_neg hc, List.dropWhile_cons_of_neg hc⟩
  rw [digitsOf, digitsOf, afterDigits, afterDigits]
  induction text with
  | nil => exact ⟨congrArg (List.map digitValue) hnone.1, hnone.2⟩
  | cons c rest ih =>
    rw [List.cons_append]
    by_cases hc : c.isDigit = true
    · rw [List.takeWhile_cons_of_pos hc, List.takeWhile_cons_of_pos hc,
        List.dropWhile_cons_of_pos hc, List.dropWhile_cons_of_pos hc, List.map_cons, List.map_cons,
        ih.1, ih.2]
      exact ⟨rfl, rfl⟩
    · rw [List.takeWhile_cons_of_neg hc, List.takeWhile_cons_of_neg hc,
        List.dropWhile_cons_of_neg hc, List.dropWhile_cons_of_neg hc]
      exact ⟨rfl, rfl⟩

theorem length_digitsOf_add (text : List Char) :
    (digitsOf text).length + (afterDigits text).length = text.length := by
  rw [digitsOf, afterDigits, List.length_map, ← List.length_append, List.takeWhile_append_dropWhile]

theorem requireDigits_append {digits : List Nat} (h : requireDigits offset text = .ok digits)
    (hsuffix : Parting suffix) :
    requireDigits offset (text ++ suffix) = .ok digits ∧ digits = digitsOf text := by
  cases text with
  | nil => cases h
  | cons c rest =>
    rw [requireDigits] at h
    split at h
    · next hc =>
      obtain rfl := Except.ok.inj h
      refine ⟨?_, rfl⟩
      rw [List.cons_append, requireDigits, if_pos hc, ← List.cons_append,
        (digitsOf_append hsuffix (c :: rest)).1]
    · cases h

/-- Where a numeral ends that has an exponent or none. -/
def endOf (offset : Nat) (exponent : Option Exponent) : Nat :=
  exponent.elim offset fun e => e.offset + e.digits.length

theorem scanExponent_append {exponent : Option Exponent}
    (h : scanExponent offset text = .ok exponent) (hsuffix : Parting suffix) :
    scanExponent offset (text ++ suffix) = .ok exponent ∧
      endOf offset exponent ≤ offset + text.length := by
  cases text with
  | nil =>
    obtain rfl := Except.ok.inj h
    refine ⟨?_, Nat.le_refl _⟩
    cases suffix with
    | nil => rfl
    | cons c rest =>
      obtain ⟨-, -, hlower, hupper⟩ := hsuffix c rfl
      rw [List.nil_append, scanExponent.eq_def]
      exact if_neg (not_or.mpr ⟨hlower, hupper⟩)
  | cons c rest =>
    rw [scanExponent.eq_def] at h
    rw [List.cons_append, scanExponent.eq_def]
    dsimp only at h ⊢
    split at h
    · next hc =>
      rw [if_pos hc]
      cases rest with
      | nil => cases h
      | cons sign more =>
        dsimp only [List.cons_append] at h ⊢
        split at h
        · next hsign =>
          obtain ⟨digits, hdigits, rfl⟩ := map_eq_ok.mp h
          obtain ⟨hmore, rfl⟩ := requireDigits_append hdigits hsuffix
          have hlength := length_digitsOf_add more
          rw [if_pos hsign, hmore]
          refine ⟨rfl, ?_⟩
          simp only [endOf, Option.elim_some, List.length_cons]
          omega
        · next hsign =>
          obtain ⟨digits, hdigits, rfl⟩ := map_eq_ok.mp h
          obtain ⟨hmore, rfl⟩ := requireDigits_append hdigits hsuffix
          have hlength := length_digitsOf_add (sign :: more)
          rw [if_neg hsign, ← List.cons_append, hmore]
          refine ⟨rfl, ?_⟩
          simp only [endOf, Option.elim_some, List.length_cons] at hlength ⊢
          omega
    · next hc =>
      obtain rfl := Except.ok.inj h
      exact ⟨if_neg hc, Nat.le_add_right _ _⟩

/-- The end of a numeral: an exponent, or none, decides about its width. -/
theorem finish_append {numeral : Numeral} {finish : Option Exponent → Numeral}
    (hwidth : ∀ exponent, (finish exponent).width = endOf offset exponent)
    (h : (scanExponent offset text >>= fun exponent => .ok (finish exponent)) = .ok numeral)
    (hsuffix : Parting suffix) :
    (scanExponent offset (text ++ suffix) >>= fun exponent => .ok (finish exponent)) =
        .ok numeral ∧
      numeral.width ≤ offset + text.length := by
  obtain ⟨exponent, hexponent, h⟩ := bind_eq_ok.mp h
  obtain ⟨hscan, hend⟩ := scanExponent_append hexponent hsuffix
  obtain rfl := Except.ok.inj h
  rw [hscan, hwidth]
  exact ⟨rfl, hend⟩

theorem scanTail_append {negative : Bool} {whole : List Nat} {numeral : Numeral}
    (h : scanTail negative whole offset text = .ok numeral) (hsuffix : Parting suffix) :
    scanTail negative whole offset (text ++ suffix) = .ok numeral ∧
      numeral.width ≤ offset + text.length := by
  rw [scanTail.eq_def] at h ⊢
  cases text with
  | nil =>
    have hfinish := finish_append (fun _ => rfl) h hsuffix
    cases suffix with
    | nil => exact hfinish
    | cons c rest =>
      obtain ⟨-, hpoint, -, -⟩ := hsuffix c rfl
      simp only [List.nil_append, if_neg hpoint]
      exact hfinish
  | cons c rest =>
    dsimp only [List.cons_append] at h ⊢
    split at h
    · next hpoint =>
      obtain ⟨fraction, hfraction, h⟩ := bind_eq_ok.mp h
      obtain ⟨hrequire, rfl⟩ := requireDigits_append hfraction hsuffix
      obtain ⟨hfinish, hend⟩ := finish_append (fun _ => rfl) h hsuffix
      have hlength := length_digitsOf_add rest
      rw [if_pos hpoint, hrequire]
      refine ⟨?_, ?_⟩
      · rw [← (digitsOf_append hsuffix rest).2] at hfinish
        exact hfinish
      · rw [List.length_cons]
        omega
    · next hpoint =>
      rw [if_neg hpoint]
      exact finish_append (fun _ => rfl) h hsuffix

/-- A numeral ends where it ends if what follows does not prolong it. -/
theorem scan_append {numeral : Numeral} (h : scan text = .ok numeral)
    (hsuffix : Parting suffix) :
    scan (text ++ suffix) = .ok numeral ∧ numeral.width ≤ text.length := by
  have hhead : (text ++ suffix).head? = text.head? := by
    cases text with
    | nil => cases h
    | cons c rest => rfl
  obtain ⟨sign, hsign⟩ : ∃ sign, sign = if text.head? = some '-' then 1 else 0 := ⟨_, rfl⟩
  have hlength : sign ≤ text.length := by
    cases text with
    | nil => cases h
    | cons c rest =>
      rw [hsign, List.length_cons]
      split <;> omega
  rw [scan, hhead, ← hsign, List.drop_append_of_le_length hlength]
  rw [scan, ← hsign] at h
  obtain ⟨whole, hwhole, h⟩ := bind_eq_ok.mp h
  obtain ⟨hrequire, rfl⟩ := requireDigits_append hwhole hsuffix
  rw [hrequire]
  by_cases hzero : (digitsOf (text.drop sign)).head? = some 0 ∧
      1 < (digitsOf (text.drop sign)).length
  · rw [if_pos hzero] at h
    cases h
  · rw [if_neg hzero] at h
    obtain ⟨htail, hend⟩ := scanTail_append h hsuffix
    rw [← (digitsOf_append hsuffix (text.drop sign)).2] at htail
    refine ⟨(if_neg hzero).trans htail, ?_⟩
    have hdigits := length_digitsOf_add (text.drop sign)
    rw [List.length_drop] at hdigits
    omega

end Numeral

/-! ### Tokens -/

/-- A sound token, and one of the same kind that is sound and reads at least as well: what reading
the first one gives, reading the second one gives too. -/
inductive Lexeme.Leads : Lexeme → Lexeme → Prop
  | mark (mark : Mark) : Leads (.mark mark) (.mark mark)
  | text {reading later : Except Fault String}
      (h : ∀ value, reading = .ok value → later = .ok value) :
      Leads (.text reading (.ok ())) (.text later (.ok ()))
  | plain {reading later : Except Fault Plain}
      (h : ∀ value, reading = .ok value → later = .ok value) :
      Leads (.plain reading (.ok ())) (.plain later (.ok ()))

theorem Lexeme.Leads.isSound {lexeme later : Lexeme} (h : lexeme.Leads later) :
    later.isSound = true := by
  cases h <;> rfl

variable {suffix : List Char}

/-- The token of a quoted text with something behind it. -/
theorem textToken_append {rest : List Char} (h : (textToken pos rest).lexeme.isSound = true)
    (other : Nat) (suffix : List Char) :
    (textToken pos rest).lexeme.Leads (textToken other (rest ++ suffix)).lexeme ∧
      (textToken other (rest ++ suffix)).width = (textToken pos rest).width ∧
      (textToken pos rest).width ≤ rest.length + 1 := by
  have hreading : ∀ value, (readText 0 (pos + 1) rest).map String.ofList = .ok value →
      (readText 0 (other + 1) (rest ++ suffix)).map String.ofList = .ok value := by
    intro value hvalue
    obtain ⟨read, hread, rfl⟩ := map_eq_ok.mp hvalue
    rw [readText_append hread (other + 1) suffix]
    rfl
  rw [textToken] at h
  split at h
  · next stop width hcheck =>
    obtain ⟨⟨later, hlater⟩, hwidth⟩ := checkText_append hcheck (other + 1) suffix
    rw [textToken, textToken, hcheck, hlater]
    exact ⟨.text hreading, rfl, by rwa [Nat.add_comm] at hwidth⟩
  · cases h

/-- The token of a word with something behind it. -/
theorem wordToken_append {value : Plain} {letters rest : List Char}
    (h : (wordToken pos value letters rest).lexeme.isSound = true) (other : Nat)
    (suffix : List Char) :
    (wordToken pos value letters rest).lexeme.Leads
        (wordToken other value letters (rest ++ suffix)).lexeme ∧
      (wordToken other value letters (rest ++ suffix)).width =
        (wordToken pos value letters rest).width ∧
      (wordToken pos value letters rest).width ≤ rest.length + 1 := by
  cases hmatch : matchWord (pos + 1) letters rest with
  | error fault =>
    rw [wordToken, hmatch] at h
    cases h
  | ok matched =>
    obtain ⟨hlater, hlength⟩ := matchWord_append hmatch (other + 1) suffix
    rw [wordToken, wordToken, hmatch, hlater]
    exact ⟨.plain fun _ hvalue => hvalue, rfl, by dsimp only; omega⟩

/-- The token of a number with something behind it that does not prolong it. -/
theorem numberToken_append (h : (numberToken pos text).lexeme.isSound = true)
    (hsuffix : Parting suffix) (other : Nat) :
    (numberToken pos text).lexeme.Leads (numberToken other (text ++ suffix)).lexeme ∧
      (numberToken other (text ++ suffix)).width = (numberToken pos text).width ∧
      (numberToken pos text).width ≤ text.length := by
  rw [numberToken] at h
  split at h
  · cases h
  · next numeral hscan =>
    obtain ⟨hlater, hwidth⟩ := Numeral.scan_append hscan hsuffix
    rw [numberToken, numberToken, hscan, hlater]
    refine ⟨.plain fun value hvalue => ?_, rfl, hwidth⟩
    split at hvalue
    · exact hvalue
    · cases hvalue

/-- The first character of a token tells what kind of token it is. -/
theorem tokenAt_cases (c : Char) :
    (∃ mark, ∀ pos rest, tokenAt pos c rest = ⟨.mark mark, pos, pos + 1, 1⟩) ∨
      (∀ pos rest, tokenAt pos c rest = textToken pos rest) ∨
      (∃ value letters, (∀ d ∈ letters, d.isAlpha = true) ∧
        ∀ pos rest, tokenAt pos c rest = wordToken pos value letters rest) ∨
      (∀ pos rest, tokenAt pos c rest = numberToken pos (c :: rest)) ∨
      ∀ pos rest, (tokenAt pos c rest).lexeme = .stray := by
  cases hmark : Mark.ofChar? c with
  | some mark => exact .inl ⟨mark, fun pos rest => by simp only [tokenAt, hmark]⟩
  | none =>
    right
    by_cases hquote : c = '"'
    · exact .inl fun pos rest => by simp only [tokenAt, hmark, if_pos hquote]
    right
    by_cases hnull : c = 'n'
    · exact .inl ⟨.null, ['u', 'l', 'l'], List.all_eq_true.mp rfl, fun pos rest => by
        simp only [tokenAt, hmark, if_neg hquote, if_pos hnull]⟩
    by_cases htrue : c = 't'
    · exact .inl ⟨.boolean true, ['r', 'u', 'e'], List.all_eq_true.mp rfl, fun pos rest => by
        simp only [tokenAt, hmark, if_neg hquote, if_neg hnull, if_pos htrue]⟩
    by_cases hfalse : c = 'f'
    · exact .inl ⟨.boolean false, ['a', 'l', 's', 'e'], List.all_eq_true.mp rfl, fun pos rest => by
        simp only [tokenAt, hmark, if_neg hquote, if_neg hnull, if_neg htrue, if_pos hfalse]⟩
    right
    by_cases hnumber : c = '-' ∨ c.isDigit
    · exact .inl fun pos rest => by
        simp only [tokenAt, hmark, if_neg hquote, if_neg hnull, if_neg htrue, if_neg hfalse,
          if_pos hnumber]
    · exact .inr fun pos rest => by
        simp only [tokenAt, hmark, if_neg hquote, if_neg hnull, if_neg htrue, if_neg hfalse,
          if_neg hnumber]

/-- **A token with something behind it** is the same token, if it is sound and what follows does not
prolong it. -/
theorem tokenAt_append {c : Char} {rest : List Char}
    (h : (tokenAt pos c rest).lexeme.isSound = true) (hsuffix : Parting suffix) (other : Nat) :
    (tokenAt pos c rest).lexeme.Leads (tokenAt other c (rest ++ suffix)).lexeme ∧
      (tokenAt other c (rest ++ suffix)).width = (tokenAt pos c rest).width ∧
      (tokenAt pos c rest).width ≤ rest.length + 1 := by
  rcases tokenAt_cases c with ⟨mark, hmark⟩ | htext | ⟨value, letters, -, hword⟩ | hnumber | hstray
  · rw [hmark, hmark]
    exact ⟨.mark mark, rfl, Nat.le_add_left _ _⟩
  · rw [htext] at h ⊢
    rw [htext]
    exact textToken_append h other suffix
  · rw [hword] at h ⊢
    rw [hword]
    exact wordToken_append h other suffix
  · rw [hnumber] at h ⊢
    rw [hnumber]
    exact numberToken_append h hsuffix other
  · rw [hstray] at h
    cases h

/-- **The tokens of a text with something behind it** that does not prolong the last of them: those
of the text, and behind them those of what follows. -/
theorem tokensFrom_append {pass : Nat} (hpass : pass ≤ text.length)
    (h : ∀ token ∈ tokensFrom pass pos text, token.lexeme.isSound = true)
    (hsuffix : Parting suffix) (other : Nat) :
    ∃ tokens stop, tokensFrom pass other (text ++ suffix) = tokens ++ tokensFrom 0 stop suffix ∧
      List.Forall₂ (fun token later => token.lexeme.Leads later.lexeme)
        (tokensFrom pass pos text) tokens := by
  induction text generalizing pass pos other with
  | nil =>
    obtain rfl : pass = 0 := Nat.le_zero.mp hpass
    exact ⟨[], other, rfl, .nil⟩
  | cons c rest ih =>
    rw [List.cons_append]
    cases pass with
    | succ pass =>
      rw [tokensFrom] at h ⊢
      rw [tokensFrom]
      exact ih (Nat.le_of_succ_le_succ hpass) h (other + c.utf8Size)
    | zero =>
      rw [tokensFrom] at h ⊢
      rw [tokensFrom]
      by_cases hgap : isGap c = true
      · rw [if_pos hgap] at h ⊢
        rw [if_pos hgap]
        exact ih (Nat.zero_le _) h (other + 1)
      rw [if_neg hgap] at h ⊢
      rw [if_neg hgap]
      dsimp only at h ⊢
      have hsound : (tokenAt pos c rest).lexeme.isSound = true := by
        by_contra hbroken
        rw [if_neg hbroken] at h
        exact hbroken (h _ List.mem_cons_self)
      obtain ⟨hleads, hwidth, hlength⟩ := tokenAt_append hsound hsuffix other
      rw [if_pos hsound] at h ⊢
      rw [if_pos hleads.isSound, hwidth]
      have hpassed : (tokenAt pos c rest).width - 1 ≤ rest.length := by omega
      have hrest := fun token htoken => h token (List.mem_cons_of_mem _ htoken)
      obtain ⟨tokens, stop, htokens, hforall⟩ := ih hpassed hrest (other + c.utf8Size)
      exact ⟨_ :: tokens, stop, congrArg _ htokens, .cons hleads hforall⟩

end Json

end SchemaTypes
