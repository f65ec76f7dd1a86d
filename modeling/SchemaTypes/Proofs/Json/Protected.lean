import SchemaTypes.Proofs.Code.Comments
import SchemaTypes.Proofs.Json.Content
import SchemaTypes.Proofs.Json.Machine

/-!
# A JSON text inside a comment

A comment breaks up the end marks in its text by a backslash. In a JSON text an end mark can only
stand inside a quoted text, since no other token has a star in it. There the backslash and the slash
behind it are an escape for the slash. So a JSON text that is protected is still the same JSON.

## Main results

* `Json.readText_protectEnd`, `Json.checkText_protectEnd`: a quoted text that is protected
* `Json.tokensFrom_protectEnd`: the tokens of a protected text
* `Json.Value.ofText_protectEnd`: a protected text reads as the same value
-/

namespace SchemaTypes

namespace Json

open Code

variable {pos : Nat} {text rest : List Char}

/-! ### Escapes -/

/-- A star is no hexadecimal digit. -/
theorem notMem_of_mapM_hexValue? {digits : List Char} {values : List Nat}
    (h : digits.mapM hexValue? = some values) : '*' ∉ digits := by
  induction digits generalizing values with
  | nil => exact List.not_mem_nil
  | cons digit digits ih =>
    rw [List.mapM_cons] at h
    obtain ⟨value, hvalue, h⟩ := Option.bind_eq_some_iff.mp h
    obtain ⟨others, hothers, -⟩ := Option.bind_eq_some_iff.mp h
    rw [List.mem_cons, not_or]
    refine ⟨?_, ih hothers⟩
    rintro rfl
    cases hvalue

/-- A code is read from four characters, none of which is a star. -/
theorem exists_digits_of_readUnit {unit : Nat} (h : readUnit pos text = .ok unit) :
    ∃ digits after, text = digits ++ after ∧ digits.length = 4 ∧ '*' ∉ digits ∧
      ∀ other, readUnit other digits = .ok unit := by
  have hlength := (readUnit_append h 0 []).2
  have hsplit : text = text.take 4 ++ text.drop 4 := (List.take_append_drop 4 text).symm
  rw [readUnit] at h
  split at h
  · next a b c d hdigits =>
    refine ⟨text.take 4, text.drop 4, hsplit, by simp [hlength],
      notMem_of_mapM_hexValue? hdigits, fun other => ?_⟩
    simp only [readUnit, List.take_take, Nat.min_self, hdigits]
    exact h
  · dsimp only at h
    split at h <;> cases h

/-- So is the second half of a pair, with its own backslash and letter. -/
theorem exists_escape_of_readSecondHalf {unit : Nat} (h : readSecondHalf pos text = .ok unit) :
    ∃ escape after, text = escape ++ after ∧ escape.length = 6 ∧ '*' ∉ escape ∧
      ∀ other, readSecondHalf other escape = .ok unit := by
  cases text with
  | nil => cases h
  | cons c rest =>
    rw [readSecondHalf.eq_def] at h
    dsimp only at h
    split at h
    · next hbackslash =>
      cases rest with
      | nil => cases h
      | cons letter digits =>
        dsimp only at h
        split at h
        · next hu =>
          subst hbackslash hu
          obtain ⟨read, hread, hresult⟩ := bind_eq_ok.mp h
          obtain ⟨code, after, rfl, hlength, hstar, hcode⟩ := exists_digits_of_readUnit hread
          refine ⟨'\\' :: 'u' :: code, after, rfl, by simp [hlength], by simp [hstar],
            fun other => ?_⟩
          rw [readSecondHalf.eq_def]
          dsimp only
          rw [if_pos rfl, if_pos rfl, hcode]
          split at hresult
          · next hsecond => exact (if_pos hsecond).trans hresult
          · cases hresult
        · cases h
    · cases h

/-- An escape is read from its own characters, none of which is a star. -/
theorem exists_escape_of_readEscape {c : Char} {taken : Nat}
    (h : readEscape pos text = .ok (c, taken)) :
    ∃ escape after, text = escape ++ after ∧ escape.length = taken ∧ '*' ∉ escape ∧
      ∀ other, readEscape other escape = .ok (c, taken) := by
  cases text with
  | nil => cases h
  | cons letter rest =>
    rw [readEscape] at h
    split at h
    · next hu =>
      subst hu
      obtain ⟨unit, hunit, h⟩ := bind_eq_ok.mp h
      obtain ⟨code, after, rfl, hlength, hstar, hcode⟩ := exists_digits_of_readUnit hunit
      have hdrop : ∀ more, (code ++ more).drop 4 = more := fun more => by
        rw [← hlength, List.drop_left]
      split at h
      · cases h
      next hsecond =>
      split at h
      · next hfirst =>
        obtain ⟨second, hhalf, hresult⟩ := bind_eq_ok.mp h
        obtain ⟨-, rfl⟩ := Prod.mk.inj (Except.ok.inj hresult)
        rw [hdrop] at hhalf
        obtain ⟨half, rest, rfl, hsix, hfree, hread⟩ := exists_escape_of_readSecondHalf hhalf
        refine ⟨'u' :: (code ++ half), rest, by simp, by simp [hlength, hsix],
          by simp [hstar, hfree], fun other => ?_⟩
        rw [readEscape, if_pos rfl, (readUnit_append (hcode 0) (other + 1) half).1, hdrop]
        show (if isSecondHalf unit then _ else _) = _
        rw [if_neg hsecond, if_pos hfirst, hread]
        exact hresult
      · next hfirst =>
        obtain ⟨-, rfl⟩ := Prod.mk.inj (Except.ok.inj h)
        refine ⟨'u' :: code, after, rfl, by simp [hlength], by simp [hstar], fun other => ?_⟩
        rw [readEscape, if_pos rfl, hcode]
        show (if isSecondHalf unit then _ else _) = _
        rw [if_neg hsecond, if_neg hfirst]
        exact h
    · next hu =>
      split at h
      · next read hread =>
        obtain ⟨rfl, rfl⟩ := Prod.mk.inj (Except.ok.inj h)
        refine ⟨[letter], rest, rfl, rfl, ?_, fun other => ?_⟩
        · rw [List.mem_singleton]
          rintro rfl
          cases hread
        · simp only [readEscape, if_neg hu, hread]
      · cases h

theorem exists_escape_of_checkEscape {taken : Nat} (h : checkEscape pos text = .ok taken) :
    ∃ escape after, text = escape ++ after ∧ escape.length = taken ∧ '*' ∉ escape ∧
      ∀ other, checkEscape other escape = .ok taken := by
  cases text with
  | nil => cases h
  | cons letter rest =>
    rw [checkEscape] at h
    split at h
    · next hu =>
      subst hu
      obtain ⟨unit, hunit, rfl⟩ := map_eq_ok.mp h
      obtain ⟨code, after, rfl, hlength, hstar, hcode⟩ := exists_digits_of_readUnit hunit
      refine ⟨'u' :: code, after, rfl, by simp [hlength], by simp [hstar], fun other => ?_⟩
      rw [checkEscape, if_pos rfl, hcode]
      rfl
    · next hu =>
      split at h
      · next hletter =>
        obtain rfl := Except.ok.inj h
        refine ⟨[letter], rest, rfl, rfl, ?_, fun other => ?_⟩
        · rw [List.mem_singleton]
          rintro rfl
          exact absurd hletter (by decide)
        · rw [checkEscape, if_neg hu, if_pos hletter]
      · cases h

/-! ### Quoted texts -/

/-- An end mark that is broken up reads as the end mark. -/
theorem readText_brokenEnd (pos : Nat) (rest : List Char) :
    readText 0 pos ('*' :: '\\' :: '/' :: rest) =
      (readText 0 (pos + 2) ('/' :: rest)).map ('*' :: ·) :=
  rfl

theorem checkText_brokenEnd (pos width : Nat) (rest : List Char) :
    checkText 0 pos width ('*' :: '\\' :: '/' :: rest) =
      checkText 0 (pos + 2) (width + 2) ('/' :: rest) :=
  rfl

/-- **A quoted text that is protected** reads the same. -/
theorem readText_protectEnd {pass : Nat} (hpass : '*' ∉ text.take pass) {read : List Char}
    (h : readText pass pos text = .ok read) (other : Nat) :
    readText pass other (protectEnd text) = .ok read := by
  induction text generalizing pass pos other read with
  | nil => cases h
  | cons c rest ih =>
    cases pass with
    | succ pass =>
      obtain ⟨hc, hrest⟩ := not_or.mp (mt List.mem_cons.mpr hpass)
      rw [readText] at h
      rw [protectEnd_cons (Ne.symm hc), readText]
      exact ih hrest h _
    | zero =>
      rw [readText] at h
      by_cases hend : c = '*' ∧ rest.head? = some '/'
      · obtain ⟨rfl, hslash⟩ := hend
        obtain ⟨more, rfl⟩ := List.head?_eq_some_iff.mp hslash
        obtain ⟨later, hlater, rfl⟩ := map_eq_ok.mp h
        have hrest := ih List.not_mem_nil hlater (other + 2)
        rw [protectEnd_cons (by decide)] at hrest
        rw [protectEnd, if_pos ⟨rfl, hslash⟩, protectEnd_cons (by decide), readText_brokenEnd,
          hrest]
        rfl
      · rw [protectEnd, if_neg hend, readText]
        split at h
        · next hquote => exact (if_pos hquote).trans h
        next hquote =>
        rw [if_neg hquote]
        split at h
        · next hbackslash =>
          split at h
          · next escaped taken hescape =>
            obtain ⟨later, hlater, rfl⟩ := map_eq_ok.mp h
            obtain ⟨escape, after, rfl, hlength, hstar, hread⟩ :=
              exists_escape_of_readEscape hescape
            have hprotected := protectEnd_append_of_notMem hstar after
            have hpass : '*' ∉ (escape ++ after).take taken := by
              rwa [← hlength, List.take_left]
            have hrest := ih hpass hlater (other + 1)
            rw [hprotected] at hrest
            rw [if_pos hbackslash, hprotected, readEscape_append (hread 0) (other + 1)]
            exact congrArg (Except.map (escaped :: ·)) hrest
          · cases h
        next hbackslash =>
        split at h
        · cases h
        next hcontrol =>
        obtain ⟨later, hlater, rfl⟩ := map_eq_ok.mp h
        rw [if_neg hbackslash, if_neg hcontrol, ih List.not_mem_nil hlater]
        rfl

/-- What is left of a quoted text ends somewhere, and so does what protection makes of it, which is
checked with an outcome. What follows the quoted text is protected by itself. -/
def EndsShown (text kept : List Char) (width total start : Nat)
    (outcome : Except Fault (Nat × Nat)) : Prop :=
  ∃ body after shown stop, text = body ++ after ∧ total = width + body.length ∧
    kept = shown ++ protectEnd after ∧ outcome = .ok (stop, start + shown.length)

namespace EndsShown

variable {rest kept : List Char} {width total start : Nat}
  {outcome : Except Fault (Nat × Nat)}

theorem cons (c : Char) (h : EndsShown rest kept (width + 1) total (start + 1) outcome) :
    EndsShown (c :: rest) (c :: kept) width total start outcome := by
  obtain ⟨body, after, shown, stop, rfl, rfl, rfl, houtcome⟩ := h
  refine ⟨c :: body, after, c :: shown, stop, rfl, ?_, rfl, ?_⟩
  · rw [List.length_cons, Nat.add_assoc, Nat.add_comm 1]
  · rw [houtcome, List.length_cons, Nat.add_assoc, Nat.add_comm 1]

/-- A star that is kept away from the slash behind it. -/
theorem brokenEnd (h : EndsShown rest kept (width + 1) total (start + 2) outcome) :
    EndsShown ('*' :: rest) ('*' :: '\\' :: kept) width total start outcome := by
  obtain ⟨body, after, shown, stop, rfl, rfl, rfl, houtcome⟩ := h
  refine ⟨'*' :: body, after, '*' :: '\\' :: shown, stop, rfl, ?_, rfl, ?_⟩
  · rw [List.length_cons, Nat.add_assoc, Nat.add_comm 1]
  · rw [houtcome, List.length_cons, List.length_cons, Nat.add_assoc, Nat.add_comm 2]

end EndsShown

/-- A quoted text that is protected ends where the quoted text did, and what follows it is protected
by itself. -/
theorem checkText_protectEnd {pass width stop total : Nat} (hpass : '*' ∉ text.take pass)
    (h : checkText pass pos width text = .ok (stop, total)) (other start : Nat) :
    EndsShown text (protectEnd text) width total start
      (checkText pass other start (protectEnd text)) := by
  induction text generalizing pass pos other width start with
  | nil => cases h
  | cons c rest ih =>
    cases pass with
    | succ pass =>
      obtain ⟨hc, hrest⟩ := not_or.mp (mt List.mem_cons.mpr hpass)
      rw [checkText] at h
      rw [protectEnd_cons (Ne.symm hc), checkText]
      exact (ih hrest h (other + c.utf8Size) (start + 1)).cons c
    | zero =>
      rw [checkText] at h
      by_cases hend : c = '*' ∧ rest.head? = some '/'
      · obtain ⟨rfl, hslash⟩ := hend
        obtain ⟨more, rfl⟩ := List.head?_eq_some_iff.mp hslash
        have hpass : '*' ∉ ('/' :: more).take 0 := List.not_mem_nil
        have hlater := ih hpass h (other + 2) (start + 2)
        rw [protectEnd_cons (by decide)] at hlater
        rw [protectEnd, if_pos ⟨rfl, hslash⟩, protectEnd_cons (by decide), checkText_brokenEnd]
        exact hlater.brokenEnd
      · rw [protectEnd, if_neg hend, checkText]
        split at h
        · next hquote =>
          obtain ⟨-, rfl⟩ := Prod.mk.inj (Except.ok.inj h)
          exact ⟨[c], rest, [c], _, rfl, rfl, rfl, if_pos hquote⟩
        next hquote =>
        rw [if_neg hquote]
        split at h
        · next hbackslash =>
          split at h
          · next taken hescape =>
            obtain ⟨escape, after, hrest, hlength, hstar, hread⟩ :=
              exists_escape_of_checkEscape hescape
            have hpass : '*' ∉ rest.take taken := by
              rwa [hrest, ← hlength, List.take_left]
            have hlater : checkEscape (other + 1) (protectEnd rest) = .ok taken := by
              rw [hrest, protectEnd_append_of_notMem hstar]
              exact (checkEscape_append (hread 0) (other + 1) (protectEnd after)).1
            rw [if_pos hbackslash, hlater]
            exact (ih hpass h _ (start + 1)).cons c
          · cases h
        next hbackslash =>
        split at h
        · cases h
        next hcontrol =>
        rw [if_neg hbackslash, if_neg hcontrol]
        exact (ih List.not_mem_nil h _ (start + 1)).cons c

/-! ### Plain scalars -/

/-- A word is where it has been matched. -/
theorem exists_of_matchWord {letters : List Char} (h : matchWord pos letters text = .ok ()) :
    (∃ after, text = letters ++ after) ∧ ∀ other, matchWord other letters letters = .ok () := by
  induction letters generalizing pos text with
  | nil => exact ⟨⟨text, rfl⟩, fun other => rfl⟩
  | cons letter letters ih =>
    cases text with
    | nil => cases h
    | cons c rest =>
      rw [matchWord] at h
      split at h
      · next hc =>
        obtain ⟨⟨after, rfl⟩, hletters⟩ := ih h
        refine ⟨⟨after, by rw [hc]; rfl⟩, fun other => ?_⟩
        rw [matchWord, if_pos rfl, hletters]
      · cases h

/-- A star or the end of the text comes next. -/
def StarNext (suffix : List Char) : Prop :=
  ∀ c ∈ suffix.head?, c = '*'

theorem StarNext.parting {suffix : List Char} (h : StarNext suffix) : Parting suffix := by
  intro c hc
  rw [h c hc]
  decide

namespace Numeral

variable {offset : Nat} {suffix : List Char}

/-! A star is no part of a numeral, so a numeral in front of one can be read by itself. -/

theorem requireDigits_of_append (hsuffix : StarNext suffix) {digits : List Nat}
    (h : requireDigits offset (text ++ suffix) = .ok digits) :
    requireDigits offset text = .ok digits := by
  cases text with
  | nil =>
    cases suffix with
    | nil => exact h
    | cons c rest =>
      obtain rfl := hsuffix c rfl
      cases h
  | cons c rest =>
    rw [List.cons_append, requireDigits] at h
    split at h
    · next hc =>
      rw [requireDigits, if_pos hc, ← (digitsOf_append hsuffix.parting (c :: rest)).1]
      exact h
    · cases h

theorem scanExponent_of_append (hsuffix : StarNext suffix) {exponent : Option Exponent}
    (h : scanExponent offset (text ++ suffix) = .ok exponent) :
    scanExponent offset text = .ok exponent := by
  cases text with
  | nil =>
    cases suffix with
    | nil => exact h
    | cons c rest =>
      obtain rfl := hsuffix c rfl
      exact h
  | cons c rest =>
    rw [scanExponent.eq_def]
    rw [List.cons_append, scanExponent.eq_def] at h
    dsimp only at h ⊢
    split at h
    · next hc =>
      rw [if_pos hc]
      cases rest with
      | nil =>
        cases suffix with
        | nil => exact h
        | cons d more =>
          obtain rfl := hsuffix d rfl
          cases h
      | cons sign more =>
        dsimp only [List.cons_append] at h ⊢
        split at h
        · next hsign =>
          obtain ⟨digits, hdigits, rfl⟩ := map_eq_ok.mp h
          rw [if_pos hsign, requireDigits_of_append hsuffix hdigits]
          rfl
        · next hsign =>
          obtain ⟨digits, hdigits, rfl⟩ := map_eq_ok.mp h
          rw [← List.cons_append] at hdigits
          rw [if_neg hsign, requireDigits_of_append hsuffix hdigits]
          rfl
    · next hc => exact (if_neg hc).trans h

theorem scanTail_of_append (hsuffix : StarNext suffix) {negative : Bool} {whole : List Nat}
    {numeral : Numeral} (h : scanTail negative whole offset (text ++ suffix) = .ok numeral) :
    scanTail negative whole offset text = .ok numeral := by
  rw [scanTail.eq_def] at h ⊢
  cases text with
  | nil =>
    cases suffix with
    | nil => exact h
    | cons c rest =>
      obtain rfl := hsuffix c rfl
      exact h
  | cons c rest =>
    dsimp only [List.cons_append] at h ⊢
    split at h
    · next hpoint =>
      obtain ⟨fraction, hfraction, h⟩ := bind_eq_ok.mp h
      obtain ⟨exponent, hexponent, h⟩ := bind_eq_ok.mp h
      rw [(digitsOf_append hsuffix.parting rest).2] at hexponent
      rw [if_pos hpoint, requireDigits_of_append hsuffix hfraction]
      show scanExponent _ _ >>= _ = _
      rw [scanExponent_of_append hsuffix hexponent]
      exact h
    · next hpoint =>
      obtain ⟨exponent, hexponent, h⟩ := bind_eq_ok.mp h
      rw [← List.cons_append] at hexponent
      rw [if_neg hpoint, scanExponent_of_append hsuffix hexponent]
      exact h

theorem scan_of_append (hsuffix : StarNext suffix) {numeral : Numeral}
    (h : scan (text ++ suffix) = .ok numeral) : scan text = .ok numeral := by
  cases text with
  | nil =>
    cases suffix with
    | nil => exact h
    | cons c rest =>
      obtain rfl := hsuffix c rfl
      cases h
  | cons c rest =>
    have hlength : (if (c :: rest).head? = some '-' then 1 else 0) ≤ (c :: rest).length := by
      rw [List.length_cons]
      split <;> omega
    rw [scan] at h ⊢
    rw [List.cons_append, List.head?_cons, ← List.head?_cons (l := rest), ← List.cons_append,
      List.drop_append_of_le_length hlength] at h
    obtain ⟨whole, hwhole, h⟩ := bind_eq_ok.mp h
    rw [requireDigits_of_append hsuffix hwhole]
    show (if _ then _ else _) = _
    split at h
    · cases h
    · next hzero =>
      rw [(digitsOf_append hsuffix.parting _).2] at h
      rw [if_neg hzero, scanTail_of_append hsuffix h]

end Numeral

/-! ### Tokens -/

/-- A number ends before the first star, so it stays as it is. -/
theorem numberToken_protectEnd {c : Char}
    (h : (numberToken pos (c :: rest)).lexeme.isSound = true) (other : Nat) :
    ∃ body after shown, rest = body ++ after ∧ protectEnd rest = shown ++ protectEnd after ∧
      (numberToken pos (c :: rest)).width - 1 = body.length ∧
      (numberToken other (c :: protectEnd rest)).width - 1 = shown.length ∧
      (numberToken pos (c :: rest)).lexeme.Leads
        (numberToken other (c :: protectEnd rest)).lexeme := by
  have hsplit : rest.takeWhile (· ≠ '*') ++ rest.dropWhile (· ≠ '*') = rest :=
    List.takeWhile_append_dropWhile
  generalize hfront : rest.takeWhile (· ≠ '*') = front at hsplit
  generalize hsuffix : rest.dropWhile (· ≠ '*') = suffix at hsplit
  have hstar : '*' ∉ front := by
    intro hmem
    rw [← hfront] at hmem
    simpa using List.mem_takeWhile_imp hmem
  have hnext : StarNext suffix := by
    intro d hd
    have hhead := List.head?_dropWhile_not (· ≠ '*') rest
    rw [hsuffix, Option.mem_def.mp hd] at hhead
    simpa using hhead
  have hlater : StarNext (protectEnd suffix) := by
    rw [StarNext, head?_protectEnd]
    exact hnext
  have hprotected : protectEnd rest = front ++ protectEnd suffix := by
    rw [← hsplit, protectEnd_append_of_notMem hstar]
  rw [numberToken] at h
  split at h
  · cases h
  next numeral hscan =>
  have hread := hscan
  rw [← hsplit, ← List.cons_append] at hscan
  have halone := Numeral.scan_of_append hnext hscan
  obtain ⟨hscan', hwidth⟩ := Numeral.scan_append halone hlater.parting
  rw [List.length_cons] at hwidth
  rw [List.cons_append, ← hprotected] at hscan'
  have hparts : front.take (numeral.width - 1) ++ front.drop (numeral.width - 1) = front :=
    List.take_append_drop _ _
  have hlength : numeral.width - 1 = (front.take (numeral.width - 1)).length := by
    rw [List.length_take]
    omega
  refine ⟨front.take (numeral.width - 1), front.drop (numeral.width - 1) ++ suffix,
    front.take (numeral.width - 1), ?_, ?_, ?_, ?_, ?_⟩
  · rw [← List.append_assoc, hparts, hsplit]
  · rw [protectEnd_append_of_notMem fun hmem => hstar (List.mem_of_mem_drop hmem),
      ← List.append_assoc, hparts, hprotected]
  · rw [numberToken, hread]
    exact hlength
  · rw [numberToken, hscan']
    exact hlength
  · rw [numberToken, numberToken, hread, hscan']
    refine .plain fun value hvalue => ?_
    split at hvalue
    · exact hvalue
    · cases hvalue

/-- A sound token in a protected text: it reads as well as it did, and what follows it is protected
by itself. -/
theorem tokenAt_protectEnd {c : Char} (h : (tokenAt pos c rest).lexeme.isSound = true)
    (other : Nat) :
    ∃ body after shown, rest = body ++ after ∧ protectEnd rest = shown ++ protectEnd after ∧
      (tokenAt pos c rest).width - 1 = body.length ∧
      (tokenAt other c (protectEnd rest)).width - 1 = shown.length ∧
      (tokenAt pos c rest).lexeme.Leads (tokenAt other c (protectEnd rest)).lexeme := by
  rcases tokenAt_cases c with ⟨mark, hmark⟩ | htext | ⟨value, letters, halpha, hword⟩ | hnumber |
    hstray
  · rw [hmark, hmark]
    exact ⟨[], rest, [], rfl, rfl, rfl, rfl, .mark mark⟩
  · rw [htext] at h ⊢
    rw [htext]
    rw [textToken] at h
    split at h
    · next stop width hcheck =>
      obtain ⟨body, after, shown, later, hbody, rfl, hshown, hlater⟩ :=
        checkText_protectEnd List.not_mem_nil hcheck (other + 1) 1
      refine ⟨body, after, shown, hbody, hshown, ?_, ?_, ?_⟩
      · rw [textToken, hcheck]
        exact Nat.add_sub_cancel_left 1 body.length
      · rw [textToken, hlater]
        exact Nat.add_sub_cancel_left 1 shown.length
      · rw [textToken, textToken, hcheck, hlater]
        refine .text fun value hvalue => ?_
        obtain ⟨read, hread, rfl⟩ := map_eq_ok.mp hvalue
        rw [readText_protectEnd List.not_mem_nil hread]
        rfl
    · cases h
  · rw [hword] at h ⊢
    rw [hword]
    have hstar : '*' ∉ letters := fun hmem => absurd (halpha _ hmem) (by decide)
    cases hmatch : matchWord (pos + 1) letters rest with
    | error fault =>
      rw [wordToken, hmatch] at h
      cases h
    | ok matched =>
      obtain ⟨⟨after, rfl⟩, hletters⟩ := exists_of_matchWord hmatch
      have hprotected := protectEnd_append_of_notMem hstar after
      have hlater := (matchWord_append (hletters 0) (other + 1) (protectEnd after)).1
      refine ⟨letters, after, letters, rfl, hprotected, ?_, ?_, ?_⟩
      · exact Nat.add_sub_cancel_left 1 letters.length
      · exact Nat.add_sub_cancel_left 1 letters.length
      · rw [hprotected, wordToken, wordToken, hmatch, hlater]
        exact .plain fun _ hvalue => hvalue
  · rw [hnumber] at h ⊢
    rw [hnumber]
    exact numberToken_protectEnd h other
  · rw [hstray] at h
    cases h

/-- **The tokens of a protected text** read as well as those of the text. -/
theorem tokensFrom_protectEnd (text : List Char) (pos other : Nat)
    (h : ∀ token ∈ tokensFrom 0 pos text, token.lexeme.isSound = true) :
    List.Forall₂ (fun token later => token.lexeme.Leads later.lexeme) (tokensFrom 0 pos text)
      (tokensFrom 0 other (protectEnd text)) := by
  match text with
  | [] => exact .nil
  | c :: rest =>
    have hc : c ≠ '*' := by
      rintro rfl
      cases h _ List.mem_cons_self
    rw [protectEnd_cons hc]
    rw [tokensFrom] at h ⊢
    rw [tokensFrom]
    by_cases hgap : isGap c = true
    · rw [if_pos hgap] at h ⊢
      rw [if_pos hgap]
      exact tokensFrom_protectEnd rest _ _ h
    rw [if_neg hgap] at h ⊢
    rw [if_neg hgap]
    dsimp only at h ⊢
    have hsound : (tokenAt pos c rest).lexeme.isSound = true := by
      by_contra hbroken
      rw [if_neg hbroken] at h
      exact hbroken (h _ List.mem_cons_self)
    obtain ⟨body, after, shown, hbody, hshown, hwidth, hwidth', hleads⟩ :=
      tokenAt_protectEnd hsound other
    have hshorter : after.length < (c :: rest).length := by
      rw [hbody, List.length_cons, List.length_append]
      omega
    rw [if_pos hsound] at h ⊢
    rw [if_pos hleads.isSound]
    refine .cons hleads ?_
    have hrest := fun token htoken => h token (List.mem_cons_of_mem _ htoken)
    have hpassed : ∀ place, tokensFrom body.length place rest =
        tokensFrom 0 (place + Text.byteLength body) after := fun place => by
      rw [hbody, tokensFrom_pass]
    rw [hwidth, hpassed] at hrest ⊢
    rw [hwidth', hshown, tokensFrom_pass]
    exact tokensFrom_protectEnd after _ _ hrest
termination_by text.length

/-! ### Values -/

/-- **A text that reads as a value reads as the same value when it is protected.** -/
theorem Value.ofText_protectEnd {value : Value} (h : ofText text = .ok value) :
    ofText (protectEnd text) = .ok value := by
  obtain ⟨written, hwritten, -⟩ := exists_written_of_ofText h
  obtain ⟨tree, hrun, htree⟩ := run_of_written? hwritten
  have hgoes : ¬ ((State.value []).run (tokens text)).IsBroken := hrun ▸ id
  have htokens := tokensFrom_protectEnd text 0 0 (State.isSound_of_run hgoes)
  have hlater : State.Leads [] (.after tree []) ((State.value []).run (tokens (protectEnd text))) :=
    hrun ▸ State.Leads.run (.value .nil) htokens hgoes
  obtain ⟨other, hother, hrun'⟩ := hlater.exists_after
  have hprotected : written? (protectEnd text) = some written := by
    rw [written?, hrun']
    exact (hother written htree).1
  obtain ⟨root, byte, hroot, hwrites⟩ := (writes_of_written? hwritten).ofText
  obtain ⟨root', byte', hroot', hwrites'⟩ := (writes_of_written? hprotected).ofText
  rw [ofText, hroot, TextTree.close_eq rfl] at h
  rw [ofText, hroot', TextTree.close_eq rfl]
  exact hwrites.value_eq hwrites' h

end Json

end SchemaTypes
