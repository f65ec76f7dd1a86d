import SchemaTypes.Json.Token
import SchemaTypes.Text.Literal

/-!
# Literals read back

A literal is written by escaping the characters of a text one after another, and the reader of JSON
texts undoes this: behind the opening quote it gives the text back and stops at the closing quote.
So a literal ends where it is meant to, whatever the text holds and whatever follows, and no literal
is the beginning of another one.

## Main results

* `Json.readText_literal`: a literal reads back as its text
* `Json.tokensFrom_literal`: a literal among the tokens of a text
* `Text.literal_append_cancel`: two literals at the start of one text are the same
* `Text.le_of_mem_literal`: a literal holds no control character
-/

namespace SchemaTypes

namespace Json

/-! ### Escapes -/

theorem hexValue?_hexDigit {n : Nat} (h : n < 16) : hexValue? (Text.hexDigit n) = some n := by
  have hall : ∀ i : Fin 16, hexValue? (Text.hexDigit i) = some i.val := by decide
  exact hall ⟨n, h⟩

/-- Two zeros and two digits are the code of a character below 256. -/
theorem readUnit_hexDigit (pos : Nat) {n : Nat} (h : n < 256) (rest : List Char) :
    readUnit pos ('0' :: '0' :: Text.hexDigit (n / 16) :: Text.hexDigit (n % 16) :: rest) =
      .ok n := by
  have hzero : hexValue? '0' = some 0 := by decide
  have hhigh := hexValue?_hexDigit (show n / 16 < 16 by omega)
  have hlow := hexValue?_hexDigit (show n % 16 < 16 by omega)
  simp [readUnit, hzero, hhigh, hlow]
  omega

theorem le_hexDigit {n : Nat} (h : n < 16) : 0x20 ≤ (Text.hexDigit n).toNat := by
  have hall : ∀ i : Fin 16, 0x20 ≤ (Text.hexDigit i).toNat := by decide
  exact hall ⟨n, h⟩

/-- A character of a literal stands for itself, or a backslash announces an escape for it, which is
written without control characters. -/
theorem escape_cases (c : Char) :
    (Text.escape c = [c] ∧ c ≠ '"' ∧ c ≠ '\\' ∧ 0x20 ≤ c.toNat) ∨
      ∃ body, Text.escape c = '\\' :: body ∧ (∀ d ∈ body, 0x20 ≤ d.toNat) ∧
        ∀ pos rest, readEscape pos (body ++ rest) = .ok (c, body.length) ∧
          checkEscape pos (body ++ rest) = .ok body.length := by
  by_cases hquote : c = '"'
  · subst hquote
    exact .inr ⟨['"'], rfl, by simp, fun _ _ => ⟨rfl, rfl⟩⟩
  by_cases hbackslash : c = '\\'
  · subst hbackslash
    exact .inr ⟨['\\'], rfl, by simp, fun _ _ => ⟨rfl, rfl⟩⟩
  by_cases hcontrol : c.toNat < 0x20
  · right
    rw [Text.escape]
    rw [if_neg hquote, if_neg hbackslash]
    -- three of the letters are decided by the character, two by its code
    split
    · exact ⟨['n'], rfl, by simp, fun _ _ => by subst c; exact ⟨rfl, rfl⟩⟩
    split
    · exact ⟨['r'], rfl, by simp, fun _ _ => by subst c; exact ⟨rfl, rfl⟩⟩
    split
    · exact ⟨['t'], rfl, by simp, fun _ _ => by subst c; exact ⟨rfl, rfl⟩⟩
    split
    · next h =>
      rw [← Char.ofNat_toNat c, h]
      exact ⟨['b'], rfl, by simp, fun _ _ => ⟨rfl, rfl⟩⟩
    split
    · next h =>
      rw [← Char.ofNat_toNat c, h]
      exact ⟨['f'], rfl, by simp, fun _ _ => ⟨rfl, rfl⟩⟩
    have hhigh := le_hexDigit (show c.toNat / 16 < 16 by omega)
    have hlow := le_hexDigit (show c.toNat % 16 < 16 by omega)
    refine ⟨_, rfl, ?_, fun pos rest => ?_⟩
    · have hletters : ∀ d ∈ ['u', '0', '0'], 0x20 ≤ d.toNat := by simp
      exact List.forall_mem_append.mpr ⟨hletters, by simp [hhigh, hlow]⟩
    · have hunit := readUnit_hexDigit (pos + 1) (show c.toNat < 256 by omega) rest
      simp [readEscape, checkEscape, hunit, bind, Except.bind, Except.map, isSecondHalf,
        isFirstHalf, show ¬ 0xDC00 ≤ c.toNat by omega, show ¬ 0xD800 ≤ c.toNat by omega]
  · left
    refine ⟨?_, hquote, hbackslash, Nat.not_lt.mp hcontrol⟩
    have hne : ∀ d : Char, d.toNat < 0x20 → c ≠ d := fun d hd heq => hcontrol (heq ▸ hd)
    simp [Text.escape, hquote, hbackslash, hcontrol, hne '\n' (by decide), hne '\r' (by decide),
      hne '\t' (by decide), show c.toNat ≠ 8 by omega, show c.toNat ≠ 12 by omega]

/-! ### Reading a literal -/

/-- The characters of an escape are passed over once it is read. -/
theorem readText_pass (pos : Nat) (body rest : List Char) :
    readText body.length pos (body ++ rest) =
      readText 0 (pos + Text.byteLength body) rest := by
  induction body generalizing pos with
  | nil => rfl
  | cons c body ih =>
    rw [List.length_cons, List.cons_append, readText, ih, Text.byteLength, Nat.add_assoc]

/-- An escaped character is read as the character. -/
theorem readText_escape (pos : Nat) (c : Char) (rest : List Char) :
    readText 0 pos (Text.escape c ++ rest) =
      (readText 0 (pos + Text.byteLength (Text.escape c)) rest).map (c :: ·) := by
  rcases escape_cases c with ⟨hself, hquote, hbackslash, hcontrol⟩ | ⟨body, hbody, -, hread⟩
  · rw [hself, List.singleton_append, readText, if_neg hquote, if_neg hbackslash,
      if_neg (Nat.not_lt.mpr hcontrol)]
    rfl
  · have hsize : pos + Text.byteLength ('\\' :: body) = pos + 1 + Text.byteLength body := by
      rw [Text.byteLength, ← Nat.add_assoc]
      rfl
    rw [hbody, List.cons_append, readText, if_neg (by decide), if_pos rfl, (hread _ _).1, hsize,
      ← readText_pass]

/-- **A literal reads back as its text**, from behind the opening quote, whatever follows it. -/
theorem readText_literal (pos : Nat) (text rest : List Char) :
    readText 0 pos (text.flatMap Text.escape ++ '"' :: rest) = .ok text := by
  induction text generalizing pos with
  | nil => rfl
  | cons c text ih =>
    rw [List.flatMap_cons, List.append_assoc, readText_escape, ih]
    rfl

/-! ### A literal among the tokens -/

theorem checkText_pass (pos width : Nat) (body rest : List Char) :
    checkText body.length pos width (body ++ rest) =
      checkText 0 (pos + Text.byteLength body) (width + body.length) rest := by
  induction body generalizing pos width with
  | nil => rfl
  | cons c body ih =>
    rw [List.length_cons, List.cons_append, checkText, ih, Text.byteLength, Nat.add_assoc,
      Nat.add_assoc, Nat.add_comm 1]

theorem checkText_escape (pos width : Nat) (c : Char) (rest : List Char) :
    checkText 0 pos width (Text.escape c ++ rest) =
      checkText 0 (pos + Text.byteLength (Text.escape c)) (width + (Text.escape c).length)
        rest := by
  rcases escape_cases c with ⟨hself, hquote, hbackslash, hcontrol⟩ | ⟨body, hbody, -, hread⟩
  · rw [hself, List.singleton_append, checkText, if_neg hquote, if_neg hbackslash,
      if_neg (Nat.not_lt.mpr hcontrol)]
    rfl
  · have hsize : pos + Text.byteLength ('\\' :: body) = pos + 1 + Text.byteLength body := by
      rw [Text.byteLength, ← Nat.add_assoc]
      rfl
    rw [hbody, List.cons_append, checkText, if_neg (by decide), if_pos rfl, (hread _ _).2, hsize,
      List.length_cons, Nat.add_comm body.length, ← Nat.add_assoc, ← checkText_pass]

/-- A literal ends with its quote, whatever it holds and whatever follows it. -/
theorem checkText_literal (pos width : Nat) (text rest : List Char) :
    ∃ stop, checkText 0 pos width (text.flatMap Text.escape ++ '"' :: rest) =
      .ok (stop, width + (text.flatMap Text.escape).length + 1) := by
  induction text generalizing pos width with
  | nil => exact ⟨pos + 1, rfl⟩
  | cons c text ih =>
    rw [List.flatMap_cons, List.append_assoc, checkText_escape, List.length_append,
      ← Nat.add_assoc]
    exact ih _ _

/-- What belongs to a token is passed over. -/
theorem tokensFrom_pass (pos : Nat) (body rest : List Char) :
    tokensFrom body.length pos (body ++ rest) =
      tokensFrom 0 (pos + Text.byteLength body) rest := by
  induction body generalizing pos with
  | nil => rfl
  | cons c body ih =>
    rw [List.length_cons, List.cons_append, tokensFrom, ih, Text.byteLength, Nat.add_assoc]

theorem tokensFrom_mark {c : Char} {mark : Mark} (hgap : isGap c = false)
    (hmark : Mark.ofChar? c = some mark) (pos : Nat) (rest : List Char) :
    tokensFrom 0 pos (c :: rest) =
      ⟨.mark mark, pos, pos + 1, 1⟩ :: tokensFrom 0 (pos + c.utf8Size) rest := by
  rw [tokensFrom, if_neg (Bool.eq_false_iff.mp hgap), tokenAt, hmark]
  rfl

/-- A literal is one token, which reads as its text. -/
theorem tokensFrom_literal (text : String) (pos : Nat) (rest : List Char) :
    ∃ token stop, tokensFrom 0 pos ((Text.literal text).toList ++ rest) =
        token :: tokensFrom 0 stop rest ∧
      token.lexeme = .text (.ok text) (.ok ()) := by
  obtain ⟨body, hbody⟩ : ∃ body, body = text.toList.flatMap Text.escape := ⟨_, rfl⟩
  have hliteral : (Text.literal text).toList ++ rest = '"' :: (body ++ '"' :: rest) := by
    rw [hbody, Text.literal, String.toList_ofList, List.cons_append, List.append_assoc,
      List.singleton_append]
  obtain ⟨stop, hcheck⟩ := checkText_literal (pos + 1) 1 text.toList rest
  have htoken : textToken pos (body ++ '"' :: rest) =
      ⟨.text (.ok text) (.ok ()), pos, stop, 1 + body.length + 1⟩ := by
    rw [hbody, textToken, hcheck, readText_literal]
    show Token.mk (.text (.ok (String.ofList text.toList)) _) _ _ _ = _
    rw [String.ofList_toList]
  have hpass : tokensFrom (1 + body.length + 1 - 1) (pos + 1) (body ++ '"' :: rest) =
      tokensFrom 0 (pos + 1 + Text.byteLength (body ++ ['"'])) rest := by
    rw [← tokensFrom_pass, List.append_assoc, List.length_append, Nat.add_comm 1]
    rfl
  rw [hliteral, tokensFrom, if_neg (by decide)]
  have hfirst : tokenAt pos '"' (body ++ '"' :: rest) = textToken pos (body ++ '"' :: rest) := rfl
  dsimp only
  rw [hfirst, htoken]
  exact ⟨_, _, congrArg _ hpass, rfl⟩

end Json

namespace Text

/-! ### Literals as prefixes -/

theorem toList_literal (text : String) :
    (literal text).toList = '"' :: (text.toList.flatMap escape ++ ['"']) :=
  String.toList_ofList

/-- **Two literals at the start of one text are the same**, and so is what follows them. -/
theorem literal_append_cancel {s t : String} {xs ys : List Char}
    (h : (literal s).toList ++ xs = (literal t).toList ++ ys) : s = t ∧ xs = ys := by
  have hinside : s.toList.flatMap escape ++ '"' :: xs = t.toList.flatMap escape ++ '"' :: ys := by
    simpa [toList_literal] using h
  have hread := Json.readText_literal 0 s.toList xs
  rw [hinside, Json.readText_literal, Except.ok.injEq] at hread
  obtain rfl := String.toList_inj.mp hread
  exact ⟨rfl, List.append_cancel_left h⟩

/-- A character is escaped without control characters. -/
theorem le_of_mem_escape {c d : Char} (h : d ∈ escape c) : 0x20 ≤ d.toNat := by
  rcases Json.escape_cases c with ⟨hself, -, -, hcontrol⟩ | ⟨body, hbody, hprinted, -⟩
  · rw [hself, List.mem_singleton] at h
    rwa [h]
  · rw [hbody] at h
    rcases List.mem_cons.mp h with rfl | h
    · decide
    · exact hprinted d h

/-- A literal holds no control character. -/
theorem le_of_mem_literal {text : String} {c : Char} (h : c ∈ (literal text).toList) :
    0x20 ≤ c.toNat := by
  rw [toList_literal, List.mem_cons, List.mem_append, List.mem_flatMap, List.mem_singleton] at h
  rcases h with rfl | ⟨d, -, hd⟩ | rfl
  · decide
  · exact le_of_mem_escape hd
  · decide

end Text

end SchemaTypes
