import SchemaTypes.Failure
import Mathlib.Data.List.DropRight

/-!
# Labels at reported places

Lines are counted in two ways. The place of a byte is reported by looking at the bytes before it:
how many line feeds there are, and how far behind the last of them the byte lies. A label goes the
other way and adds up the lengths of whole lines, each with its line feed. The two agree at every
byte of every text, be it between the bytes of one character, behind a line feed, or at the end of a
last line that no line feed ends.

A column counts the bytes of its line that have been read, so the label is put at the byte before,
which is the one at fault. At the start of a line nothing has been read, and the label stays there
instead of moving into the line before.

## Main definitions

* `Text.bytes`: a text in UTF-8
* `Text.behindLastFeed`: where the line starts that bytes end in

## Main results

* `Text.ofByte_eq`: a place is reported by the line feeds before it
* `Text.bytesOfLines_linesBefore`: both ways of counting lines agree
* `Text.labelByte_reported`: a label stays in the line that is reported, and inside the text
* `Failure.label?_badDocument`: where the label of a fault in a document is put
-/

namespace SchemaTypes

namespace Text

/-! ### Line feeds in bytes -/

/-- A text in UTF-8. -/
def bytes (text : List Char) : List UInt8 :=
  text.flatMap String.utf8EncodeChar

/-- The byte of a line feed. -/
def lineFeed : UInt8 := 0x0A

/-- Where the line starts that bytes end in: behind their last line feed, or with the first of
them. -/
def behindLastFeed (front : List UInt8) : Nat :=
  (front.rdropWhile (· ≠ lineFeed)).length

@[simp] theorem length_bytes (text : List Char) : (bytes text).length = byteLength text := by
  induction text with
  | nil => rfl
  | cons c cs ih =>
    rw [bytes, List.flatMap_cons, List.length_append, String.length_utf8EncodeChar, byteLength,
      ← ih]
    rfl

theorem lineFeed_ne_ofNat {n : Nat} (h : n < 256) (hne : n ≠ 0x0A) :
    lineFeed ≠ UInt8.ofNat n := by
  intro heq
  have hvalue := congrArg UInt8.toNat heq
  rw [UInt8.toNat_ofNat_of_lt' h] at hvalue
  exact hne hvalue.symm

/-- A character that takes several bytes takes none below 128, so no other character has the byte of
a line feed in it. -/
theorem lineFeed_notMem {c : Char} (hc : c ≠ '\n') : lineFeed ∉ String.utf8EncodeChar c := by
  have hcode : c.val.toNat ≠ 0x0A := fun h => hc (Char.toNat_inj.mp h)
  intro h
  simp only [String.utf8EncodeChar] at h
  split at h
  · exact lineFeed_ne_ofNat (by omega) hcode (List.mem_singleton.mp h)
  split at h
  · simp only [List.mem_cons, List.not_mem_nil, or_false] at h
    rcases h with h | h <;> exact lineFeed_ne_ofNat (by omega) (by omega) h
  split at h
  · simp only [List.mem_cons, List.not_mem_nil, or_false] at h
    rcases h with h | h | h <;> exact lineFeed_ne_ofNat (by omega) (by omega) h
  · simp only [List.mem_cons, List.not_mem_nil, or_false] at h
    rcases h with h | h | h | h <;> exact lineFeed_ne_ofNat (by omega) (by omega) h

theorem take_bytes_feed (i : Nat) (cs : List Char) :
    (bytes ('\n' :: cs)).take (i + 1) = lineFeed :: (bytes cs).take i := rfl

theorem take_bytes_cons (i : Nat) (c : Char) (cs : List Char) :
    (bytes (c :: cs)).take i =
      (String.utf8EncodeChar c).take i ++ (bytes cs).take (i - c.utf8Size) := by
  rw [bytes, List.flatMap_cons, List.take_append, String.length_utf8EncodeChar]
  rfl

theorem lineFeed_notMem_take {c : Char} (hc : c ≠ '\n') (i : Nat) :
    lineFeed ∉ (String.utf8EncodeChar c).take i :=
  fun h => lineFeed_notMem hc (List.mem_of_mem_take h)

/-! ### Where a line starts -/

theorem behindLastFeed_of_notMem {front : List UInt8} (h : lineFeed ∉ front) :
    behindLastFeed front = 0 := by
  have hnil : front.rdropWhile (· ≠ lineFeed) = [] :=
    List.rdropWhile_eq_nil_iff.mpr fun b hb => decide_eq_true fun heq => h (heq ▸ hb)
  rw [behindLastFeed, hnil, List.length_nil]

/-- What stands in front of a line feed does not matter. -/
theorem behindLastFeed_append {back : List UInt8} (front : List UInt8) (h : lineFeed ∈ back) :
    behindLastFeed (front ++ back) = front.length + behindLastFeed back := by
  have hsome : ¬ (back.reverse.dropWhile (· ≠ lineFeed)).isEmpty = true := by
    simpa using h
  rw [behindLastFeed, behindLastFeed, List.rdropWhile, List.rdropWhile, List.reverse_append,
    List.dropWhile_append, if_neg hsome, List.reverse_append, List.reverse_reverse,
    List.length_append]

theorem behindLastFeed_feed (back : List UInt8) :
    behindLastFeed (lineFeed :: back) = 1 + behindLastFeed back := by
  have hdrop : (back.reverse ++ [lineFeed]).dropWhile (· ≠ lineFeed) =
      back.reverse.dropWhile (· ≠ lineFeed) ++ [lineFeed] := by
    rw [List.dropWhile_append]
    split
    · next h => rw [List.isEmpty_iff.mp h]; rfl
    · rfl
  rw [behindLastFeed, behindLastFeed, List.rdropWhile, List.rdropWhile, List.reverse_cons, hdrop,
    List.length_reverse, List.length_append, List.length_reverse, Nat.add_comm]
  rfl

theorem behindLastFeed_le (front : List UInt8) : behindLastFeed front ≤ front.length :=
  (List.rdropWhile_prefix _ front).length_le

/-- Behind the last line feed there is none. -/
theorem count_take {front : List UInt8} {i : Nat} (h : behindLastFeed front ≤ i) :
    (front.take i).count lineFeed = front.count lineFeed := by
  have hlast : lineFeed ∉ front.rtakeWhile (· ≠ lineFeed) := by
    intro hmem
    simpa using List.mem_rtakeWhile_imp hmem
  have hsplit : front.rdropWhile (· ≠ lineFeed) ++ front.rtakeWhile (· ≠ lineFeed) = front :=
    List.rdropWhile_append_rtakeWhile
  rw [behindLastFeed] at h
  rw [← hsplit, List.take_append, List.take_of_length_le h, List.count_append, List.count_append,
    List.count_eq_zero_of_not_mem hlast,
    List.count_eq_zero_of_not_mem fun hmem => hlast (List.mem_of_mem_take hmem)]

/-! ### The two ways of counting -/

/-- The line feeds before a byte. -/
theorem linesBefore_eq (i : Nat) (text : List Char) :
    linesBefore i text = ((bytes text).take i).count lineFeed := by
  induction text generalizing i with
  | nil => rw [linesBefore, bytes, List.flatMap_nil, List.take_nil, List.count_nil]
  | cons c cs ih =>
    rw [linesBefore]
    split
    · next hi => rw [hi, List.take_zero, List.count_nil]
    · next hi =>
      rw [ih]
      split
      · next hc =>
        obtain ⟨i, rfl⟩ := Nat.exists_eq_succ_of_ne_zero hi
        subst hc
        rw [take_bytes_feed, List.count_cons_self, Nat.add_comm]
        rfl
      · next hc =>
        rw [take_bytes_cons, List.count_append,
          List.count_eq_zero_of_not_mem (lineFeed_notMem_take hc i)]

/-- Where the line of a byte starts. -/
theorem lineStart_eq (i : Nat) (text : List Char) :
    lineStart i text = behindLastFeed ((bytes text).take i) := by
  induction text generalizing i with
  | nil => rw [lineStart, bytes, List.flatMap_nil, List.take_nil]; rfl
  | cons c cs ih =>
    rw [lineStart, linesBefore_eq]
    split
    · next hi => rw [hi, List.take_zero]; rfl
    · next hi =>
      by_cases hc : c = '\n'
      · obtain ⟨i, rfl⟩ := Nat.exists_eq_succ_of_ne_zero hi
        subst hc
        rw [if_pos (.inl rfl), take_bytes_feed, behindLastFeed_feed, ih]
        rfl
      · rw [take_bytes_cons]
        by_cases hfeed : lineFeed ∈ (bytes cs).take (i - c.utf8Size)
        · -- bytes behind the character are taken only after all of its own
          have hsize : c.utf8Size ≤ i := by
            refine Nat.le_of_not_lt fun hlt => ?_
            rw [Nat.sub_eq_zero_of_le hlt.le, List.take_zero] at hfeed
            exact List.not_mem_nil hfeed
          rw [if_pos (.inr (List.count_pos_iff.mpr hfeed)), behindLastFeed_append _ hfeed, ih,
            List.length_take, String.length_utf8EncodeChar, Nat.min_eq_right hsize]
        · rw [if_neg (not_or.mpr ⟨hc, mt List.count_pos_iff.mp hfeed⟩), behindLastFeed_of_notMem]
          exact List.not_mem_append (lineFeed_notMem_take hc i) hfeed

/-- **A place is reported by the line feeds before it.** -/
theorem ofByte_eq {text : List Char} {i : Nat} :
    LineColumn.ofByte text i =
      ⟨1 + ((bytes text).take i).count lineFeed, i - behindLastFeed ((bytes text).take i)⟩ := by
  rw [LineColumn.ofByte, linesBefore_eq, lineStart_eq]

/-- **Both ways of counting lines agree.** The lines that end before a byte take as many bytes as
there are before its own line. -/
theorem bytesOfLines_linesBefore (i : Nat) (text : List Char) :
    bytesOfLines (linesBefore i text) text = lineStart i text := by
  induction text generalizing i with
  | nil => rw [linesBefore, lineStart, bytesOfLines]
  | cons c cs ih =>
    rw [linesBefore, lineStart]
    split
    · rw [bytesOfLines]
    · by_cases hc : c = '\n'
      · rw [if_pos hc, if_pos (.inl hc), Nat.add_comm, bytesOfLines, if_pos hc, ih]
      · rw [if_neg hc, Nat.zero_add]
        -- the character belongs to the first of the lines that end before the byte, if one does
        cases hlines : linesBefore (i - c.utf8Size) cs with
        | zero => rw [if_neg (not_or.mpr ⟨hc, Nat.lt_irrefl 0⟩), bytesOfLines]
        | succ n => rw [if_pos (.inr n.succ_pos), bytesOfLines, if_neg hc, ← hlines, ih]

/-! ### Labels -/

/-- A label is put somewhere in the text. -/
theorem exists_labelByte (text : List Char) {place : LineColumn} (h : 1 ≤ place.line) :
    ∃ offset, labelByte text place = some offset ∧ offset ≤ byteLength text := by
  rw [labelByte, if_neg (Nat.ne_of_gt h)]
  exact ⟨_, rfl, Nat.min_le_right _ _⟩

/-- The label of a reported place is put at the byte before, or where the line starts. -/
theorem labelByte_ofByte {text : List Char} {i : Nat} (hi : i ≤ byteLength text) :
    labelByte text (LineColumn.ofByte text i) = some (max (lineStart i text) (i - 1)) := by
  have hstart : lineStart i text ≤ i := by
    rw [lineStart_eq]
    exact (behindLastFeed_le _).trans (List.length_take_le i _)
  have hlines : bytesOfLines (1 + linesBefore i text - 1) text = lineStart i text := by
    rw [Nat.add_sub_cancel_left, bytesOfLines_linesBefore]
  have hbyte : min (lineStart i text + (i - lineStart i text - 1)) (byteLength text) =
      max (lineStart i text) (i - 1) := by
    omega
  rw [labelByte, LineColumn.ofByte, if_neg (Nat.ne_of_gt (Nat.le_add_right 1 _)), hlines, hbyte]

/-- **A label stays in the line that is reported.** For a byte of a text, or its end, let the line
be counted by the line feeds before it, and let the line start behind the last of them. This is the
place that is reported, and its label is put at the byte before, unless the line has just started:
then it is put there. Either way it lies in the same line and not past the text. Any other line and
column that is asked for has a label in the text too. -/
theorem labelByte_reported (text : List Char) :
    (∀ i ≤ byteLength text,
      let before := (bytes text).take i
      let start := behindLastFeed before
      let place : LineColumn := ⟨1 + before.count lineFeed, i - start⟩
      let offset := max start (i - 1)
      LineColumn.ofByte text i = place ∧ labelByte text place = some offset ∧
        start ≤ offset ∧ (LineColumn.ofByte text offset).line = place.line ∧
        offset ≤ byteLength text) ∧
      ∀ place : LineColumn, 1 ≤ place.line →
        ∃ offset, labelByte text place = some offset ∧ offset ≤ byteLength text := by
  refine ⟨fun i hi => ?_, fun place => exists_labelByte text⟩
  intro before start place offset
  have hstart : start ≤ i := (behindLastFeed_le _).trans (List.length_take_le i _)
  have hplace : LineColumn.ofByte text i = place := ofByte_eq
  have hle : offset ≤ i := max_le hstart (Nat.sub_le i 1)
  have hlabel : labelByte text place = some offset := by
    rw [← hplace, labelByte_ofByte hi, lineStart_eq]
  refine ⟨hplace, hlabel, le_max_left _ _, ?_, hle.trans hi⟩
  -- between the start of the line and the byte there is no line feed
  have hcount : (before.take offset).count lineFeed = before.count lineFeed :=
    count_take (le_max_left _ _)
  rw [List.take_take, Nat.min_eq_left hle] at hcount
  rw [ofByte_eq, hcount]

/-- Behind the second line feed of a text whose first character takes two bytes, an empty line has
just started: its label stays in it. The label of the end of the text is put at the last byte. -/
theorem labelByte_reported_empty_line :
    let text := ['ä', '\n', '\n', 'b']
    (3 ≤ byteLength text ∧ LineColumn.ofByte text 3 = ⟨2, 0⟩ ∧ labelByte text ⟨2, 0⟩ = some 3) ∧
      (5 ≤ byteLength text ∧ LineColumn.ofByte text 5 = ⟨3, 1⟩ ∧ labelByte text ⟨3, 1⟩ = some 4) ∧
      ∃ offset, labelByte text ⟨9, 9⟩ = some offset ∧ offset ≤ 5 := by
  intro text
  obtain ⟨hreported, hall⟩ := labelByte_reported text
  have hempty : 3 ≤ byteLength text := by decide
  have hend : 5 ≤ byteLength text := by decide
  obtain ⟨hplace, hlabel, -⟩ := hreported 3 hempty
  obtain ⟨hplace', hlabel', -⟩ := hreported 5 hend
  exact ⟨⟨hempty, hplace, hlabel⟩, ⟨hend, hplace', hlabel'⟩, hall ⟨9, 9⟩ (by decide)⟩

end Text

namespace Failure

/-- A fault in a document has a label in the text, wherever it was noticed. -/
theorem exists_label_of_badDocument (file : String) (text : List Char) (fault : Json.Fault) :
    ∃ start, (badDocument file text fault).label? = some ⟨"parse error here", start, 0⟩ ∧
      start ≤ Text.byteLength text := by
  have hline : 1 ≤ (fault.place text).line := Nat.le_add_right 1 _
  obtain ⟨start, hstart, hle⟩ := Text.exists_labelByte text hline
  exact ⟨start, by rw [label?, hstart, Option.map_some], hle⟩

/-- The label of a fault that was noticed in a document is put at the byte before, or where the line
starts. -/
theorem label?_badDocument {text : List Char} {fault : Json.Fault} (file : String)
    (h : fault.byte ≤ Text.byteLength text) :
    (badDocument file text fault).label? =
      some ⟨"parse error here", max (Text.lineStart fault.byte text) (fault.byte - 1), 0⟩ := by
  rw [label?, Json.Fault.place, Text.labelByte_ofByte h, Option.map_some]

end Failure

end SchemaTypes
