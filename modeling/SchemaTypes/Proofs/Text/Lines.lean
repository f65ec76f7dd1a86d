import SchemaTypes.Text.Lines
import Mathlib.Data.List.TakeWhile

/-!
# Lines, written and read

A text that is written line by line has a line feed behind each line. Splitting it at its line feeds
gives the lines back as long as none of them holds a line feed itself. The lines that a text is
taken apart into never do.

## Main definitions

* `Text.unlines`: lines as they are written
* `Text.IsLines`: what the lines of a text have to be
* `Text.IsTrimmed`: what is left of a text without the breaks around it

## Main results

* `Text.splitOn_unlines`: lines that are written can be read back
* `Text.notMem_of_mem_lines`: no line holds a line feed
* `Text.infix_of_mem_lines`: a line is a piece of its text
* `Text.isLines_lines`, `Text.isTrimmed_trimBreaks`: lines are taken apart and breaks are left out
  as they have to be
-/

namespace SchemaTypes

namespace Text

/-- Lines as they are written, with a line feed behind each. -/
def unlines : List String → String
  | [] => ""
  | line :: rest => line ++ "\n" ++ unlines rest

@[simp] theorem unlines_nil : unlines [] = "" := rfl

@[simp] theorem unlines_cons (line : String) (rest : List String) :
    unlines (line :: rest) = line ++ "\n" ++ unlines rest := rfl

@[simp] theorem unlines_append (xs ys : List String) :
    unlines (xs ++ ys) = unlines xs ++ unlines ys := by
  induction xs with
  | nil => simp
  | cons line rest ih => simp [ih, String.append_assoc]

/-- **Lines that are written can be read back**, if no line feed is part of a line. What follows the
last of them is empty. -/
theorem splitOn_unlines {lines : List String} (h : ∀ line ∈ lines, '\n' ∉ line.toList) :
    (unlines lines).toList.splitOn '\n' = lines.map String.toList ++ [[]] := by
  induction lines with
  | nil => rfl
  | cons line rest ih =>
    obtain ⟨hline, hrest⟩ := List.forall_mem_cons.mp h
    have hwritten : (unlines (line :: rest)).toList =
        line.toList ++ '\n' :: (unlines rest).toList := by simp
    rw [hwritten, List.splitOn_append_cons_self_of_not_mem hline, ih hrest, List.map_cons,
      List.cons_append]

/-- No line holds a line feed. -/
theorem notMem_of_mem_lines {text line : List Char} (h : line ∈ lines text) : '\n' ∉ line := by
  induction text generalizing line with
  | nil => simp at h
  | cons c cs ih =>
    rw [lines] at h
    split at h
    · rcases List.mem_cons.mp h with rfl | h
      · exact List.not_mem_nil
      · exact ih h
    · rename_i hc
      split at h
      · exact ih h
      · split at h
        · obtain rfl := List.mem_singleton.mp h
          simpa using fun heq => hc heq.symm
        · rename_i first rest hlines
          rw [hlines] at ih
          rcases List.mem_cons.mp h with rfl | h
          · have hfirst := ih List.mem_cons_self
            simpa [hfirst] using fun heq => hc heq.symm
          · exact ih (List.mem_cons_of_mem first h)

/-- A text starts with its first line. -/
theorem prefix_of_lines_eq_cons {text line : List Char} {rest : List (List Char)}
    (h : lines text = line :: rest) : line <+: text := by
  induction text generalizing line rest with
  | nil => cases h
  | cons c cs ih =>
    rw [lines] at h
    split at h
    · rw [← (List.cons.inj h).1]
      exact List.nil_prefix
    · split at h
      · next hbreak =>
        -- the line feed behind the carriage return ends an empty line
        obtain ⟨tail, rfl⟩ := List.head?_eq_some_iff.mp hbreak.2
        rw [lines_break] at h
        rw [← (List.cons.inj h).1]
        exact List.nil_prefix
      · split at h
        · rw [← (List.cons.inj h).1, List.cons_prefix_cons]
          exact ⟨rfl, List.nil_prefix⟩
        · next first after hlines =>
          rw [← (List.cons.inj h).1, List.cons_prefix_cons]
          exact ⟨rfl, ih hlines⟩

/-- A line is a piece of its text. -/
theorem infix_of_mem_lines {text line : List Char} (h : line ∈ lines text) : line <:+: text := by
  induction text generalizing line with
  | nil => simp at h
  | cons c cs ih =>
    have hstart := @prefix_of_lines_eq_cons (c :: cs)
    rw [lines] at h hstart
    split at h
    · rcases List.mem_cons.mp h with rfl | h
      · exact List.nil_infix
      · exact List.infix_cons (ih h)
    · next hc =>
      rw [if_neg hc] at hstart
      split at h
      · exact List.infix_cons (ih h)
      · next hreturn =>
        rw [if_neg hreturn] at hstart
        split at h
        · next hlines =>
          rw [hlines] at hstart
          obtain rfl := List.mem_singleton.mp h
          exact (hstart rfl).isInfix
        · next first rest hlines =>
          rw [hlines] at hstart ih
          rcases List.mem_cons.mp h with rfl | h
          · exact (hstart rfl).isInfix
          · exact List.infix_cons (ih (List.mem_cons_of_mem first h))

/-! ### What the lines of a text are -/

/-- The lines of a text: each ends at a line feed, and a carriage return in front of the line feed
belongs to the break. Behind the last line feed stands a last line, unless nothing stands there. -/
inductive IsLines : List Char → List (List Char) → Prop
  | nil : IsLines [] []
  | last {line : List Char} (h : '\n' ∉ line) (hne : line ≠ []) : IsLines line [line]
  | feed {line rest : List Char} {lines : List (List Char)} (h : '\n' ∉ line)
      (hreturn : line.getLast? ≠ some '\r') (hrest : IsLines rest lines) :
      IsLines (line ++ '\n' :: rest) (line :: lines)
  | returnFeed {line rest : List Char} {lines : List (List Char)} (h : '\n' ∉ line)
      (hrest : IsLines rest lines) : IsLines (line ++ '\r' :: '\n' :: rest) (line :: lines)

/-- A character that breaks no line stands in front of the first line. -/
theorem lines_cons {c : Char} {text first : List Char} {more : List (List Char)} (hc : c ≠ '\n')
    (hreturn : ¬ (c = '\r' ∧ text.head? = some '\n')) (h : lines text = first :: more) :
    lines (c :: text) = (c :: first) :: more := by
  rw [lines, if_neg hc, if_neg hreturn, h]

/-- So do characters that break no line. -/
theorem lines_append_of_notMem {line text first : List Char} {more : List (List Char)}
    (hline : '\n' ∉ line) (hreturn : line.getLast? = some '\r' → text.head? ≠ some '\n')
    (h : lines text = first :: more) : lines (line ++ text) = (line ++ first) :: more := by
  induction line with
  | nil => exact h
  | cons c rest ih =>
    obtain ⟨hc, hrest⟩ := not_or.mp (mt List.mem_cons.mpr hline)
    cases rest with
    | nil =>
      refine lines_cons (Ne.symm hc) ?_ h
      rintro ⟨rfl, hfeed⟩
      exact hreturn rfl hfeed
    | cons next rest =>
      rw [List.getLast?_cons_cons] at hreturn
      refine lines_cons (Ne.symm hc) ?_ (ih hrest hreturn)
      rintro ⟨-, hfeed⟩
      exact hrest (Option.some.inj hfeed ▸ List.mem_cons_self)

/-- A line that no carriage return ends, with its line feed. -/
theorem lines_feed {line : List Char} (hline : '\n' ∉ line)
    (hreturn : line.getLast? ≠ some '\r') (rest : List Char) :
    lines (line ++ '\n' :: rest) = line :: lines rest := by
  rw [lines_append_of_notMem hline (fun h => absurd h hreturn) (lines_break rest), List.append_nil]

/-- A line with a carriage return and a line feed. -/
theorem lines_returnFeed {line : List Char} (hline : '\n' ∉ line) (rest : List Char) :
    lines (line ++ '\r' :: '\n' :: rest) = line :: lines rest := by
  have hbreak : lines ('\r' :: '\n' :: rest) = [] :: lines rest := by
    rw [lines, if_neg (by decide), if_pos ⟨rfl, rfl⟩, lines_break]
  have hhead : ('\r' :: '\n' :: rest).head? ≠ some '\n' := by simp
  rw [lines_append_of_notMem hline (fun _ => hhead) hbreak, List.append_nil]

/-- A text without line feeds is a line. -/
theorem lines_last {line : List Char} (hline : '\n' ∉ line) (hne : line ≠ []) :
    lines line = [line] := by
  obtain ⟨front, c, rfl⟩ := (List.eq_nil_or_concat line).resolve_left hne
  rw [List.concat_eq_append, List.mem_append, List.mem_singleton, not_or] at hline
  have hlast : lines [c] = [[c]] := by simp [lines, Ne.symm hline.2]
  rw [List.concat_eq_append]
  refine lines_append_of_notMem hline.1 (fun _ hfeed => ?_) hlast
  exact hline.2 (Option.some.inj hfeed).symm

/-- **The lines of a text** are what they have to be. -/
theorem isLines_lines (text : List Char) : IsLines text (lines text) := by
  by_cases hfeed : '\n' ∈ text
  · obtain ⟨line, rest, htext, hline⟩ := List.eq_append_cons_of_mem hfeed
    have hshorter : rest.length < text.length := by
      rw [htext, List.length_append, List.length_cons]
      omega
    have hrest := isLines_lines rest
    by_cases hreturn : line.getLast? = some '\r'
    · obtain ⟨front, rfl⟩ := List.getLast?_eq_some_iff.mp hreturn
      have hfront : '\n' ∉ front := fun h => hline (List.mem_append_left _ h)
      rw [htext, List.append_assoc, List.singleton_append, lines_returnFeed hfront]
      exact .returnFeed hfront hrest
    · rw [htext, lines_feed hline hreturn]
      exact .feed hline hreturn hrest
  · by_cases hne : text = []
    · subst hne
      exact .nil
    · rw [lines_last hfeed hne]
      exact .last hfeed hne
termination_by text.length

/-- A line feed ends a line. -/
theorem lines_feed_ne_nil (front : List Char) : lines (front ++ ['\n']) ≠ [] := by
  induction front with
  | nil => exact List.cons_ne_nil _ _
  | cons c front ih =>
    rw [List.cons_append, lines]
    split
    · exact List.cons_ne_nil _ _
    · split
      · exact ih
      · split <;> exact List.cons_ne_nil _ _

/-- The lines behind a line feed have nothing to do with those before it. -/
theorem lines_append_feed (front rest : List Char) :
    lines (front ++ '\n' :: rest) = lines (front ++ ['\n']) ++ lines rest := by
  induction front with
  | nil => rw [List.nil_append, List.nil_append, lines_break, lines_break, lines_nil]; rfl
  | cons c front ih =>
    rw [List.cons_append, List.cons_append]
    by_cases hfeed : c = '\n'
    · rw [hfeed, lines_break, lines_break, ih, List.cons_append]
    · have hhead : (front ++ '\n' :: rest).head? = (front ++ ['\n']).head? := by
        cases front <;> rfl
      rw [lines, lines, if_neg hfeed, if_neg hfeed, hhead, ih]
      split
      · rfl
      · cases hlines : lines (front ++ ['\n']) with
        | nil => exact absurd hlines (lines_feed_ne_nil front)
        | cons first more => rfl

/-! ### A text without the breaks around it -/

/-- A text that does not end with a break loses the one before it only. -/
theorem trimBreaks_break {text : List Char} (h : text.getLast? ≠ some '\n') :
    trimBreaks ('\n' :: text) = text := by
  rw [trimBreaks, if_pos rfl, dropTrailingBreaks]
  have hnone : text.reverse.dropWhile (· = '\n') = text.reverse := by
    cases hreverse : text.reverse with
    | nil => rfl
    | cons c rest =>
      refine List.dropWhile_cons_of_neg ?_
      rintro hc
      rw [← List.head?_reverse, hreverse, List.head?_cons] at h
      exact h (congrArg some (of_decide_eq_true hc))
  rw [hnone, List.reverse_reverse]

/-- A text less one leading line feed and all trailing ones. -/
structure IsTrimmed (text trimmed : List Char) : Prop where
  form : ∃ n, text = '\n' :: (trimmed ++ List.replicate n '\n') ∨
    text.head? ≠ some '\n' ∧ text = trimmed ++ List.replicate n '\n'
  last : trimmed.getLast? ≠ some '\n'

theorem exists_dropTrailingBreaks (text : List Char) :
    (∃ n, text = dropTrailingBreaks text ++ List.replicate n '\n') ∧
      (dropTrailingBreaks text).getLast? ≠ some '\n' := by
  constructor
  · refine ⟨(text.reverse.takeWhile (· = '\n')).length, ?_⟩
    have hbreaks : text.reverse.takeWhile (· = '\n') =
        List.replicate (text.reverse.takeWhile (· = '\n')).length '\n' :=
      List.eq_replicate_of_mem fun c hc => by simpa using List.mem_takeWhile_imp hc
    rw [dropTrailingBreaks, ← List.reverse_replicate, ← hbreaks, ← List.reverse_append,
      List.takeWhile_append_dropWhile, List.reverse_reverse]
  · rw [dropTrailingBreaks, List.getLast?_reverse]
    intro hfeed
    have hhead := List.head?_dropWhile_not (· = '\n') text.reverse
    rw [hfeed] at hhead
    simp at hhead

theorem isTrimmed_trimBreaks (text : List Char) : IsTrimmed text (trimBreaks text) := by
  cases text with
  | nil => exact ⟨⟨0, .inr ⟨by simp, rfl⟩⟩, by simp [trimBreaks]⟩
  | cons c rest =>
    obtain ⟨⟨n, hform⟩, hlast⟩ := exists_dropTrailingBreaks (if c = '\n' then rest else c :: rest)
    refine ⟨⟨n, ?_⟩, hlast⟩
    rw [trimBreaks, ← hform]
    split
    · next hc => exact .inl (by rw [hc])
    · next hc => exact .inr ⟨fun h => hc (Option.some.inj h), rfl⟩

end Text

end SchemaTypes
