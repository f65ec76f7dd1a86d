import SchemaTypes.Files.Content
import Mathlib.Data.List.DropRight

/-!
# Paths seen from the directory of a file

Settings say where a document lies as seen from their own directory. The program works on texts: it
cuts the last component off the path of the settings and puts the other path behind what is left.
Nothing is resolved on the way, so the text may go down and up again, repeat slashes and climb above
where it starts.

Here the text is followed instead. Joining two texts comes to following one path and then the other,
since no component spans a slash. Cutting a text comes to going back one name, but only if the last
component is a name: cut from a path that ends in two dots, the last component would have gone up
itself. What stands for nothing, behind the name or before it, is dropped by the cut and passed over
when the path is followed.

## Main definitions

* `Files.Place.child`: what has a name in a directory
* `Files.EndsIn`: a path that ends in a name

## Main results

* `Files.Place.followPath_join`: a joined path is followed part by part
* `Files.EndsIn.exists_parent?`: the parent of a path leads to the directory of its name
* `SettingsFile.followPath_inputPath`: where the path of the document leads
-/

namespace SchemaTypes

namespace Files

/-! ### Components -/

theorem components_eq_splitOn (path : List Char) : components path = path.splitOn '/' := by
  induction path with
  | nil => rfl
  | cons c rest ih =>
    rw [components, List.splitOn_cons_eq_if_modifyHead, ih]
    by_cases hc : c = '/'
    · rw [if_pos hc, if_pos (beq_iff_eq.mpr hc)]
    · obtain ⟨first, others, hrest⟩ :=
        List.exists_cons_of_ne_nil (List.splitOn_ne_nil '/' rest)
      rw [if_neg hc, if_neg (mt beq_iff_eq.mp hc), hrest]
      rfl

theorem ofComponents_eq_intercalate (parts : List (List Char)) :
    ofComponents parts = ['/'].intercalate parts := by
  induction parts with
  | nil => rfl
  | cons first others ih =>
    cases others with
    | nil => exact List.intercalate_singleton.symm
    | cons next more =>
      rw [List.intercalate_cons_cons, ← ih, ofComponents]
      · rw [List.append_assoc, List.singleton_append]
      · exact List.cons_ne_nil next more

/-- A slash parts the components in front of it from those behind it. -/
theorem components_append (front back : List Char) :
    components (front ++ '/' :: back) = components front ++ components back := by
  rw [components_eq_splitOn, components_eq_splitOn, components_eq_splitOn,
    List.splitOn_append_cons_self]

/-- A path of given components has these, if no slash is part of one. -/
theorem components_ofComponents {parts : List (List Char)} (hne : parts ≠ [])
    (h : ∀ part ∈ parts, '/' ∉ part) : components (ofComponents parts) = parts := by
  rw [components_eq_splitOn, ofComponents_eq_intercalate, List.splitOn_intercalate '/' h hne]

/-- A path has a first component. A slash in front of the path is behind an empty one, and any other
character is put in front of the first. -/
theorem exists_components (path : List Char) :
    ∃ first others, components path = first :: others ∧
      ∀ c, components (c :: path) =
        if c = '/' then [] :: first :: others else (c :: first) :: others := by
  obtain ⟨first, others, hpath⟩ := List.exists_cons_of_ne_nil (List.splitOn_ne_nil '/' path)
  rw [← components_eq_splitOn] at hpath
  refine ⟨first, others, hpath, fun c => ?_⟩
  rw [components, hpath]

/-- No slash is part of a component. -/
theorem notMem_of_mem_components {path part : List Char} (h : part ∈ components path) :
    '/' ∉ part := by
  induction path generalizing part with
  | nil =>
    obtain rfl := List.mem_singleton.mp h
    exact List.not_mem_nil
  | cons c rest ih =>
    obtain ⟨first, others, hrest, hcons⟩ := exists_components rest
    rw [hrest] at ih
    rw [hcons] at h
    split at h
    · rcases List.mem_cons.mp h with rfl | h
      · exact List.not_mem_nil
      · exact ih h
    · next hc =>
      rcases List.mem_cons.mp h with rfl | h
      · exact List.not_mem_cons_of_ne_of_not_mem (Ne.symm hc) (ih List.mem_cons_self)
      · exact ih (List.mem_cons_of_mem first h)

/-- The first component shows whether a path starts at the root. -/
theorem isAbsolute_iff {path first : List Char} {others : List (List Char)}
    (h : components path = first :: others) :
    isAbsolute path = true ↔ first = [] ∧ others ≠ [] := by
  cases path with
  | nil =>
    obtain ⟨rfl, rfl⟩ := List.cons.inj h
    simp [isAbsolute]
  | cons c rest =>
    obtain ⟨next, more, -, hcons⟩ := exists_components rest
    rw [hcons] at h
    split at h
    · next hc =>
      obtain ⟨rfl, rfl⟩ := List.cons.inj h
      simp [isAbsolute, hc]
    · next hc =>
      obtain ⟨rfl, rfl⟩ := List.cons.inj h
      simp [isAbsolute, hc]

/-! ### Components that stand for nothing -/

/-- What is trimmed stands for nothing. -/
theorem exists_trimVoid (parts : List (List Char)) :
    ∃ voids, parts = trimVoid parts ++ voids ∧ ∀ part ∈ voids, isVoid part = true :=
  ⟨parts.rtakeWhile isVoid, List.rdropWhile_append_rtakeWhile.symm,
    fun _ => List.mem_rtakeWhile_imp⟩

theorem trimVoid_eq_nil_iff {parts : List (List Char)} :
    trimVoid parts = [] ↔ ∀ part ∈ parts, isVoid part = true :=
  List.rdropWhile_eq_nil_iff

/-- Trimming stops at a name. -/
theorem trimVoid_append {name : List Char} {voids : List (List Char)} (front : List (List Char))
    (hname : isVoid name = false) (hvoids : ∀ part ∈ voids, isVoid part = true) :
    trimVoid (front ++ name :: voids) = front ++ [name] := by
  rw [trimVoid, List.reverse_append, List.reverse_cons, List.append_assoc,
    List.dropWhile_append_of_pos fun part hpart => hvoids part (List.mem_reverse.mp hpart),
    List.singleton_append, List.dropWhile_cons_of_neg (ne_true_of_eq_false hname),
    List.reverse_cons, List.reverse_reverse]

namespace Place

variable {place : Place}

/-- What has a name in a directory. -/
def child (directory : Place) (name : List Char) : Place :=
  { directory with names := name :: directory.names }

theorem follow_void {part : List Char} (h : isVoid part = true) : place.follow part = place :=
  if_pos h

theorem follow_name {name : List Char} (hname : isVoid name = false) (hne : name ≠ above) :
    place.follow name = place.child name := by
  rw [follow, if_neg (ne_true_of_eq_false hname), if_neg hne]
  rfl

theorem foldl_follow_voids {voids : List (List Char)} (h : ∀ part ∈ voids, isVoid part = true) :
    voids.foldl follow place = place := by
  induction voids with
  | nil => rfl
  | cons part rest ih =>
    obtain ⟨hpart, hrest⟩ := List.forall_mem_cons.mp h
    rw [List.foldl_cons, follow_void hpart, ih hrest]

/-- A name and what stands for nothing behind it. -/
theorem foldl_follow_name {name : List Char} {voids : List (List Char)} (place : Place)
    (hname : isVoid name = false) (hne : name ≠ above)
    (hvoids : ∀ part ∈ voids, isVoid part = true) :
    (name :: voids).foldl follow place = place.child name := by
  rw [List.foldl_cons, follow_name hname hne, foldl_follow_voids hvoids]

theorem foldl_follow_trimVoid (place : Place) (parts : List (List Char)) :
    (trimVoid parts).foldl follow place = parts.foldl follow place := by
  obtain ⟨voids, hparts, hvoids⟩ := exists_trimVoid parts
  conv_rhs => rw [hparts, List.foldl_append, foldl_follow_voids hvoids]

/-! ### Joining -/

theorem start_of_relative {path : List Char} (h : isAbsolute path = false) :
    place.start path = place := by
  rw [start, if_neg (ne_true_of_eq_false h)]

/-- A path with something behind it starts where it did. -/
theorem start_append {front : List Char} (back : List Char) (h : front ≠ []) :
    place.start (front ++ back) = place.start front := by
  cases front with
  | nil => exact absurd rfl h
  | cons c rest => rfl

/-- **A joined path is followed part by part.** -/
theorem followPath_join (place : Place) (directory : List Char) {path : List Char}
    (h : isAbsolute path = false) :
    place.followPath (join directory path) = (place.followPath directory).followPath path := by
  have hbehind : (place.followPath directory).followPath path =
      (components path).foldl follow (place.followPath directory) := by
    rw [followPath, start_of_relative h]
  rw [hbehind, join]
  split
  · next hends =>
    rcases List.eq_nil_or_concat directory with rfl | ⟨front, last, rfl⟩
    · exact hbehind
    · -- the slash at the end of the directory parts the two
      obtain rfl : last = '/' := by simpa using hends
      have hparts : components (front ++ ['/']) = components front ++ [[]] :=
        components_append front []
      rw [List.concat_eq_append, followPath, followPath, start_append path (by simp),
        List.append_assoc, List.singleton_append, components_append, hparts, List.foldl_append,
        List.foldl_append]
      rfl
  · next hends =>
    have hne : directory ≠ [] := fun hnil => hends (.inl (List.isEmpty_iff.mpr hnil))
    rw [followPath, followPath, start_append _ hne, components_append, List.foldl_append]

end Place

/-! ### The directory of a name -/

/-- A path ends in a name. Components behind the name stand for nothing, and do not count. -/
structure EndsIn (path name : List Char) : Prop where
  last : ∃ front voids, components path = front ++ name :: voids ∧
    ∀ part ∈ voids, isVoid part = true
  stands : isVoid name = false
  ne_above : name ≠ above

/-- A path that ends in two dots is no such path: what its parent leads to is below what it leads to
itself. -/
example :
    parent? "conf/..".toList = some "conf".toList ∧
      Place.ofPath "conf".toList = (Place.ofPath "conf/..".toList).child "conf".toList := by
  decide

/-- The parent of a name alone is the empty path. -/
theorem parent?_of_name {path name : List Char} {voids : List (List Char)}
    (h : components path = name :: voids) (hname : isVoid name = false)
    (hvoids : ∀ part ∈ voids, isVoid part = true) : parent? path = some [] := by
  have hne : ¬ name.isEmpty = true := by
    intro hempty
    rw [isVoid, hempty, Bool.true_or] at hname
    cases hname
  rw [parent?, h]
  simp only [trimVoid_eq_nil_iff.mpr hvoids, List.reverse_nil, if_neg hne]

/-- The parent of a path of several components that ends in a name. -/
theorem parent?_of_front {path first name : List Char} {more voids : List (List Char)}
    (h : components path = first :: (more ++ name :: voids)) (hname : isVoid name = false)
    (hvoids : ∀ part ∈ voids, isVoid part = true) :
    parent? path = some (if first.isEmpty ∧ (trimVoid more).isEmpty then ['/']
      else ofComponents (first :: trimVoid more)) := by
  rw [parent?, h]
  simp only [trimVoid_append more hname hvoids, List.reverse_append, List.reverse_singleton,
    List.singleton_append, List.reverse_reverse]
  split <;> rfl

/-- The path that is left leads where the components before the name lead. -/
theorem Place.followPath_front {path first : List Char} {more behind : List (List Char)}
    (h : components path = first :: (more ++ behind)) (hbehind : behind ≠ []) (place : Place) :
    place.followPath (if first.isEmpty ∧ (trimVoid more).isEmpty then ['/']
        else ofComponents (first :: trimVoid more)) =
      (first :: more).foldl follow (place.start path) := by
  have habsolute : isAbsolute path = true ↔ first = [] := by
    rw [isAbsolute_iff h, and_iff_left (List.append_ne_nil_of_right_ne_nil more hbehind)]
  split
  · next hroot =>
    -- nothing but the root is left of the path
    have hfirst : first = [] := List.isEmpty_iff.mp hroot.1
    have hmore := trimVoid_eq_nil_iff.mp (List.isEmpty_iff.mp hroot.2)
    have hvoids : ∀ part ∈ first :: more, isVoid part = true :=
      List.forall_mem_cons.mpr ⟨by rw [hfirst]; rfl, hmore⟩
    rw [foldl_follow_voids hvoids, start, if_pos (habsolute.mpr hfirst)]
    rfl
  · next hroot =>
    have hslash : ∀ part ∈ first :: trimVoid more, '/' ∉ part := by
      obtain ⟨voids, hvoids, -⟩ := exists_trimVoid more
      intro part hpart
      have hmem : part ∈ components path := by
        rw [h, hvoids, List.append_assoc, ← List.cons_append]
        exact List.mem_append_left _ hpart
      exact notMem_of_mem_components hmem
    have hparts := components_ofComponents (List.cons_ne_nil first _) hslash
    have hstart : place.start (ofComponents (first :: trimVoid more)) = place.start path := by
      refine if_congr ?_ rfl rfl
      rw [isAbsolute_iff hparts, habsolute, and_iff_left_iff_imp]
      exact fun hfirst hmore => hroot ⟨List.isEmpty_iff.mpr hfirst, List.isEmpty_iff.mpr hmore⟩
    rw [followPath, hparts, hstart, List.foldl_cons, List.foldl_cons, foldl_follow_trimVoid]

/-- **The parent of a path leads to the directory of its name**, from wherever the two are
followed. -/
theorem EndsIn.exists_parent? {path name : List Char} (h : EndsIn path name) :
    ∃ directory, parent? path = some directory ∧
      ∀ place : Place, place.followPath path = (place.followPath directory).child name := by
  obtain ⟨⟨front, voids, hparts, hvoids⟩, hname, hne⟩ := h
  cases front with
  | nil =>
    have hrelative : isAbsolute path = false := by
      rw [Bool.eq_false_iff, Ne, isAbsolute_iff hparts]
      rintro ⟨rfl, -⟩
      cases hname
    refine ⟨[], parent?_of_name hparts hname hvoids, fun place => ?_⟩
    rw [Place.followPath, Place.start_of_relative hrelative, hparts, List.nil_append,
      Place.foldl_follow_name place hname hne hvoids]
    rfl
  | cons first more =>
    refine ⟨_, parent?_of_front hparts hname hvoids, fun place => ?_⟩
    rw [Place.followPath_front hparts (List.cons_ne_nil name voids), Place.followPath, hparts,
      List.foldl_append, Place.foldl_follow_name _ hname hne hvoids]

end Files

open Files

namespace SettingsFile

/-- The path of the document is joined to the directory of the settings. -/
theorem inputPath_of_relative {file : SettingsFile} {directory : List Char}
    (hparent : parent? file.path.toList = some directory)
    (h : isAbsolute file.settings.inputPath.toList = false) :
    file.inputPath.toList = join directory file.settings.inputPath.toList := by
  simp only [inputPath, hparent]
  rw [if_neg (ne_true_of_eq_false h), String.toList_ofList]

/-- An absolute path stays as it is. -/
theorem inputPath_of_absolute {file : SettingsFile}
    (h : isAbsolute file.settings.inputPath.toList = true) :
    file.inputPath = file.settings.inputPath := by
  simp only [inputPath]
  split
  · exact if_pos h
  · rfl

/-- **Where the path of the document leads.** If the path of the settings ends in a name, it leads
to what has that name in some directory. A relative path of the document then leads where it leads
from this directory. That holds from every working directory, be it known or not. An absolute path
is left as it is, wherever the settings lie. -/
theorem followPath_inputPath (file : SettingsFile) :
    (∀ name, EndsIn file.path.toList name → isAbsolute file.settings.inputPath.toList = false →
      ∀ working : Place, ∃ directory : Place,
        working.followPath file.path.toList = directory.child name ∧
        working.followPath file.inputPath.toList =
          directory.followPath file.settings.inputPath.toList) ∧
    (isAbsolute file.settings.inputPath.toList = true →
      file.inputPath = file.settings.inputPath) := by
  refine ⟨fun name hname hrelative working => ?_, inputPath_of_absolute⟩
  obtain ⟨directory, hparent, hplace⟩ := hname.exists_parent?
  refine ⟨working.followPath directory, hplace working, ?_⟩
  rw [inputPath_of_relative hparent hrelative, Place.followPath_join working directory hrelative]

/-- Settings above the working directory, and a document above their directory. -/
def climbing : SettingsFile where
  path := "../conf//./site/swagdef.toml/."
  settings := { Settings.standard with inputPath := "../../api/./v1/..//schema.json" }

/-- The document of these settings, seen from the working directory. -/
theorem followPath_inputPath_climbing :
    EndsIn climbing.path.toList "swagdef.toml".toList ∧
      isAbsolute climbing.settings.inputPath.toList = false ∧
      climbing.inputPath = "../conf//./site/../../api/./v1/..//schema.json" ∧
      Place.ofPath climbing.inputPath.toList =
        ⟨.working 1, ["schema.json".toList, "api".toList]⟩ := by
  have hname : EndsIn climbing.path.toList "swagdef.toml".toList := by
    refine ⟨⟨["..".toList, "conf".toList, [], ".".toList, "site".toList], [".".toList], ?_, ?_⟩,
      ?_, ?_⟩ <;> decide
  have hrelative : isAbsolute climbing.settings.inputPath.toList = false := by decide
  obtain ⟨directory, hpath, hinput⟩ :=
    (followPath_inputPath climbing).1 _ hname hrelative .here
  have hdirectory : (Place.ofPath climbing.path.toList).parent = directory :=
    congrArg Place.parent hpath
  refine ⟨hname, hrelative, by decide, hinput.trans ?_⟩
  rw [← hdirectory]
  decide

end SettingsFile

end SchemaTypes
