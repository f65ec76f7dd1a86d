import SchemaTypes.Proofs.Json.Apart
import SchemaTypes.Proofs.Schema.HeldValues
import Mathlib

/-!
# Changes at one place of a document

Schema objects stand in maps, in lists and in the clauses of other schema objects, and each of these
can be told apart only from the place where it stands: a map of properties looks like a schema
object. A change of one schema object is a change of the document at one place. If the changed
schema object is read as before, or as something near to it, so is the whole document.

What stands below `additionalProperties` is read as a value first. So a change has to be one of the
value as well.

## Main definitions

* `Schema.Place`: what can stand at a place
* `Schema.Changed`: two contents differ by a change of one schema object
* `Schema.Tolerated`: a change of a schema object that a reader can bear
* `Schema.Clauses.Within`: two schema objects differ in one of the schema objects within

## Main results

* `Schema.Changed.follows_value`: a change of a content is a change of its value
* `Schema.Changed.follows_schema`: a change within a schema object
* `Schema.Changed.follows_document`: a change within a document
-/

namespace SchemaTypes

namespace Schema

open Json

/-! ### Places -/

/-- What can stand at a place of a document. -/
inductive Place
  | document
  | components
  /-- an object with schema objects under any keys -/
  | map
  /-- a list of schema objects -/
  | schemas
  | schema

namespace Place

/-- What stands in a clause of a schema object, if schema objects can stand there. -/
def ofClause? : Clause → Option Place
  | .properties | .additionalProperties => some map
  | .allOf => some schemas
  | .items => some schema
  | _ => none

/-- What stands in a field of a document. -/
def ofField : DocumentField → Place
  | .definitions => map
  | .components => components

/-- What stands under a key of an object. -/
def entry? : Place → String → Option Place
  | document, name => (documentRecord.ofKey? name).map ofField
  | components, name => (componentRecord.ofKey? name).map fun _ => map
  | map, _ => some schema
  | schemas, _ => none
  | schema, name => (Clause.ofKey? name).bind ofClause?

/-- What stands behind some items of a list. -/
def item? : Place → Nat → Option Place
  | document, index => documentRecord.fields[index]?.map ofField
  | components, index => componentRecord.fields[index]?.map fun _ => map
  | map, _ => none
  | schemas, _ => some schema
  | schema, index => Clause.all[index]?.bind ofClause?

end Place

/-- Two contents differ by a change of a schema object in one place. What is changed there depends
on how many more levels may be entered. -/
inductive Changed (change : Nat → Content → Content → Prop) :
    Place → Nat → Content → Content → Prop
  | here {room : Nat} {content other : Content} (h : change room content other) :
      Changed change .schema room content other
  | entry {place inner : Place} {room : Nat} {content other : Content} {name : String}
      (before after : List (Except Unit String × Content)) (hplace : place.entry? name = some inner)
      (h : Changed change inner room content other) :
      Changed change place (room + 1) (.object (before ++ (.ok name, content) :: after))
        (.object (before ++ (.ok name, other) :: after))
  | item {place inner : Place} {room : Nat} {content other : Content} (before after : List Content)
      (hplace : place.item? before.length = some inner)
      (h : Changed change inner room content other) :
      Changed change place (room + 1) (.list (before ++ content :: after))
        (.list (before ++ other :: after))

namespace Changed

variable {change : Nat → Content → Content → Prop} {place : Place} {room : Nat}
  {content other : Content}

theorem mono {weaker : Nat → Content → Content → Prop}
    (h : Changed change place room content other)
    (himp : ∀ room content other, change room content other → weaker room content other) :
    Changed weaker place room content other := by
  induction h with
  | here h => exact .here (himp _ _ _ h)
  | entry before after hplace _ ih => exact .entry before after hplace ih
  | item before after hplace _ ih => exact .item before after hplace ih

theorem symm {back : Nat → Content → Content → Prop}
    (h : Changed change place room content other)
    (himp : ∀ room content other, change room content other → back room other content) :
    Changed back place room other content := by
  induction h with
  | here h => exact .here (himp _ _ _ h)
  | entry before after hplace _ ih => exact .entry before after hplace ih
  | item before after hplace _ ih => exact .item before after hplace ih

end Changed

/-! ### Changes of values -/

/-- A change that can be made in both directions. -/
def Both (change : Nat → Content → Content → Prop) (room : Nat) (content other : Content) : Prop :=
  change room content other ∧ change room other content

/-- Two values are the same, or related as what they say. -/
def SameOr (r : Content → Content → Prop) (value other : Value) : Prop :=
  value = other ∨ r (.ofValue value) (.ofValue other)

/-- A change of a schema object that a reader can bear: if the schema object is read, it is read as
something near, and if its value is read, the value is changed in the same way. -/
structure Tolerated (change : Nat → Content → Content → Prop) (near : Clauses → Clauses → Prop) :
    Prop where
  isNull : ∀ {room content other}, change room content other → content.isNull = other.isNull
  schema : ∀ {room content other}, change room content other →
    Follows near (Forms.ofContent room content).schema (Forms.ofContent room other).schema
  value : ∀ {room content other}, change room content other →
    Follows (SameOr (Both change room)) (content.value room) (other.value room)

/-- Two objects differ under one key at most. -/
def ObjectApart (key : String) (r : Value → Value → Prop) (value other : Value) : Prop :=
  ∃ entries changed, value = .object entries ∧ other = .object changed ∧
    OneApart (AtKey key r) entries changed

/-- Two lists differ in the item behind the first `index` ones. -/
def ListApart (index : Nat) (r : Value → Value → Prop) (value other : Value) : Prop :=
  ∃ items changed, value = .array items ∧ other = .array changed ∧ ApartAt index r items changed

section Values

variable {r : Value → Value → Prop} {room : Nat} {content other : Content}

/-- An object is read entry by entry. -/
theorem follows_value_object {name : String} {before after : List (Except Unit String × Content)}
    (h : Follows r (content.value room) (other.value room)) :
    Follows (ObjectApart name r)
      ((Content.object (before ++ (.ok name, content) :: after)).value (room + 1))
      ((Content.object (before ++ (.ok name, other) :: after)).value (room + 1)) := by
  have hkeyed : Follows (AtKey name r) (Content.keyed (Content.value room) (.ok name, content))
      (Content.keyed (Content.value room) (.ok name, other)) :=
    h.bind fun x y hxy read hread => ⟨(name, y), rfl, Except.ok.inj hread ▸ ⟨rfl, rfl, hxy⟩⟩
  rw [Content.value_object, Content.value_object, Content.valueEntries_eq, Content.valueEntries_eq]
  exact ((hkeyed.mapM.map fun _ _ hpairs => hpairs.oneApart.collect).map
    fun entries changed hentries => ⟨entries, changed, rfl, rfl, hentries⟩).enter (room + 1)

/-- A list is read item by item. -/
theorem follows_value_list {before after : List Content}
    (h : Follows r (content.value room) (other.value room)) :
    Follows (ListApart before.length r)
      ((Content.list (before ++ content :: after)).value (room + 1))
      ((Content.list (before ++ other :: after)).value (room + 1)) := by
  rw [Content.value, Content.value, Content.values_eq, Content.values_eq]
  exact (h.mapM.map fun items changed hitems => ⟨items, changed, rfl, rfl, hitems⟩).enter (room + 1)

/-- Objects with related values under one key are related if what they say is. -/
theorem ObjectApart.sameOr {name : String} {s : Content → Content → Prop} {value changed : Value}
    (h : ObjectApart name r value changed)
    (himp : ∀ x y, r x y → x = y ∨ ∀ before after,
      s (.object (before ++ (.ok name, .ofValue x) :: after))
        (.object (before ++ (.ok name, .ofValue y) :: after))) : SameOr s value changed := by
  obtain ⟨entries, others, rfl, rfl, h⟩ := h
  cases h with
  | same => exact .inl rfl
  | @apart before x y after h =>
    obtain ⟨key, x⟩ := x
    obtain ⟨key', y⟩ := y
    obtain ⟨rfl, hkey, hr⟩ := h
    obtain rfl : key' = key := hkey
    rcases himp x y hr with heq | hs
    · exact .inl (by rw [show x = y from heq])
    · refine .inr ?_
      rw [Content.ofValue, Content.ofValue, Content.ofEntries_append, Content.ofEntries_append]
      exact hs _ _

/-- Lists with related values in one place are related if what they say is. -/
theorem ListApart.sameOr {index : Nat} {s : Content → Content → Prop} {value changed : Value}
    (h : ListApart index r value changed)
    (himp : ∀ x y, r x y → x = y ∨ ∀ before after, before.length = index →
      s (.list (before ++ .ofValue x :: after)) (.list (before ++ .ofValue y :: after))) :
    SameOr s value changed := by
  obtain ⟨items, others, rfl, rfl, before, x, y, after, hlength, rfl, rfl, hr⟩ := h
  rcases himp x y hr with heq | hs
  · exact .inl (by rw [heq])
  · refine .inr ?_
    rw [Content.ofValue, Content.ofValue, Content.ofValues_append, Content.ofValues_append]
    exact hs _ _ (by rw [Content.ofValues_eq, List.length_map, hlength])

end Values

namespace Changed

variable {change : Nat → Content → Content → Prop} {near : Clauses → Clauses → Prop}
  {place : Place} {room : Nat} {content other : Content}

/-- Values that differ in an entry in which a schema object is changed. -/
theorem sameOr_object {inner : Place} {name : String} {value changed : Value}
    (hplace : place.entry? name = some inner)
    (h : ObjectApart name (SameOr (Changed change inner room)) value changed) :
    SameOr (Changed change place (room + 1)) value changed :=
  h.sameOr fun _ _ hsame => hsame.imp_right fun hchanged before after =>
    .entry before after hplace hchanged

theorem sameOr_list {inner : Place} {index : Nat} {value changed : Value}
    (hplace : place.item? index = some inner)
    (h : ListApart index (SameOr (Changed change inner room)) value changed) :
    SameOr (Changed change place (room + 1)) value changed :=
  h.sameOr fun _ _ hsame => hsame.imp_right fun hchanged before after hlength =>
    .item before after (hlength ▸ hplace) hchanged

/-- **A change of a content is a change of its value**, if it matters to the value at all. -/
theorem follows_value (htolerated : Tolerated change near)
    (h : Changed change place room content other) :
    Follows (SameOr (Changed (Both change) place room)) (content.value room)
      (other.value room) := by
  induction h with
  | here h =>
    exact (htolerated.value h).mono fun _ _ hvalues => hvalues.imp_right fun hboth => .here hboth
  | entry before after hplace h ih =>
    exact (follows_value_object ih).mono fun _ _ hobjects => sameOr_object hplace hobjects
  | item before after hplace h ih =>
    exact (follows_value_list ih).mono fun _ _ hlists => sameOr_list hplace hlists

theorem isNull (htolerated : Tolerated change near)
    (h : Changed change place room content other) : content.isNull = other.isNull := by
  cases h with
  | here h => exact htolerated.isNull h
  | entry => rfl
  | item => rfl

end Changed

/-! ### Changes of schema objects -/

/-- Two schema objects are the same, or near in one of the schema objects within. -/
inductive Clauses.Within (near : Clauses → Clauses → Prop) : Clauses → Clauses → Prop
  | same (clauses : Clauses) : Within near clauses clauses
  | here {clauses other : Clauses} (h : near clauses other) : Within near clauses other
  | property (clauses : Clauses) (name : String) {inner other : Clauses}
      (before after : ClauseMap) (h : Within near inner other) :
      Within near { clauses with properties := some (before ++ (name, inner) :: after) }
        { clauses with properties := some (before ++ (name, other) :: after) }
  | part (clauses : Clauses) {inner other : Clauses} (before after : List Clauses)
      (h : Within near inner other) :
      Within near { clauses with allOf := some (before ++ inner :: after) }
        { clauses with allOf := some (before ++ other :: after) }
  | item (clauses : Clauses) {inner other : Clauses} (h : Within near inner other) :
      Within near { clauses with items := some inner } { clauses with items := some other }
  | opened (clauses : Clauses) (name : String) {inner other : Clauses} (before after : ClauseMap)
      (h : Within near inner other) :
      Within near { clauses with additional := some (.entries (before ++ (name, inner) :: after)) }
        { clauses with additional := some (.entries (before ++ (name, other) :: after)) }

namespace Clauses.Within

variable {near : Clauses → Clauses → Prop} (clauses : Clauses)

theorem properties {found changed : Option ClauseMap}
    (h : Option.Rel (OneApart (SameKey (Within near))) found changed) :
    Within near { clauses with properties := found } { clauses with properties := changed } := by
  cases h with
  | none => exact .same _
  | some h =>
    cases h with
    | same => exact .same _
    | @apart before x y after h =>
      obtain ⟨name, x⟩ := x
      obtain ⟨name', y⟩ := y
      obtain ⟨rfl, h⟩ := h
      exact .property clauses name before after h

theorem allOf {found changed : Option (List Clauses)}
    (h : Option.Rel (OneApart (Within near)) found changed) :
    Within near { clauses with allOf := found } { clauses with allOf := changed } := by
  cases h with
  | none => exact .same _
  | some h =>
    cases h with
    | same => exact .same _
    | apart before after h => exact .part clauses before after h

theorem additional {found changed : Option (Additional Clauses)}
    (h : Option.Rel (fun read result => ∃ entries others, read = .entries entries ∧
      result = .entries others ∧ OneApart (SameKey (Within near)) entries others) found changed) :
    Within near { clauses with additional := found } { clauses with additional := changed } := by
  cases h with
  | none => exact .same _
  | some h =>
    obtain ⟨entries, others, rfl, rfl, h⟩ := h
    cases h with
    | same => exact .same _
    | @apart before x y after h =>
      obtain ⟨name, x⟩ := x
      obtain ⟨name', y⟩ := y
      obtain ⟨rfl, h⟩ := h
      exact .opened clauses name before after h

theorem items {found changed : Option Clauses} (h : Option.Rel (Within near) found changed) :
    Within near { clauses with items := found } { clauses with items := changed } := by
  cases h with
  | none => exact .same _
  | some h => exact .item clauses h

end Clauses.Within

/-- A source is `null` if the other one is, and has a form that follows. -/
theorem follows_optional {α : Type} {r : α → α → Prop} {forms other : Forms Unit}
    {form changed : Except Unit α} (hnull : forms.isNull = other.isNull)
    (h : Follows r form changed) :
    Follows (Option.Rel r) (forms.optional form) (other.optional changed) := by
  rw [Forms.optional, Forms.optional, hnull]
  split
  · exact fun read hread => ⟨none, rfl, Except.ok.inj hread ▸ .none⟩
  · exact h.map fun _ _ hr => .some hr

theorem isNull_ofContent (room : Nat) (content : Content) :
    (Forms.ofContent room content).isNull = content.isNull := by
  cases room <;> rfl

theorem additional_ofContent (room : Nat) (content : Content) :
    (Forms.ofContent room content).additional =
      (content.value room).map Additional.ofValue := by
  cases room <;> rfl

namespace Clauses

/-- A schema object with one clause of another one. -/
def copy (clause : Clause) (source clauses : Clauses) : Clauses :=
  match clause with
  | .description => { clauses with description := source.description }
  | .sample => { clauses with sample := source.sample }
  | .declaredType => { clauses with declaredType := source.declaredType }
  | .properties => { clauses with properties := source.properties }
  | .allOf => { clauses with allOf := source.allOf }
  | .additionalProperties => { clauses with additional := source.additional }
  | .items => { clauses with items := source.items }
  | .values => { clauses with values := source.values }
  | .reference => { clauses with reference := source.reference }
  | .nullable => { clauses with nullable := source.nullable }

theorem copy_comm {clause other : Clause} (h : clause ≠ other) (source more clauses : Clauses) :
    copy other more (copy clause source clauses) =
      copy clause source (copy other more clauses) := by
  cases clause <;> cases other <;> first | exact absurd rfl h | rfl

/-- A clause is not changed by copying another one. -/
theorem copy_copy_of_ne {clause other : Clause} (h : other ≠ clause) (source clauses : Clauses) :
    copy clause (copy other source clauses) empty = copy clause clauses empty := by
  cases clause <;> cases other <;> first | exact absurd rfl h | rfl

/-- To fill a clause is to read it into an empty schema object and to copy it from there. -/
theorem fill_eq_copy {ε : Type} (clauses : Clauses) (clause : Clause) (source : Forms ε) :
    clauses.fill clause source =
      (empty.fill clause source).map fun read => copy clause read clauses := by
  cases clause <;> rw [fill, fill] <;> cases source.optional _ <;> rfl

theorem commutes_fill (room : Nat) :
    Commutes fun (clauses : Clauses) clause part => clauses.fill clause (.ofContent room part) :=
  commutes_of_copy (fun clauses clause _ => clauses.fill_eq_copy clause _)
    fun _ _ hne _ _ _ => copy_comm hne _ _ _

end Clauses

namespace Changed

variable {change : Nat → Content → Content → Prop} {near : Clauses → Clauses → Prop}
  {room : Nat} {content other : Content}

/-- Schema objects of which one is changed are read as schema objects of which one is near. -/
def FollowsSchema (change : Nat → Content → Content → Prop) (near : Clauses → Clauses → Prop)
    (room : Nat) : Prop :=
  ∀ {content other : Content}, Changed change .schema room content other →
    Follows (Clauses.Within near) (Forms.ofContent room content).schema
      (Forms.ofContent room other).schema

/-- A change in a map of schema objects. -/
theorem follows_schemaMap (hschema : ∀ less < room, FollowsSchema change near less)
    (h : Changed change .map room content other) :
    Follows (OneApart (SameKey (Clauses.Within near))) (Forms.ofContent room content).schemaMap
      (Forms.ofContent room other).schemaMap := by
  cases h with
  | @entry _ inner room content other name before after hplace h =>
    obtain rfl := Option.some.inj hplace
    have hkeyed : Follows (AtKey name (Clauses.Within near))
        (Content.keyed (fun part => (Forms.ofContent room part).schema) (.ok name, content))
        (Content.keyed (fun part => (Forms.ofContent room part).schema) (.ok name, other)) :=
      (hschema room (Nat.lt_succ_self room) h).bind fun x y hxy read hread =>
        ⟨(name, y), rfl, Except.ok.inj hread ▸ ⟨rfl, rfl, hxy⟩⟩
    exact hkeyed.mapM.map fun _ _ hpairs => hpairs.oneApart.collect.mono fun _ _ hkey =>
      ⟨hkey.left.trans hkey.right.symm, hkey.item⟩
  | item before after hplace h => cases hplace

/-- A change in a list of schema objects. -/
theorem follows_schemas (hschema : ∀ less < room, FollowsSchema change near less)
    (h : Changed change .schemas room content other) :
    Follows (OneApart (Clauses.Within near)) (Forms.ofContent room content).schemas
      (Forms.ofContent room other).schemas := by
  cases h with
  | entry before after hplace h => cases hplace
  | @item _ inner room content other before after hplace h =>
    obtain rfl := Option.some.inj hplace
    show Follows _
      ((before ++ content :: after).mapM fun part => (Forms.ofContent room part).schema)
      ((before ++ other :: after).mapM fun part => (Forms.ofContent room part).schema)
    refine Follows.mono (Follows.mapM ?_) fun _ _ hitems => hitems.oneApart
    exact hschema room (Nat.lt_succ_self room) h

/-- The entry of `additionalProperties` that a keyed value is, if it is accepted. -/
def accepted (entry : String × Value) : Option (String × Clauses) :=
  (Clauses.ofValue entry.2).toOption.map (Prod.mk entry.1)

/-- An entry in which a schema object is changed is accepted or refused as before. -/
theorem rel_accepted (hschema : FollowsSchema change near room) {name : String}
    {entry changed : String × Value}
    (h : AtKey name (fun value changed => value.Held room ∧ changed.Held room ∧
      SameOr (Changed (Both change) .schema room) value changed) entry changed) :
    Option.Rel (SameKey (Clauses.Within near)) (accepted entry) (accepted changed) := by
  obtain ⟨key, value⟩ := entry
  obtain ⟨key', other⟩ := changed
  obtain ⟨hleft, hright, hvalue, hother, hsame⟩ := h
  obtain rfl : key = name := hleft
  obtain rfl : key' = key := hright
  rw [accepted, accepted]
  dsimp only at hvalue hother hsame ⊢
  cases hsame with
  | inl h =>
    obtain rfl := h
    cases Clauses.ofValue value with
    | error => exact .none
    | ok clauses => exact .some ⟨rfl, .same clauses⟩
  | inr h =>
    have hforth := hschema (h.mono fun _ _ _ hboth => hboth.1)
    have hback := hschema (h.symm fun _ _ _ hboth => hboth.2)
    cases hread : Clauses.ofValue value with
    | ok clauses =>
      obtain ⟨result, hresult, hwithin⟩ := hforth clauses ((Clauses.ofValue_eq_ok hvalue).mp hread)
      rw [(Clauses.ofValue_eq_ok hother).mpr hresult]
      exact .some ⟨rfl, hwithin⟩
    | error cause =>
      cases hchanged : Clauses.ofValue other with
      | error => exact .none
      | ok clauses =>
        obtain ⟨result, hresult, -⟩ := hback clauses ((Clauses.ofValue_eq_ok hother).mp hchanged)
        exact nomatch hread.symm.trans ((Clauses.ofValue_eq_ok hvalue).mpr hresult)

/-- **A change in what `additionalProperties` says** leaves every other entry as it is. -/
theorem follows_additional (htolerated : Tolerated change near)
    (hschema : ∀ less < room, FollowsSchema change near less)
    (h : Changed change .map room content other) :
    Follows (fun read result => ∃ entries changed, read = .entries entries ∧
        result = .entries changed ∧ OneApart (SameKey (Clauses.Within near)) entries changed)
      (Forms.ofContent room content).additional (Forms.ofContent room other).additional := by
  cases h with
  | @entry _ inner room content other name before after hplace h =>
    obtain rfl := Option.some.inj hplace
    rw [additional_ofContent, additional_ofContent]
    have hvalue : Follows
        (fun value changed => value.Held room ∧ changed.Held room ∧
          SameOr (Changed (Both change) .schema room) value changed)
        (content.value room) (other.value room) := by
      intro value hvalue
      obtain ⟨changed, hchanged, hsame⟩ := h.follows_value htolerated value hvalue
      exact ⟨changed, hchanged, Content.held_of_value room hvalue,
        Content.held_of_value room hchanged, hsame⟩
    refine (follows_value_object hvalue).map fun value changed hvalues => ?_
    obtain ⟨entries, others, rfl, rfl, hentries⟩ := hvalues
    exact ⟨_, _, Additional.ofValue_object entries, Additional.ofValue_object others,
      hentries.filterMap fun _ _ => rel_accepted (hschema room (Nat.lt_succ_self room))⟩
  | item before after hplace h => cases hplace

/-- **A change in a clause** of a schema object. -/
theorem follows_fill (htolerated : Tolerated change near)
    (hschema : ∀ less ≤ room, FollowsSchema change near less) {clause : Clause} {inner : Place}
    (hplace : Place.ofClause? clause = some inner)
    (h : Changed change inner room content other) (clauses : Clauses) :
    Follows (Clauses.Within near) (clauses.fill clause (.ofContent room content))
      (clauses.fill clause (.ofContent room other)) := by
  have hless : ∀ less < room, FollowsSchema change near less :=
    fun less hroom => hschema less (Nat.le_of_lt hroom)
  have hnull : (Forms.ofContent room content).isNull = (Forms.ofContent room other).isNull := by
    rw [isNull_ofContent, isNull_ofContent, h.isNull htolerated]
  cases clause <;> cases hplace
  case properties =>
    exact (follows_optional hnull (follows_schemaMap hless h)).map fun _ _ hfound =>
      .properties clauses hfound
  case allOf =>
    exact (follows_optional hnull (follows_schemas hless h)).map fun _ _ hfound =>
      .allOf clauses hfound
  case additionalProperties =>
    exact (follows_optional hnull (follows_additional htolerated hless h)).map fun _ _ hfound =>
      .additional clauses hfound
  case items =>
    exact (follows_optional hnull (hschema room (Nat.le_refl room) h)).map fun _ _ hfound =>
      .items clauses hfound

/-- **A change within a schema object.** -/
theorem follows_schema (htolerated : Tolerated change near) : FollowsSchema change near room := by
  induction room using Nat.strong_induction_on with
  | _ room ih =>
    intro content other h
    cases h with
    | here h => exact (htolerated.schema h).mono fun _ _ hnear => .here hnear
    | @entry _ inner room content other name before after hplace h =>
      obtain ⟨clause, hclause, hplace⟩ := Option.bind_eq_some_iff.mp hplace
      exact (follows_fieldsOf hclause).record (Clauses.commutes_fill room)
        (follows_fill htolerated (fun less hless => ih less (Nat.lt_succ_of_le hless)) hplace h)
        .empty
    | @item _ inner room content other before after hplace h =>
      obtain ⟨clause, hclause, hplace⟩ := Option.bind_eq_some_iff.mp hplace
      exact (follows_zip hclause Clause.ofKey?).record (Clauses.commutes_fill room)
        (follows_fill htolerated (fun less hless => ih less (Nat.lt_succ_of_le hless)) hplace h)
        .empty

end Changed

/-! ### Changes of documents -/

/-- Two documents name the same definitions, of which one may be near. -/
def DefinitionSources.Within (near : Clauses → Clauses → Prop) (sources other : DefinitionSources) :
    Prop :=
  Option.Rel (OneApart (SameKey (Clauses.Within near))) sources.chosen other.chosen

theorem DefinitionSources.Within.same {near : Clauses → Clauses → Prop}
    (sources : DefinitionSources) : sources.Within near sources := by
  rw [Within]
  cases sources.chosen with
  | none => exact .none
  | some definitions => exact .some (.same definitions)

/-- The only field of the components is filled in one order. -/
theorem commutes_components (room : Nat) :
    Commutes fun (_ : Option ClauseMap) (_ : ComponentField) part =>
      (Forms.ofContent room part).optional (Forms.ofContent room part).schemaMap :=
  fun _ field other _ _ hne => absurd (by cases field; cases other; rfl) hne

theorem DefinitionSources.commutes_fill (room : Nat) : Commutes (fill room) := by
  intro sources field other part more hne
  cases field <;> cases other <;> first | exact absurd rfl hne | dsimp only [fill]
  · cases (Forms.ofContent room part).optional (Forms.ofContent room part).schemaMap <;>
      cases (Forms.ofContent room more).optional (componentsOfContent room more) <;> rfl
  · cases (Forms.ofContent room part).optional (componentsOfContent room part) <;>
      cases (Forms.ofContent room more).optional (Forms.ofContent room more).schemaMap <;> rfl

namespace Changed

variable {change : Nat → Content → Content → Prop} {near : Clauses → Clauses → Prop}
  {room : Nat} {content other : Content}

/-- The components of a document in which a schema object is changed. -/
theorem follows_components (htolerated : Tolerated change near)
    (h : Changed change .components room content other) :
    Follows (Option.Rel (OneApart (SameKey (Clauses.Within near))))
      (componentsOfContent room content) (componentsOfContent room other) := by
  cases h with
  | @entry _ inner room content other name before after hplace h =>
    obtain ⟨field, hfield, rfl⟩ := Option.map_eq_some_iff.mp hplace
    refine ((follows_fieldsOf hfield).record (commutes_components room) (fun _ => ?_) none).enter
      (room + 1)
    exact follows_optional (by rw [isNull_ofContent, isNull_ofContent, h.isNull htolerated])
      (follows_schemaMap (fun _ _ => follows_schema htolerated) h)
  | @item _ inner room content other before after hplace h =>
    obtain ⟨field, hfield, rfl⟩ := Option.map_eq_some_iff.mp hplace
    refine ((follows_zip hfield componentRecord.ofKey?).record (commutes_components room)
      (fun _ => ?_) none).enter (room + 1)
    exact follows_optional (by rw [isNull_ofContent, isNull_ofContent, h.isNull htolerated])
      (follows_schemaMap (fun _ _ => follows_schema htolerated) h)

/-- A field of a document in which a schema object is changed. -/
theorem follows_sources (htolerated : Tolerated change near) {field : DocumentField}
    (h : Changed change (Place.ofField field) room content other) (sources : DefinitionSources) :
    Follows (DefinitionSources.Within near) (sources.fill room field content)
      (sources.fill room field other) := by
  have hnull : (Forms.ofContent room content).isNull = (Forms.ofContent room other).isNull := by
    rw [isNull_ofContent, isNull_ofContent, h.isNull htolerated]
  cases field with
  | definitions =>
    refine (follows_optional hnull (follows_schemaMap (fun _ _ => follows_schema htolerated) h)).map
      fun found changed hfound => ?_
    cases hfound with
    | none => exact .same _
    | some h => exact .some h
  | components =>
    refine (follows_optional hnull (follows_components htolerated h)).map
      fun found changed hfound => ?_
    obtain ⟨definitions, components⟩ := sources
    cases definitions with
    | some definitions => exact .some (.same definitions)
    | none =>
      cases hfound with
      | none => exact .none
      | some h => exact h

/-- **A change within a document.** -/
theorem follows_document (htolerated : Tolerated change near)
    (h : Changed change .document room content other) :
    Follows (DefinitionSources.Within near) (DefinitionSources.ofContent room content)
      (DefinitionSources.ofContent room other) := by
  cases h with
  | @entry _ inner room content other name before after hplace h =>
    obtain ⟨field, hfield, rfl⟩ := Option.map_eq_some_iff.mp hplace
    exact ((follows_fieldsOf hfield).record (DefinitionSources.commutes_fill room)
      (follows_sources htolerated h) {}).enter (room + 1)
  | @item _ inner room content other before after hplace h =>
    obtain ⟨field, hfield, rfl⟩ := Option.map_eq_some_iff.mp hplace
    exact ((follows_zip hfield documentRecord.ofKey?).record (DefinitionSources.commutes_fill room)
      (follows_sources htolerated h) {}).enter (room + 1)

/-- A text with a change within its document: if the one text is a document, so is the other one,
and of the definitions one may differ as schema objects that are near do. -/
theorem exists_document (htolerated : Tolerated change near) {alike : Node → Node → Prop}
    (hnode : ∀ {clauses changed}, Clauses.Within near clauses changed →
      alike (Node.ofClauses clauses) (Node.ofClauses changed))
    (h : Changed change .document maxDepth content other) {text changed : List Char}
    (htext : Content.ofText? text = some content) (hchanged : Content.ofText? changed = some other)
    {file : String} {document : Document} (hdocument : Document.ofText file text = .ok document) :
    ∃ result, Document.ofText file changed = .ok result ∧
      OneApart (SameKey alike) document.definitions result.definitions := by
  obtain ⟨sources, definitions, hsources, hchosen, rfl⟩ :=
    (Document.ofText_iff_ofContent htext file document).mp hdocument
  obtain ⟨result, hresult, hwithin⟩ := h.follows_document htolerated sources hsources
  rw [DefinitionSources.Within, hchosen] at hwithin
  cases hother : result.chosen with
  | none => rw [hother] at hwithin; cases hwithin
  | some others =>
    rw [hother] at hwithin
    cases hwithin with
    | some hwithin =>
      refine ⟨⟨Node.ofEntries others⟩, ?_, ?_⟩
      · exact (Document.ofText_iff_ofContent hchanged file _).mpr
          ⟨result, others, hresult, hother, rfl⟩
      · dsimp only
        rw [Node.ofEntries_eq, Node.ofEntries_eq]
        exact hwithin.map fun _ _ h => ⟨h.key, hnode h.item⟩

end Changed

end Schema

end SchemaTypes
