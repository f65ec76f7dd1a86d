import SchemaTypes.Proofs.Emission.Requests
import SchemaTypes.Proofs.Schema.Ingestion

/-!
# The clause order of types

A schema object is tagged by one order of its clauses and typed by another. The order of types looks
at items under the declared type array, then at an enum, then at properties under the declared type
object, then at a reference, and falls back on the declared type. Read off a schema object as it is
written, that order knows nothing of tags. Here it is written down so, and shown to be what comes
out when the object is first tagged and then resolved.

Nothing in the order as it is written down is taken from the way in which objects are tagged and
resolved. How a declared type is read and what becomes of a key are spelled out as well, and shown
to be the same.

## Main definitions

* `Schema.typeDeclared`: the type that the value of `type` declares
* `Schema.underscored`: a key with underscores for its dots and hyphens
* `Schema.Clauses.typeExpr`: the type of a schema object, read off its clauses
* `Emission.clauseRoute`: the clause that the type of a schema object follows

## Main results

* `Schema.Clauses.primitive_eq`: tagging reads the declared type as it is read here
* `Emission.route_ofClauses`: tagging leaves the clause that the type follows alone
* `Emission.resolve_ofClauses`: tagging and then resolving gives the type that the clauses say
-/

namespace SchemaTypes

namespace Schema

/-! ### The declared type -/

/-- The type with a name. Seven names are known, and any other is that of the unknown type. -/
def typeNamed : String → Primitive
  | "string" => .string
  | "integer" => .integer
  | "number" => .number
  | "boolean" => .boolean
  | "object" => .object
  | "array" => .array
  | "file" => .file
  | _ => .unknown

/-- The type that a list declares: the one whose name is the first text other than `null`. -/
def typeAmong : List Json.Value → Primitive
  | [] => .unknown
  | .text name :: rest => if name = "null" then typeAmong rest else typeNamed name
  | _ :: rest => typeAmong rest

/-- The type that the value of `type` declares, which is a name or a list. -/
def typeDeclared : Option Json.Value → Primitive
  | some (.text name) => typeNamed name
  | some (.array values) => typeAmong values
  | _ => .unknown

theorem Primitive.ofName_eq (name : String) : ofName name = typeNamed name := by
  rw [typeNamed.eq_def]
  split
  case h_8 =>
    -- a name that is none of the seven is not found
    simp_all [ofName, recognised, Primitive.name, eq_comm]
  all_goals decide

/-- The first text other than `null` names the type of a list. -/
theorem typeAmong_eq (values : List Json.Value) :
    typeAmong values =
      (((values.filterMap Clauses.textOf?).find? fun name => name ≠ "null").map
        Primitive.ofName).getD .unknown := by
  induction values with
  | nil => rfl
  | cons value rest ih =>
    cases value with
    | text name =>
      have htext : (Json.Value.text name :: rest).filterMap Clauses.textOf? =
          name :: rest.filterMap Clauses.textOf? := rfl
      rw [typeAmong, ih, htext, List.find?_cons]
      by_cases hnull : name = "null"
      · simp [hnull]
      · simp [hnull, Primitive.ofName_eq]
    | _ => exact ih

/-- Tagging reads the declared type as it is read here. -/
theorem Clauses.primitive_eq (clauses : Clauses) :
    clauses.primitive = typeDeclared clauses.declaredType := by
  rw [Clauses.primitive, Clauses.typeName]
  cases clauses.declaredType with
  | none => rfl
  | some value =>
    cases value with
    | text name => exact Primitive.ofName_eq name
    | array values =>
      dsimp only
      rw [typeDeclared, typeAmong_eq]
      cases (values.filterMap Clauses.textOf?).find? fun name => name ≠ "null" <;> rfl
    | _ => rfl

/-! ### Keys -/

/-- A key with underscores for its dots and hyphens. -/
def underscored (key : String) : String :=
  String.ofList (key.toList.map fun c => if c = '.' ∨ c = '-' then '_' else c)

theorem normalizeKey_eq (key : String) : TypeScript.normalizeKey key = underscored key := rfl

/-! ### The clause order -/

namespace Clauses

open TypeScript

mutual

/-- The type of a schema object that belongs to the property `key` of the definition `owner`: the
first clause that applies decides. -/
def typeExpr (owner key : String) : Clauses → TypeExpr
  | ⟨_, _, declaredType, properties, _, _, items, values, reference, _⟩ =>
    let type := typeDeclared declaredType
    match type, items with
    | .array, some item => .array (typeExpr owner key item)
    | _, _ =>
      if values.isSome then .named (owner ++ key)
      else
        match type, properties with
        | .object, some entries => .object (memberExprs owner entries)
        | _, _ =>
          match reference with
          | some path => .named (lastSegment path)
          | none => .primitive type

/-- The members of an object that is spelled out in place. The type of a member belongs to the name
of the member, not to the key of the property. -/
def memberExprs (owner : String) : List (String × Clauses) → List (String × TypeExpr)
  | [] => []
  | (property, clauses) :: rest =>
    (underscored property, typeExpr owner (underscored property) clauses) ::
      memberExprs owner rest

end

end Clauses

end Schema

namespace Emission

open Schema TypeScript

/-! ### The route of a schema object -/

/-- The first clause of a schema object in the order of types. -/
def clauseRoute (clauses : Clauses) : Route Clauses :=
  .first (typeDeclared clauses.declaredType) clauses.items clauses.values.isSome clauses.properties
    (clauses.reference.map lastSegment)

theorem typeExpr_eq (owner key : String) (clauses : Clauses) :
    clauses.typeExpr owner key =
      match clauseRoute clauses with
      | .items item => .array (item.typeExpr owner key)
      | .enumeration => .named (owner ++ key)
      | .properties entries => .object (Clauses.memberExprs owner entries)
      | .reference name => .named name
      | .declared type => .primitive type := by
  obtain ⟨description, sample, declaredType, properties, allOf, additional, items, values,
    reference, nullable⟩ := clauses
  rw [Clauses.typeExpr.eq_def, clauseRoute]
  dsimp only
  generalize typeDeclared declaredType = type
  cases type <;> cases items <;> cases values <;> cases properties <;> cases reference <;> rfl

namespace Route

/-- A route over schema objects as one over their nodes. -/
def ofClauses : Route Clauses → Route Node
  | items item => items (Node.ofClauses item)
  | enumeration => enumeration
  | properties entries => properties (Node.ofEntries entries)
  | reference name => reference name
  | declared type => declared type

theorem ofClauses_eq (route : Route Clauses) : route.ofClauses = route.map Node.ofClauses := by
  cases route with
  | properties entries => exact congrArg properties (Node.ofEntries_eq entries)
  | _ => rfl

theorem first_map (type : Primitive) (items : Option Clauses) (isEnum : Bool)
    (properties : Option (List (String × Clauses))) (reference : Option String) :
    first type (items.map Node.ofClauses) isEnum (properties.map Node.ofEntries) reference =
      (first type items isEnum properties reference).ofClauses := by
  rw [ofClauses_eq, map_first, funext Node.ofEntries_eq]

end Route

/-- **Tagging leaves the clause that the type follows alone**, whichever clause the tag takes. -/
theorem route_ofClauses (clauses : Clauses) :
    route (Node.ofClauses clauses) = (clauseRoute clauses).ofClauses := by
  have hname : bareName = lastSegment := funext bareName_eq
  rw [route, clauseRoute, ← Route.first_map, Node.type_ofClauses, Clauses.primitive_eq,
    Node.items_ofClauses, Node.isEnum_ofClauses, Node.properties_ofClauses, Node.referenceName,
    Node.reference_ofClauses, hname]

/-! ### The type of a schema object -/

mutual

/-- The type of the node of a schema object is the one that its clauses say. -/
theorem typeOf_ofClauses (owner key : String) :
    ∀ clauses : Clauses, typeOf owner key (Node.ofClauses clauses) = clauses.typeExpr owner key
  | ⟨description, sample, declaredType, properties, allOf, additional, items, values, reference,
      nullable⟩ => by
    -- what the recursion gives for the clauses that hold schema objects
    have hitems : ∀ item, items = some item →
        typeOf owner key (Node.ofClauses item) = item.typeExpr owner key := by
      intro item h
      subst h
      exact typeOf_ofClauses owner key item
    have hentries : ∀ entries, properties = some entries →
        ((Node.ofEntries entries).map fun entry =>
          (normalizeKey entry.1, typeOf owner (normalizeKey entry.1) entry.2)) =
          Clauses.memberExprs owner entries := by
      intro entries h
      subst h
      exact memberTypes_ofEntries owner entries
    rw [typeOf_eq, route_ofClauses, typeExpr_eq]
    cases hroute : clauseRoute ⟨description, sample, declaredType, properties, allOf, additional,
      items, values, reference, nullable⟩ with
    | items item => exact congrArg TypeExpr.array (hitems item (Route.items_of_first hroute))
    | enumeration => rfl
    | properties entries =>
      exact congrArg TypeExpr.object (hentries entries (Route.properties_of_first hroute))
    | reference name => rfl
    | declared type => rfl

theorem memberTypes_ofEntries (owner : String) :
    ∀ entries : List (String × Clauses),
      ((Node.ofEntries entries).map fun entry =>
        (normalizeKey entry.1, typeOf owner (normalizeKey entry.1) entry.2)) =
        Clauses.memberExprs owner entries
  | [] => rfl
  | (property, clauses) :: rest => by
    rw [Node.ofEntries, List.map_cons, Clauses.memberExprs, normalizeKey_eq,
      typeOf_ofClauses owner (underscored property) clauses, memberTypes_ofEntries owner rest]

end

/-- **Tagging and then resolving gives the type that the clauses say**, whatever tag the node got
and whatever the context holds. -/
theorem resolve_ofClauses (owner : String) (context : Context) (key : String)
    (clauses : Clauses) :
    (resolve owner context key (Node.ofClauses clauses)).1 = clauses.typeExpr owner key := by
  rw [resolve_eq, typeOf_ofClauses]

end Emission

end SchemaTypes
