/-
The domain of an expression, from the names of its attributes.

The first letter of a name tells its domain: D and P the device, T the toolchain, C a component. A
single attribute called `condition` makes a reference.

* `Domain.ofName?`: the domain of one name;
* `Domain.infer`: the domain that all names have in common.
-/
import Applicability.Datum.Order
import Applicability.Datum.Search
import Applicability.Sorting

namespace Applicability.Domain

/-- The name of the attribute that makes a reference. -/
def referenceName : String := "condition"

/-- The domain of the attributes whose names begin with the given letter. -/
def ofLetter? : Char → Option Domain
  | 'D' => some device
  | 'P' => some device
  | 'T' => some toolchain
  | 'C' => some component
  | _ => none

/-- The domain of a name. -/
def ofName? (name : String) : Option Domain := name.toList.head?.bind ofLetter?

/-- A problem of a definition, with one detail. -/
def invalid (message : String) (details : List (String × Detail)) : Fault :=
  .problem { kind := .invalidDefinition, message, details }

/-- The domain of a name that may be any datum. -/
def ofDatum : Datum → Except Fault Domain
  | .text name =>
    match ofName? name with
    | some d => .ok d
    | none =>
      .error (invalid s!"Attribute '{name}' does not belong to a known domain"
        [("attribute", .datum (.text name))])
  | .list items => .error (.notAName (Datum.list items).kind)
  | .table _ => .error (.notAName "slice")
  | d => .error (.noCharacters d.kind)

/-- The names in order, which they have only among their own kind. -/
def sortedNames (names : List Datum) : Except Fault (List Datum) :=
  Sorting.sort (Datum.ask .less) names

/-- The texts of the domains that occur, in alphabetical order. -/
def textsOf (domains : List Domain) : List String :=
  ([component, device, toolchain].filter domains.contains).map text

/-- The domain that all names have in common. -/
def infer (attributes : Datum) : Except Fault Domain := do
  let names := attributes.names
  if ← attributes.holds referenceName then
    if names.length = 1 then return .reference
    throw (invalid "A condition reference cannot carry other attributes"
      [("attributes", .datum (.list (← sortedNames names)))])
  match ← names.mapM ofDatum with
  | [] => throw (invalid "Expression has no attributes" [])
  | d :: rest =>
    if rest.all (· == d) then return d
    throw (invalid "Expression mixes attributes from several domains"
      [("domains", .datum (.list ((textsOf (d :: rest)).map .text)))])

end Applicability.Domain
