/-
Documents that define conditions.

A document is a record with a list of definitions. A definition has an id, a description and a list
of expressions; an expression has a role and either refers to a condition or asks for attributes.

* `ExpressionDefinition`, `ConditionDefinition`: the parts of a document;
* `Document.ofDatum`: reads a document and finds every issue with its form.
-/
import Applicability.Checked
import Applicability.Tag

namespace Applicability

/-- What an expression asks for. -/
inductive Demand where
  /-- the condition of this id -/
  | condition (id : String)
  /-- these attributes -/
  | attributes (entries : List (String × String))
deriving DecidableEq, Repr

/-- The definition of an expression. -/
structure ExpressionDefinition where
  role : Role
  demand : Demand
deriving DecidableEq, Repr

/-- The definition of a condition. -/
structure ConditionDefinition where
  id : String
  description : String
  expressions : List ExpressionDefinition
deriving DecidableEq, Repr

/-- A document that defines conditions. -/
structure Document where
  conditions : List ConditionDefinition
deriving DecidableEq, Repr

namespace Demand

/-- An expression either refers to a condition or asks for at least one attribute. -/
def ofParts : Option String → List (String × String) → Checked Demand
  | some id, [] => .ok (condition id)
  | none, e :: rest => .ok (attributes (e :: rest))
  | _, _ => Checked.fail .contradiction

end Demand

namespace ExpressionDefinition

/-- The fields of an expression. -/
def fields : List String := ["role", "attributes", "condition"]

/-- Reads the definition of an expression. Only if each field is in order are they looked at
together. -/
def ofDatum : Datum → Checked ExpressionDefinition
  | .table entries => do
    let ((role, parts), ()) ← Checked.both
      (Checked.both (Checked.field entries "role" (Checked.word Role.ofText?) none)
        (Checked.both (Checked.field entries "attributes" Checked.textTable (some []))
          (Checked.field entries "condition" Checked.textOrNull (some none))))
      (Checked.unknownFields fields entries)
    return { role, demand := ← Demand.ofParts parts.2 parts.1 }
  | _ => Checked.fail .notARecord

end ExpressionDefinition

namespace ConditionDefinition

/-- The fields of a condition. -/
def fields : List String := ["id", "description", "expressions"]

/-- Reads the definition of a condition. -/
def ofDatum : Datum → Checked ConditionDefinition
  | .table entries =>
    (Checked.both
      (Checked.both (Checked.field entries "id" Checked.nonEmptyText none)
        (Checked.both (Checked.field entries "description" Checked.text (some ""))
          (Checked.field entries "expressions" (Checked.list ExpressionDefinition.ofDatum)
            (some []))))
      (Checked.unknownFields fields entries)).map
      fun ((id, description, expressions), ()) => { id, description, expressions }
  | _ => Checked.fail .notARecord

end ConditionDefinition

namespace Document

/-- The fields of a document. -/
def fields : List String := ["conditions"]

/-- Reads a document. -/
def ofDatum : Datum → Checked Document
  | .table entries =>
    (Checked.both
      (Checked.field entries "conditions" (Checked.list ConditionDefinition.ofDatum) (some []))
      (Checked.unknownFields fields entries)).map fun (conditions, ()) => { conditions }
  | _ => Checked.fail .notARecord

end Document

end Applicability
