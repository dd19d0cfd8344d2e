/-
Loading a document into a store.

The document is checked as a whole before anything is built. Its conditions are then built and
registered one after the other, and at last the store is linked. What was registered or bound before
a later step fails stays.

* `Expression.ofDatum`: an expression from its attributes;
* `Pack`: a graph with a store of its conditions;
* `Pack.load`: the loading itself.
-/
import Applicability.Document
import Applicability.Domain.Inference
import Applicability.Store

namespace Applicability

namespace Expression

/-- The id that a single attribute called `condition` gives. -/
def referenceId : Datum → Except Fault String
  | .table entries => .ok ((Datum.field? entries Domain.referenceName).getD .null).written
  | _ => .error .notByName

/-- The expression of a given role that has the given attributes. A single attribute called
`condition` makes a reference. The names are looked at before the role, the values after it. -/
def ofDatum (attributes : Datum) : Except Fault (Role → Except Fault Expression) := do
  let domain ← Domain.infer attributes
  if domain = .reference then
    let id ← referenceId attributes
    return fun role => .ok (reference role id)
  else
    return fun role => return { role, domain, attributes := ← Attributes.ofDatum attributes }

end Expression

namespace ExpressionDefinition

/-- The attributes of a demand. A reference is an attribute too. -/
def attributes (d : ExpressionDefinition) : Datum :=
  match d.demand with
  | .condition id => .table [(.text Domain.referenceName, .text id)]
  | .attributes es => .table (es.map fun e => (.text e.1, .text e.2))

/-- The expression that a definition describes. -/
def build (d : ExpressionDefinition) : Except Fault Expression := do
  (← Expression.ofDatum d.attributes) d.role

end ExpressionDefinition

/-- A graph with a store of its conditions. -/
structure Pack where
  graph : Graph := {}
  store : Store := {}
deriving Repr, Inhabited

namespace Pack

/-- Builds and registers a condition. -/
def define (p : Pack) (d : ConditionDefinition) : Except Fault Pack := do
  let built ← d.expressions.mapM ExpressionDefinition.build
  let (refs, graph) := p.graph.addExpressions built
  let (c, graph) := graph.addCondition
    { id := d.id, description := d.description, expressions := refs }
  return { graph, store := ← p.store.add graph c }

/-- Builds and registers conditions until one cannot be. -/
def defineAll : List ConditionDefinition → Pack → Except Fault Unit × Pack
  | [], p => (.ok (), p)
  | d :: rest, p =>
    match p.define d with
    | .ok q => defineAll rest q
    | .error f => (.error f, p)

/-- Binds the references of the stored conditions. -/
def link (p : Pack) (strict : Bool) : Except Fault (List String) × Pack :=
  let (answer, graph) := p.store.link p.graph strict
  (answer, { p with graph })

/-- The problem of a document that does not have the form of one. -/
def malformed (found : List Issue) : Problem :=
  ({ kind := .invalidDefinition
     message := s!"Invalid condition definitions: {found.length} error(s)" } : Problem).note
    "errors" (.issues found)

/-- Loads a document. The answer lists the references that name no stored condition. -/
def load (p : Pack) (data : Datum) (strict : Bool) : Except Fault (List String) × Pack :=
  match Document.ofDatum data with
  | .error found => (.error (.problem (malformed found)), p)
  | .ok document =>
    match defineAll document.conditions p with
    | (.ok (), q) => q.link strict
    | (.error f, q) => (.error f, q)

/-- A document of the wrong form leaves everything as it was. -/
theorem load_of_malformed {p : Pack} {data : Datum} {strict : Bool} {found : List Issue}
    (h : Document.ofDatum data = .error found) :
    p.load data strict = (.error (.problem (malformed found)), p) := by
  simp [load, h]

end Pack

end Applicability
