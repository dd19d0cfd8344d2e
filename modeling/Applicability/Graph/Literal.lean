/-
Items as a developer sees them.

* `Graph.idOf`: the id of an item that has one;
* `Graph.literal`: an item in words. An artifact is shown with the id of its guard, so a guard
  without an id cannot be shown.
-/
import Applicability.Attributes.Reading
import Applicability.Graph

namespace Applicability.Graph

/-- The id of an item that has one: a condition, or a scripted item that was given one. -/
def idOf (g : Graph) : Item → Option String
  | .condition c => some (g.condition c).id
  | .scripted s => (g.script s).id
  | _ => none

/-- The kind of an item, as messages call it. -/
def kindOf : Item → String
  | .expression _ => "Expression"
  | .condition _ => "Condition"
  | .artifact _ => "ConditionalItem"
  | .scripted _ => "Probe"

/-- The kind of an item, or the word for no item at all. -/
def kindOrNone (i : Option Item) : String := (i.map kindOf).getD Datum.null.kind

/-- A text in quotes, or the word for none. -/
def quotedOrNone : Option String → String
  | some t => Text.quoted t
  | none => "None"

/-- A text as it is, or the word for none. -/
def textOrNone (t : Option String) : String := t.getD "None"

/-- An expression in words. -/
def expressionLiteral (x : Expression) : String :=
  if x.domain = .reference then
    s!"Expression({x.role.text}, condition={quotedOrNone x.conditionId})"
  else s!"Expression({x.role.text}, {x.domain.text}, {x.attributes.toDatum.literal})"

/-- A condition in words. -/
def conditionLiteral (c : Condition) : String :=
  s!"Condition({Text.quoted c.id}, {c.expressions.length} expressions)"

/-- The id of an item, which it must have. -/
def requireId (g : Graph) (i : Item) : Except Fault String :=
  match g.idOf i with
  | some id => .ok id
  | none => .error (.lacks (kindOf i) "id")

/-- An artifact in words. -/
def artifactLiteral (g : Graph) (a : Artifact) : Except Fault String := do
  let guard ← a.guard.mapM g.requireId
  return s!"ConditionalItem({Text.quoted a.name}, condition={quotedOrNone guard})"

/-- An item in words. -/
def literal (g : Graph) : Item → Except Fault String
  | .expression e => .ok (expressionLiteral (g.expression e))
  | .condition c => .ok (conditionLiteral (g.condition c))
  | .artifact a => g.artifactLiteral (g.artifact a)
  | .scripted s => .ok s!"Probe({(g.script s).name})"

end Applicability.Graph
