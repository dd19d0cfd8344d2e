/-
The graph of items that an evaluation walks.

Items are referred to by identity: two expressions with the same content are different items. A
condition has expressions, an expression may be bound to another item, and an artifact may be
guarded by one. An item of a consumer's own is described by a script.

* `Item`: a reference to an item of any kind;
* `Graph`: what the references stand for. A reference to nothing stands for an item without content,
  so that every look-up has an answer;
* `Graph.successors`: the items that are evaluated on the way to the verdict on an item;
* `Graph.bind`, `Graph.addTo`, `Graph.removeFrom`: the changes that can be made, with the laws of
  what they leave alone.
-/
import Applicability.Attributes
import Applicability.Fault

namespace Applicability

/-- A reference to an expression. -/
structure ExpressionRef where
  index : Nat
deriving DecidableEq, Repr, Inhabited, Hashable

/-- A reference to a condition. -/
structure ConditionRef where
  index : Nat
deriving DecidableEq, Repr, Inhabited, Hashable

/-- A reference to an artifact. -/
structure ArtifactRef where
  index : Nat
deriving DecidableEq, Repr, Inhabited, Hashable

/-- A reference to a scripted item. -/
structure ScriptRef where
  index : Nat
deriving DecidableEq, Repr, Inhabited, Hashable

/-- A reference to an item that can be evaluated. -/
inductive Item where
  | expression (e : ExpressionRef)
  | condition (c : ConditionRef)
  | artifact (a : ArtifactRef)
  | scripted (s : ScriptRef)
deriving DecidableEq, Repr, Inhabited, Hashable

/-- One demand of a condition. -/
structure Expression where
  role : Role := .require
  domain : Domain := .component
  /-- what a device or toolchain expression asks of the target -/
  attributes : Attributes := .empty
  /-- the id of the condition that a reference names -/
  conditionId : Option String := none
  /-- the item that a reference is bound to -/
  target : Option Item := none
deriving DecidableEq, Repr, Inhabited

/-- A named rule. -/
structure Condition where
  id : String := ""
  description : String := ""
  expressions : List ExpressionRef := []
deriving DecidableEq, Repr, Inhabited

/-- A part of a pack that applies if its guard does; without a guard it always applies. -/
structure Artifact where
  name : String := ""
  guard : Option Item := none
deriving DecidableEq, Repr, Inhabited

/-- What a scripted item does before it gives its verdict. -/
inductive Action where
  /-- evaluates an item and notes the verdict -/
  | evaluate (item : Option Item)
  /-- starts the pass over -/
  | restart
  /-- starts the pass over for another target -/
  | retarget (target : Attributes)
  /-- gives up -/
  | fail (fault : Fault)
deriving Repr

/-- An item of a consumer's own: each time it is evaluated it takes the same actions, and then gives
up or gives the next of its verdicts, the last one again and again. -/
structure Script where
  name : String := ""
  id : Option String := none
  verdicts : List Verdict := []
  actions : List Action := []
  failure : Option String := none
deriving Repr, Inhabited

/-- What references stand for. -/
structure Graph where
  expressions : Array Expression := #[]
  conditions : Array Condition := #[]
  artifacts : Array Artifact := #[]
  scripts : Array Script := #[]
deriving Repr, Inhabited

namespace Expression

/-- An alternative of its condition. -/
def isAccept (e : Expression) : Bool := e.role == .accept

/-- A constraint that asks for the opposite. -/
def isDeny (e : Expression) : Bool := e.role == .deny

/-- A reference to the condition of the given id, not yet bound. -/
def reference (role : Role) (id : String) : Expression :=
  { role, domain := .reference, conditionId := some id }

end Expression

namespace Graph

/-! ### Looking up -/

/-- The expression that a reference stands for. -/
def expression (g : Graph) (e : ExpressionRef) : Expression :=
  g.expressions.getD e.index default

/-- The condition that a reference stands for. -/
def condition (g : Graph) (c : ConditionRef) : Condition :=
  g.conditions.getD c.index default

/-- The artifact that a reference stands for. -/
def artifact (g : Graph) (a : ArtifactRef) : Artifact :=
  g.artifacts.getD a.index default

/-- The script that a reference stands for. -/
def script (g : Graph) (s : ScriptRef) : Script :=
  g.scripts.getD s.index default

/-- The items that are evaluated on the way to the verdict on an item: the guard of an artifact, the
expressions of a condition, and what a reference is bound to. -/
def successors (g : Graph) : Item → List Item
  | .expression e =>
    if (g.expression e).domain = .reference then (g.expression e).target.toList else []
  | .condition c => (g.condition c).expressions.map .expression
  | .artifact a => (g.artifact a).guard.toList
  | .scripted _ => []

/-- The ids of the conditions that a condition refers to, in order. An empty id refers to
nothing. -/
def references (g : Graph) (c : ConditionRef) : List String :=
  (g.condition c).expressions.filterMap fun e =>
    let x := g.expression e
    if x.domain = .reference then x.conditionId.filter (· ≠ "") else none

/-! ### New items -/

/-- Adds an expression. -/
def addExpression (g : Graph) (e : Expression) : ExpressionRef × Graph :=
  (⟨g.expressions.size⟩, { g with expressions := g.expressions.push e })

/-- Adds expressions, one after the other. -/
def addExpressions (g : Graph) : List Expression → List ExpressionRef × Graph
  | [] => ([], g)
  | e :: rest =>
    let (ref, g) := g.addExpression e
    let (refs, g) := g.addExpressions rest
    (ref :: refs, g)

/-- Adds a condition. -/
def addCondition (g : Graph) (c : Condition) : ConditionRef × Graph :=
  (⟨g.conditions.size⟩, { g with conditions := g.conditions.push c })

/-- Adds an artifact. -/
def addArtifact (g : Graph) (a : Artifact) : ArtifactRef × Graph :=
  (⟨g.artifacts.size⟩, { g with artifacts := g.artifacts.push a })

/-- Adds a scripted item. -/
def addScript (g : Graph) (s : Script) : ScriptRef × Graph :=
  (⟨g.scripts.size⟩, { g with scripts := g.scripts.push s })

/-! ### Changes -/

/-- Binds an expression to an item. -/
def bind (g : Graph) (e : ExpressionRef) (target : Option Item) : Graph :=
  { g with expressions := g.expressions.modify e.index fun x => { x with target } }

/-- Adds an expression to a condition, as its last one. -/
def addTo (g : Graph) (c : ConditionRef) (e : ExpressionRef) : Graph :=
  { g with conditions :=
      g.conditions.modify c.index fun x => { x with expressions := x.expressions ++ [e] } }

/-- Removes the first occurrence of an expression from a condition. -/
def removeFrom (g : Graph) (c : ConditionRef) (e : ExpressionRef) : Except Fault Graph :=
  if (g.condition c).expressions.contains e then
    .ok { g with conditions :=
      g.conditions.modify c.index fun x => { x with expressions := x.expressions.erase e } }
  else .error .notPresent

/-- Gives a scripted item other actions. -/
def rehearse (g : Graph) (s : ScriptRef) (actions : List Action) : Graph :=
  { g with scripts := g.scripts.modify s.index fun x => { x with actions } }

/-- Binding changes no condition. -/
theorem condition_bind (g : Graph) (e : ExpressionRef) (target : Option Item) (c : ConditionRef) :
    (g.bind e target).condition c = g.condition c := rfl

/-- Binding an expression leaves all but its target. -/
theorem expression_bind (g : Graph) (e f : ExpressionRef) (target : Option Item) :
    (g.bind e target).expression f =
      if f = e ∧ f.index < g.expressions.size then { g.expression f with target }
      else g.expression f := by
  simp only [expression, bind, Array.getD_eq_getD_getElem?, Array.getElem?_modify]
  by_cases h : e.index = f.index
  · have hf : f = e := by cases e; cases f; simp_all
    subst hf
    by_cases hs : f.index < g.expressions.size <;> simp [hs]
  · have hf : f ≠ e := fun he => h (by rw [he])
    simp [h, hf]

end Graph

end Applicability
