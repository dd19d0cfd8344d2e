/-
Stores of conditions.

A store lists conditions in the order in which they were registered; a condition is found by its id.
Linking binds every reference of a stored condition to the stored condition it names.

* `Store.add`: registers a condition whose id is not taken;
* `Store.find?_eq_some`: what is found is stored and has the id asked for;
* `Store.link`: binds the references, and reports those that name no stored condition.
-/
import Applicability.Graph.Literal

namespace Applicability

/-- Conditions in the order in which they were registered. -/
structure Store where
  members : List ConditionRef := []
  /-- a store of a consumer's own that takes no definitions -/
  readOnly : Bool := false
deriving DecidableEq, Repr, Inhabited

namespace Store

/-- The ids of the stored conditions, in order. -/
def ids (s : Store) (g : Graph) : List String := s.members.map fun c => (g.condition c).id

/-- The number of stored conditions. -/
def size (s : Store) : Nat := s.members.length

/-- The stored condition of an id. -/
def find? (s : Store) (g : Graph) (id : String) : Option ConditionRef :=
  s.members.find? fun c => (g.condition c).id == id

/-- The problem of registering an id twice. -/
def duplicate (id : String) : Problem :=
  ({ kind := .duplicateCondition, message := s!"Condition already defined: {id}" } :
    Problem).noteText "condition_id" id

/-- Registers a condition, as the last one. -/
def add (s : Store) (g : Graph) (c : ConditionRef) : Except Fault Store :=
  if (s.find? g (g.condition c).id).isSome then
    .error (.problem (duplicate (g.condition c).id))
  else .ok { s with members := s.members ++ [c] }

/-- Registers conditions one after the other. -/
def addAll (s : Store) (g : Graph) (cs : List ConditionRef) : Except Fault Store :=
  cs.foldlM (fun s c => s.add g c) s

/-! ### Linking -/

/-- A reference that a stored condition makes. -/
structure Link where
  owner : ConditionRef
  expression : ExpressionRef
deriving DecidableEq, Repr

/-- The references that the stored conditions make, in the order of registration and of the
conditions' own lists. -/
def links (s : Store) (g : Graph) : List Link :=
  s.members.flatMap fun c =>
    ((g.condition c).expressions.filter fun e => (g.expression e).domain = .reference).map (⟨c, ·⟩)

/-- The stored condition that a reference names. A reference without an id is looked up under the
empty id. -/
def resolve? (s : Store) (g : Graph) (l : Link) : Option ConditionRef :=
  s.find? g ((g.expression l.expression).conditionId.getD "")

/-- The problem of a reference that names no stored condition. -/
def unresolved (g : Graph) (l : Link) : Problem :=
  let id := (g.condition l.owner).id
  let reference := (g.expression l.expression).conditionId
  let p : Problem := {
    kind := .unresolvedReference
    message :=
      s!"Condition '{id}' references unknown condition '{Graph.textOrNone reference}'" }
  (p.noteText "condition_id" id).note "reference"
    (.datum (reference.elim .null .text))

/-- Binds references one after the other. A reference that names no stored condition is left as it
is and reported; where linking is strict, it ends the linking. -/
def bindAll (s : Store) (strict : Bool) :
    List Link → Graph → Except Fault (List String) × Graph
  | [], g => (.ok [], g)
  | l :: rest, g =>
    match s.resolve? g l with
    | some target => s.bindAll strict rest (g.bind l.expression (some (.condition target)))
    | none =>
      if strict then (.error (.problem (unresolved g l)), g)
      else
        let (reported, after) := s.bindAll strict rest g
        let name := Graph.textOrNone (g.expression l.expression).conditionId
        (reported.map (name :: ·), after)

/-- Binds the references of the stored conditions. -/
def link (s : Store) (g : Graph) (strict : Bool) : Except Fault (List String) × Graph :=
  s.bindAll strict (s.links g) g

/-- What is found is stored and has the id asked for. -/
theorem find?_eq_some {s : Store} {g : Graph} {id : String} {c : ConditionRef}
    (h : s.find? g id = some c) : c ∈ s.members ∧ (g.condition c).id = id :=
  ⟨List.mem_of_find?_eq_some h, by simpa using List.find?_some h⟩

/-- A condition that is registered comes last. -/
theorem members_of_add {s t : Store} {g : Graph} {c : ConditionRef} (h : s.add g c = .ok t) :
    t.members = s.members ++ [c] := by
  unfold add at h
  split at h <;> cases h
  rfl

end Store

end Applicability
