/-
Checking items for a target.

Every question is answered in a pass of its own, so that no verdict leaks from one target to
another. What scripted items write into their journals is kept.

* `Evaluator.check`: the report on one item or on the stored condition of an id;
* `Evaluator.checkAll`: the verdicts on all stored conditions, from a single pass;
* `Evaluator.select`: the items that apply;
* `Evaluator.load`: loads definitions into the evaluator's store.
-/
import Applicability.Evaluation
import Applicability.Loading
import Applicability.Report

namespace Applicability

/-- Settings together with a matcher. -/
structure Evaluator where
  settings : Settings := {}
  matcher : Matcher := Matcher.wildcard settings.observeCase

/-- A computation on the journals of scripted items. -/
abbrev Inquiry (α : Type) := EStateM Fault Journals α

/-- What is to be checked. -/
inductive Subject where
  /-- an item; none at all is ignored -/
  | item (i : Option Item)
  /-- the stored condition of an id -/
  | id (id : String)
deriving DecidableEq, Repr

namespace Evaluator

/-- What a pass of this evaluator goes by. -/
def rulebook (ev : Evaluator) (g : Graph) : Rulebook where
  graph := g
  matcher := ev.matcher
  maxDepth := ev.settings.maxDepth

/-- Carries out a computation in a new pass. The answer comes with the pass as it was left. -/
def inPass {α : Type} (target : Attributes) (body : Run α) : Inquiry (α × Pass) := fun j =>
  match body { pass := Pass.start target, journals := j } with
  | .ok a s => .ok (a, s.pass) s.journals
  | .error f s => .error f s.journals

/-- The problem of asking for a condition that is not stored. -/
def unknown (id : String) : Problem :=
  ({ kind := .unresolvedReference, message := s!"Unknown condition: {id}" } : Problem).noteText
    "condition_id" id

/-- The item to be checked. -/
def resolve (g : Graph) (s : Store) : Subject → Except Fault (Option Item)
  | .item i => .ok i
  | .id id =>
    match s.find? g id with
    | some c => .ok (some (.condition c))
    | none => .error (.problem (unknown id))

/-- What is to be checked, in words. -/
def shown (g : Graph) : Subject → Except Fault String
  | .id id => .ok id
  | .item (some i) => g.literal i
  | .item none => .ok "None"

/-- The report on an item. It names the target that the pass has turned to in the end, which a
scripted item can change. -/
def check (ev : Evaluator) (g : Graph) (s : Store) (target : Datum) (subject : Subject) :
    Inquiry Report := do
  let i ← MonadExcept.ofExcept (resolve g s subject)
  let target ← MonadExcept.ofExcept (Attributes.ofDatum target)
  let (result, pass) ← inPass target ((ev.rulebook g).evaluate i)
  return {
    target := pass.target
    item := ← MonadExcept.ofExcept (shown g subject)
    result
    acceptResult := Verdict.ofBest pass.accept
    diagnostics := pass.diagnostics }

/-- The verdicts on all stored conditions, by id, in the order of registration. -/
def checkAll (ev : Evaluator) (g : Graph) (s : Store) (target : Datum) :
    Inquiry (List (String × Verdict)) := do
  let target ← MonadExcept.ofExcept (Attributes.ofDatum target)
  let (verdicts, _) ← inPass target
    ((ev.rulebook g).evaluateAll (s.members.map fun c => some (.condition c)))
  return (s.ids g).zip verdicts

/-- The items that apply, in order. -/
def select (ev : Evaluator) (g : Graph) (target : Datum) (items : List (Option Item)) :
    Inquiry (List (Option Item)) := do
  let target ← MonadExcept.ofExcept (Attributes.ofDatum target)
  let (kept, _) ← inPass target ((ev.rulebook g).filterItems items)
  return kept

/-- Loads definitions into a store, unless it takes none. -/
def load (ev : Evaluator) (p : Pack) (data : Datum) : Except Fault (List String) × Pack :=
  if p.store.readOnly then (.error .readOnlyStore, p)
  else p.load data ev.settings.strictLinks

end Evaluator

end Applicability
