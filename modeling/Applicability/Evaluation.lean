/-
Evaluating items.

An evaluation goes by a rulebook, which it does not change, and changes a scene: the pass and the
journals of scripted items. Items are evaluated inside each other; `evaluate` is given the number of
levels that it may still open, and `levels` is enough of them: the depth limit stops an evaluation
before they are used up, unless scripted items start the pass over again and again.

* `visit`: one level of evaluation around the evaluation of the item itself. A grade that is on
  record is answered at once, if the levels that it took fit under the limit from here too;
* `combine`: the verdict on a condition from those on its expressions. A condition that is being
  combined already refers to itself;
* `evaluate`: the verdict on an item;
* `filterItems`: the items that apply.
-/
import Applicability.Graph.Literal
import Applicability.Journal
import Applicability.Matcher
import Applicability.Pass
import Applicability.Tally

namespace Applicability

/-- What an evaluation goes by. -/
structure Rulebook where
  graph : Graph
  matcher : Matcher
  maxDepth : Nat

/-- What an evaluation changes. -/
structure Scene where
  pass : Pass
  journals : Journals := {}
deriving DecidableEq, Repr, Inhabited

/-- A computation on a scene. When it fails, what it did to the scene before stays. -/
abbrev Run (α : Type) := EStateM Fault Scene α

namespace Run

variable {α : Type}

/-- The answer of a computation. -/
def answer (x : Run α) (s : Scene) : Except Fault α :=
  match x s with
  | .ok a _ => .ok a
  | .error f _ => .error f

/-- The scene that a computation leaves, whatever its answer. -/
def left (x : Run α) (s : Scene) : Scene :=
  match x s with
  | .ok _ t => t
  | .error _ t => t

/-- Changes the pass. -/
def modifyPass (f : Pass → Pass) : Run Unit := modify fun s => { s with pass := f s.pass }

/-- Carries out `body`, and changes the pass afterwards even if it fails. -/
def ensuring (body : Run α) (after : Pass → Pass) : Run α := fun s =>
  match body s with
  | .ok a s => .ok a { s with pass := after s.pass }
  | .error f s => .error f { s with pass := after s.pass }

/-- Carries out `body` while asking for the opposite, if `invert` says so. Afterwards the question
is the same as before, whatever became of it. -/
def asking (invert : Bool) (body : Run α) : Run α := fun s =>
  ensuring body (·.ask s.pass.denying) { s with pass := s.pass.ask (invert != s.pass.denying) }

/-- Carries out `body` while a condition is held, and lets go of it whatever became of `body`. If it
is no longer held by then, that is a fault of its own. -/
def holding (c : ConditionRef) (body : Run α) : Run α := fun s =>
  match body { s with pass := s.pass.hold c } with
  | .ok a s =>
    if s.pass.active.contains c then .ok a { s with pass := s.pass.release c }
    else .error .notHeld s
  | .error f s =>
    if s.pass.active.contains c then .error f { s with pass := s.pass.release c }
    else .error .notHeld s

/-- Notes a diagnostic; the verdict is an error. -/
def diagnose (kind : Problem.Kind) (message : String) (conditionId : Option String) :
    Run Verdict := do
  modifyPass (·.diagnose (.ofKind kind message conditionId))
  return .error

end Run

/-- Evaluates an item inside another one; no item at all is ignored. -/
abbrev Recursion := Option Item → Run Verdict

namespace Rulebook

/-! ### One level -/

/-- Refuses to evaluate an item because the limit is reached. -/
def exceed (r : Rulebook) (i : Item) : Run Verdict := do
  let shown ← MonadExcept.ofExcept (r.graph.literal i)
  Run.diagnose .tooDeep s!"Evaluation depth limit of {r.maxDepth} reached at {shown}"
    (r.graph.idOf i)

/-- Comes back from the evaluation of an item and notes the verdict. `outer` is the depth that was
reached before. -/
def settle (key : RecordKey) (outer : Int) :
    EStateM.Result Fault Scene Verdict → EStateM.Result Fault Scene Verdict
  | .ok v s =>
    .ok v { s with pass := (s.pass.leave outer).record key v s.pass.span }
  | .error f s => .error f { s with pass := s.pass.leave outer }

/-- One level of evaluation: `body` evaluates the item itself, if that is needed and allowed. -/
def visit (r : Rulebook) (i : Item) (body : Run Verdict) : Run Verdict := fun s =>
  let p := s.pass
  match p.recordedGrade (i, p.denying) with
  | some (g, height) =>
    if p.depth + height > r.maxDepth then r.exceed i s
    else .ok (.graded g) { s with pass := p.reach (p.depth + height) }
  | none =>
    if p.depth ≥ r.maxDepth then r.exceed i s
    else settle (i, p.denying) p.reached (body { s with pass := p.enter })

/-- A grade on record is answered without evaluating the item again, if the levels that it took fit
under the limit. -/
theorem visit_of_record (r : Rulebook) (i : Item) (body : Run Verdict) {s : Scene} {g : Grade}
    {height : Int} (h : s.pass.recordedGrade (i, s.pass.denying) = some (g, height))
    (fits : s.pass.depth + height ≤ r.maxDepth) :
    r.visit i body s =
      .ok (.graded g) { s with pass := s.pass.reach (s.pass.depth + height) } := by
  have : ¬ s.pass.depth + height > r.maxDepth := by omega
  simp [visit, h, this]

/-! ### The kinds of items -/

/-- The verdict on an expression, by its domain. -/
def evaluateExpression (r : Rulebook) (recur : Recursion) (e : ExpressionRef) : Run Verdict :=
  let x := r.graph.expression e
  match x.domain with
  | .component => return .ignored
  | .device | .toolchain => do
    let met ← MonadExcept.ofExcept (r.matcher x.attributes (← get).pass.target)
    return .graded (if met then .fulfilled else .failed)
  | .reference =>
    match x.target with
    | some i => recur (some i)
    | none =>
      Run.diagnose .unresolvedReference
        s!"Reference to condition '{Graph.textOrNone x.conditionId}' is not linked" x.conditionId
  | .other name => Run.diagnose .unknownDomain s!"Unknown expression domain '{name}'" none

/-- Evaluates the expressions of a condition in order and counts their grades. An error ends this
early, without a tally. -/
def tallyFrom (r : Rulebook) (recur : Recursion) :
    List ExpressionRef → Tally → Run (Option Tally)
  | [], t => return some t
  | e :: rest, t => do
    let role := (r.graph.expression e).role
    match ← Run.asking (role == .deny) (recur (some (.expression e))) with
    | .graded g => r.tallyFrom recur rest (t.count role g)
    | .error =>
      Run.modifyPass (·.settleAccept none)
      return none
    | _ => r.tallyFrom recur rest t

/-- The verdict on a condition from those on its expressions. -/
def combine (r : Rulebook) (recur : Recursion) (c : ConditionRef) : Run Verdict := do
  let x := r.graph.condition c
  if (← get).pass.active.contains c then
    Run.diagnose .cycle s!"Condition '{x.id}' references itself" (some x.id)
  else
    Run.modifyPass (·.settleAccept none)
    match ← Run.holding c (r.tallyFrom recur x.expressions {}) with
    | none => return .error
    | some t =>
      Run.modifyPass (·.settleAccept t.best)
      return t.verdict

/-- The verdict on an artifact: that on its guard. -/
def evaluateArtifact (r : Rulebook) (recur : Recursion) (a : ArtifactRef) : Run Verdict :=
  match (r.graph.artifact a).guard with
  | some i => recur (some i)
  | none => return .graded .fulfilled

/-- Takes one action of a scripted item, whose current journal entry is at the given place. -/
def act (recur : Recursion) (s : ScriptRef) (place : Nat) : Action → Run Unit
  | .evaluate i => do
    let v ← recur i
    modify fun scene => { scene with journals := scene.journals.note s place v }
  | .restart => Run.modifyPass (·.restart)
  | .retarget target => Run.modifyPass (·.retarget target)
  | .fail f => throw f

/-- The verdict on a scripted item. -/
def perform (r : Rulebook) (recur : Recursion) (s : ScriptRef) : Run Verdict := do
  let script := r.graph.script s
  let scene ← get
  let place := (scene.journals.of s).size
  let entry : JournalEntry := {
    denying := scene.pass.denying
    accept := Verdict.ofBest scene.pass.accept
    active := scene.pass.active.map fun c => (r.graph.condition c).id }
  set { scene with journals := scene.journals.openEntry s entry }
  script.actions.forM (act recur s place)
  match script.failure with
  | some text => throw (.raised text)
  | none =>
    match script.verdicts[min (place + 1) script.verdicts.length - 1]? with
    | some v => return v
    | none => throw .noVerdict

/-- The verdict on an item itself. -/
def evaluateItem (r : Rulebook) (recur : Recursion) : Item → Run Verdict
  | .expression e => r.evaluateExpression recur e
  | .condition c => r.combine recur c
  | .artifact a => r.evaluateArtifact recur a
  | .scripted s => r.perform recur s

/-! ### All levels -/

/-- The verdict on an item, with at most the given number of levels. -/
def evaluateWithin (r : Rulebook) : Nat → Recursion
  | _, none => return .ignored
  | 0, some _ => throw .endless
  | n + 1, some i => r.visit i (r.evaluateItem (r.evaluateWithin n) i)

/-- No item at all is ignored, and nothing changes. -/
theorem evaluateWithin_none (r : Rulebook) (n : Nat) (s : Scene) :
    r.evaluateWithin n none s = .ok .ignored s := by
  cases n <;> rfl

/-- Whether a scripted item starts the pass over. -/
def restarts (r : Rulebook) : Bool :=
  r.graph.scripts.any fun s => s.actions.any fun
    | .restart | .retarget _ => true
    | _ => false

/-- The levels granted to scripted items that start the pass over, which gives back the depth that
the items around them have used. -/
def spareLevels : Nat := 100000

/-- Enough levels for an evaluation that begins with the given pass. -/
def levels (r : Rulebook) (p : Pass) : Nat :=
  (r.maxDepth - p.depth).toNat + 1 + (if r.restarts then spareLevels else 0)

/-- Evaluates items inside whatever is being evaluated, with enough levels. -/
def recursion (r : Rulebook) : Recursion := fun i s => r.evaluateWithin (r.levels s.pass) i s

/-- The verdict on an item. -/
def evaluate (r : Rulebook) (i : Option Item) : Run Verdict := r.recursion i

/-- The verdict on an item as an expression, by its domain only; items of other kinds have none. -/
def evaluateAsExpression (r : Rulebook) : Option Item → Run Verdict
  | some (.expression e) => r.evaluateExpression r.recursion e
  | none => return .ignored
  | some i => throw (.lacks (Graph.kindOf i) "domain")

/-- The verdict on an item as a condition; items of other kinds have no expressions to combine. -/
def evaluateAsCondition (r : Rulebook) : Option Item → Run Verdict
  | some (.condition c) => r.combine r.recursion c
  | i => do
    Run.modifyPass (·.settleAccept none)
    throw (.lacks (Graph.kindOrNone i) "expressions")

/-- The verdicts on items, one after the other in one pass. -/
def evaluateAll (r : Rulebook) (items : List (Option Item)) : Run (List Verdict) :=
  items.mapM r.evaluate

/-- The items that apply, in order. -/
def filterItems (r : Rulebook) (items : List (Option Item)) : Run (List (Option Item)) :=
  items.filterM fun i => do return (← r.evaluate i).isFulfilled

end Rulebook

end Applicability
