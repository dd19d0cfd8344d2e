/-
The state of an evaluation pass.

A pass evaluates items for one target. It remembers the verdicts it has come to, holds the
conditions that are being combined, and knows whether it currently asks for the opposite.

* `Pass.record`, with `lookUp_record`: noting a verdict changes no other record;
* `Pass.restart`: forgetting everything but the target;
* `Pass.hold`, `Pass.release`, with `release_hold`: a condition is held while it is combined, and
  letting go of it gives the pass back;
* `Pass.enter`, `Pass.leave`, `Pass.span`: one level of evaluation, and how many levels it took.
-/
import Applicability.Diagnostic
import Applicability.Graph

namespace Applicability

/-- A verdict together with the number of levels that it took to come to it. -/
structure Record where
  verdict : Verdict
  height : Int
deriving DecidableEq, Repr

/-- An item and whether the opposite was asked for. -/
abbrev RecordKey := Item × Bool

/-- The state of an evaluation pass. -/
structure Pass where
  /-- the target -/
  target : Attributes
  /-- the overall verdict, as set by the consumer -/
  overall : Verdict := .ignored
  /-- the verdicts noted so far, the latest first -/
  records : List (RecordKey × Record) := []
  diagnostics : List Diagnostic := []
  /-- the conditions that are being combined, the outermost first -/
  active : List ConditionRef := []
  /-- the alternative that counted in the condition combined last -/
  accept : Option Grade := none
  /-- whether the opposite is asked for -/
  denying : Bool := false
  /-- how many items are being evaluated inside each other -/
  depth : Int := 0
  /-- the greatest depth that the evaluation of the current item came to -/
  reached : Int := 0
deriving DecidableEq, Repr, Inhabited

namespace Pass

/-- A pass for the given target. -/
def start (target : Attributes) : Pass := { target }

/-- Forgets everything but the target. -/
def restart (p : Pass) : Pass := start p.target

/-- Turns to another target. -/
def retarget (_ : Pass) (target : Attributes) : Pass := start target

/-! ### Records -/

/-- What is noted under a key. -/
def lookUp (p : Pass) (key : RecordKey) : Option Record := p.records.lookup key

/-- The grade noted under a key. Only grades are trusted: an error is noted but never answered
from the records. -/
def recordedGrade (p : Pass) (key : RecordKey) : Option (Grade × Int) := do
  let r ← p.lookUp key
  return (← r.verdict.grade?, r.height)

/-- Notes a verdict, unless it says nothing. -/
def record (p : Pass) (key : RecordKey) (verdict : Verdict) (height : Int) : Pass :=
  if verdict.isSilent then p else { p with records := (key, ⟨verdict, height⟩) :: p.records }

/-- The verdict noted on an item when the opposite is not asked for. -/
def resultOf (p : Pass) (i : Item) : Option Verdict := (p.lookUp (i, false)).map (·.verdict)

/-- Noting a verdict changes no other record. -/
theorem lookUp_record (p : Pass) (key other : RecordKey) (verdict : Verdict) (height : Int) :
    (p.record key verdict height).lookUp other =
      if other = key ∧ verdict.isSilent = false then some ⟨verdict, height⟩
      else p.lookUp other := by
  unfold record lookUp
  by_cases hs : verdict.isSilent
  · simp [hs]
  · by_cases hk : other = key
    · simp [hs, hk]
    · have hb : (other == key) = false := by simpa using hk
      simp [hs, hk, hb, List.lookup_cons]

/-! ### Conditions being combined -/

/-- Holds a condition. -/
def hold (p : Pass) (c : ConditionRef) : Pass := { p with active := p.active ++ [c] }

/-- Lets go of a condition. -/
def release (p : Pass) (c : ConditionRef) : Pass := { p with active := p.active.erase c }

/-- Letting go of a condition that was not held before gives the pass back. -/
theorem release_hold {p : Pass} {c : ConditionRef} (h : c ∉ p.active) :
    (p.hold c).release c = p := by
  simp [hold, release, List.erase_append_right _ h]

/-! ### Levels -/

/-- Goes one level deeper. -/
def enter (p : Pass) : Pass := { p with depth := p.depth + 1, reached := p.depth + 1 }

/-- Comes back from a level; `outer` is the depth that was reached before it was entered. -/
def leave (p : Pass) (outer : Int) : Pass :=
  { p with depth := p.depth - 1, reached := max outer p.reached }

/-- How many levels the current one spans, itself included. -/
def span (p : Pass) : Int := p.reached - (p.depth - 1)

/-- Takes note that a depth was reached. -/
def reach (p : Pass) (depth : Int) : Pass := { p with reached := max p.reached depth }

/-! ### What else a pass is told -/

/-- Asks for the opposite or not. -/
def ask (p : Pass) (denying : Bool) : Pass := { p with denying }

/-- Notes the alternative that counted in the condition combined last. -/
def settleAccept (p : Pass) (accept : Option Grade) : Pass := { p with accept }

/-- Sets the overall verdict. -/
def conclude (p : Pass) (overall : Verdict) : Pass := { p with overall }

/-- Notes a diagnostic. -/
def diagnose (p : Pass) (d : Diagnostic) : Pass := { p with diagnostics := p.diagnostics ++ [d] }

/-- The diagnostics that a pass has and an earlier state of it had not; all of them if it was
started over in between. -/
def diagnosticsSince (p earlier : Pass) : List Diagnostic :=
  if earlier.diagnostics.length ≤ p.diagnostics.length then
    p.diagnostics.drop earlier.diagnostics.length
  else p.diagnostics

end Pass

end Applicability
