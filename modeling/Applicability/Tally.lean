/-
Combining the verdicts on the expressions of a condition.

* `Tally`: the best alternative and the weakest constraint seen so far;
* `Tally.count`: one more graded expression. A denied one counts as a constraint, with the opposite
  grade;
* `Tally.verdict`: the weakest constraint, capped by the best alternative; `ignored` if nothing was
  graded.
-/
import Applicability.Tag
import Applicability.Verdict

namespace Applicability

/-- The best alternative and the weakest constraint seen so far. -/
structure Tally where
  best : Option Grade := none
  weakest : Option Grade := none
deriving DecidableEq, Repr, Inhabited

namespace Tally

/-- The better of the best alternative so far and one more. -/
def better (best : Option Grade) (g : Grade) : Grade := best.elim g (max · g)

/-- The weaker of the weakest constraint so far and one more. -/
def weaker (weakest : Option Grade) (g : Grade) : Grade := weakest.elim g (min · g)

/-- Counts one more graded expression. -/
def count (t : Tally) (role : Role) (g : Grade) : Tally :=
  match role with
  | .accept => { t with best := some (better t.best g) }
  | .require => { t with weakest := some (weaker t.weakest g) }
  | .deny => { t with weakest := some (weaker t.weakest g.negated) }

/-- The weakest constraint, capped by the best alternative. -/
def grade? (t : Tally) : Option Grade :=
  match t.best with
  | none => t.weakest
  | some b => some (weaker t.weakest b)

/-- The verdict on the condition. -/
def verdict (t : Tally) : Verdict := Verdict.ofWeakest t.grade?

/-- A condition is ignored exactly if nothing was graded. -/
theorem verdict_eq_ignored_iff (t : Tally) :
    t.verdict = .ignored ↔ t.best = none ∧ t.weakest = none := by
  obtain ⟨b, w⟩ := t
  cases b <;> cases w <;> simp [verdict, grade?, Verdict.ofWeakest]

end Tally

end Applicability
