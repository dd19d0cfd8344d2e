/-
The order of verdicts and what is folded by it.

Only graded verdicts are ordered. A comparison that meets any other verdict is refused, so that an
answer outside the scale cannot slip into a fold unnoticed.

* `Verdict.ask`: a question about the order of two verdicts;
* `Verdict.ask_graded`, `Verdict.ask_refused`: when it is answered and when refused;
* `Verdict.least`, `Verdict.greatest`, `Verdict.sorted`: the folds;
* `Operand`: a verdict beside loosely typed data, where a verdict counts as its text.
-/
import Applicability.Datum.Order
import Applicability.Sorting.Placing

namespace Applicability

namespace Verdict

/-- A question about the order of two verdicts. -/
def ask (question : Comparison) (a b : Verdict) : Except Fault Bool :=
  match a.grade?, b.grade? with
  | some g, some h => .ok (question.answer (compare g.rank h.rank))
  | _, _ => .error (.notComparable question Vocabulary.verdict.title Vocabulary.verdict.title)

/-- Among graded verdicts every question is answered, by position on the scale. -/
theorem ask_graded (question : Comparison) (g h : Grade) :
    ask question (graded g) (graded h) = .ok (question.answer (compare g.rank h.rank)) := rfl

/-- A question about a verdict outside the scale is refused. -/
theorem ask_refused (question : Comparison) {a b : Verdict}
    (h : a.isGraded = false ∨ b.isGraded = false) :
    ask question a b =
      .error (.notComparable question Vocabulary.verdict.title Vocabulary.verdict.title) := by
  cases a <;> cases b <;> simp_all [ask, isGraded, grade?]

/-- The position of a verdict on the scale. -/
def rank (v : Verdict) : Except Fault Nat :=
  match v.grade? with
  | some g => .ok g.rank
  | none => .error (.noRank v)

/-- Keeps the element that wins against the one kept so far. -/
def keep (question : Comparison) (kept v : Verdict) : Except Fault Verdict := do
  if ← ask question v kept then return v else return kept

/-- The least verdict, the first of several. -/
def least : List Verdict → Except Fault Verdict
  | [] => .error (.nothingToFold "min")
  | v :: rest => rest.foldlM (keep .less) v

/-- The greatest verdict, the first of several. -/
def greatest : List Verdict → Except Fault Verdict
  | [] => .error (.nothingToFold "max")
  | v :: rest => rest.foldlM (keep .greater) v

/-- The verdicts, least first and equals in the order given. Any sort that asks about every element
gives this answer, whatever the length: a refusal does not tell which verdicts met. -/
def sorted (vs : List Verdict) : Except Fault (List Verdict) := Sorting.sortByPlacing (ask .less) vs

end Verdict

/-- One side of a comparison. -/
inductive Operand where
  | verdict (v : Verdict)
  | datum (d : Datum)
deriving Repr

namespace Operand

/-- The kind of an operand, as messages call it. -/
def kind : Operand → String
  | verdict _ => Vocabulary.verdict.title
  | datum d => d.kind

/-- A question about the order of two operands. Beside a text, a verdict is ordered by its own
text, whether it is graded or not. -/
def ask (question : Comparison) : Operand → Operand → Except Fault Bool
  | verdict v, verdict w => Verdict.ask question v w
  | verdict v, datum (.text t) => .ok (question.answer (compare v.text t))
  | datum (.text t), verdict v => .ok (question.answer (compare t v.text))
  | datum d, datum e => d.ask question e
  | a, b => .error (.notComparable question a.kind b.kind)

/-- Equality of operands. -/
def same : Operand → Operand → Bool
  | verdict v, verdict w => v == w
  | verdict v, datum d => (Datum.text v.text).same d
  | datum d, verdict v => d.same (.text v.text)
  | datum d, datum e => d.same e

end Operand

end Applicability
