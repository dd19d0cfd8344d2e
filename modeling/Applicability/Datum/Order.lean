/-
The order of loosely typed data.

Numbers are ordered by value, texts by their characters, and lists by the first items in which they
differ. Data of other kinds, or of two kinds, have no order, and asking for it is refused.

* `Datum.order`: the order itself, which two data lack if it depends on an undetermined number;
* `Datum.ask`: a question about the order, which is denied where there is none;
* `Datum.ask_text`: among texts every question is answered.
-/
import Applicability.Fault

namespace Applicability.Datum

mutual

/-- The order of two data, as far as a question about it may be asked. -/
def order (question : Comparison) : Datum → Datum → Except Fault (Option Ordering)
  | text s, text t => .ok (some (compare s t))
  | list as, list bs => orderItems question as bs
  | a, b =>
    match a.number?, b.number? with
    | some m, some n => .ok (m.compare? n)
    | _, _ => .error (.notComparable question a.kind b.kind)

/-- The order of two lists: that of the first items that differ, else that of the lengths. -/
def orderItems (question : Comparison) : List Datum → List Datum → Except Fault (Option Ordering)
  | [], [] => .ok (some .eq)
  | [], _ :: _ => .ok (some .lt)
  | _ :: _, [] => .ok (some .gt)
  | a :: as, b :: bs => if same a b then orderItems question as bs else order question a b

end

/-- A question about the order of two data. -/
def ask (question : Comparison) (a b : Datum) : Except Fault Bool :=
  (order question a b).map (·.any question.answer)

/-- Among texts every question is answered. -/
theorem ask_text (question : Comparison) (s t : String) :
    ask question (text s) (text t) = .ok (question.answer (compare s t)) := by
  rw [ask, order]
  rfl

end Applicability.Datum
