/-
The report on one item for one target.

* `Report`: the target, the item, the verdict on it, the alternative that counted, and the
  diagnostics;
* `Report.complaint`: the problem to be raised unless the item is fulfilled;
* `Report.complaint_of_fulfilled`: a fulfilled item gives no reason to complain.
-/
import Applicability.Attributes
import Applicability.Diagnostic
import Applicability.Settings

namespace Applicability

/-- The report on one item for one target. -/
structure Report where
  target : Attributes
  item : String
  result : Verdict
  acceptResult : Verdict := .undefined
  diagnostics : List Diagnostic := []
deriving DecidableEq, Repr

namespace Report

/-- Whether the item applies. -/
def fulfilled (r : Report) : Bool := r.result.isFulfilled

/-- Reads a report from named fields; fields that are none of its own are passed over. -/
def ofFields (entries : List (Datum × Datum)) : Except Fault Report := do
  Settings.named entries
  (Checked.both (Checked.field entries "target" Checked.textTable none)
    (Checked.both (Checked.field entries "item" Checked.text none)
      (Checked.both (Checked.field entries "result" (Checked.word Verdict.ofText?) none)
        (Checked.both
          (Checked.field entries "accept_result" (Checked.word Verdict.ofText?) (some .undefined))
          (Checked.field entries "diagnostics" (Checked.list Diagnostic.ofDatum)
            (some [])))))).mapError Fault.invalid |>.map
    fun (target, item, result, acceptResult, diagnostics) =>
      { target := Attributes.ofList target, item, result, acceptResult, diagnostics }

/-- A problem that names the item and the verdict. -/
def explain (r : Report) (p : Problem) : Problem :=
  (p.noteText "item" r.item).noteText "result" r.result.text

/-- The problem to be raised unless the item is fulfilled: for an error the one that its first
diagnostic stands for. -/
def complaint (r : Report) : Except Fault (Option Problem) :=
  if r.fulfilled then .ok none
  else match r.result, r.diagnostics with
    | .error, d :: _ => do return some (r.explain (← d.problem))
    | .error, [] =>
      .ok (some (r.explain {
        kind := .indeterminate
        message := s!"Evaluation of {r.item} failed without a diagnostic" }))
    | .graded g, _ =>
      .ok (some (r.explain {
        kind := .notFulfilled
        message := s!"{r.item} evaluated to {Verdict.graded g}" }))
    | _, _ => .ok (some (r.explain { kind := .indeterminate }))

/-- A fulfilled item gives no reason to complain. -/
theorem complaint_of_fulfilled {r : Report} (h : r.fulfilled = true) :
    r.complaint = .ok none := by
  simp [complaint, h]

end Report

end Applicability
