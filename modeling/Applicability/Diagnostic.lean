/-
Diagnostics: why an evaluation came to no verdict.

* `Diagnostic`: a code, a message and the condition concerned;
* `Diagnostic.problem`: the coded problem that it stands for;
* `Diagnostic.problem_of_kind`: a diagnostic made for a coded kind stands for a problem of it.
-/
import Applicability.Checked
import Applicability.Fault

namespace Applicability

/-- Why an evaluation came to no verdict. -/
structure Diagnostic where
  code : String
  message : String
  conditionId : Option String := none
deriving DecidableEq, Repr, Inhabited

namespace Diagnostic

/-- A diagnostic of the given kind. -/
def ofKind (kind : Problem.Kind) (message : String) (conditionId : Option String) : Diagnostic :=
  ⟨kind.code, message, conditionId⟩

/-- Reads a diagnostic; entries that are none of its fields are passed over. -/
def ofEntries (entries : List (Datum × Datum)) : Checked Diagnostic :=
  (Checked.both (Checked.field entries "code" Checked.text none)
    (Checked.both (Checked.field entries "message" Checked.text none)
      (Checked.field entries "condition_id" Checked.textOrNull (some none)))).map
    fun (code, message, conditionId) => { code, message, conditionId }

/-- Reads a diagnostic. -/
def ofDatum : Datum → Checked Diagnostic
  | .table entries => ofEntries entries
  | _ => Checked.fail .notARecord

/-- The coded problem that a diagnostic stands for. -/
def problem (d : Diagnostic) : Except Fault Problem :=
  match Problem.ofCode? d.code (some d.message) with
  | none => .error (.noEntry (.text d.code))
  | some p =>
    match d.conditionId with
    | some id => .ok (p.noteText "condition_id" id)
    | none => .ok p

/-- A diagnostic made for a coded kind stands for a problem of this kind. -/
theorem problem_of_kind {kind : Problem.Kind} (h : kind ∈ Problem.Kind.coded) (message : String)
    (conditionId : Option String) :
    ∃ p, (ofKind kind message conditionId).problem = .ok p ∧ p.kind = kind := by
  have hc := Problem.Kind.ofCode?_code h
  simp only [problem, ofKind, Problem.ofCode?, hc, Option.bind_eq_bind, Option.bind_some]
  split <;> rename_i heq
  · split at heq <;> cases heq
  · split at heq <;> cases heq <;> cases conditionId <;>
      exact ⟨_, rfl, rfl⟩

end Diagnostic

end Applicability
