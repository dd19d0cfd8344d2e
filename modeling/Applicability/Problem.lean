/-
Coded problems, by which consumers are told that a rule is malformed or not met.

* `Problem.Kind`: the eight kinds with a code of their own and the three families above them;
* `Problem.ofCode?`: the problem of a code, which the families do not have;
* `Problem.Kind.ofCode?_code`: every coded kind is found by its code;
* `Problem.note`: adding a detail replaces the one of that name.
-/
import Applicability.Issue

namespace Applicability

/-- The kinds of problems. -/
inductive Problem.Kind where
  | general
  | model
  | evaluation
  | unknownDomain
  | unresolvedReference
  | duplicateCondition
  | invalidDefinition
  | cycle
  | tooDeep
  | indeterminate
  | notFulfilled
deriving DecidableEq, Repr

namespace Problem.Kind

/-- The kinds that have a code of their own. -/
def coded : List Problem.Kind :=
  [unknownDomain, unresolvedReference, duplicateCondition, invalidDefinition,
    cycle, tooDeep, indeterminate, notFulfilled]

/-- Every kind, the families first. -/
def all : List Problem.Kind := [general, model, evaluation] ++ coded

/-- The name of a kind. -/
def title : Problem.Kind → String
  | general => "ConditionsError"
  | model => "ModelError"
  | evaluation => "EvaluationError"
  | unknownDomain => "UnknownExpressionDomain"
  | unresolvedReference => "UnresolvedConditionReference"
  | duplicateCondition => "DuplicateCondition"
  | invalidDefinition => "InvalidConditionDefinition"
  | cycle => "ConditionCycleDetected"
  | tooDeep => "EvaluationDepthExceeded"
  | indeterminate => "IndeterminateResult"
  | notFulfilled => "ConditionNotFulfilled"

/-- The code of a kind. A family has the code of its range. -/
def code : Problem.Kind → String
  | general => "PC-E000"
  | model => "PC-E1XX"
  | evaluation => "PC-E2XX"
  | unknownDomain => "PC-E100"
  | unresolvedReference => "PC-E101"
  | duplicateCondition => "PC-E102"
  | invalidDefinition => "PC-E103"
  | cycle => "PC-E200"
  | tooDeep => "PC-E201"
  | indeterminate => "PC-E202"
  | notFulfilled => "PC-E203"

/-- What a problem of this kind says if nothing more is known. -/
def message : Problem.Kind → String
  | general | model | evaluation => "Unknown condition evaluation error"
  | unknownDomain => "Expression domain is not recognised"
  | unresolvedReference => "Referenced condition is not defined"
  | duplicateCondition => "Condition id is already defined"
  | invalidDefinition => "Condition definition is invalid"
  | cycle => "Condition references itself directly or transitively"
  | tooDeep => "Condition reference chain exceeds the maximum evaluation depth"
  | indeterminate => "Condition does not apply to the target attributes"
  | notFulfilled => "Condition is not fulfilled for the target attributes"

/-- What to do about a problem of this kind; the families give no advice. -/
def advice : Problem.Kind → String
  | general | model | evaluation => ""
  | unknownDomain => "Use a component, device, toolchain or reference expression."
  | unresolvedReference => "Define the referenced condition or fix the reference id."
  | duplicateCondition => "Give every condition a unique id."
  | invalidDefinition =>
    "Each expression needs either a 'condition' reference or " ++
      "attributes from a single domain (D*/P*, T*, C*)."
  | cycle => "Break the reference cycle in the condition definitions."
  | tooDeep => "Flatten the condition graph or raise EvaluatorConfig.max_depth."
  | indeterminate => "Check that the condition has device or toolchain expressions."
  | notFulfilled => "Select a device or toolchain the condition accepts."

/-- A problem of the rules themselves: malformed or inconsistent definitions. -/
def isModel : Problem.Kind → Bool
  | model | unknownDomain | unresolvedReference | duplicateCondition | invalidDefinition => true
  | _ => false

/-- A problem that an evaluation brought up. -/
def isEvaluation : Problem.Kind → Bool
  | evaluation | cycle | tooDeep | indeterminate | notFulfilled => true
  | _ => false

/-- The kind of a code. -/
def ofCode? (c : String) : Option Problem.Kind := coded.find? (fun s => s.code == c)

/-- The kind of a name. -/
def ofTitle? (t : String) : Option Problem.Kind := all.find? (fun s => s.title == t)

/-- Every coded kind is found by its code. -/
theorem ofCode?_code {s : Problem.Kind} (h : s ∈ coded) : ofCode? s.code = some s := by
  simp only [coded, List.mem_cons, List.not_mem_nil, or_false] at h
  rcases h with rfl | rfl | rfl | rfl | rfl | rfl | rfl | rfl <;> decide +kernel

end Problem.Kind

/-- A detail of a problem, for consumers that read it by machine. -/
inductive Detail where
  | datum (d : Datum)
  | issues (found : List Issue)
deriving Repr

/-- A coded problem. -/
structure Problem where
  kind : Problem.Kind
  message : String := kind.message
  details : List (String × Detail) := []
  advice : String := kind.advice
deriving Repr

namespace Problem

/-- The code of a problem is that of its kind. -/
def code (p : Problem) : String := p.kind.code

/-- The problem of a code. An empty message says no more than the kind does. -/
def ofCode? (c : String) (message : Option String) : Option Problem := do
  let kind ← Kind.ofCode? c
  match message with
  | some "" | none => return { kind }
  | some m => return { kind, message := m }

/-- Writes a detail; one of the same name is replaced where it stands. -/
def putDetail (name : String) (d : Detail) : List (String × Detail) → List (String × Detail)
  | [] => [(name, d)]
  | (n, old) :: rest =>
    if n = name then (n, d) :: rest else (n, old) :: putDetail name d rest

/-- The problem with one more detail. -/
def note (p : Problem) (name : String) (d : Detail) : Problem :=
  { p with details := putDetail name d p.details }

/-- The problem with one more detail that is a text. -/
def noteText (p : Problem) (name value : String) : Problem := p.note name (.datum (.text value))

/-- A problem as a developer sees it: kind, code and message. -/
def literal (p : Problem) : String :=
  p.kind.title ++ "(code=" ++ Text.quoted p.code ++ ", message=" ++ Text.quoted p.message ++ ")"

/-- Noting a detail changes neither the kind nor the message. -/
theorem note_message (p : Problem) (name : String) (d : Detail) :
    (p.note name d).message = p.message ∧ (p.note name d).kind = p.kind := ⟨rfl, rfl⟩

end Problem

end Applicability
