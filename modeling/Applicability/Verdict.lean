/-
The verdict on an item: a grade, or one of three answers outside the scale.

* `Verdict`: a grade, `ignored` (no information), `undefined` (not looked at
  yet) or `error` (the rules cannot be followed);
* `Verdict.ofText?_text`: a verdict is read back from its text;
* `Verdict.negated`: the verdict of a rule that asks for the opposite, which
  leaves the three other answers as they are.
-/
import Applicability.Grade

namespace Applicability

/-- What is known of an item for one target. -/
inductive Verdict where
  /-- the item was measured -/
  | graded (g : Grade)
  /-- no information: the item does not apply -/
  | ignored
  /-- not looked at yet -/
  | undefined
  /-- the rules cannot be followed -/
  | error
deriving DecidableEq, Repr, Inhabited, Hashable

namespace Verdict

instance : Coe Grade Verdict := ⟨graded⟩

/-- Every verdict, the scale first. -/
def all : List Verdict := Grade.scale.map graded ++ [ignored, undefined, error]

/-- The grade of a verdict that has one. -/
def grade? : Verdict → Option Grade
  | graded g => some g
  | _ => none

/-- A verdict on the scale. -/
def isGraded (v : Verdict) : Bool := v.grade?.isSome

/-- The one verdict that lets an item into a build. -/
def isFulfilled (v : Verdict) : Bool := v == graded .fulfilled

/-- A verdict that a combination passes over. -/
def isSilent (v : Verdict) : Bool := v == ignored || v == undefined

/-- The text by which a verdict is exchanged. -/
def text : Verdict → String
  | graded .failed => "failed"
  | graded .missing => "missing"
  | graded .incompatible => "incompatible"
  | graded .selectable => "selectable"
  | graded .fulfilled => "fulfilled"
  | ignored => "ignored"
  | undefined => "undefined"
  | error => "error"

instance : ToString Verdict := ⟨text⟩

/-- The verdict of a text, which must be spelled exactly. -/
def ofText? (t : String) : Option Verdict := all.find? (fun v => v.text == t)

/-- The name of a verdict: its text in capitals. -/
def title (v : Verdict) : String := v.text.map Char.toUpper

/-- The verdict of a rule that asks for the opposite. -/
def negated : Verdict → Verdict
  | graded g => graded g.negated
  | v => v

/-- The best of the alternatives seen so far, `undefined` when none was. -/
def ofBest : Option Grade → Verdict
  | some g => graded g
  | none => undefined

/-- The weakest of the constraints seen so far, `ignored` when none was. -/
def ofWeakest : Option Grade → Verdict
  | some g => graded g
  | none => ignored

/-- Every verdict is listed. -/
theorem mem_all (v : Verdict) : v ∈ all := by
  cases v with
  | graded g => cases g <;> decide
  | _ => decide

/-- A verdict is read back from its text. -/
theorem ofText?_text (v : Verdict) : ofText? v.text = some v := by
  cases v with
  | graded g => cases g <;> decide +kernel
  | _ => decide +kernel

/-- Asking twice for the opposite gives the verdict back. -/
theorem negated_negated (v : Verdict) : v.negated.negated = v := by
  cases v with
  | graded g => simp [negated, Grade.negated_negated]
  | _ => rfl

end Verdict

end Applicability
