/-
The graded scale, on which a rule's outcome is measured from worst to best.

* `Grade.rank`: the position on the scale, `failed` at 0 and `fulfilled` at 4;
* `Grade.rank_injective`: the position determines the grade, so that the order
  taken from it is linear;
* `Grade.negated`: the outcome of a rule that asks for the opposite;
* `Grade.negated_negated`: asking twice for the opposite asks for the rule.
-/

namespace Applicability

/-- The outcome of measuring an item against a target, from worst to best. -/
inductive Grade where
  /-- the item was measured and does not match -/
  | failed
  /-- a required artifact is not available at all -/
  | missing
  /-- an artifact is present but does not fit -/
  | incompatible
  /-- a matching artifact exists but is not selected -/
  | selectable
  /-- every constraint is satisfied -/
  | fulfilled
deriving DecidableEq, Repr, Inhabited, Hashable

namespace Grade

/-- The position on the scale. -/
def rank : Grade → Nat
  | failed => 0
  | missing => 1
  | incompatible => 2
  | selectable => 3
  | fulfilled => 4

/-- Every grade, worst first. -/
def scale : List Grade := [failed, missing, incompatible, selectable, fulfilled]

instance : LE Grade := ⟨fun a b => a.rank ≤ b.rank⟩

instance : LT Grade := ⟨fun a b => a.rank < b.rank⟩

instance (a b : Grade) : Decidable (a ≤ b) := inferInstanceAs (Decidable (a.rank ≤ b.rank))

instance (a b : Grade) : Decidable (a < b) := inferInstanceAs (Decidable (a.rank < b.rank))

instance : Min Grade := ⟨fun a b => if a ≤ b then a else b⟩

instance : Max Grade := ⟨fun a b => if a ≤ b then b else a⟩

/-- Asking for the opposite swaps the two ends of the scale and leaves the
grades between them alone. -/
def negated : Grade → Grade
  | fulfilled => failed
  | failed => fulfilled
  | other => other

/-- The position determines the grade. -/
theorem rank_injective {a b : Grade} (h : a.rank = b.rank) : a = b := by
  cases a <;> cases b <;> first | rfl | cases h

/-- Asking twice for the opposite asks for the rule itself. -/
theorem negated_negated (g : Grade) : g.negated.negated = g := by
  cases g <;> rfl

end Grade

end Applicability
