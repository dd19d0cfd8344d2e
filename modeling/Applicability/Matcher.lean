/-
Deciding whether the target of an evaluation meets the predicate of an expression.

A matcher is a function of predicate and target; a consumer may bring one that gives up.

* `Matcher.wildcard`: the usual matcher, which compares the attributes that both sides name, each
  of the two values being a pattern for the other;
* `Matcher.exact`: the strict matcher, which asks for each attribute of the predicate;
* `agree_iff`: the usual matcher accepts if all common attributes match.
-/
import Applicability.Attributes
import Applicability.Fault
import Applicability.Wildcard.Matching

namespace Applicability

/-- Decides whether a target (second) meets a predicate (first). -/
abbrev Matcher := Attributes → Attributes → Except Fault Bool

/-- Whether the attributes that both sides name have matching values. -/
def agree (observeCase : Bool) (predicate target : Attributes) : Bool :=
  predicate.entries.all fun e =>
    match target.get? e.1 with
    | some actual => Wildcard.matchEither observeCase e.2 actual
    | none => true

/-- The attributes that both sides name have matching values, and that is all that is asked. -/
theorem agree_iff {observeCase : Bool} {predicate target : Attributes} :
    agree observeCase predicate target = true ↔
      ∀ name expected actual, predicate.get? name = some expected →
        target.get? name = some actual →
        Wildcard.matchEither observeCase expected actual = true := by
  simp only [agree, List.all_eq_true]
  constructor
  · intro h name expected actual hp ht
    have := h (name, expected) ((predicate.get?_eq_some_iff name expected).mp hp)
    simpa [ht] using this
  · intro h e he
    cases ht : target.get? e.1 with
    | none => rfl
    | some actual =>
      exact h e.1 e.2 actual ((predicate.get?_eq_some_iff e.1 e.2).mpr he) ht

namespace Matcher

/-- The usual matcher. -/
def wildcard (observeCase : Bool) : Matcher := fun predicate target =>
  .ok (agree observeCase predicate target)

/-- Asks for every attribute of the predicate, with an equal value. -/
def exact : Matcher := fun predicate target =>
  .ok (predicate.entries.all fun e => target.get? e.1 == some e.2)

/-- Accepts every target. -/
def always : Matcher := fun _ _ => .ok true

/-- Accepts no target. -/
def never : Matcher := fun _ _ => .ok false

/-- Gives up on every target. -/
def crash : Matcher := fun _ _ => .error (.raised "matcher crashed")

end Matcher

end Applicability
