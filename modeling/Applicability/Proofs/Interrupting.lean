/-
Interrupting: which items an item has evaluated.

A verdict does not show which other items were evaluated for it. An alarm that is raised where a
certain item is to be evaluated does: it ends the evaluation if the item is asked for, and is never
raised if it is not.

* `Recursion.interrupted`: the recursion in which such an alarm is raised;
* `Rulebook.Evaluates`: an item has another one evaluated if every alarm for it comes through;
* `exists_of_combine`, `exists_of_tallyFrom`: what comes to a verdict has counted every expression,
  so that an alarm for one of them comes through (`combine_interrupted`);
* `evaluates_iff`: an item that comes to a verdict other than an error has all its successors
  evaluated and nothing else.
-/
import Applicability.Proofs.Lockstep

namespace Applicability

/-! ### Alarms -/

/-- A recursion that is interrupted where a certain item is to be evaluated. -/
def Recursion.interrupted (recur : Recursion) (j : Item) (alarm : Fault) : Recursion :=
  fun i => if i = some j then throw alarm else recur i

namespace Rulebook

variable {r : Rulebook} {recur : Recursion} {i j : Item} {s t : Scene} {v : Verdict}

/-- **An item has another one evaluated**, in a certain scene: an alarm that is raised there ends
the evaluation of the item. -/
def Evaluates (r : Rulebook) (recur : Recursion) (i : Item) (s : Scene) (j : Item) : Prop :=
  ∀ alarm, ∃ t, r.evaluateItem (recur.interrupted j alarm) i s = .error alarm t

lemma interrupted_self (alarm : Fault) : recur.interrupted j alarm (some j) = throw alarm :=
  if_pos rfl

lemma interrupted_of_ne {alarm : Fault} {k : Option Item} (h : k ≠ some j) :
    recur.interrupted j alarm k = recur k := if_neg h

lemma tallyFrom_of_fault {es : List ExpressionRef} {e : ExpressionRef} {f : Fault}
    (h : Run.asking (r.roleOf e == .deny) (recur (some (.expression e))) s = .error f t)
    (tally : Tally) : r.tallyFrom recur (e :: es) tally s = .error f t := by
  rw [tallyFrom]
  exact Run.bind_of_error h

/-- Counting that comes to an end has counted every expression. -/
lemma exists_of_tallyFrom {es : List ExpressionRef} {e : ExpressionRef} {tally tally' : Tally}
    (h : r.tallyFrom recur (e :: es) tally s = .ok (some tally') t) :
    ∃ w u, Run.asking (r.roleOf e == .deny) (recur (some (.expression e))) s = .ok w u ∧
      w ≠ .error ∧ r.tallyFrom recur es (tally.countVerdict (r.roleOf e) w) u =
        .ok (some tally') t := by
  cases hres : Run.asking (r.roleOf e == .deny) (recur (some (.expression e))) s with
  | error f u =>
      rw [tallyFrom_of_fault hres] at h
      cases h
  | ok w u =>
      by_cases hw : w = .error
      · subst hw
        rw [tallyFrom_of_error hres] at h
        cases h
      · rw [tallyFrom_of_ok hres hw] at h
        exact ⟨w, u, rfl, hw, h⟩

/-- Where counting comes to an end, an alarm for one of the expressions ends it early. -/
lemma tallyFrom_interrupted {es : List ExpressionRef} {e : ExpressionRef} {tally tally' : Tally}
    (hkeep : ∀ e' ∈ es, Run.Effect Pass.Balanced (recur (some (.expression e')))) (he : e ∈ es)
    (h : r.tallyFrom recur es tally s = .ok (some tally') t) (alarm : Fault) :
    ∃ u, r.tallyFrom (recur.interrupted (.expression e) alarm) es tally s = .error alarm u ∧
      u.pass.active = s.pass.active := by
  induction es generalizing tally s with
  | nil => cases he
  | cons e' rest ih =>
      -- the expressions before this one are counted as they were, and hold what was held
      by_cases heq : e' = e
      · subst heq
        have hraise : Run.asking (r.roleOf e' == .deny)
            (recur.interrupted (.expression e') alarm (some (.expression e'))) s =
              .error alarm s := by
          rw [interrupted_self]
          rfl
        exact ⟨s, tallyFrom_of_fault hraise tally, rfl⟩
      · obtain ⟨w, u, hres, hw, hrest⟩ := exists_of_tallyFrom h
        have hkept := Run.Effect.asking Pass.allows_balanced.unnoted (r.roleOf e' == .deny)
          (hkeep e' (by simp)) s
        rw [Run.left_of_ok hres] at hkept
        have hsame : recur.interrupted (.expression e) alarm (some (.expression e')) =
            recur (some (.expression e')) := interrupted_of_ne (by simpa using heq)
        rw [← hsame] at hres
        rw [tallyFrom_of_ok hres hw, ← hkept.active]
        exact ih (fun e'' he'' => hkeep e'' (by simp [he'']))
          (List.mem_of_ne_of_mem (Ne.symm heq) he) hrest

/-- What comes to an answer while a condition is held comes to it in the scene in which it is. -/
lemma exists_of_holding {α : Type} {c : ConditionRef} {x : Run α} {a : α}
    (h : Run.holding c x s = .ok a t) : ∃ u, x { s with pass := s.pass.hold c } = .ok a u := by
  rw [Run.holding] at h
  split at h
  · next a' u hx =>
    split at h
    · cases h
      exact ⟨u, hx⟩
    · cases h
  · split at h <;> cases h

/-- A condition that comes to a verdict other than an error has counted all its expressions while it
was held. -/
lemma exists_of_combine {c : ConditionRef} (h : r.combine recur c s = .ok v t) (hv : v ≠ .error) :
    c ∉ s.pass.active ∧ ∃ tally u,
      r.tallyFrom recur (r.graph.condition c).expressions {}
        { s with pass := s.pass.within (.condition c) } = .ok (some tally) u ∧
      t.pass = (u.pass.release c).settleAccept tally.best := by
  by_cases hc : c ∈ s.pass.active
  · rw [combine_of_mem hc] at h
    cases h
    exact absurd rfl hv
  refine ⟨hc, ?_⟩
  rw [combine_of_not_mem hc] at h
  have hleft := Run.left_holding c (r.tallyFrom recur (r.graph.condition c).expressions {})
    { s with pass := s.pass.settleAccept none }
  cases hres : Run.holding c (r.tallyFrom recur (r.graph.condition c).expressions {})
    { s with pass := s.pass.settleAccept none } with
  | error f u => rw [hres] at h; cases h
  | ok o u =>
      rw [hres] at h
      rw [Run.left_of_ok hres] at hleft
      cases o with
      | none =>
          cases h
          exact absurd rfl hv
      | some tally =>
          cases h
          obtain ⟨u', hcount⟩ := exists_of_holding hres
          rw [Run.left_of_ok hcount] at hleft
          exact ⟨tally, u', hcount, by rw [← hleft]⟩

/-- An alarm for one of its expressions ends the combination of a condition. -/
lemma combine_interrupted {c : ConditionRef} {e : ExpressionRef}
    (hkeep : RecursWith (fun i => i.isPlain) Pass.Balanced recur)
    (he : e ∈ (r.graph.condition c).expressions) (h : r.combine recur c s = .ok v t)
    (hv : v ≠ .error) (alarm : Fault) :
    ∃ u, r.combine (recur.interrupted (.expression e) alarm) c s = .error alarm u := by
  obtain ⟨hc, tally, u, hcount, -⟩ := exists_of_combine h hv
  obtain ⟨w, halarm, hactive⟩ := tallyFrom_interrupted
    (fun e _ => hkeep.item (A := fun i => i.isPlain) rfl) he hcount alarm
  have halarm' : r.tallyFrom (recur.interrupted (.expression e) alarm)
      (r.graph.condition c).expressions {}
      { s with pass := (s.pass.settleAccept none).hold c } = .error alarm w := halarm
  have hheld : w.pass.active.contains c = true := by
    rw [hactive]
    simp [Item.condition?]
  have hholding : Run.holding c (r.tallyFrom (recur.interrupted (.expression e) alarm)
      (r.graph.condition c).expressions {}) { s with pass := s.pass.settleAccept none } =
        .error alarm { w with pass := w.pass.release c } := by
    simp only [Run.holding, halarm', hheld, if_true]
  exact ⟨{ w with pass := w.pass.release c }, by rw [combine_of_not_mem hc, hholding]⟩

/-- An alarm for an item that is no successor is never raised. -/
lemma mem_successors_of_evaluates (hg : r.graph.isPlain) (hi : i.isPlain)
    (hkeep : RecursWith (fun i => i.isPlain) Pass.Balanced recur)
    (h : r.evaluateItem recur i s = .ok v t) (hasks : r.Evaluates recur i s j) :
    j ∈ r.graph.successors i := by
  by_contra hnot
  obtain ⟨u, halarm⟩ := hasks .endless
  have hsame : r.evaluateItem recur i s = r.evaluateItem (recur.interrupted j .endless) i s := by
    refine evaluateItem_congr Pass.allows_balanced.unnoted (calm_isPlain hg) hi hkeep
      (interrupted_of_ne (by simp)).symm fun _ k hik t _ => ?_
    have hne : k ≠ j := fun hkj => hnot (hkj ▸ Graph.leads_of_asks hi hik)
    rw [interrupted_of_ne (by simpa using hne)]
  rw [← hsame, h] at halarm
  cases halarm

/-- **The items that an item has evaluated** on the way to a verdict other than an error are its
successors. -/
lemma evaluates_iff (hg : r.graph.isPlain) (hi : i.isPlain)
    (hkeep : RecursWith (fun i => i.isPlain) Pass.Balanced recur)
    (h : r.evaluateItem recur i s = .ok v t) (hv : v ≠ .error) :
    r.Evaluates recur i s j ↔ j ∈ r.graph.successors i := by
  refine ⟨mem_successors_of_evaluates hg hi hkeep h, fun hlead alarm => ?_⟩
  cases i with
  | expression e =>
      -- a reference hands the alarm on; what the matcher decides has no successors
      by_cases hd : (r.graph.expression e).domain = .reference
      · rw [Graph.successors_expression hd, Option.mem_toList] at hlead
        refine ⟨s, ?_⟩
        simp only [evaluateItem, evaluateExpression, hd, Option.mem_def.mp hlead]
        rw [interrupted_self]
        rfl
      · rw [Graph.successors_expression_of_ne hd] at hlead
        cases hlead
  | artifact a =>
      have hguard : (r.graph.artifact a).guard = some j := Option.mem_toList.mp hlead
      refine ⟨s, ?_⟩
      simp only [evaluateItem, evaluateArtifact, hguard]
      rw [interrupted_self]
      rfl
  | scripted x => cases hi
  | condition c =>
      obtain ⟨e, he, rfl⟩ := List.mem_map.mp hlead
      exact combine_interrupted hkeep he h hv alarm

end Rulebook

end Applicability
