/-
Sessions: calls on one pass, between which the consumer changes the graph.

A pass belongs to no graph. Between two calls a consumer may bind references, add expressions to
conditions, or make new items, so that each call finds a graph of its own. What every evaluation
does to a pass is done by every call too, unless the call starts the pass over.

* `Step`: a call with the graph that it finds; `Step.serve`, `Step.serveAll`: the scene after such
  calls;
* `Call.effect_serve`: a call that goes on with the pass has the effect of the evaluations that it
  asks for;
* `Step.invariant_serveAll`: what holds of new passes and is kept by every call holds throughout;
* `calm_of_restarts`: where no item of a consumer's own starts the pass over, all items are calm.
-/
import Applicability.Proofs.Calls

namespace Applicability

/-- The rulebook for another graph. -/
def Rulebook.on (r : Rulebook) (g : Graph) : Rulebook := { r with graph := g }

/-! ### What a call names -/

namespace Call

/-- The items that a call names. -/
def items : Call → List (Option Item)
  | request (.evaluate i) | asExpression i | asCondition i => [i]
  | request (.filter items) => items
  | request .restart | request (.retarget _) | conclude _ => []

/-- A call that goes on with the pass, and does not start it over. -/
def continues : Call → Bool
  | request .restart | request (.retarget _) => false
  | _ => true

/-- A call about items of a certain kind. -/
def About (A : Item → Prop) (q : Call) : Prop := ∀ i ∈ q.items, ∀ j, i = some j → A j

lemma about_of_isPlain {q : Call} (h : q.isPlain) : q.About (fun i => i.isPlain) := by
  rintro i hi j rfl
  cases q with
  | request q =>
      cases q with
      | evaluate k =>
          obtain rfl := List.mem_singleton.mp hi
          exact h
      | filter items => exact List.all_eq_true.mp h _ hi
      | restart => cases hi
      | retarget target => cases hi
  | asExpression k =>
      obtain rfl := List.mem_singleton.mp hi
      exact h
  | asCondition k =>
      obtain rfl := List.mem_singleton.mp hi
      exact h
  | conclude v => cases hi

variable {r : Rulebook} {A : Item → Prop} {Rel : Pass → Pass → Prop} {q : Call} {s : Scene}

/-- A call that does not go on with the pass leaves a new one. -/
lemma serve_of_not_continues (h : q.continues = false) :
    ∃ target, (q.serve r s).pass = Pass.start target := by
  cases q with
  | request q =>
      cases q with
      | restart => exact ⟨s.pass.target, rfl⟩
      | retarget target => exact ⟨target, rfl⟩
      | evaluate i => cases h
      | filter items => cases h
  | asExpression i => cases h
  | asCondition i => cases h
  | conclude v => cases h

/-- **A call that goes on with the pass** has the effect of the evaluations that it asks for. -/
lemma effect_serve (h : Pass.AllowsUnnoted Rel) (hconclude : ∀ p v, Rel p (p.conclude v))
    (hA : r.Calm A) (hrec : Rulebook.RecursWith A Rel r.recursion) (hq : q.About A)
    (hc : q.continues) : Rel s.pass (q.serve r s).pass := by
  -- an item of another kind than asked for is not evaluated
  have hothers : Rel s.pass (s.pass.settleAccept none) := h.settleAccept s.pass none
  cases q with
  | request q =>
      cases q with
      | evaluate i => exact hrec i (hq i (by simp [items])) s
      | filter items =>
          exact Run.Effect.filterM h
            (fun i hi => .bind h (hrec i (hq i hi)) fun v => .pure h v.isFulfilled) s
      | restart => cases hc
      | retarget target => cases hc
  | conclude v => exact hconclude s.pass v
  | asExpression i =>
      cases i with
      | none => exact h.refl s.pass
      | some i =>
          cases i with
          | expression e =>
              have he : A (.expression e) := hq _ (by simp [items]) _ rfl
              exact Rulebook.effect_evaluateItem h hA hrec he s
          | _ => exact h.refl s.pass
  | asCondition i =>
      cases i with
      | none => exact hothers
      | some i =>
          cases i with
          | condition c =>
              have he : A (.condition c) := hq _ (by simp [items]) _ rfl
              exact Rulebook.effect_evaluateItem h hA hrec he s
          | _ => exact hothers

end Call

/-! ### Steps of a session -/

/-- **A call and what it finds**: the graph as the consumer has changed it by then, with the
journals of the scripted items that there are by then. -/
structure Step where
  graph : Graph
  journals : Journals := {}
  call : Call

namespace Step

/-- The scene after a step, whatever its answer. -/
def serve (r : Rulebook) (s : Scene) (x : Step) : Scene :=
  x.call.serve (r.on x.graph) { s with journals := x.journals }

/-- The scene after some steps, one after the other. -/
def serveAll (r : Rulebook) (steps : List Step) (s : Scene) : Scene := steps.foldl (serve r) s

variable {r : Rulebook} {steps : List Step} {s : Scene}

/-- **What holds of new passes**, and is kept by each of some steps that go on with the pass, holds
after all of them. -/
lemma invariant_serveAll (Inv : Pass → Prop) (hnew : ∀ target, Inv (Pass.start target))
    (hstep : ∀ x ∈ steps, x.call.continues → ∀ s : Scene, Inv s.pass → Inv (x.serve r s).pass)
    (hs : Inv s.pass) : Inv (serveAll r steps s).pass := by
  induction steps generalizing s with
  | nil => exact hs
  | cons x rest ih =>
      refine ih (fun y hy => hstep y (by simp [hy])) ?_
      cases hc : x.call.continues with
      | true => exact hstep x (by simp) hc s hs
      | false =>
          obtain ⟨target, hstart⟩ : ∃ target, (x.serve r s).pass = Pass.start target :=
            Call.serve_of_not_continues hc
          rw [hstart]
          exact hnew target

end Step

/-! ### Graphs in which no pass is started over -/

namespace Rulebook

variable {r : Rulebook} {s : Scene}

/-- Where no item of a consumer's own starts the pass over, all items are calm. -/
lemma calm_of_restarts (h : r.restarts = false) : r.Calm (fun _ => True) where
  leads _ _ := trivial
  acts {s} _ x hx := by
    refine ⟨?_, fun _ _ => trivial⟩
    by_cases hs : s.index < r.graph.scripts.size
    · have hscript : r.graph.script s = r.graph.scripts[s.index] := by simp [Graph.script, hs]
      have hmem : r.graph.script s ∈ r.graph.scripts := hscript ▸ Array.getElem_mem hs
      have hnone := h
      rw [restarts, Array.any_eq_false'] at hnone
      have hactions := hnone _ hmem
      rw [Bool.not_eq_true, List.any_eq_false] at hactions
      have hx' := hactions x hx
      cases x with
      | evaluate i => rfl
      | fail f => rfl
      | restart => exact absurd rfl hx'
      | retarget target => exact absurd rfl hx'
    · have hscript : r.graph.script s = default := by simp [Graph.script, hs]
      rw [hscript] at hx
      cases hx

/-- Where no call is counted, as many levels are granted as the limit says, and one to refuse. -/
lemma recursion_eq_evaluateWithin (hr : r.restarts = false) (hs : s.pass.depth = 0)
    (i : Option Item) : r.recursion i s = r.evaluateWithin (r.maxDepth + 1) i s := by
  have hlevels : r.levels s.pass = r.maxDepth + 1 := by simp [levels, hs, hr]
  rw [recursion, hlevels]

end Rulebook

end Applicability
