/-
Calls: everything that a consumer can do with a pass from outside.

Besides the requests there are three calls: an expression or a condition is evaluated as such,
without a level of its own, and the overall verdict is set. No call upsets a pass.

* `Call`, `Call.serve`, `Call.serveAll`: the calls, and the scene after some of them;
* `Rulebook.Idle`: a scene at rest in which the depth that was reached is not negative;
* `evaluateItem_idle`: evaluating an item as such leaves an idle scene;
* `idle_serve`, `idle_serveAll`: so does every call, and so does any number of them.
-/
import Applicability.Proofs.Effects
import Applicability.Proofs.Transparency

namespace Applicability

/-- What a consumer can do with a pass. -/
inductive Call where
  | request (q : Request)
  | asExpression (i : Option Item)
  | asCondition (i : Option Item)
  | conclude (v : Verdict)

namespace Call

/-- A call about items of a pack. -/
def isPlain : Call → Bool
  | request q => q.isPlain
  | asExpression i | asCondition i => i.all Item.isPlain
  | conclude _ => true

/-- The scene after a call, whatever its answer. -/
def serve (r : Rulebook) (s : Scene) : Call → Scene
  | request q => q.serve r s
  | asExpression i => (r.evaluateAsExpression i).left s
  | asCondition i => (r.evaluateAsCondition i).left s
  | conclude v => { s with pass := s.pass.conclude v }

/-- The scene after some calls, one after the other. -/
def serveAll (r : Rulebook) (calls : List Call) (s : Scene) : Scene := calls.foldl (serve r) s

/-- The target after a call. -/
def turn (target : Attributes) : Call → Attributes
  | request q => q.turn target
  | _ => target

end Call

namespace Rulebook

variable {r : Rulebook} {target : Attributes} {journals : Journals} {s : Scene} {i : Item}

lemma sound_left_of_follows {α β : Type} {found : α → β} {failed : β}
    {o : Except Obstacle (α × Nat)} {x : Run β} (h : Follows r found failed s o (x s)) :
    r.Sound (x.left s).pass := by
  rw [Run.left]
  generalize x s = res at h
  cases h with
  | found hs => exact hs
  | failed hs => exact hs
  | fault hs => exact hs

/-- **A scene between two calls**: it is at rest, and the depth that was reached is not negative. -/
structure Idle (r : Rulebook) (target : Attributes) (journals : Journals) (s : Scene) : Prop extends
    r.AtRest target journals s where
  reached : 0 ≤ s.pass.reached

lemma idle_fresh : r.Idle target journals (fresh target journals) := ⟨atRest_fresh, le_rfl⟩

/-- What is at rest after a computation that reaches no negative depth is idle. -/
lemma Idle.after {α : Type} {x : Run α} {turned : Attributes} (h : r.Idle target journals s)
    (hx : Run.Effect Pass.Deep x) (hrest : r.AtRest turned journals (x.left s)) :
    r.Idle turned journals (x.left s) := by
  refine ⟨hrest, ?_⟩
  have hbefore : s.pass.depth ≤ s.pass.reached := h.depth ▸ h.reached
  have hafter := hx s hbefore
  rwa [hrest.depth] at hafter

/-- Evaluating what is inside an item follows its assessments. -/
lemma recurs_recursion (hg : r.graph.isPlain) : r.Recurs r.maxDepth i r.recursion := by
  intro j t hij ht
  have hlevels : r.maxDepth < r.levels t.pass := by
    have := ht.levels
    rw [levels]
    omega
  exact evaluateWithin_follows hg hlevels (Graph.isPlain_of_leads hg hij) ht

/-- **Evaluating an item as such** leaves an idle scene. -/
lemma evaluateItem_idle (hg : r.graph.isPlain) (hi : i.isPlain) (hs : r.Idle target journals s) :
    r.Idle target journals ((r.evaluateItem r.recursion i).left s) := by
  have hfollows :=
    evaluateItem_follows hi (recurs_recursion hg) (hs.ready i) (hs.depth ▸ hs.reached)
  have hdeep : Run.Effect Pass.Deep (r.evaluateItem r.recursion i) :=
    effect_evaluateItem Pass.allows_deep.unnoted (calm_isPlain hg)
      (recursion_effect Pass.allows_deep (calm_isPlain hg)) hi
  exact hs.after hdeep (hs.toAtRest.kept (sound_left_of_follows hfollows) hfollows.kept)

lemma evaluate_deep (hg : r.graph.isPlain) {i : Option Item} (hi : i.all Item.isPlain) :
    Run.Effect Pass.Deep (r.evaluate i) :=
  recursion_effect Pass.allows_deep (calm_isPlain hg) i fun j hj => by simpa [hj] using hi

end Rulebook

namespace Call

variable {r : Rulebook} {target : Attributes} {journals : Journals} {s : Scene}

lemma idle_request (hg : r.graph.isPlain) {q : Request} (hq : q.isPlain)
    (hs : r.Idle target journals s) : r.Idle (q.turn target) journals (q.serve r s) := by
  have hrest := Request.atRest_serve hg hq hs.toAtRest
  cases q with
  | evaluate i => exact hs.after (Rulebook.evaluate_deep hg hq) hrest
  | filter items =>
      refine hs.after (.filterM Pass.allows_deep.unnoted fun i hi => ?_) hrest
      have hi' : i.all Item.isPlain := List.all_eq_true.mp hq i hi
      exact .bind Pass.allows_deep.unnoted (Rulebook.evaluate_deep hg hi')
        fun v => .pure Pass.allows_deep.unnoted v.isFulfilled
  | restart => exact ⟨hrest, le_rfl⟩
  | retarget other => exact ⟨hrest, le_rfl⟩

/-- **A call leaves an idle scene.** -/
lemma idle_serve (hg : r.graph.isPlain) {q : Call} (hq : q.isPlain)
    (hs : r.Idle target journals s) : r.Idle (q.turn target) journals (q.serve r s) := by
  -- an item of another kind than asked for leaves all that matters
  have hother : ∀ accept, r.Idle target journals { s with pass := s.pass.settleAccept accept } :=
    fun accept =>
      ⟨⟨hs.sound.congr rfl rfl, hs.target, hs.journals, hs.active, hs.depth⟩, hs.reached⟩
  cases q with
  | request q => exact idle_request hg hq hs
  | conclude v =>
      exact ⟨⟨hs.sound.congr rfl rfl, hs.target, hs.journals, hs.active, hs.depth⟩, hs.reached⟩
  | asExpression i =>
      cases i with
      | none => exact hs
      | some i =>
          cases i with
          | expression e => exact Rulebook.evaluateItem_idle hg (i := .expression e) rfl hs
          | condition c => exact hs
          | artifact a => exact hs
          | scripted x => cases hq
  | asCondition i =>
      cases i with
      | none => exact hother none
      | some i =>
          cases i with
          | condition c => exact Rulebook.evaluateItem_idle hg (i := .condition c) rfl hs
          | expression e => exact hother none
          | artifact a => exact hother none
          | scripted x => cases hq

/-- **Any number of calls leave an idle scene.** -/
lemma idle_serveAll (hg : r.graph.isPlain) {calls : List Call} (hq : ∀ q ∈ calls, q.isPlain)
    (hs : r.Idle target journals s) :
    r.Idle (calls.foldl turn target) journals (serveAll r calls s) := by
  induction calls generalizing target s with
  | nil => exact hs
  | cons q rest ih =>
      exact ih (fun q' hq' => hq q' (by simp [hq'])) (idle_serve hg (hq q (by simp)) hs)

end Call

end Applicability
