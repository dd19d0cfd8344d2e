/-
Questions: evaluations that are asked one after the other in one pass.

Between two questions a pass is at rest: nothing is being evaluated, and what is on record is what
the rules say. Every question finds a pass at rest and leaves one, and the answer depends on the
target alone.

* `Run.Gives`: a computation has a certain answer in all scenes of some kind, and leaves a scene of
  that kind, whatever the answer. It is put together from parts (`Gives.bind`, `Gives.mapM`,
  `Gives.filterM`);
* `Rulebook.AtRest`: the scenes between two questions. A new scene is one of them;
* `Rulebook.outcome`, `evaluate_gives`, `evaluate_of_outcome`: the answer of an evaluation;
* `evaluateAll_gives`, `filterItems_gives`: the answers on several items are those on each of them.
-/
import Applicability.Proofs.Following

namespace Applicability

/-! ### Computations with a certain answer -/

namespace Run

/-- **A certain answer**: the computation has it in every scene of some kind, and leaves a scene of
that kind. -/
def Gives {α : Type} (P : Scene → Prop) (x : Run α) (o : Except Fault α) : Prop :=
  ∀ s, P s → x.answer s = o ∧ P (x.left s)

namespace Gives

variable {α β : Type} {P : Scene → Prop} {x : Run α} {o : Except Fault α}

lemma pure (a : α) : Gives P (Pure.pure a) (.ok a) := fun _ hs => ⟨rfl, hs⟩

lemma bind {f : α → Run β} {o' : α → Except Fault β} (hx : Gives P x o)
    (hf : ∀ a, Gives P (f a) (o' a)) : Gives P (x >>= f) (o >>= o') := by
  intro s hs
  obtain ⟨ha, hl⟩ := hx s hs
  cases hxs : x s with
  | ok a t =>
      rw [answer, hxs] at ha
      rw [left, hxs] at hl
      subst ha
      have hnext := hf a t hl
      rw [answer, left] at hnext ⊢
      rw [bind_of_ok hxs]
      exact hnext
  | error f' t =>
      rw [answer, hxs] at ha
      rw [left, hxs] at hl
      subst ha
      rw [answer, left, bind_of_error hxs]
      exact ⟨rfl, hl⟩

lemma mapM {f : α → Run β} {g : α → Except Fault β} {items : List α}
    (h : ∀ a ∈ items, Gives P (f a) (g a)) : Gives P (items.mapM f) (items.mapM g) := by
  induction items with
  | nil => exact .pure []
  | cons a rest ih =>
      rw [List.mapM_cons, List.mapM_cons]
      exact (h a (by simp)).bind fun b =>
        (ih fun a' ha' => h a' (by simp [ha'])).bind fun bs => .pure (b :: bs)

lemma filterM {f : α → Run Bool} {g : α → Except Fault Bool} {items : List α}
    (h : ∀ a ∈ items, Gives P (f a) (g a)) : Gives P (items.filterM f) (items.filterM g) := by
  -- the selection is made with what was kept so far, in reverse
  have haux : ∀ kept, Gives P (items.filterAuxM f kept) (items.filterAuxM g kept) := by
    induction items with
    | nil => exact fun kept => .pure kept
    | cons a rest ih =>
        intro kept
        exact (h a (by simp)).bind fun b => ih (fun a' ha' => h a' (by simp [ha'])) _
  exact (haux []).bind fun kept => .pure kept.reverse

end Gives

end Run

/-! ### Passes at rest -/

/-- The answer that an assessment leads to. -/
def answerOf : Assessment → Except Fault Verdict
  | .ok x => .ok x.1
  | .error (.problem _) => .ok .error
  | .error (.fault f) => .error f

/-- The codes of the diagnostics that an assessment leads to. -/
def codesOf : Assessment → List String
  | .error (.problem kind) => [kind.code]
  | _ => []

namespace Rulebook

variable {r : Rulebook} {target : Attributes} {journals : Journals} {s : Scene} {i : Option Item}

/-- **A scene between two questions**: the target and the journals are known, the records are sound,
and nothing is being evaluated. -/
structure AtRest (r : Rulebook) (target : Attributes) (journals : Journals) (s : Scene) : Prop where
  sound : r.Sound s.pass
  target : s.pass.target = target
  journals : s.journals = journals
  active : s.pass.active = []
  depth : s.pass.depth = 0

/-- A new scene. -/
def fresh (target : Attributes) (journals : Journals) : Scene :=
  { pass := Pass.start target, journals }

lemma atRest_fresh : r.AtRest target journals (fresh target journals) :=
  ⟨sound_start target, rfl, rfl, rfl, rfl⟩

/-- What an evaluation leaves is at rest again. -/
lemma AtRest.kept {t : Scene} (h : r.AtRest target journals s) (ht : r.Sound t.pass)
    (hk : Kept s t) : r.AtRest target journals t :=
  ⟨ht, hk.target.trans h.target, hk.journals.trans h.journals, hk.active.trans h.active,
    hk.depth.trans h.depth⟩

/-- Every item may be evaluated in a scene at rest, with all levels left. -/
lemma AtRest.ready (h : r.AtRest target journals s) (i : Item) : r.Ready r.maxDepth i s :=
  ⟨h.sound, by rw [h.depth, Int.zero_add], fun c hc => by rw [h.active] at hc; cases hc⟩

/-- The answer on an item for a target. No item at all is ignored. -/
def outcome (r : Rulebook) (target : Attributes) : Option Item → Except Fault Verdict
  | none => .ok .ignored
  | some i => answerOf (r.assess target r.maxDepth [] i)

/-- The codes of the diagnostics on an item for a target. -/
def codes (r : Rulebook) (target : Attributes) : Option Item → List String
  | none => []
  | some i => codesOf (r.assess target r.maxDepth [] i)

/-- A code is that of the problem that the assessment meets. -/
lemma exists_of_mem_codes {i : Item} {code : String} (h : code ∈ r.codes target (some i)) :
    ∃ kind, r.assess target r.maxDepth [] i = .error (.problem kind) ∧ code = kind.code := by
  rw [codes] at h
  cases ho : r.assess target r.maxDepth [] i with
  | ok x => rw [ho] at h; cases h
  | error o =>
      rw [ho] at h
      cases o with
      | problem kind => exact ⟨kind, rfl, List.mem_singleton.mp h⟩
      | fault f => cases h

/-- **An evaluation in a pass at rest follows the assessment** with all levels. -/
lemma evaluate_follows (hg : r.graph.isPlain) {i : Item} (hi : i.isPlain)
    (hs : r.AtRest target journals s) :
    Follows r id Verdict.error s (r.assess target r.maxDepth [] i) (r.evaluate (some i) s) := by
  have hlevels : r.maxDepth < r.levels s.pass := by
    rw [levels, hs.depth]
    omega
  have := evaluateWithin_follows hg hlevels hi (hs.ready i)
  rwa [hs.target, hs.active] at this

/-- **What an evaluation does in a pass at rest**: its answer depends on the target alone, and so do
the codes of the diagnostics that it notes; and it leaves the pass at rest. -/
theorem evaluate_spec (hg : r.graph.isPlain) (hi : i.all Item.isPlain)
    (hs : r.AtRest target journals s) :
    (r.evaluate i).answer s = r.outcome target i ∧
      r.AtRest target journals ((r.evaluate i).left s) ∧
      ∃ noted, ((r.evaluate i).left s).pass.diagnostics = s.pass.diagnostics ++ noted ∧
        noted.map Diagnostic.code = r.codes target i := by
  cases i with
  | none =>
      have hnone : r.evaluate none s = .ok .ignored s := r.evaluateWithin_none _ s
      rw [Run.answer, Run.left, hnone]
      exact ⟨rfl, hs, [], by simp, rfl⟩
  | some i =>
      have h := evaluate_follows hg hi hs
      rw [Run.answer, Run.left, outcome, codes]
      generalize r.assess target r.maxDepth [] i = o at h
      generalize r.evaluate (some i) s = res at h
      cases h with
      | found ht hk _ hd => exact ⟨rfl, hs.kept ht hk, [], by simp [hd], rfl⟩
      | @failed _ d _ ht hk hd hc => exact ⟨rfl, hs.kept ht hk, [d], hd, by simp [hc, codesOf]⟩
      | fault ht hk hd => exact ⟨rfl, hs.kept ht hk, [], by simp [hd], rfl⟩

/-- An evaluation has the same answer in every pass at rest. -/
lemma evaluate_gives (hg : r.graph.isPlain) (hi : i.all Item.isPlain) :
    Run.Gives (r.AtRest target journals) (r.evaluate i) (r.outcome target i) := fun _ hs =>
  ⟨(evaluate_spec hg hi hs).1, (evaluate_spec hg hi hs).2.1⟩

/-- What is answered in passes at rest is the verdict of an evaluation in a new one. -/
lemma evaluate_of_outcome {v : Verdict} (hg : r.graph.isPlain) (hi : i.all Item.isPlain)
    (journals : Journals) (hv : r.outcome target i = .ok v) :
    ∃ t, r.evaluate i (fresh target journals) = .ok v t ∧ r.AtRest target journals t := by
  have hnew : r.AtRest target journals (fresh target journals) := atRest_fresh
  obtain ⟨hanswer, hrest, -⟩ := evaluate_spec hg hi hnew
  rw [hv, Run.answer] at hanswer
  rw [Run.left] at hrest
  cases hrun : r.evaluate i (fresh target journals) with
  | ok w t =>
      rw [hrun] at hanswer hrest
      cases hanswer
      exact ⟨t, rfl, hrest⟩
  | error f t =>
      rw [hrun] at hanswer
      cases hanswer

lemma evaluateAll_gives (hg : r.graph.isPlain) {items : List (Option Item)}
    (hi : ∀ i ∈ items, i.all Item.isPlain) :
    Run.Gives (r.AtRest target journals) (r.evaluateAll items) (items.mapM (r.outcome target)) :=
  .mapM fun i hmem => evaluate_gives hg (hi i hmem)

/-- The items that apply are those whose own answer says so. -/
lemma filterItems_gives (hg : r.graph.isPlain) {items : List (Option Item)}
    (hi : ∀ i ∈ items, i.all Item.isPlain) :
    Run.Gives (r.AtRest target journals) (r.filterItems items)
      (items.filterM fun i => Verdict.isFulfilled <$> r.outcome target i) :=
  .filterM fun i hmem => (evaluate_gives hg (hi i hmem)).bind fun v => .pure v.isFulfilled

end Rulebook

end Applicability
