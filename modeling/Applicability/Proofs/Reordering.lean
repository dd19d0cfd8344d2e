/-
Reordering: evaluations for targets that are equal without regard to order.

An evaluation looks at its target through the matcher only. If the matcher answers alike for targets
that are equal without regard to order, so does every evaluation, whatever the items are: when a
scripted item starts the pass over, the target stays, and when it turns to another target, this is
the same one from then on.

* `Matcher.IgnoresOrder`: such a matcher, with `wildcard_ignoresOrder`;
* `Scene.Reordered`: scenes that differ only in the order of the target's attributes;
* `Run.Steady`: computations that give the same answer in such scenes and leave such scenes, with
  one lemma for each way to put computations together;
* `steady_visit`, `steady_evaluateItem`, `steady_evaluateWithin`: evaluations are steady. The
  induction is on the levels that are granted;
* `matching_by_common_names`: what the usual matcher makes of predicate and target.
-/
import Applicability.Proofs.CommonNames
import Applicability.Proofs.Effects
import Applicability.Proofs.Questions

namespace Applicability

/-- A matcher for which the order of the target's attributes does not matter. -/
def Matcher.IgnoresOrder (m : Matcher) : Prop :=
  ∀ p t t', t.same t' = true → m p t = m p t'

lemma Matcher.wildcard_ignoresOrder (observeCase : Bool) : (wildcard observeCase).IgnoresOrder :=
  fun _ _ _ h => congrArg Except.ok (agree_congr (fun _ => rfl) (Attributes.get?_of_same h))

/-! ### Scenes -/

/-- **Scenes that differ only in the order of the target's attributes.** -/
inductive Scene.Reordered (s : Scene) : Scene → Prop where
  | intro {target : Attributes} : s.pass.target.same target = true →
      Reordered s { s with pass := { s.pass with target } }

namespace Scene.Reordered

variable {s s' : Scene}

lemma refl (s : Scene) : s.Reordered s := .intro (Attributes.same_refl s.pass.target)

/-- A change of the pass that keeps the target and is the same for any. -/
lemma change (h : s.Reordered s') {f : Pass → Pass}
    (hf : ∀ p target, f { p with target } = { f p with target })
    (htarget : ∀ p, (f p).target = p.target) :
    Reordered { s with pass := f s.pass } { s' with pass := f s'.pass } := by
  cases h with
  | @intro target hsame =>
      have hsame' : (f s.pass).target.same target = true := (htarget s.pass).symm ▸ hsame
      rw [hf s.pass target]
      exact .intro (s := { s with pass := f s.pass }) hsame'

lemma journal (h : s.Reordered s') (f : Journals → Journals) :
    Reordered { s with journals := f s.journals } { s' with journals := f s'.journals } := by
  cases h with
  | intro hsame => exact .intro (s := { s with journals := f s.journals }) hsame

lemma journals (h : s.Reordered s') : s'.journals = s.journals := by cases h; rfl

lemma denying (h : s.Reordered s') : s'.pass.denying = s.pass.denying := by cases h; rfl

lemma depth (h : s.Reordered s') : s'.pass.depth = s.pass.depth := by cases h; rfl

lemma reached (h : s.Reordered s') : s'.pass.reached = s.pass.reached := by cases h; rfl

lemma active (h : s.Reordered s') : s'.pass.active = s.pass.active := by cases h; rfl

lemma target (h : s.Reordered s') : s.pass.target.same s'.pass.target = true := by
  cases h with
  | intro hsame => exact hsame

lemma recordedGrade (h : s.Reordered s') (key : RecordKey) :
    s'.pass.recordedGrade key = s.pass.recordedGrade key := by cases h; rfl

lemma ask (h : s.Reordered s') (denying : Bool) :
    Reordered { s with pass := s.pass.ask denying } { s' with pass := s'.pass.ask denying } :=
  h.change (f := (·.ask denying)) (fun _ _ => rfl) fun _ => rfl

lemma settleAccept (h : s.Reordered s') (accept : Option Grade) :
    Reordered { s with pass := s.pass.settleAccept accept }
      { s' with pass := s'.pass.settleAccept accept } :=
  h.change (f := (·.settleAccept accept)) (fun _ _ => rfl) fun _ => rfl

lemma leave (h : s.Reordered s') (outer : Int) :
    Reordered { s with pass := s.pass.leave outer } { s' with pass := s'.pass.leave outer } :=
  h.change (f := (·.leave outer)) (fun _ _ => rfl) fun _ => rfl

lemma release (h : s.Reordered s') (c : ConditionRef) :
    Reordered { s with pass := s.pass.release c } { s' with pass := s'.pass.release c } :=
  h.change (f := (·.release c)) (fun _ _ => rfl) fun _ => rfl

lemma record (h : s.Reordered s') (key : RecordKey) (v : Verdict) (height : Int) :
    Reordered { s with pass := s.pass.record key v height }
      { s' with pass := s'.pass.record key v height } := by
  cases h with
  | intro hsame =>
      simp only [Pass.record]
      split <;> exact .intro hsame

end Scene.Reordered

/-! ### Computations -/

namespace Run

variable {α β : Type} {x : Run α} {s s' : Scene}

/-- Outcomes with the same answer, in such scenes. -/
inductive Alike : EStateM.Result Fault Scene α → EStateM.Result Fault Scene α → Prop where
  | ok {a : α} {s s' : Scene} : s.Reordered s' → Alike (.ok a s) (.ok a s')
  | error {f : Fault} {s s' : Scene} : s.Reordered s' → Alike (.error f s) (.error f s')

/-- **Computations that are steady**: they do the same in scenes that differ only in the order of
the target's attributes. -/
def Steady (x : Run α) : Prop := ∀ s s', s.Reordered s' → Alike (x s) (x s')

namespace Steady

/-- The two courses that a steady computation can take. -/
lemma cases (hx : Steady x) (hs : s.Reordered s') :
    (∃ a u u', x s = .ok a u ∧ x s' = .ok a u' ∧ u.Reordered u') ∨
      ∃ f u u', x s = .error f u ∧ x s' = .error f u' ∧ u.Reordered u' := by
  have hres := hx s s' hs
  generalize x s = res at hres ⊢
  generalize x s' = res' at hres ⊢
  cases hres with
  | ok hu => exact .inl ⟨_, _, _, rfl, rfl, hu⟩
  | error hu => exact .inr ⟨_, _, _, rfl, rfl, hu⟩

/-- The answers are the same. -/
lemma answer_eq (hx : Steady x) (hs : s.Reordered s') : x.answer s = x.answer s' := by
  rcases hx.cases hs with ⟨a, u, u', hxs, hxs', -⟩ | ⟨f, u, u', hxs, hxs', -⟩ <;>
    rw [answer, answer, hxs, hxs']

/-- The scenes that are left are such scenes again. -/
lemma left_reordered (hx : Steady x) (hs : s.Reordered s') : (x.left s).Reordered (x.left s') := by
  rcases hx.cases hs with ⟨a, u, u', hxs, hxs', hu⟩ | ⟨f, u, u', hxs, hxs', hu⟩
  · rwa [left_of_ok hxs, left_of_ok hxs']
  · rwa [left_of_error hxs, left_of_error hxs']

lemma pure (a : α) : Steady (Pure.pure a) := fun _ _ hs => .ok hs

lemma throw (f : Fault) : Steady (MonadExcept.throw f : Run α) := fun _ _ hs => .error hs

lemma ofExcept (o : Except Fault α) : Steady (MonadExcept.ofExcept o : Run α) := by
  cases o with
  | ok a => exact .pure a
  | error f => exact .throw f

lemma bind {f : α → Run β} (hx : Steady x) (hf : ∀ a, Steady (f a)) : Steady (x >>= f) := by
  intro s s' hs
  rcases hx.cases hs with ⟨a, u, u', hxs, hxs', hu⟩ | ⟨e, u, u', hxs, hxs', hu⟩
  · rw [bind_of_ok hxs, bind_of_ok hxs']
    exact hf a u u' hu
  · rw [bind_of_error hxs, bind_of_error hxs']
    exact .error hu

lemma forM {f : α → Run Unit} (hf : ∀ a, Steady (f a)) (items : List α) :
    Steady (items.forM f) := by
  induction items with
  | nil => exact .pure ()
  | cons a rest ih => exact .bind (hf a) fun _ => ih

/-- A change of the pass that keeps the target and is the same for any. -/
lemma modifyPass {f : Pass → Pass} (hf : ∀ p target, f { p with target } = { f p with target })
    (htarget : ∀ p, (f p).target = p.target) : Steady (Run.modifyPass f) :=
  fun _ _ hs => .ok (hs.change hf htarget)

lemma diagnose (kind : Problem.Kind) (message : String) (conditionId : Option String) :
    Steady (Run.diagnose kind message conditionId) :=
  .bind (.modifyPass (fun _ _ => rfl) fun _ => rfl) fun _ => .pure _

lemma asking (invert : Bool) (hx : Steady x) : Steady (Run.asking invert x) := by
  intro s s' hs
  simp only [Run.asking, ensuring, hs.denying]
  rcases hx.cases (hs.ask (invert != s.pass.denying)) with
    ⟨a, u, u', hxs, hxs', hu⟩ | ⟨e, u, u', hxs, hxs', hu⟩
  · rw [hxs, hxs']
    exact .ok (hu.ask _)
  · rw [hxs, hxs']
    exact .error (hu.ask _)

lemma holding (c : ConditionRef) (hx : Steady x) : Steady (Run.holding c x) := by
  intro s s' hs
  have hheld := hs.change (f := (·.hold c)) (fun _ _ => rfl) fun _ => rfl
  simp only [Run.holding]
  rcases hx.cases hheld with ⟨a, u, u', hxs, hxs', hu⟩ | ⟨e, u, u', hxs, hxs', hu⟩
  · rw [hxs, hxs']
    simp only [hu.active]
    split
    · exact .ok (hu.release c)
    · exact .error hu
  · rw [hxs, hxs']
    simp only [hu.active]
    split
    · exact .error (hu.release c)
    · exact .error hu

end Steady

end Run

/-! ### Evaluations -/

namespace Rulebook

open Run (Steady)

variable {r : Rulebook} {body : Run Verdict} {recur : Recursion}

lemma steady_exceed (i : Item) : Steady (r.exceed i) :=
  .bind (.ofExcept _) fun _ => .diagnose _ _ _

/-- One level around a steady evaluation. -/
lemma steady_visit (i : Item) (hbody : Steady body) : Steady (r.visit i body) := by
  intro s s' hs
  simp only [visit, hs.denying, hs.depth, hs.reached, hs.recordedGrade]
  split
  · split
    · exact steady_exceed i s s' hs
    · exact .ok (hs.change (f := (·.reach _)) (fun _ _ => rfl) fun _ => rfl)
  · split
    · exact steady_exceed i s s' hs
    · have henter := hs.change (f := Pass.enter) (fun _ _ => rfl) fun _ => rfl
      rcases hbody.cases henter with ⟨v, u, u', hxs, hxs', hu⟩ | ⟨f, u, u', hxs, hxs', hu⟩
      · have hspan : u'.pass.span = u.pass.span := by
          rw [Pass.span, Pass.span, hu.reached, hu.depth]
        rw [hxs, hxs', settle, settle, hspan]
        exact .ok ((hu.leave _).record _ v _)
      · rw [hxs, hxs', settle, settle]
        exact .error (hu.leave _)

section Inside

variable (hrecur : ∀ i, Steady (recur i))

include hrecur

/-- Here the matcher comes in. -/
lemma steady_evaluateExpression (hm : r.matcher.IgnoresOrder) (e : ExpressionRef) :
    Steady (r.evaluateExpression recur e) := by
  rcases (r.graph.expression e).domain.cases_matched with hd | hd | hd | ⟨name, hd⟩
  · simp only [evaluateExpression, hd]
    exact .pure _
  · intro s s' hs
    rw [evaluateExpression_of_matched hd, evaluateExpression_of_matched hd,
      ← hm _ _ _ hs.target]
    cases r.matcher (r.graph.expression e).attributes s.pass.target with
    | ok met => exact .ok hs
    | error f => exact .error hs
  · cases ht : (r.graph.expression e).target with
    | none =>
        simp only [evaluateExpression, hd, ht]
        exact .diagnose _ _ _
    | some j =>
        simp only [evaluateExpression, hd, ht]
        exact hrecur (some j)
  · simp only [evaluateExpression, hd]
    exact .diagnose _ _ _

lemma steady_tallyFrom (es : List ExpressionRef) (t : Tally) :
    Steady (r.tallyFrom recur es t) := by
  induction es generalizing t with
  | nil => exact .pure _
  | cons e rest ih =>
      refine .bind (.asking _ (hrecur _)) fun v => ?_
      cases v with
      | graded g => exact ih _
      | error => exact .bind (.modifyPass (fun _ _ => rfl) fun _ => rfl) fun _ => .pure none
      | ignored => exact ih t
      | undefined => exact ih t

lemma steady_combine (c : ConditionRef) : Steady (r.combine recur c) := by
  intro s s' hs
  by_cases hc : c ∈ s.pass.active
  · have hc' : c ∈ s'.pass.active := hs.active ▸ hc
    rw [combine_of_mem hc, combine_of_mem hc']
    exact Steady.diagnose _ _ _ s s' hs
  · have hc' : c ∉ s'.pass.active := hs.active ▸ hc
    have hcount := Steady.holding c
      (steady_tallyFrom (r := r) hrecur (r.graph.condition c).expressions {})
    rw [combine_of_not_mem hc, combine_of_not_mem hc']
    rcases hcount.cases (hs.settleAccept none) with
      ⟨o, u, u', hxs, hxs', hu⟩ | ⟨f, u, u', hxs, hxs', hu⟩
    · rw [hxs, hxs']
      cases o with
      | none => exact .ok hu
      | some tally => exact .ok (hu.settleAccept _)
    · rw [hxs, hxs']
      exact .error hu

/-- An action of a scripted item. To turn to another target makes the scenes the same. -/
lemma steady_act (x : ScriptRef) (place : Nat) (y : Action) : Steady (act recur x place y) := by
  cases y with
  | evaluate i => exact .bind (hrecur i) fun v s s' hs => .ok (hs.journal (·.note x place v))
  | restart => exact .modifyPass (fun _ _ => rfl) fun _ => rfl
  | retarget target =>
      intro s s' hs
      have hsame : { s' with pass := s'.pass.retarget target } =
          { s with pass := s.pass.retarget target } := by cases hs; rfl
      show Run.Alike (.ok () { s with pass := s.pass.retarget target })
        (.ok () { s' with pass := s'.pass.retarget target })
      rw [hsame]
      exact .ok (.refl _)
  | fail f => exact .throw f

lemma steady_perform (x : ScriptRef) : Steady (r.perform recur x) := by
  intro s s' hs
  have hopened : r.opened x s' = r.opened x s := by cases hs; rfl
  rw [perform_eq, perform_eq, hopened, hs.journals]
  refine Steady.bind (.forM (steady_act hrecur x _) _) (fun _ => ?_) _ _
    (hs.journal fun _ => r.opened x s)
  split
  · exact .throw _
  · split
    · exact .pure _
    · exact .throw _

/-- **Every kind of item** is evaluated steadily if what is inside it is. -/
lemma steady_evaluateItem (hm : r.matcher.IgnoresOrder) (i : Item) :
    Steady (r.evaluateItem recur i) := by
  cases i with
  | expression e => exact steady_evaluateExpression hrecur hm e
  | condition c => exact steady_combine hrecur c
  | artifact a =>
      cases hguard : (r.graph.artifact a).guard with
      | none =>
          simp only [evaluateItem, evaluateArtifact, hguard]
          exact .pure _
      | some j =>
          simp only [evaluateItem, evaluateArtifact, hguard]
          exact hrecur (some j)
  | scripted x => exact steady_perform hrecur x

end Inside

/-- **Evaluations are steady**, however many levels they are granted. -/
lemma steady_evaluateWithin (hm : r.matcher.IgnoresOrder) (n : Nat) (i : Option Item) :
    Steady (r.evaluateWithin n i) := by
  induction n generalizing i with
  | zero =>
      cases i with
      | none => exact .pure _
      | some i => exact .throw _
  | succ n ih =>
      cases i with
      | none => exact .pure _
      | some i => exact steady_visit i (steady_evaluateItem ih hm i)

lemma steady_evaluate (hm : r.matcher.IgnoresOrder) (i : Option Item) :
    Steady (r.evaluate i) := by
  intro s s' hs
  have hlevels : r.levels s'.pass = r.levels s.pass := by rw [levels, levels, hs.depth]
  rw [evaluate, recursion, recursion, hlevels]
  exact steady_evaluateWithin hm _ i s s' hs

lemma reordered_fresh {t t' : Attributes} (h : t.same t' = true) (journals : Journals) :
    (fresh t journals).Reordered (fresh t' journals) := .intro h

/-- **The usual matcher goes by common names.** It accepts if the values of all names match that
both sides have. So predicate and target can change places, and the order of either does not matter.
In contexts that differ only in the order of the target's attributes, as new ones for equal targets
do, every item gets the same verdict, and contexts are left that again differ in nothing else. And a
predicate with others merged into it, of which no name is shared or taken, asks for both. -/
theorem matching_by_common_names (observeCase : Bool) (p t : Attributes) :
    (agree observeCase p t = true ↔ ∀ name expected actual, p.get? name = some expected →
      t.get? name = some actual → Wildcard.matchEither observeCase expected actual = true) ∧
    agree observeCase p t = agree observeCase t p ∧
    (∀ p' t' : Attributes, p.entries.Perm p'.entries → t.entries.Perm t'.entries →
      agree observeCase p t = agree observeCase p' t') ∧
    (∀ t' : Attributes, t.same t' = true → ∀ journals,
      (fresh t journals).Reordered (fresh t' journals)) ∧
    (∀ (g : Graph) (maxDepth : Nat) (s s' : Scene), s.Reordered s' → ∀ i,
      let r : Rulebook := ⟨g, .wildcard observeCase, maxDepth⟩
      (r.evaluate i).answer s = (r.evaluate i).answer s' ∧
        ((r.evaluate i).left s).Reordered ((r.evaluate i).left s')) ∧
    ∀ q : Attributes, p.names.Disjoint q.names → "data" ∉ q.names → "self" ∉ q.names →
      ∃ u, p.merged q.toDatum = .ok u ∧
        agree observeCase u t = (agree observeCase p t && agree observeCase q t) := by
  refine ⟨agree_iff, agree_comm, fun p' t' hp ht => ?_, fun t' h => reordered_fresh h,
    fun g maxDepth s s' hs i => ?_, fun q hdisjoint hdata hself => ?_⟩
  · exact agree_congr (Attributes.get?_of_perm hp) (Attributes.get?_of_perm ht)
  · have hsteady := steady_evaluate (r := ⟨g, .wildcard observeCase, maxDepth⟩)
      (Matcher.wildcard_ignoresOrder observeCase) i
    exact ⟨hsteady.answer_eq hs, hsteady.left_reordered hs⟩
  · exact ⟨_, Attributes.merged_toDatum hdata hself, agree_merged hdisjoint⟩

/-- A target in two orders, for an expression on the core and the vendor, and a predicate on the
floating-point unit merged into another one. -/
theorem matching_by_common_names_sample :
    let p := Attributes.ofList [("core", "M*"), ("vendor", "ST")]
    let t := Attributes.ofList [("vendor", "ST"), ("core", "M4")]
    let t' := Attributes.ofList [("core", "M4"), ("vendor", "ST")]
    let q := Attributes.ofList [("fpu", "none")]
    let r : Rulebook := ⟨{ expressions := #[{ domain := .device, attributes := p }] },
      .wildcard true, 4⟩
    let e : Option Item := some (.expression ⟨0⟩)
    p.entries.Perm p.entries ∧ t.entries.Perm t'.entries ∧ agree true p t = agree true p t' ∧
      t.same t' = true ∧ (fresh t {}).Reordered (fresh t' {}) ∧
      (r.evaluate e).answer (fresh t {}) = (r.evaluate e).answer (fresh t' {}) ∧
      p.names.Disjoint q.names ∧ "data" ∉ q.names ∧ "self" ∉ q.names ∧
      ∃ u, p.merged q.toDatum = .ok u ∧ agree true u t = (agree true p t && agree true q t) := by
  intro p t t' q r e
  obtain ⟨-, -, hperm, hfresh, hevaluate, hmerged⟩ := matching_by_common_names true p t
  have hp : p.entries.Perm p.entries := .refl _
  have ht : t.entries.Perm t'.entries := by decide
  have hsame : t.same t' = true := by decide
  have hdisjoint : p.names.Disjoint q.names := by
    intro name hp hq
    obtain rfl : name = "fpu" := by simpa using (show name ∈ ["fpu"] from hq)
    exact absurd hp (by decide)
  have hdata : "data" ∉ q.names := by decide
  have hself : "self" ∉ q.names := by decide
  exact ⟨hp, ht, hperm p t' hp ht, hsame, hfresh t' hsame {},
    (hevaluate r.graph r.maxDepth _ _ (hfresh t' hsame {}) e).1, hdisjoint, hdata, hself,
    hmerged q hdisjoint hdata hself⟩

end Rulebook

end Applicability
