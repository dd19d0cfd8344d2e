/-
Effects: what an evaluation does to a pass.

An evaluation is put together from a few changes of the pass, some of which are made up for later: a
level is left again, a question is taken back, a condition is let go of. Whatever relates the pass
before such a change to the pass after it relates the passes before and after an evaluation.

* `Run.Effect`: a computation leaves a pass that is related to the one it found, whatever its
  answer;
* `Pass.Allows`: a relation that every change of an evaluation respects; `Pass.AllowsUnnoted`: one
  that every change respects but the noting of a verdict;
* `Rulebook.Calm`: items in which no item of a consumer's own starts the pass over;
* `evaluateWithin_effect_of_noting`, `evaluateWithin_effect`: every evaluation of a calm item
  respects such a relation, if it is respected wherever a verdict is noted. The induction is on the
  levels that are granted, with one lemma for each kind of item;
* `allows_balanced`, `allows_notes`, `allows_deep`: three such relations. What is held, asked and
  counted is as before; the diagnostics noted are genuine; and the depth that was reached stays at
  least the current one.
-/
import Applicability.Proofs.Following

namespace Applicability

/-! ### Genuine diagnostics -/

/-- The kinds of problems that an evaluation can meet. -/
def Problem.Kind.met : List Problem.Kind := [unknownDomain, unresolvedReference, cycle, tooDeep]

/-- A diagnostic as an evaluation notes it: of a kind that it can meet, and not without words. -/
def Diagnostic.IsGenuine (d : Diagnostic) : Prop :=
  ∃ kind ∈ Problem.Kind.met, d.code = kind.code ∧ d.message ≠ ""

/-! ### The effect of a computation -/

namespace Run

variable {α β : Type} {Rel : Pass → Pass → Prop} {x : Run α} {s : Scene}

/-- **The effect of a computation**: whatever its answer, it leaves a pass that is related to the
one it found. -/
def Effect (Rel : Pass → Pass → Prop) (x : Run α) : Prop := ∀ s, Rel s.pass (x.left s).pass

lemma left_of_ok {a : α} {t : Scene} (h : x s = .ok a t) : x.left s = t := by rw [left, h]

lemma left_of_error {f : Fault} {t : Scene} (h : x s = .error f t) : x.left s = t := by
  rw [left, h]

/-- What is left after asking for the opposite meanwhile. -/
lemma left_asking (invert : Bool) (x : Run α) (s : Scene) :
    ((asking invert x).left s).pass =
      (x.left { s with pass := s.pass.ask (invert != s.pass.denying) }).pass.ask
        s.pass.denying := by
  rw [left, left, asking, ensuring]
  cases x { s with pass := s.pass.ask (invert != s.pass.denying) } <;> rfl

/-- What is left after holding a condition meanwhile. -/
lemma left_holding (c : ConditionRef) (x : Run α) (s : Scene) :
    ((holding c x).left s).pass = (x.left { s with pass := s.pass.hold c }).pass.release c := by
  -- a condition that is no longer held is a fault, which leaves the pass as it is
  have hkeep : ∀ p : Pass, ¬ p.active.contains c → p.release c = p := by
    intro p hp
    rw [Pass.release, List.erase_of_not_mem (by simpa using hp)]
  rw [left, left, holding]
  cases x { s with pass := s.pass.hold c } with
  | ok a t =>
      by_cases hc : t.pass.active.contains c
      · simp only [hc, if_true]
      · simp only [hc]
        exact (hkeep t.pass hc).symm
  | error f t =>
      by_cases hc : t.pass.active.contains c
      · simp only [hc, if_true]
      · simp only [hc]
        exact (hkeep t.pass hc).symm

end Run

namespace Pass

/-- **What every change of an evaluation respects, but for the noting of a verdict.** The changes
that an evaluation makes up for are seen together with what happens in between. -/
structure AllowsUnnoted (Rel : Pass → Pass → Prop) : Prop where
  refl (p : Pass) : Rel p p
  trans {p q u : Pass} : Rel p q → Rel q u → Rel p u
  diagnose (p : Pass) {d : Diagnostic} : d.IsGenuine → Rel p (p.diagnose d)
  settleAccept (p : Pass) (accept : Option Grade) : Rel p (p.settleAccept accept)
  reach (p : Pass) (depth : Int) : Rel p (p.reach depth)
  level {p q : Pass} : Rel p.enter q → Rel p (q.leave p.reached)
  asking {p q : Pass} (denying : Bool) : Rel (p.ask denying) q → Rel p (q.ask p.denying)
  holding {p q : Pass} {c : ConditionRef} :
    c ∉ p.active → Rel (p.hold c) q → Rel p (q.release c)

/-- **What every change of an evaluation respects.** The changes that an evaluation makes up for are
seen together with what happens in between. -/
structure Allows (Rel : Pass → Pass → Prop) : Prop where
  refl (p : Pass) : Rel p p
  trans {p q u : Pass} : Rel p q → Rel q u → Rel p u
  diagnose (p : Pass) {d : Diagnostic} : d.IsGenuine → Rel p (p.diagnose d)
  settleAccept (p : Pass) (accept : Option Grade) : Rel p (p.settleAccept accept)
  reach (p : Pass) (depth : Int) : Rel p (p.reach depth)
  record (p : Pass) (key : RecordKey) (v : Verdict) (height : Int) : Rel p (p.record key v height)
  level {p q : Pass} : Rel p.enter q → Rel p (q.leave p.reached)
  asking {p q : Pass} (denying : Bool) : Rel (p.ask denying) q → Rel p (q.ask p.denying)
  holding {p q : Pass} {c : ConditionRef} :
    c ∉ p.active → Rel (p.hold c) q → Rel p (q.release c)

lemma Allows.unnoted {Rel : Pass → Pass → Prop} (h : Allows Rel) : AllowsUnnoted Rel :=
  ⟨h.refl, h.trans, h.diagnose, h.settleAccept, h.reach, h.level, h.asking, h.holding⟩

end Pass

namespace Run.Effect

variable {α β : Type} {Rel : Pass → Pass → Prop} {x : Run α} {s : Scene}

lemma pure (h : Pass.AllowsUnnoted Rel) (a : α) : Effect Rel (Pure.pure a) := fun s => h.refl s.pass

lemma throw (h : Pass.AllowsUnnoted Rel) (f : Fault) : Effect Rel (MonadExcept.throw f : Run α) :=
  fun s => h.refl s.pass

lemma ofExcept (h : Pass.AllowsUnnoted Rel) (o : Except Fault α) :
    Effect Rel (MonadExcept.ofExcept o : Run α) := by
  cases o with
  | ok a => exact .pure h a
  | error f => exact .throw h f

lemma bind (h : Pass.AllowsUnnoted Rel) {f : α → Run β} (hx : Effect Rel x)
    (hf : ∀ a, Effect Rel (f a)) : Effect Rel (x >>= f) := by
  intro s
  have hfirst := hx s
  cases hxs : x s with
  | ok a t =>
      rw [left_of_ok hxs] at hfirst
      have hnext := hf a t
      rw [left, bind_of_ok hxs]
      exact h.trans hfirst hnext
  | error f' t =>
      rw [left_of_error hxs] at hfirst
      rw [left, bind_of_error hxs]
      exact hfirst

lemma filterM (h : Pass.AllowsUnnoted Rel) {f : α → Run Bool} {items : List α}
    (hf : ∀ a ∈ items, Effect Rel (f a)) : Effect Rel (items.filterM f) := by
  have haux : ∀ kept, Effect Rel (items.filterAuxM f kept) := by
    induction items with
    | nil => exact fun kept => .pure h kept
    | cons a rest ih =>
        intro kept
        exact .bind h (hf a (by simp)) fun b => ih (fun a' ha' => hf a' (by simp [ha'])) _
  exact .bind h (haux []) fun kept => .pure h kept.reverse

lemma diagnose (h : Pass.AllowsUnnoted Rel) {kind : Problem.Kind} (hk : kind ∈ Problem.Kind.met)
    {message : String} (hm : message ≠ "") (conditionId : Option String) :
    Effect Rel (Run.diagnose kind message conditionId) :=
  fun s => h.diagnose s.pass ⟨kind, hk, rfl, hm⟩

lemma asking (h : Pass.AllowsUnnoted Rel) (invert : Bool) (hx : Effect Rel x) :
    Effect Rel (Run.asking invert x) := by
  intro s
  have hin := hx { s with pass := s.pass.ask (invert != s.pass.denying) }
  rw [left_asking]
  exact h.asking _ hin

end Run.Effect

/-! ### Items in which no pass is started over -/

namespace Action

/-- An action that does not start the pass over. -/
def isCalm : Action → Bool
  | restart | retarget _ => false
  | evaluate _ | fail _ => true

end Action

namespace Rulebook

variable {r : Rulebook} {A : Item → Prop} {Rel : Pass → Pass → Prop}

/-- **Calm items**: what is evaluated inside them is calm too, and no item of a consumer's own among
them starts the pass over. -/
structure Calm (r : Rulebook) (A : Item → Prop) : Prop where
  leads {i j : Item} : A i → r.graph.Leads i j → A j
  acts {s : ScriptRef} : A (.scripted s) → ∀ x ∈ (r.graph.script s).actions,
    x.isCalm ∧ ∀ j, x = .evaluate (some j) → A j

/-- The items of a pack are calm. -/
lemma calm_isPlain (hg : r.graph.isPlain) : r.Calm (fun i => i.isPlain) where
  leads _ hij := Graph.isPlain_of_leads hg hij
  acts h := by cases h

/-! ### The courses that a level can take -/

section Visit

variable {s : Scene} {i : Item} {body : Run Verdict}

/-- A grade on record is refused if its levels do not fit. -/
lemma visit_of_misfit {g : Grade} {height : Int}
    (hrec : s.pass.recordedGrade (i, s.pass.denying) = some (g, height))
    (h : s.pass.depth + height > r.maxDepth) : r.visit i body s = r.exceed i s := by
  simp only [visit, hrec, h, if_true]

/-- What is not on record is refused if no level is left. -/
lemma visit_of_deep (hrec : s.pass.recordedGrade (i, s.pass.denying) = none)
    (h : s.pass.depth ≥ r.maxDepth) : r.visit i body s = r.exceed i s := by
  simp only [visit, hrec, h, if_true]

/-- Otherwise a level is entered. -/
lemma visit_of_enter (hrec : s.pass.recordedGrade (i, s.pass.denying) = none)
    (h : s.pass.depth < r.maxDepth) :
    r.visit i body s =
      settle (i, s.pass.denying) s.pass.reached (body { s with pass := s.pass.enter }) := by
  simp only [visit, hrec, ge_iff_le, not_le.mpr h, if_false]

end Visit

/-- The journals with an entry for the evaluation of a scripted item that begins. -/
def opened (r : Rulebook) (s : ScriptRef) (scene : Scene) : Journals :=
  scene.journals.openEntry s {
    denying := scene.pass.denying
    accept := Verdict.ofBest scene.pass.accept
    active := scene.pass.active.map fun c => (r.graph.condition c).id }

/-- Before the first action of a scripted item only the journals change. -/
lemma perform_eq (r : Rulebook) (recur : Recursion) (s : ScriptRef) (scene : Scene) :
    r.perform recur s scene =
      (do
        (r.graph.script s).actions.forM (act recur s (scene.journals.of s).size)
        match (r.graph.script s).failure with
        | some text => throw (.raised text)
        | none =>
          match (r.graph.script s).verdicts[min ((scene.journals.of s).size + 1)
            (r.graph.script s).verdicts.length - 1]? with
          | some v => return v
          | none => throw .noVerdict : Run Verdict) { scene with journals := r.opened s scene } :=
  rfl

/-! ### Effects of evaluations -/

/-- The evaluations inside an item respect a relation. -/
def RecursWith (A : Item → Prop) (Rel : Pass → Pass → Prop) (recur : Recursion) : Prop :=
  ∀ i : Option Item, (∀ j, i = some j → A j) → Run.Effect Rel (recur i)

lemma RecursWith.item {recur : Recursion} (h : RecursWith A Rel recur) {j : Item} (hj : A j) :
    Run.Effect Rel (recur (some j)) := by
  refine h (some j) fun j' hj' => ?_
  cases hj'
  exact hj

/-- The noting of the verdict on an item that was evaluated, and was not on record before, respects
a relation. -/
def NotesWith (Rel : Pass → Pass → Prop) (i : Item) (body : Run Verdict) : Prop :=
  ∀ (s t : Scene) (v : Verdict), s.pass.recordedGrade (i, s.pass.denying) = none →
    body { s with pass := s.pass.enter } = .ok v t → Rel s.pass (t.pass.leave s.pass.reached) →
    Rel s.pass ((t.pass.leave s.pass.reached).record (i, s.pass.denying) v t.pass.span)

variable (h : Pass.AllowsUnnoted Rel)

include h

lemma effect_exceed (i : Item) : Run.Effect Rel (r.exceed i) := by
  refine .bind h (.ofExcept h _) fun shown => ?_
  exact .diagnose h (by decide) (by simp [ToString.toString]) _

/-- One level: it is answered from the records, refused, or entered and left again. What is not on
record by then may be noted. -/
lemma effect_visit {i : Item} {body : Run Verdict} (hbody : Run.Effect Rel body)
    (hnote : NotesWith Rel i body) : Run.Effect Rel (r.visit i body) := by
  intro s
  have hexceed : Rel s.pass ((r.exceed i).left s).pass := effect_exceed h i s
  cases hrec : s.pass.recordedGrade (i, s.pass.denying) with
  | some x =>
      obtain ⟨g, height⟩ := x
      by_cases hfits : s.pass.depth + height > r.maxDepth
      · rwa [Run.left, visit_of_misfit hrec hfits]
      · rw [Run.left, visit_of_record r i body hrec (by omega)]
        exact h.reach s.pass _
  | none =>
      by_cases hdeep : s.pass.depth ≥ r.maxDepth
      · rwa [Run.left, visit_of_deep hrec hdeep]
      · have hin := hbody { s with pass := s.pass.enter }
        rw [Run.left, visit_of_enter hrec (by omega)]
        cases hb : body { s with pass := s.pass.enter } with
        | ok v t =>
            rw [Run.left_of_ok hb] at hin
            exact hnote s t v hrec hb (h.level hin)
        | error f t =>
            rw [Run.left_of_error hb] at hin
            exact h.level hin

lemma effect_tallyFrom {recur : Recursion} {es : List ExpressionRef}
    (hrec : ∀ e ∈ es, Run.Effect Rel (recur (some (.expression e)))) (t : Tally) :
    Run.Effect Rel (r.tallyFrom recur es t) := by
  induction es generalizing t with
  | nil => exact .pure h (some t)
  | cons e rest ih =>
      have hrest : ∀ t, Run.Effect Rel (r.tallyFrom recur rest t) :=
        ih fun e' he' => hrec e' (by simp [he'])
      refine .bind h (.asking h _ (hrec e (by simp))) fun v => ?_
      cases v with
      | graded g => exact hrest _
      | error => exact .bind h (fun s => h.settleAccept s.pass none) fun _ => .pure h none
      | ignored => exact hrest t
      | undefined => exact hrest t

/-- A condition is refused if it is being combined already, and held while its expressions are
counted otherwise. -/
lemma effect_combine {recur : Recursion} {c : ConditionRef}
    (hrec : ∀ e ∈ (r.graph.condition c).expressions,
      Run.Effect Rel (recur (some (.expression e)))) :
    Run.Effect Rel (r.combine recur c) := by
  intro s
  by_cases hc : c ∈ s.pass.active
  · have hcycle : Run.Effect Rel (Run.diagnose .cycle
        s!"Condition '{(r.graph.condition c).id}' references itself"
        (some (r.graph.condition c).id)) :=
      .diagnose h (by decide) (by simp [ToString.toString]) _
    rw [Run.left, combine_of_mem hc]
    exact hcycle s
  · have hcount : Run.Effect Rel (r.tallyFrom recur (r.graph.condition c).expressions {}) :=
      effect_tallyFrom h hrec {}
    have hheld := h.trans (h.settleAccept s.pass none) (h.holding (p := s.pass.settleAccept none) hc
      (hcount { s with pass := (s.pass.settleAccept none).hold c }))
    rw [← Run.left_holding c _ { s with pass := s.pass.settleAccept none }] at hheld
    rw [Run.left, combine_of_not_mem hc]
    cases hres : Run.holding c (r.tallyFrom recur (r.graph.condition c).expressions {})
      { s with pass := s.pass.settleAccept none } with
    | ok o t =>
        rw [Run.left_of_ok hres] at hheld
        cases o with
        | none => exact hheld
        | some tally => exact h.trans hheld (h.settleAccept t.pass tally.best)
    | error f t =>
        rw [Run.left_of_error hres] at hheld
        exact hheld

/-- An expression has no effect of its own but for a diagnostic. -/
lemma effect_evaluateExpression {recur : Recursion} {e : ExpressionRef}
    (hrec : ∀ j, r.graph.Leads (.expression e) j → Run.Effect Rel (recur (some j))) :
    Run.Effect Rel (r.evaluateExpression recur e) := by
  rcases (r.graph.expression e).domain.cases_matched with hd | hd | hd | ⟨name, hd⟩
  · simp only [evaluateExpression, hd]
    exact .pure h _
  · intro s
    rw [Run.left, evaluateExpression_of_matched hd]
    cases r.matcher (r.graph.expression e).attributes s.pass.target <;> exact h.refl s.pass
  · cases ht : (r.graph.expression e).target with
    | none =>
        simp only [evaluateExpression, hd, ht]
        exact .diagnose h (by decide) (by simp [ToString.toString]) _
    | some j =>
        simp only [evaluateExpression, hd, ht]
        exact hrec j (Graph.leads_target hd ht)
  · simp only [evaluateExpression, hd]
    exact .diagnose h (by decide) (by simp [ToString.toString]) _

/-- One action of a calm item of a consumer's own. -/
lemma effect_act (hA : r.Calm A) {recur : Recursion} (hrec : RecursWith A Rel recur)
    {s : ScriptRef} (hs : A (.scripted s)) {x : Action} (hx : x ∈ (r.graph.script s).actions)
    (place : Nat) : Run.Effect Rel (act recur s place x) := by
  obtain ⟨hcalm, hevaluate⟩ := hA.acts hs x hx
  cases x with
  | evaluate i =>
      exact .bind h (hrec i fun j hj => hevaluate j (by rw [hj])) fun v t => h.refl t.pass
  | restart => cases hcalm
  | retarget target => cases hcalm
  | fail f => exact .throw h f

/-- Some actions of a calm item of a consumer's own, one after the other. -/
lemma effect_actions (hA : r.Calm A) {recur : Recursion} (hrec : RecursWith A Rel recur)
    {s : ScriptRef} (hs : A (.scripted s)) {xs : List Action}
    (hxs : ∀ x ∈ xs, x ∈ (r.graph.script s).actions) (place : Nat) :
    Run.Effect Rel (xs.forM (act recur s place)) := by
  induction xs with
  | nil => exact .pure h ()
  | cons x rest ih =>
      exact .bind h (effect_act h hA hrec hs (hxs x (by simp)) place) fun _ =>
        ih fun y hy => hxs y (by simp [hy])

/-- A calm item of a consumer's own has the effects of the evaluations that it asks for. -/
lemma effect_perform (hA : r.Calm A) {recur : Recursion} (hrec : RecursWith A Rel recur)
    {s : ScriptRef} (hs : A (.scripted s)) : Run.Effect Rel (r.perform recur s) := by
  intro scene
  rw [Run.left, perform_eq]
  refine Run.Effect.bind h (effect_actions h hA hrec hs (fun x hx => hx) _) (fun _ => ?_)
    { scene with journals := r.opened s scene }
  split
  · exact .throw h _
  · split
    · exact .pure h _
    · exact .throw h _

/-- Every item of a calm kind has the effects of the evaluations inside it. -/
lemma effect_evaluateItem (hA : r.Calm A) {recur : Recursion} (hrec : RecursWith A Rel recur)
    {i : Item} (hi : A i) : Run.Effect Rel (r.evaluateItem recur i) := by
  have hinside : ∀ j, r.graph.Leads i j → Run.Effect Rel (recur (some j)) :=
    fun j hij => hrec.item (hA.leads hi hij)
  cases i with
  | expression e => exact effect_evaluateExpression h hinside
  | condition c => exact effect_combine h fun e he => hinside _ (Graph.leads_expression he)
  | artifact a =>
      cases hg : (r.graph.artifact a).guard with
      | none =>
          simp only [evaluateItem, evaluateArtifact, hg]
          exact .pure h _
      | some j =>
          simp only [evaluateItem, evaluateArtifact, hg]
          exact hinside j (Graph.leads_guard hg)
  | scripted s => exact effect_perform h hA hrec hi

/-- **Every evaluation of a calm item respects what every change respects**, if this is respected
wherever a verdict is noted on an item that has just been evaluated and was not on record before. -/
theorem evaluateWithin_effect_of_noting (hA : r.Calm A)
    (hnote : ∀ n i, A i → NotesWith Rel i (r.evaluateItem (r.evaluateWithin n) i)) (n : Nat) :
    RecursWith A Rel (r.evaluateWithin n) := by
  induction n with
  | zero =>
      intro i _
      cases i with
      | none => exact .pure h _
      | some i => exact .throw h _
  | succ n ih =>
      intro i hi
      cases i with
      | none => exact .pure h _
      | some i =>
          exact effect_visit h (effect_evaluateItem h hA ih (hi i rfl))
            (hnote n i (hi i rfl))

omit h in
/-- **Every evaluation of a calm item respects what every change of an evaluation respects.** -/
theorem evaluateWithin_effect (h : Pass.Allows Rel) (hA : r.Calm A) (n : Nat) :
    RecursWith A Rel (r.evaluateWithin n) :=
  evaluateWithin_effect_of_noting h.unnoted hA
    (fun _ _ _ _ _ _ _ _ hleft => h.trans hleft (h.record _ _ _ _)) n

omit h in
/-- Whatever the number of levels that it takes for enough. -/
lemma recursion_effect (h : Pass.Allows Rel) (hA : r.Calm A) : RecursWith A Rel r.recursion :=
  fun i hi s => evaluateWithin_effect h hA (r.levels s.pass) i hi s

end Rulebook

namespace Pass

/-! ### What every evaluation respects -/

/-- What is held, asked and counted is as before. -/
structure Balanced (p q : Pass) : Prop where
  active : q.active = p.active
  denying : q.denying = p.denying
  depth : q.depth = p.depth

lemma allows_balanced : Allows Balanced where
  refl p := ⟨rfl, rfl, rfl⟩
  trans h h' := ⟨h'.1.trans h.1, h'.2.trans h.2, h'.3.trans h.3⟩
  diagnose p _ _ := ⟨rfl, rfl, rfl⟩
  settleAccept p accept := ⟨rfl, rfl, rfl⟩
  reach p depth := ⟨rfl, rfl, rfl⟩
  record p key v height := by
    obtain ⟨records, hp⟩ := p.exists_record key v height
    rw [hp]
    exact ⟨rfl, rfl, rfl⟩
  level {p q} h := by
    have hdepth : q.depth = p.depth + 1 := h.depth
    refine ⟨h.active, h.denying, ?_⟩
    show q.depth - 1 = p.depth
    omega
  asking _ h := ⟨h.active, rfl, h.depth⟩
  holding {p q c} hc h := by
    refine ⟨?_, h.denying, h.depth⟩
    calc (q.release c).active = ((p.hold c).release c).active := congrArg (·.erase c) h.active
      _ = p.active := by rw [release_hold hc]

/-- The diagnostics of before are followed by genuine ones. -/
def Notes (p q : Pass) : Prop :=
  ∃ noted, q.diagnostics = p.diagnostics ++ noted ∧ ∀ d ∈ noted, d.IsGenuine

lemma Notes.of_eq {p q : Pass} (h : q.diagnostics = p.diagnostics) : Notes p q :=
  ⟨[], by simp [h], by simp⟩

lemma allows_notes : Allows Notes where
  refl p := .of_eq rfl
  trans := by
    rintro p q u ⟨noted, hq, hnoted⟩ ⟨more, hu, hmore⟩
    refine ⟨noted ++ more, by rw [hu, hq, List.append_assoc], fun d hd => ?_⟩
    rcases List.mem_append.mp hd with hd | hd
    · exact hnoted d hd
    · exact hmore d hd
  diagnose p d hd := ⟨[d], rfl, by simpa using hd⟩
  settleAccept p accept := .of_eq rfl
  reach p depth := .of_eq rfl
  record p key v height := by
    obtain ⟨records, hp⟩ := p.exists_record key v height
    rw [hp]
    exact .of_eq rfl
  level h := h
  asking _ h := h
  holding _ h := h

/-- The depth that was reached is at least the current one, if it was so before. -/
def Deep (p q : Pass) : Prop := p.depth ≤ p.reached → q.depth ≤ q.reached

lemma allows_deep : Allows Deep where
  refl p h := h
  trans h h' hp := h' (h hp)
  diagnose p _ _ h := h
  settleAccept p accept h := h
  reach p depth h := le_max_of_le_left h
  record p key v height := by
    obtain ⟨records, hp⟩ := p.exists_record key v height
    rw [hp]
    exact fun h => h
  level {p q} h _ := by
    have hin : q.depth ≤ q.reached := h le_rfl
    show q.depth - 1 ≤ max p.reached q.reached
    omega
  asking _ h := h
  holding _ h := h

end Pass

end Applicability
