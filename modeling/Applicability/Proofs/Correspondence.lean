/-
Correspondence: evaluations in two graphs that look the same.

Items are told apart by identity, but which ones they are shows in nothing that an evaluation says.
So corresponding items of two graphs are evaluated alike: the records and the conditions being
combined are about other items, and all else is the same.

* `Correspondence`: which conditions and which expressions of two graphs look the same;
* `Correspondence.Scenes`, `Correspondence.Agree`: scenes that differ only in the items that they
  are about, and computations that give the same answer on such scenes and leave such scenes;
* `Agree.holding`, `agree_visit`, `agree_combine`: the steps of an evaluation. Here it matters that
  no two items correspond to one: what is held, and what is on record, is the same in both scenes;
* `agree_evaluateWithin`, `agree_evaluate`: the evaluations of corresponding items agree. The
  induction is on the levels that are granted.
-/
import Applicability.Proofs.Effects

namespace Applicability

/-- Items of the same kind that correspond. -/
inductive Item.Rel (conditions : ConditionRef → ConditionRef → Prop)
    (expressions : ExpressionRef → ExpressionRef → Prop) : Item → Item → Prop where
  | condition {c c' : ConditionRef} : conditions c c' →
      Rel conditions expressions (.condition c) (.condition c')
  | expression {e e' : ExpressionRef} : expressions e e' →
      Rel conditions expressions (.expression e) (.expression e')

/-- **A correspondence between two graphs**: one to one, between conditions of the same id with
corresponding expressions, and between expressions that say the same and are bound to corresponding
items, if they are references. -/
structure Correspondence (g g' : Graph) where
  conditions : ConditionRef → ConditionRef → Prop
  expressions : ExpressionRef → ExpressionRef → Prop
  conditions_unique : Relator.BiUnique conditions
  expressions_unique : Relator.BiUnique expressions
  id {c c' : ConditionRef} : conditions c c' → (g.condition c).id = (g'.condition c').id
  members {c c' : ConditionRef} : conditions c c' →
    List.Forall₂ expressions (g.condition c).expressions (g'.condition c').expressions
  content {e e' : ExpressionRef} : expressions e e' →
    (g.expression e).unbound = (g'.expression e').unbound
  target {e e' : ExpressionRef} : expressions e e' → (g.expression e).domain = .reference →
    Option.Rel (Item.Rel conditions expressions) (g.expression e).target (g'.expression e').target

namespace Correspondence

variable {g g' : Graph} (t : Correspondence g g') {i i' j j' : Item}

/-- The items that correspond. -/
def items : Item → Item → Prop := Item.Rel t.conditions t.expressions

/-- The correspondence of items is one to one. -/
lemma items_unique (h : t.items i i') (h' : t.items j j') : i = j ↔ i' = j' := by
  cases h with
  | condition h =>
      cases h' with
      | condition h' => simpa using Relator.rel_eq t.conditions_unique h h'
      | expression h' => simp
  | expression h =>
      cases h' with
      | condition h' => simp
      | expression h' => simpa using Relator.rel_eq t.expressions_unique h h'

/-- Corresponding expressions say the same. -/
lemma role {e e' : ExpressionRef} (h : t.expressions e e') :
    (g.expression e).role = (g'.expression e').role :=
  (Expression.unbound_eq_iff.mp (t.content h)).1

lemma domain {e e' : ExpressionRef} (h : t.expressions e e') :
    (g.expression e).domain = (g'.expression e').domain :=
  (Expression.unbound_eq_iff.mp (t.content h)).2.1

lemma attributes {e e' : ExpressionRef} (h : t.expressions e e') :
    (g.expression e).attributes = (g'.expression e').attributes :=
  (Expression.unbound_eq_iff.mp (t.content h)).2.2.1

lemma conditionId {e e' : ExpressionRef} (h : t.expressions e e') :
    (g.expression e).conditionId = (g'.expression e').conditionId :=
  (Expression.unbound_eq_iff.mp (t.content h)).2.2.2

/-- Corresponding items are shown in the same words. -/
lemma literal_eq (h : t.items i i') : g.literal i = g'.literal i' := by
  cases h with
  | condition h =>
      simp only [Graph.literal, Graph.conditionLiteral, t.id h, (t.members h).length_eq]
  | expression h =>
      simp only [Graph.literal, Graph.expressionLiteral, t.role h, t.domain h, t.attributes h,
        t.conditionId h]

lemma idOf_eq (h : t.items i i') : g.idOf i = g'.idOf i' := by
  cases h with
  | condition h => exact congrArg some (t.id h)
  | expression h => rfl

/-! ### Scenes -/

/-- Records of the same verdict on corresponding items. -/
structure Entries (x x' : RecordKey × Record) : Prop where
  item : t.items x.1.1 x'.1.1
  denying : x.1.2 = x'.1.2
  record : x.2 = x'.2

/-- **Scenes that differ only in the items that they are about.** -/
inductive Scenes (s : Scene) : Scene → Prop where
  | intro {records : List (RecordKey × Record)} {active : List ConditionRef} :
      List.Forall₂ t.Entries s.pass.records records →
      List.Forall₂ t.conditions s.pass.active active →
      Scenes s { s with pass := { s.pass with records, active } }

/-- What is held is the same. -/
lemma contains_eq {active active' : List ConditionRef} {c c' : ConditionRef}
    (ha : List.Forall₂ t.conditions active active') (hc : t.conditions c c') :
    active.contains c = active'.contains c' := by
  rw [Bool.eq_iff_iff, List.contains_iff_mem, List.contains_iff_mem]
  exact List.rel_mem t.conditions_unique hc ha

/-- Letting go of corresponding conditions. -/
lemma erase_rel {active active' : List ConditionRef} {c c' : ConditionRef}
    (ha : List.Forall₂ t.conditions active active') (hc : t.conditions c c') :
    List.Forall₂ t.conditions (active.erase c) (active'.erase c') := by
  induction ha with
  | nil => exact .nil
  | @cons d d' rest rest' hd hrest ih =>
      have hkey : (d == c) = (d' == c') := by
        rw [Bool.eq_iff_iff, beq_iff_eq, beq_iff_eq]
        exact Relator.rel_eq t.conditions_unique hd hc
      rw [List.erase_cons, List.erase_cons, hkey]
      split
      · exact hrest
      · exact .cons hd ih

namespace Scenes

variable {t} {s s' : Scene}

lemma denying (h : t.Scenes s s') : s'.pass.denying = s.pass.denying := by cases h; rfl

lemma depth (h : t.Scenes s s') : s'.pass.depth = s.pass.depth := by cases h; rfl

lemma reached (h : t.Scenes s s') : s'.pass.reached = s.pass.reached := by cases h; rfl

lemma target (h : t.Scenes s s') : s'.pass.target = s.pass.target := by cases h; rfl

lemma active (h : t.Scenes s s') : List.Forall₂ t.conditions s.pass.active s'.pass.active := by
  cases h with
  | intro _ ha => exact ha

/-- A change of the pass that is not about items. -/
lemma change (h : t.Scenes s s') {f : Pass → Pass}
    (hf : ∀ p records active, f { p with records, active } = { f p with records, active })
    (hrecords : ∀ p, (f p).records = p.records) (hactive : ∀ p, (f p).active = p.active) :
    t.Scenes { s with pass := f s.pass } { s' with pass := f s'.pass } := by
  cases h with
  | @intro records active hr ha =>
      have hr' : List.Forall₂ t.Entries (f s.pass).records _ := (hrecords s.pass).symm ▸ hr
      have ha' : List.Forall₂ t.conditions (f s.pass).active _ := (hactive s.pass).symm ▸ ha
      rw [hf s.pass records active]
      exact .intro (s := { s with pass := f s.pass }) hr' ha'

lemma ask (h : t.Scenes s s') (denying : Bool) :
    t.Scenes { s with pass := s.pass.ask denying } { s' with pass := s'.pass.ask denying } :=
  h.change (f := (·.ask denying)) (fun _ _ _ => rfl) (fun _ => rfl) fun _ => rfl

lemma settleAccept (h : t.Scenes s s') (accept : Option Grade) :
    t.Scenes { s with pass := s.pass.settleAccept accept }
      { s' with pass := s'.pass.settleAccept accept } :=
  h.change (f := (·.settleAccept accept)) (fun _ _ _ => rfl) (fun _ => rfl) fun _ => rfl

lemma diagnose (h : t.Scenes s s') (d : Diagnostic) :
    t.Scenes { s with pass := s.pass.diagnose d } { s' with pass := s'.pass.diagnose d } :=
  h.change (f := (·.diagnose d)) (fun _ _ _ => rfl) (fun _ => rfl) fun _ => rfl

lemma reach (h : t.Scenes s s') (depth : Int) :
    t.Scenes { s with pass := s.pass.reach depth } { s' with pass := s'.pass.reach depth } :=
  h.change (f := (·.reach depth)) (fun _ _ _ => rfl) (fun _ => rfl) fun _ => rfl

lemma enter (h : t.Scenes s s') :
    t.Scenes { s with pass := s.pass.enter } { s' with pass := s'.pass.enter } :=
  h.change (f := Pass.enter) (fun _ _ _ => rfl) (fun _ => rfl) fun _ => rfl

lemma leave (h : t.Scenes s s') (outer : Int) :
    t.Scenes { s with pass := s.pass.leave outer } { s' with pass := s'.pass.leave outer } :=
  h.change (f := (·.leave outer)) (fun _ _ _ => rfl) (fun _ => rfl) fun _ => rfl

lemma hold (h : t.Scenes s s') {c c' : ConditionRef} (hc : t.conditions c c') :
    t.Scenes { s with pass := s.pass.hold c } { s' with pass := s'.pass.hold c' } := by
  cases h with
  | intro hr ha => exact .intro hr (List.rel_append ha (.cons hc .nil))

lemma release (h : t.Scenes s s') {c c' : ConditionRef} (hc : t.conditions c c') :
    t.Scenes { s with pass := s.pass.release c } { s' with pass := s'.pass.release c' } := by
  cases h with
  | intro hr ha => exact .intro hr (t.erase_rel ha hc)

lemma record (h : t.Scenes s s') (hi : t.items i i') (denying : Bool) (v : Verdict) (height : Int) :
    t.Scenes { s with pass := s.pass.record (i, denying) v height }
      { s' with pass := s'.pass.record (i', denying) v height } := by
  cases h with
  | intro hr ha =>
      simp only [Pass.record]
      split
      · exact .intro hr ha
      · exact .intro (.cons ⟨hi, rfl, rfl⟩ hr) ha

/-- What is on record is the same. -/
lemma recordedGrade (h : t.Scenes s s') (hi : t.items i i') (denying : Bool) :
    s'.pass.recordedGrade (i', denying) = s.pass.recordedGrade (i, denying) := by
  have hlookUp : ∀ {records records'}, List.Forall₂ t.Entries records records' →
      records'.lookup (i', denying) = records.lookup (i, denying) := by
    intro records records' hrel
    induction hrel with
    | nil => rfl
    | @cons x x' rest rest' hx _ ih =>
        obtain ⟨⟨k, b⟩, v⟩ := x
        obtain ⟨⟨k', b'⟩, v'⟩ := x'
        obtain ⟨hk, rfl, rfl⟩ := hx
        have hkey : ((i', denying) == (k', b)) = ((i, denying) == (k, b)) := by
          rw [Bool.eq_iff_iff, beq_iff_eq, beq_iff_eq, Prod.mk.injEq, Prod.mk.injEq,
            t.items_unique hi hk]
        rw [List.lookup_cons, List.lookup_cons, hkey, ih]
  cases h with
  | intro hr _ => simp only [Pass.recordedGrade, Pass.lookUp, hlookUp hr]

end Scenes

/-! ### Computations -/

/-- Outcomes with the same answer, in such scenes. -/
inductive Results {α : Type} :
    EStateM.Result Fault Scene α → EStateM.Result Fault Scene α → Prop where
  | ok {a : α} {s s' : Scene} : t.Scenes s s' → Results (.ok a s) (.ok a s')
  | error {f : Fault} {s s' : Scene} : t.Scenes s s' → Results (.error f s) (.error f s')

/-- **Computations that agree** in such scenes. -/
def Agree {α : Type} (x y : Run α) : Prop := ∀ s s', t.Scenes s s' → t.Results (x s) (y s')

/-- Evaluations of what is inside that agree on corresponding items. -/
def Recursions (recur recur' : Recursion) : Prop :=
  ∀ i i', t.items i i' → t.Agree (recur (some i)) (recur' (some i'))

namespace Agree

variable {t} {α β : Type} {x y : Run α} {s s' : Scene}

/-- The two courses that computations can take that agree. -/
lemma cases (hx : t.Agree x y) (hs : t.Scenes s s') :
    (∃ a u u', x s = .ok a u ∧ y s' = .ok a u' ∧ t.Scenes u u') ∨
      ∃ f u u', x s = .error f u ∧ y s' = .error f u' ∧ t.Scenes u u' := by
  have hres := hx s s' hs
  generalize x s = res at hres ⊢
  generalize y s' = res' at hres ⊢
  cases hres with
  | ok hu => exact .inl ⟨_, _, _, rfl, rfl, hu⟩
  | error hu => exact .inr ⟨_, _, _, rfl, rfl, hu⟩

lemma pure (a : α) : t.Agree (Pure.pure a) (Pure.pure a) := fun _ _ hs => .ok hs

lemma throw (f : Fault) : t.Agree (MonadExcept.throw f : Run α) (MonadExcept.throw f) :=
  fun _ _ hs => .error hs

lemma ofExcept (o : Except Fault α) :
    t.Agree (MonadExcept.ofExcept o : Run α) (MonadExcept.ofExcept o) := by
  cases o with
  | ok a => exact .pure a
  | error f => exact .throw f

lemma bind {f f' : α → Run β} (hx : t.Agree x y) (hf : ∀ a, t.Agree (f a) (f' a)) :
    t.Agree (x >>= f) (y >>= f') := by
  intro s s' hs
  rcases hx.cases hs with ⟨a, u, u', hxs, hys, hu⟩ | ⟨e, u, u', hxs, hys, hu⟩
  · rw [Run.bind_of_ok hxs, Run.bind_of_ok hys]
    exact hf a u u' hu
  · rw [Run.bind_of_error hxs, Run.bind_of_error hys]
    exact .error hu

lemma settleAccept (accept : Option Grade) :
    t.Agree (Run.modifyPass (·.settleAccept accept)) (Run.modifyPass (·.settleAccept accept)) :=
  fun _ _ hs => .ok (hs.settleAccept accept)

lemma diagnose (kind : Problem.Kind) (message : String) (conditionId : Option String) :
    t.Agree (Run.diagnose kind message conditionId) (Run.diagnose kind message conditionId) :=
  fun _ _ hs => .ok (hs.diagnose _)

lemma asking (invert : Bool) (hx : t.Agree x y) :
    t.Agree (Run.asking invert x) (Run.asking invert y) := by
  intro s s' hs
  simp only [Run.asking, Run.ensuring, hs.denying]
  rcases hx.cases (hs.ask (invert != s.pass.denying)) with
    ⟨a, u, u', hxs, hys, hu⟩ | ⟨e, u, u', hxs, hys, hu⟩
  · rw [hxs, hys]
    exact .ok (hu.ask _)
  · rw [hxs, hys]
    exact .error (hu.ask _)

/-- Corresponding conditions are held, and let go of. -/
lemma holding {c c' : ConditionRef} (hc : t.conditions c c') (hx : t.Agree x y) :
    t.Agree (Run.holding c x) (Run.holding c' y) := by
  intro s s' hs
  simp only [Run.holding]
  rcases hx.cases (hs.hold hc) with ⟨a, u, u', hxs, hys, hu⟩ | ⟨e, u, u', hxs, hys, hu⟩
  · rw [hxs, hys]
    simp only [← t.contains_eq hu.active hc]
    split
    · exact .ok (hu.release hc)
    · exact .error hu
  · rw [hxs, hys]
    simp only [← t.contains_eq hu.active hc]
    split
    · exact .error (hu.release hc)
    · exact .error hu

end Agree

/-! ### Evaluations -/

variable {m : Matcher} {k : Nat} {body body' : Run Verdict} {recur recur' : Recursion}

/-- Corresponding items are refused in the same words. -/
lemma agree_exceed (h : t.items i i') :
    t.Agree (Rulebook.exceed ⟨g, m, k⟩ i) (Rulebook.exceed ⟨g', m, k⟩ i') := by
  rw [Rulebook.exceed, Rulebook.exceed, t.literal_eq h, t.idOf_eq h]
  exact .bind (.ofExcept _) fun shown => .diagnose _ _ _

/-- One level around evaluations that agree. -/
lemma agree_visit (h : t.items i i') (hbody : t.Agree body body') :
    t.Agree (Rulebook.visit ⟨g, m, k⟩ i body) (Rulebook.visit ⟨g', m, k⟩ i' body') := by
  intro s s' hs
  have hrec := hs.recordedGrade h s.pass.denying
  simp only [Rulebook.visit, hs.denying, hs.depth, hs.reached, hrec]
  -- what is on record and how deep it is agree, so that both take the same branch
  split
  · split
    · exact t.agree_exceed h s s' hs
    · exact .ok (hs.reach _)
  · split
    · exact t.agree_exceed h s s' hs
    · rcases hbody.cases hs.enter with ⟨v, u, u', hxs, hys, hu⟩ | ⟨f, u, u', hxs, hys, hu⟩
      · have hspan : u'.pass.span = u.pass.span := by
          rw [Pass.span, Pass.span, hu.reached, hu.depth]
        rw [hxs, hys, Rulebook.settle, Rulebook.settle, hspan]
        exact .ok ((hu.leave _).record h _ v _)
      · rw [hxs, hys, Rulebook.settle, Rulebook.settle]
        exact .error (hu.leave _)

/-- Corresponding expressions, by evaluations that agree on what they are bound to. -/
lemma agree_evaluateExpression {e e' : ExpressionRef} (h : t.expressions e e')
    (hrecur : t.Recursions recur recur') :
    t.Agree (Rulebook.evaluateExpression ⟨g, m, k⟩ recur e)
      (Rulebook.evaluateExpression ⟨g', m, k⟩ recur' e') := by
  rcases (g.expression e).domain.cases_matched with hd | hd | hd | ⟨name, hd⟩
  · have hd' := t.domain h ▸ hd
    simp only [Rulebook.evaluateExpression, hd, hd']
    exact .pure _
  · have hd' := t.domain h ▸ hd
    intro s s' hs
    rw [Rulebook.evaluateExpression_of_matched hd, Rulebook.evaluateExpression_of_matched hd',
      hs.target, ← t.attributes h]
    dsimp only
    cases m (g.expression e).attributes s.pass.target with
    | ok met => exact .ok hs
    | error f => exact .error hs
  · have hd' := t.domain h ▸ hd
    have htarget := t.target h hd
    simp only [Rulebook.evaluateExpression, hd, hd', t.conditionId h]
    generalize (g.expression e).target = target at htarget ⊢
    generalize (g'.expression e').target = target' at htarget ⊢
    cases htarget with
    | none => exact .diagnose _ _ _
    | some hij => exact hrecur _ _ hij
  · have hd' := t.domain h ▸ hd
    simp only [Rulebook.evaluateExpression, hd, hd']
    exact .diagnose _ _ _

/-- Counting corresponding expressions. -/
lemma agree_tallyFrom {es es' : List ExpressionRef} (h : List.Forall₂ t.expressions es es')
    (hrecur : t.Recursions recur recur') (tally : Tally) :
    t.Agree (Rulebook.tallyFrom ⟨g, m, k⟩ recur es tally)
      (Rulebook.tallyFrom ⟨g', m, k⟩ recur' es' tally) := by
  induction h generalizing tally with
  | nil => exact .pure _
  | @cons e e' rest rest' he _ ih =>
      simp only [Rulebook.tallyFrom, ← t.role he]
      refine .bind (.asking _ (hrecur _ _ (.expression he))) fun v => ?_
      cases v with
      | graded grade => exact ih _
      | error => exact .bind (.settleAccept none) fun _ => .pure none
      | ignored => exact ih _
      | undefined => exact ih _

/-- Combining corresponding conditions. -/
lemma agree_combine {c c' : ConditionRef} (h : t.conditions c c')
    (hrecur : t.Recursions recur recur') :
    t.Agree (Rulebook.combine ⟨g, m, k⟩ recur c) (Rulebook.combine ⟨g', m, k⟩ recur' c') := by
  intro s s' hs
  have hheld : c ∈ s.pass.active ↔ c' ∈ s'.pass.active :=
    List.rel_mem t.conditions_unique h hs.active
  by_cases hc : c ∈ s.pass.active
  · rw [Rulebook.combine_of_mem hc, Rulebook.combine_of_mem (hheld.mp hc)]
    simp only [t.id h]
    exact Agree.diagnose _ _ _ s s' hs
  · have hcount : t.Agree (Run.holding c (Rulebook.tallyFrom ⟨g, m, k⟩ recur _ {}))
        (Run.holding c' (Rulebook.tallyFrom ⟨g', m, k⟩ recur' _ {})) :=
      .holding h (t.agree_tallyFrom (t.members h) hrecur {})
    rw [Rulebook.combine_of_not_mem hc, Rulebook.combine_of_not_mem (mt hheld.mpr hc)]
    rcases hcount.cases (hs.settleAccept none)
      with ⟨o, u, u', hxs, hys, hu⟩ | ⟨f, u, u', hxs, hys, hu⟩
    · rw [hxs, hys]
      cases o with
      | none => exact .ok hu
      | some tally => exact .ok (hu.settleAccept _)
    · rw [hxs, hys]
      exact .error hu

/-- **Corresponding items**, by evaluations that agree on what is inside them. -/
lemma agree_evaluateItem (h : t.items i i') (hrecur : t.Recursions recur recur') :
    t.Agree (Rulebook.evaluateItem ⟨g, m, k⟩ recur i)
      (Rulebook.evaluateItem ⟨g', m, k⟩ recur' i') := by
  cases h with
  | condition h => exact t.agree_combine h hrecur
  | expression h => exact t.agree_evaluateExpression h hrecur

/-- **The evaluations of corresponding items agree.** -/
lemma agree_evaluateWithin (n : Nat) :
    t.Recursions (Rulebook.evaluateWithin ⟨g, m, k⟩ n) (Rulebook.evaluateWithin ⟨g', m, k⟩ n) := by
  induction n with
  | zero => exact fun _ _ _ => .throw _
  | succ n ih => exact fun i i' h => t.agree_visit h (t.agree_evaluateItem h ih)

/-- So they do with as many levels as are needed, if the graphs have the same items of a consumer's
own. -/
lemma agree_evaluate (hscripts : g.scripts = g'.scripts) (h : t.items i i') :
    t.Agree (Rulebook.evaluate ⟨g, m, k⟩ (some i)) (Rulebook.evaluate ⟨g', m, k⟩ (some i')) := by
  intro s s' hs
  have hrestarts : Rulebook.restarts ⟨g', m, k⟩ = Rulebook.restarts ⟨g, m, k⟩ := by
    rw [Rulebook.restarts, Rulebook.restarts, hscripts]
  have hlevels : Rulebook.levels ⟨g', m, k⟩ s'.pass = Rulebook.levels ⟨g, m, k⟩ s.pass := by
    rw [Rulebook.levels, Rulebook.levels, hs.depth, hrestarts]
  rw [Rulebook.evaluate, Rulebook.evaluate, Rulebook.recursion, Rulebook.recursion, hlevels]
  exact t.agree_evaluateWithin _ i i' h s s' hs

end Correspondence

end Applicability
