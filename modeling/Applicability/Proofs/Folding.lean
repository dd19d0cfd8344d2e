/-
Folding: the verdict on a condition in closed form.

The expressions of a condition are gone through once, with two verdicts that are kept: the best
alternative and the weakest constraint. Each of them says nothing at first, and verdicts that say
nothing cannot be compared. What comes of it depends neither on the order nor on such verdicts.

* `Reckoning`, `combineByOrder`: the two verdicts kept, and combining with them;
  `combineByOrder_eq` says that no comparison is ever refused and that this is how grades are
  counted;
* `Tally.verdictOf`, `Tally.bestOf`: the closed form; `SaysSame.closed_form`: it depends only on
  which children say something;
* `Yields`: the verdicts that expressions come to, one after the other until one is an error;
  `combine_of_yields` and `Yields.congr` say what comes of them and what is evaluated;
* `combine_closed_form`: whatever the verdicts on its expressions are, the verdict on a condition is
  the closed form.
-/
import Applicability.Proofs.Following
import Applicability.Verdict.Order

namespace Applicability

/-! ### Folding by comparisons -/

/-- The best alternative and the weakest constraint so far, as verdicts. Both say nothing as long as
there is none. -/
structure Reckoning where
  accept : Verdict := .undefined
  require : Verdict := .ignored
deriving DecidableEq, Repr

namespace Reckoning

/-- Takes in one more verdict that says something. It is compared with what was kept, unless that
says nothing. -/
def take (x : Reckoning) (role : Role) (v : Verdict) : Except Fault Reckoning :=
  let v := if role = .deny then v.negated else v
  if role = .accept then
    if x.accept = .undefined then .ok { x with accept := v }
    else (Verdict.keep .greater x.accept v).map fun accept => { x with accept }
  else
    if x.require = .ignored then .ok { x with require := v }
    else (Verdict.keep .less x.require v).map fun require => { x with require }

/-- The weakest constraint, unless the best alternative is weaker. -/
def cap (x : Reckoning) : Except Fault Verdict :=
  if x.accept = .undefined then .ok x.require
  else if x.require = .ignored then .ok x.accept
  else Verdict.keep .less x.require x.accept

/-- A tally as verdicts. -/
def ofTally (t : Tally) : Reckoning where
  accept := Verdict.ofBest t.best
  require := Verdict.ofWeakest t.weakest

lemma keep_greater (g h : Grade) :
    Verdict.keep .greater (.graded g) (.graded h) = .ok (.graded (max g h)) := by
  cases g <;> cases h <;> rfl

lemma keep_less (g h : Grade) :
    Verdict.keep .less (.graded g) (.graded h) = .ok (.graded (min g h)) := by
  cases g <;> cases h <;> rfl

lemma accept_ofTally (t : Tally) : (ofTally t).accept.grade? = t.best := by
  obtain ⟨b, w⟩ := t
  cases b <;> rfl

/-- Grades can always be taken in. -/
lemma take_ofTally (t : Tally) (role : Role) (g : Grade) :
    (ofTally t).take role (.graded g) = .ok (ofTally (t.count role g)) := by
  obtain ⟨b, w⟩ := t
  cases role with
  | accept =>
      cases b with
      | none => rfl
      | some b => exact congrArg (Except.map _) (keep_greater b g)
  | require =>
      cases w with
      | none => rfl
      | some w => exact congrArg (Except.map _) (keep_less w g)
  | deny =>
      cases w with
      | none => rfl
      | some w => exact congrArg (Except.map _) (keep_less w g.negated)

/-- And the weakest constraint can always be capped. -/
lemma cap_ofTally (t : Tally) : (ofTally t).cap = .ok t.verdict := by
  obtain ⟨b, w⟩ := t
  cases b with
  | none => rfl
  | some b =>
      cases w with
      | none => rfl
      | some w => exact keep_less w b

end Reckoning

namespace Run

variable {α β : Type}

/-- What is made of the answer may as well be made of it while a condition is held. -/
lemma holding_map (c : ConditionRef) (f : α → β) (x : Run α) :
    holding c (f <$> x) = f <$> holding c x := by
  funext s
  simp only [holding, Functor.map, EStateM.map]
  cases x { s with pass := s.pass.hold c } <;> dsimp only <;> split <;> rfl

end Run

namespace Rulebook

/-- Evaluates the expressions of a condition in order and compares their verdicts. An error ends
this early. -/
def reckonFrom (r : Rulebook) (recur : Recursion) :
    List ExpressionRef → Reckoning → Run (Option Reckoning)
  | [], x => return some x
  | e :: rest, x => do
    let v ← Run.asking (r.roleOf e == .deny) (recur (some (.expression e)))
    if v.isSilent then r.reckonFrom recur rest x
    else if v = .error then
      Run.modifyPass (·.settleAccept none)
      return none
    else
      let x ← MonadExcept.ofExcept (x.take (r.roleOf e) v)
      r.reckonFrom recur rest x

/-- The verdict on a condition, found by comparing verdicts. -/
def combineByOrder (r : Rulebook) (recur : Recursion) (c : ConditionRef) : Run Verdict := do
  let x := r.graph.condition c
  if (← get).pass.active.contains c then
    Run.diagnose .cycle s!"Condition '{x.id}' references itself" (some x.id)
  else
    Run.modifyPass (·.settleAccept none)
    match ← Run.holding c (r.reckonFrom recur x.expressions {}) with
    | none => return .error
    | some x =>
      Run.modifyPass (·.settleAccept x.accept.grade?)
      MonadExcept.ofExcept x.cap

/-- Comparing verdicts is counting grades. -/
lemma reckonFrom_ofTally (r : Rulebook) (recur : Recursion) (es : List ExpressionRef) (t : Tally) :
    r.reckonFrom recur es (.ofTally t) = Option.map .ofTally <$> r.tallyFrom recur es t := by
  induction es generalizing t with
  | nil => rfl
  | cons e rest ih =>
      rw [reckonFrom, tallyFrom, map_bind]
      refine bind_congr fun v => ?_
      cases v with
      | graded g =>
          have htake := Reckoning.take_ofTally t (r.roleOf e) g
          simp only [Verdict.isSilent, reduceCtorEq, beq_false_of_ne, ne_eq, not_false_eq_true,
            Bool.or_false, Bool.false_eq_true, if_false, htake]
          exact ih _
      | ignored => exact ih t
      | undefined => exact ih t
      | error => rfl

/-- **No comparison is ever refused**: comparing verdicts leads to what counting grades leads to. -/
theorem combineByOrder_eq (r : Rulebook) (recur : Recursion) (c : ConditionRef) :
    r.combineByOrder recur c = r.combine recur c := by
  funext s
  by_cases hc : c ∈ s.pass.active
  · rw [combine_of_mem hc]
    have hheld : s.pass.active.contains c = true := by simpa using hc
    rw [combineByOrder, Run.get_bind, if_pos hheld]
  · have hfree : ¬ s.pass.active.contains c = true := by simpa using hc
    have hfold : r.reckonFrom recur (r.graph.condition c).expressions {} =
        Option.map .ofTally <$> r.tallyFrom recur (r.graph.condition c).expressions {} :=
      r.reckonFrom_ofTally recur _ {}
    -- what is counted may as well be made into a reckoning after the condition is let go of
    rw [combineByOrder, Run.get_bind, if_neg hfree, Run.modifyPass_bind, hfold, Run.holding_map,
      bind_map_left, combine, Run.get_bind, if_neg hfree, Run.modifyPass_bind]
    refine congrFun (bind_congr fun found => ?_) _
    cases found with
    | none => rfl
    | some t =>
        simp only [Option.map_some, Reckoning.accept_ofTally, Reckoning.cap_ofTally]
        rfl

end Rulebook

/-! ### The closed form -/

namespace Tally

variable {children children' : List (Role × Verdict)}

/-- **The best alternative**, if there is one and no child is an error. -/
def bestOf (children : List (Role × Verdict)) : Option Grade :=
  if .error ∈ children.map Prod.snd then none else (alternatives children).max?

/-- **The verdict in closed form**: an error if a child is one, and otherwise the weakest of the
constraints and of the best alternative. -/
def verdictOf (children : List (Role × Verdict)) : Verdict :=
  if .error ∈ children.map Prod.snd then .error
  else .ofWeakest (constraints children ++ (alternatives children).max?.toList).min?

/-- A tally comes to the closed form, where no child is an error. -/
lemma verdict_ofChildren (h : .error ∉ children.map Prod.snd) :
    (ofChildren children).verdict = verdictOf children := by
  rw [verdictOf, if_neg h, ofChildren_eq, verdict, grade?]
  cases (alternatives children).max? with
  | none => simp
  | some b => rw [Option.toList_some, min?_concat]

lemma best_ofChildren (h : .error ∉ children.map Prod.snd) :
    (ofChildren children).best = bestOf children := by
  rw [bestOf, if_neg h, ofChildren_eq]

/-- The closed form is an error only if a child is one. -/
lemma verdictOf_eq_error_iff : verdictOf children = .error ↔ .error ∈ children.map Prod.snd := by
  by_cases h : .error ∈ children.map Prod.snd
  · rw [verdictOf, if_pos h]
    exact iff_of_true rfl h
  · rw [← verdict_ofChildren h]
    exact iff_of_false (verdict_ne_error _) h

/-- **Children that say the same**: those that are not passed over are the same, in any order and
number. -/
def SaysSame (children children' : List (Role × Verdict)) : Prop :=
  ∀ x, x.2.isSilent = false → (x ∈ children ↔ x ∈ children')

lemma max?_congr {gs hs : List Grade} (h : ∀ g, g ∈ gs ↔ g ∈ hs) : gs.max? = hs.max? := by
  refine Option.ext fun g => ?_
  simp only [List.max?_eq_some_iff, h]

lemma min?_congr {gs hs : List Grade} (h : ∀ g, g ∈ gs ↔ g ∈ hs) : gs.min? = hs.min? := by
  refine Option.ext fun g => ?_
  simp only [List.min?_eq_some_iff, h]

/-- **Children that say the same come to the same**, and have the same best alternative. -/
lemma SaysSame.closed_form (h : SaysSame children children') :
    verdictOf children' = verdictOf children ∧ bestOf children' = bestOf children := by
  have herror : .error ∈ children'.map Prod.snd ↔ .error ∈ children.map Prod.snd := by
    simp only [List.mem_map]
    constructor
    · rintro ⟨⟨role, v⟩, hx, rfl⟩
      exact ⟨_, (h _ rfl).mpr hx, rfl⟩
    · rintro ⟨⟨role, v⟩, hx, rfl⟩
      exact ⟨_, (h _ rfl).mp hx, rfl⟩
  have hbest : (alternatives children').max? = (alternatives children).max? :=
    max?_congr fun g => by rw [mem_alternatives, mem_alternatives, h _ rfl]
  have hmin : (constraints children' ++ (alternatives children).max?.toList).min? =
      (constraints children ++ (alternatives children).max?.toList).min? :=
    min?_congr fun g => by
      simp only [List.mem_append, mem_constraints, h (.require, .graded g) rfl,
        h (.deny, .graded g.negated) rfl]
  simp only [verdictOf, bestOf, herror, hbest, hmin, and_self]

end Tally

/-! ### Verdicts on expressions -/

namespace Rulebook

variable {r : Rulebook} {recur recur' : Recursion} {es : List ExpressionRef} {s t : Scene}
  {vs : List Verdict}

/-- **The verdicts that expressions come to**, evaluated one after the other from one scene to
another. An error ends this: the expressions after it are not evaluated, whatever they might come
to. -/
inductive Yields (r : Rulebook) (recur : Recursion) :
    List ExpressionRef → Scene → List Verdict → Scene → Prop where
  | nil {s : Scene} : Yields r recur [] s [] s
  | next {e : ExpressionRef} {rest : List ExpressionRef} {s t u : Scene} {v : Verdict}
      {vs : List Verdict} :
      Run.asking (r.roleOf e == .deny) (recur (some (.expression e))) s = .ok v t → v ≠ .error →
      Yields r recur rest t vs u → Yields r recur (e :: rest) s (v :: vs) u
  | error {e : ExpressionRef} {rest : List ExpressionRef} {s t : Scene} {vs : List Verdict} :
      Run.asking (r.roleOf e == .deny) (recur (some (.expression e))) s = .ok .error t →
      vs.length = rest.length → Yields r recur (e :: rest) s (.error :: vs) t

lemma Yields.length_eq (h : r.Yields recur es s vs t) : vs.length = es.length := by
  induction h with
  | nil => rfl
  | next _ _ _ ih => simp [ih]
  | error _ hlength => simp [hlength]

/-- **Nothing is evaluated after the first error**: what the recursion does there makes no
difference. -/
lemma Yields.congr (h : r.Yields recur es s vs t)
    (hsame : ∀ e ∈ es.take ((vs.takeWhile (· ≠ .error)).length + 1),
      recur' (some (.expression e)) = recur (some (.expression e))) :
    r.Yields recur' es s vs t := by
  induction h with
  | nil => exact .nil
  | @next e rest s t u v vs hv hne _ ih =>
      simp only [List.takeWhile_cons, hne, ne_eq, not_false_eq_true, decide_true, if_true,
        List.length_cons, List.take_succ_cons, List.forall_mem_cons] at hsame
      exact .next (by rw [hsame.1]; exact hv) hne (ih hsame.2)
  | error herror hlength =>
      simp only [List.take_succ_cons, List.forall_mem_cons] at hsame
      exact .error (by rw [hsame.1]; exact herror) hlength

/-- The counts of the verdicts are what is found, unless one of them is an error. -/
lemma tallyFrom_of_yields (h : r.Yields recur es s vs t) (tally : Tally) :
    r.tallyFrom recur es tally s =
      if .error ∈ vs then .ok none { t with pass := t.pass.settleAccept none }
      else .ok (some (tally.countAll ((es.map r.roleOf).zip vs))) t := by
  induction h generalizing tally with
  | nil => rfl
  | @next e rest s t u v vs hv hne _ ih =>
      have hmem : .error ∈ v :: vs ↔ .error ∈ vs := by simp [hne.symm]
      rw [tallyFrom_of_ok hv hne, ih]
      simp only [hmem]
      rfl
  | error herror => rw [tallyFrom_of_error herror, if_pos List.mem_cons_self]

/-- The roles of the expressions of a condition, with verdicts on them. -/
def childrenOf (r : Rulebook) (c : ConditionRef) (vs : List Verdict) : List (Role × Verdict) :=
  ((r.graph.condition c).expressions.map r.roleOf).zip vs

lemma snd_childrenOf {c : ConditionRef} (h : vs.length = (r.graph.condition c).expressions.length) :
    (r.childrenOf c vs).map Prod.snd = vs :=
  List.map_snd_zip (by rw [List.length_map, h])

/-- What combining comes to and leaves, from the verdicts on the expressions. -/
lemma combine_of_yields {c : ConditionRef} (hc : c ∉ s.pass.active)
    (h : r.Yields recur (r.graph.condition c).expressions
      { s with pass := (s.pass.settleAccept none).hold c } vs t) :
    r.combine recur c s =
      if c ∈ t.pass.active then
        .ok (Tally.verdictOf (r.childrenOf c vs))
          { t with pass := (t.pass.release c).settleAccept (Tally.bestOf (r.childrenOf c vs)) }
      else .error .notHeld
        (if .error ∈ vs then { t with pass := t.pass.settleAccept none } else t) := by
  have hsnd := snd_childrenOf h.length_eq
  rw [combine_of_not_mem hc, Run.holding, tallyFrom_of_yields h]
  by_cases herror : .error ∈ vs
  · rw [if_pos herror, if_pos herror, Tally.verdictOf, Tally.bestOf, hsnd, if_pos herror,
      if_pos herror]
    -- an item of a consumer's own may have started the pass over, and nothing is held then
    by_cases ht : c ∈ t.pass.active
    · simp [Pass.settleAccept, Pass.release, ht]
    · simp [Pass.settleAccept, ht]
  · have hnone : .error ∉ (r.childrenOf c vs).map Prod.snd := by rwa [hsnd]
    rw [if_neg herror, if_neg herror, ← Tally.verdict_ofChildren hnone,
      ← Tally.best_ofChildren hnone]
    by_cases ht : c ∈ t.pass.active
    · simp [ht, Tally.ofChildren, childrenOf]
    · simp [ht]

/-- **The verdict on a condition in closed form.** Take a condition that is not being combined, with
any verdicts on its expressions. No comparison is refused on the way. If the condition is still held
in the end, the verdict and the alternative that counts are the closed form, and nothing else
happens after the last evaluation; otherwise this is the fault that is met. The verdict is an error
exactly if one of the verdicts is; no alternative counts then, and what the expressions after the
first error would come to makes no difference. Nor do the order of the expressions, repetitions, and
those that say nothing. -/
theorem combine_closed_form (r : Rulebook) (recur : Recursion) (c : ConditionRef) (s t : Scene)
    (vs : List Verdict) (hc : c ∉ s.pass.active)
    (hvs : r.Yields recur (r.graph.condition c).expressions
      { s with pass := (s.pass.settleAccept none).hold c } vs t) :
    let children := r.childrenOf c vs
    r.combineByOrder recur c = r.combine recur c ∧
      (c ∈ t.pass.active → r.combine recur c s = .ok (Tally.verdictOf children)
        { t with pass := (t.pass.release c).settleAccept (Tally.bestOf children) }) ∧
      (c ∉ t.pass.active → ∃ u, r.combine recur c s = .error .notHeld u) ∧
      (Tally.verdictOf children = .error ↔ .error ∈ vs) ∧
      (.error ∈ vs → Tally.bestOf children = none) ∧
      (∀ recur' : Recursion,
        (∀ e ∈ (r.graph.condition c).expressions.take ((vs.takeWhile (· ≠ .error)).length + 1),
          recur' (some (.expression e)) = recur (some (.expression e))) →
        r.combine recur' c s = r.combine recur c s) ∧
      ∀ children', Tally.SaysSame children children' →
        Tally.verdictOf children' = Tally.verdictOf children ∧
          Tally.bestOf children' = Tally.bestOf children := by
  intro children
  have hsnd : children.map Prod.snd = vs := snd_childrenOf hvs.length_eq
  have hcombine := combine_of_yields hc hvs
  refine ⟨r.combineByOrder_eq recur c, fun ht => by rw [hcombine, if_pos ht],
    fun ht => ⟨_, by rw [hcombine, if_neg ht]⟩, hsnd ▸ Tally.verdictOf_eq_error_iff,
    fun herror => by rw [Tally.bestOf, hsnd, if_pos herror], fun recur' hsame => ?_,
    fun children' => Tally.SaysSame.closed_form⟩
  rw [hcombine, combine_of_yields hc (hvs.congr hsame)]

/-- The verdict on each expression, decided beforehand. -/
def decided (verdict : ExpressionRef → Verdict) : Recursion
  | some (.expression e), s => .ok (verdict e) s
  | _, s => .ok .ignored s

lemma yields_decided (r : Rulebook) (verdict : ExpressionRef → Verdict) (es : List ExpressionRef)
    (s : Scene) : r.Yields (decided verdict) es s (es.map verdict) s := by
  induction es with
  | nil => exact .nil
  | cons e rest ih =>
      rw [List.map_cons]
      by_cases hv : verdict e = .error
      · rw [hv]
        exact .error (congrArg (EStateM.Result.ok · s) hv) (List.length_map _)
      · exact .next rfl hv ih

/-- A condition with an alternative, a constraint and a denied constraint, and one with another
constraint before the last one. -/
def three : Graph where
  expressions := #[{ role := .accept }, { role := .require }, { role := .deny },
    { role := .require }]
  conditions := #[{ id := "three", expressions := [⟨0⟩, ⟨1⟩, ⟨2⟩] },
    { id := "four", expressions := [⟨0⟩, ⟨1⟩, ⟨3⟩, ⟨2⟩] }]

/-- With a selectable alternative, a constraint that says nothing and a denied one that fails, the
first condition is selectable, as its alternative is; the second one is an error if the constraint
before the last one is, and no alternative counts. -/
theorem combine_closed_form_sample :
    let r : Rulebook := { graph := three, matcher := .wildcard true, maxDepth := 8 }
    let recur : Recursion := decided fun e =>
      [.graded .selectable, .undefined, .graded .failed, .error].getD e.index .ignored
    let s : Scene := { pass := .start .empty }
    ⟨0⟩ ∉ s.pass.active ∧
      r.Yields recur [⟨0⟩, ⟨1⟩, ⟨2⟩] { s with pass := (s.pass.settleAccept none).hold ⟨0⟩ }
        [.graded .selectable, .undefined, .graded .failed]
        { s with pass := (s.pass.settleAccept none).hold ⟨0⟩ } ∧
      r.combine recur ⟨0⟩ s =
        .ok (.graded .selectable) { s with pass := s.pass.settleAccept (some .selectable) } ∧
      r.combine recur ⟨1⟩ s = .ok .error { s with pass := s.pass.settleAccept none } := by
  intro r recur s
  have hyields := yields_decided r fun e =>
    [.graded .selectable, .undefined, .graded .failed, .error].getD e.index .ignored
  obtain ⟨-, hheld, -⟩ := combine_closed_form r recur ⟨0⟩ s _ _ List.not_mem_nil
    (hyields [⟨0⟩, ⟨1⟩, ⟨2⟩] _)
  obtain ⟨-, hheld', -⟩ := combine_closed_form r recur ⟨1⟩ s _ _ List.not_mem_nil
    (hyields [⟨0⟩, ⟨1⟩, ⟨3⟩, ⟨2⟩] _)
  exact ⟨List.not_mem_nil, hyields _ _, hheld List.mem_cons_self, hheld' List.mem_cons_self⟩

end Rulebook

end Applicability
