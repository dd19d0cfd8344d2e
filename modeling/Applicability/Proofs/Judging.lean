/-
Judging: the verdicts of assessments, side by side.

Two conditions are compared by what is assessed inside them, which is assessed with other levels
left and while other conditions are being combined. Neither matters as long as the levels suffice. A
condition that leads back to another one, before it comes to a fault, adds nothing to what is being
combined: to meet it inside that other one is an error, whether it is being combined or not.

* `Graph.Lists`: a condition that refers to other ones, all in the same role;
* `Tally.verdictIn_deny`: counting denied expressions is the opposite of counting alternatives;
* `assess_of_le`: more levels change nothing if there were enough;
* `Rulebook.judge`, `judge_lists`: the verdict that an assessment comes to, and that of a condition
  that lists others from the verdicts on them;
* `Rulebook.Returns`, `judge_append_of_returns`: conditions that lead back to another one;
* `judge_denied`, `judge_denied_either`: the verdict on a condition with a single denied reference,
  and on one with several.
-/
import Applicability.Proofs.Guarding

namespace Applicability

namespace Graph

variable {g : Graph} {i j : Item} {path : List Item} {n limit : Nat}

lemma NestsWithin.mono (h : g.NestsWithin n i) (hn : n ≤ limit) : g.NestsWithin limit i :=
  fun path j hpath => (h path j hpath).trans_le hn

/-- A path leads nowhere, or it goes on from a successor of its first item. -/
lemma Nests.cases_head (h : g.Nests i path j) :
    path = [] ∧ j = i ∨ ∃ k rest, g.Leads i k ∧ g.Nests k rest j ∧ path = i :: rest := by
  induction h with
  | here => exact .inl ⟨rfl, rfl⟩
  | @inside path j k hpath hfree hjk ih =>
      rcases ih with ⟨rfl, rfl⟩ | ⟨first, rest, hfirst, hrest, rfl⟩
      · exact .inr ⟨k, [], hjk, .here, rfl⟩
      · refine .inr ⟨first, rest ++ [j], hfirst, .inside hrest (fun c hc hmem => ?_) hjk, rfl⟩
        exact hfree c hc (mem_combined.mpr (List.mem_cons_of_mem _ (mem_combined.mp hmem)))

/-- An item nests one level deeper than what is evaluated directly inside it. -/
lemma NestsWithin.over (h : ∀ k, g.Leads i k → g.NestsWithin n k) : g.NestsWithin (n + 1) i := by
  intro path j hpath
  rcases hpath.cases_head with ⟨rfl, -⟩ | ⟨k, rest, hik, hrest, rfl⟩
  · exact Nat.succ_pos n
  · exact Nat.succ_lt_succ (h k hik rest j hrest)

/-- **A condition that lists conditions**: its expressions are references to them in order, all in
the same role. -/
def Lists (g : Graph) (role : Role) (c : ConditionRef) (listed : List ConditionRef) : Prop :=
  List.Forall₂ (fun e d => (g.expression e).role = role ∧ (g.expression e).domain = .reference ∧
    (g.expression e).target = some (.condition d)) (g.condition c).expressions listed

/-- A condition that lists conditions nests two levels deeper than they do. -/
lemma Lists.nestsWithin {role : Role} {c : ConditionRef} {listed : List ConditionRef}
    (h : g.Lists role c listed) (hn : ∀ d ∈ listed, g.NestsWithin n (.condition d)) :
    g.NestsWithin (n + 2) (.condition c) := by
  refine .over fun k hk => ?_
  obtain ⟨e, he, rfl⟩ := List.mem_map.mp hk
  obtain ⟨d, hd, -, hdomain, htarget⟩ := exists_right_of_forall₂ h he
  refine .over fun k hk => ?_
  rw [Leads, successors_expression hdomain, htarget] at hk
  obtain rfl := List.mem_singleton.mp hk
  exact hn d hd

end Graph

/-! ### Tallies of one role -/

namespace Tally

/-- The verdict on conditions that are listed in one role, by the verdicts on them. -/
def verdictIn (role : Role) (verdicts : List Verdict) : Verdict :=
  (ofChildren (verdicts.map fun v => (role, v))).verdict

variable {verdicts : List Verdict}

/-- The rules for denied expressions are the opposite of those for alternatives. -/
lemma combines_deny {v : Verdict} (hf : ∀ w ∈ verdicts, w.IsFinal)
    (h : Combines (verdicts.map fun w => (.accept, w)) v) :
    Combines (verdicts.map fun w => (.deny, w)) v.negated := by
  have hmoved : (∃ x ∈ verdicts.map fun w => (Role.accept, w), x.2 ≠ .ignored) →
      ∃ x ∈ verdicts.map fun w => (Role.deny, w), x.2 ≠ .ignored := by
    rintro ⟨x, hx, hne⟩
    obtain ⟨w, hw, rfl⟩ := List.mem_map.mp hx
    exact ⟨_, List.mem_map_of_mem hw, hne⟩
  cases h with
  | ignored hall =>
      refine .ignored fun x hx => ?_
      obtain ⟨w, hw, rfl⟩ := List.mem_map.mp hx
      exact hall (.accept, w) (List.mem_map_of_mem hw)
  | fulfilled hsome hs =>
      -- the alternative that is fulfilled is a denied expression that should have failed
      refine .failed (hmoved hsome) fun hdeny => ?_
      obtain ⟨x, hx, hne⟩ := hsome
      obtain ⟨w, hw, rfl⟩ := List.mem_map.mp hx
      have hmem : (Role.accept, Verdict.graded .fulfilled) ∈ verdicts.map fun w => (.accept, w) :=
        hs.accept ⟨w, hx, hne⟩
      have hdenied := hdeny.deny (.graded .fulfilled) (by simpa using hmem) (by decide)
      cases hdenied
  | failed hsome hs =>
      refine .fulfilled (hmoved hsome) ⟨fun w hw => ?_, fun w hw hne => ?_, ?_⟩
      · simp at hw
      · have hmem : w ∈ verdicts := by simpa using hw
        refine ((hf w hmem).graded hne).resolve_left fun hw => hs ⟨?_, ?_, ?_⟩
        · simp
        · simp
        · exact fun _ => List.mem_map_of_mem (hw ▸ hmem)
      · simp

/-- **Denied expressions have the opposite verdict of the same expressions as alternatives.** -/
lemma verdictIn_deny (hf : ∀ w ∈ verdicts, w.IsFinal) :
    verdictIn .deny verdicts = (verdictIn .accept verdicts).negated := by
  have hfinal : ∀ role : Role, ∀ x ∈ verdicts.map fun w => (role, w), x.2.IsFinal := by
    intro role x hx
    obtain ⟨w, hw, rfl⟩ := List.mem_map.mp hx
    exact hf w hw
  exact (combines_verdict (hfinal .deny)).unique
    (combines_deny hf (combines_verdict (hfinal .accept)))

lemma verdictIn_deny_singleton {v : Verdict} (hv : v.IsFinal) :
    verdictIn .deny [v] = v.negated := by
  rcases hv with rfl | rfl | rfl <;> rfl

end Tally

/-! ### Verdicts of assessments -/

/-- The fault of an obstacle that is one. -/
def Obstacle.fault? : Obstacle → Option Fault
  | .problem _ => none
  | .fault f => some f

/-- What an assessment says of an item: a verdict, or none because of some problem, or because of a
fault. -/
def judgementOf (o : Assessment) : Except (Option Fault) Verdict :=
  (o.map Prod.fst).mapError Obstacle.fault?

/-- The answer that a judgement leads to. -/
def concluded : Except (Option Fault) Verdict → Except Fault Verdict
  | .ok v => .ok v
  | .error none => .ok .error
  | .error (some f) => .error f

lemma answerOf_eq_concluded (o : Assessment) : answerOf o = concluded (judgementOf o) := by
  rcases o with (kind | f) | x <;> rfl

lemma concluded_map_negated (x : Except (Option Fault) Verdict) :
    concluded (x.map Verdict.negated) = (concluded x).map Verdict.negated := by
  rcases x with (_ | f) | v <;> rfl

/-- The height has no part in it. -/
lemma judgementOf_map_succ (o : Assessment) :
    judgementOf (o.map fun x => (x.1, x.2 + 1)) = judgementOf o := by
  cases o <;> rfl

lemma mapM_judgementOf {α : Type} (f : α → Assessment) (items : List α) :
    (items.mapM fun x => judgementOf (f x)) =
      ((items.mapM f).map (List.map Prod.fst)).mapError Obstacle.fault? := by
  induction items with
  | nil => rfl
  | cons x rest ih =>
      rw [List.mapM_cons, List.mapM_cons, ih]
      cases f x with
      | error o => rfl
      | ok y => cases rest.mapM f <;> rfl

namespace Rulebook

variable {r : Rulebook} {target : Attributes} {i j : Item} {v : Verdict} {k l : Nat}
  {held held' : List ConditionRef}

/-! ### Enough levels -/

/-- An item is assessed alike by assessments that agree wherever the first one is not too deep, if
it is not too deep itself. -/
lemma assessItem_of_ne {recur recur' : List ConditionRef → Item → Assessment}
    (h : ∀ held j, recur held j ≠ .error (.problem .tooDeep) → recur' held j = recur held j)
    (hne : r.assessItem target recur held i ≠ .error (.problem .tooDeep)) :
    r.assessItem target recur' held i = r.assessItem target recur held i := by
  cases i with
  | expression e =>
      rcases (r.graph.expression e).domain.cases_matched with hd | hd | hd | ⟨name, hd⟩
      · simp only [assessItem, hd]
      · rw [assessItem_matched hd, assessItem_matched hd]
      · cases ht : (r.graph.expression e).target with
        | none => simp only [assessItem, hd, ht]
        | some j =>
            simp only [assessItem, hd, ht] at hne ⊢
            exact h held j hne
      · simp only [assessItem, hd]
  | condition c =>
      by_cases hc : c ∈ held
      · simp only [assessItem, hc, if_true]
      · -- the first expression that is too deep would make the condition too deep
        have hall : (r.graph.condition c).expressions.mapM
              (fun e => recur (held ++ [c]) (.expression e)) =
            (r.graph.condition c).expressions.mapM
              (fun e => recur' (held ++ [c]) (.expression e)) := by
          refine mapM_congr_of_answered fun before e after hsplit hbefore => ?_
          refine (h _ _ fun hdeep => hne ?_).symm
          have hmissing : ((before ++ e :: after).mapM fun e =>
              recur (held ++ [c]) (.expression e)) = .error (.problem .tooDeep) :=
            mapM_append_of_error hdeep fun e he => .inl (hbefore e he)
          simp only [assessItem, assessTally, hc, if_false, hsplit, hmissing]
          rfl
        simp only [assessItem, assessTally, hc, if_false, hall]
  | artifact a =>
      cases hg : (r.graph.artifact a).guard with
      | none => simp only [assessItem, hg]
      | some j =>
          simp only [assessItem, hg] at hne ⊢
          exact h held j hne
  | scripted s => rfl

/-- **More levels change nothing if there were enough.** -/
theorem assess_of_le (hkl : k ≤ l)
    (h : r.assess target k held i ≠ .error (.problem .tooDeep)) :
    r.assess target l held i = r.assess target k held i := by
  induction k generalizing l held i with
  | zero => exact absurd rfl h
  | succ k ih =>
      obtain ⟨l, rfl⟩ : ∃ m, l = m + 1 := ⟨l - 1, by omega⟩
      rw [assess] at h
      rw [assess, assess, assessItem_of_ne (fun held j hj => ih (by omega) hj)]
      intro hitem
      rw [hitem] at h
      exact h rfl

/-! ### Judging -/

/-- **The verdict on an item** with the given number of levels left and while the given conditions
are being combined. -/
def judge (r : Rulebook) (target : Attributes) (k : Nat) (held : List ConditionRef) (i : Item) :
    Except (Option Fault) Verdict :=
  judgementOf (r.assess target k held i)

/-- The answer on an item whose nesting stays within the limit is what any more levels lead to. -/
lemma outcome_of_nestsWithin (h : r.graph.NestsWithin r.maxDepth i) (hl : r.maxDepth ≤ l) :
    r.outcome target (some i) = concluded (r.judge target l [] i) := by
  rw [outcome, judge, assess_of_le hl (assess_ne_tooDeep_of_nestsWithin h), answerOf_eq_concluded]

lemma reads_of_judge (h : r.judge target k held i = .ok v) : r.Reads target i v := by
  rw [judge, judgementOf] at h
  cases ho : r.assess target k held i with
  | error o => rw [ho] at h; cases h
  | ok x =>
      rw [ho] at h
      cases h
      exact (reads_of_assess ho).1

/-- Where the rules give a verdict, no fault is met. -/
lemma Reads.assess_ne_fault (h : r.Reads target i v) {f : Fault} :
    r.assess target k held i ≠ .error (.fault f) := by
  induction k generalizing held i v with
  | zero => intro hf; cases hf
  | succ k ih =>
      intro hf
      rw [assess] at hf
      cases hitem : r.assessItem target (r.assess target k) held i with
      | ok x => rw [hitem] at hf; cases hf
      | error o =>
          rw [hitem] at hf
          cases hf
          cases h with
          | component hd => simp only [assessItem, hd] at hitem; cases hitem
          | matched hd hm => rw [assessItem_matched hd, hm] at hitem; cases hitem
          | reference hd ht hj => simp only [assessItem, hd, ht] at hitem; exact ih hj hitem
          | condition verdict hs _ =>
              rcases assessItem_error hitem with hb | ⟨-, j, hj, hfault⟩
              · cases hb
              · obtain ⟨e, he, rfl⟩ := List.mem_map.mp hj
                exact ih (hs e he) hfault
          | unguarded hg => simp only [assessItem, hg] at hitem; cases hitem
          | guarded hg hj => simp only [assessItem, hg] at hitem; exact ih hj hitem

/-- So there is a verdict, or a problem. -/
lemma Reads.judge (h : r.Reads target i v) (k : Nat) (held : List ConditionRef) :
    (∃ w, r.judge target k held i = .ok w) ∨ r.judge target k held i = .error none := by
  rw [Rulebook.judge, judgementOf]
  cases ho : r.assess target k held i with
  | ok x => exact .inl ⟨x.1, rfl⟩
  | error o =>
      cases o with
      | problem kind => exact .inr rfl
      | fault f => exact absurd ho h.assess_ne_fault

/-- A condition that is being combined has no verdict. -/
lemma judge_of_mem {c : ConditionRef} (hc : c ∈ held) :
    r.judge target k held (.condition c) = .error none := by
  cases k with
  | zero => rfl
  | succ k =>
      rw [judge, assess, judgementOf_map_succ, assessItem, if_pos hc]
      rfl

/-- Any other condition has the verdict that its expressions lead to. -/
lemma judge_condition {c : ConditionRef} (hc : c ∉ held) :
    r.judge target (k + 1) held (.condition c) =
      ((r.graph.condition c).expressions.mapM fun e =>
        r.judge target k (held ++ [c]) (.expression e)).map fun verdicts =>
          (Tally.ofChildren
            (((r.graph.condition c).expressions.map r.roleOf).zip verdicts)).verdict := by
  have hall := mapM_judgementOf (fun e => r.assess target k (held ++ [c]) (.expression e))
    (r.graph.condition c).expressions
  simp only [judge]
  rw [hall, assess, judgementOf_map_succ, assessItem, if_neg hc, assessTally]
  cases (r.graph.condition c).expressions.mapM
    fun e => r.assess target k (held ++ [c]) (.expression e) <;> rfl

lemma judge_reference {e : ExpressionRef} (hd : (r.graph.expression e).domain = .reference)
    (ht : (r.graph.expression e).target = some j) :
    r.judge target (k + 1) held (.expression e) = r.judge target k held j := by
  simp only [judge, assess, judgementOf_map_succ, assessItem, hd, ht]

lemma judge_guard {a : ArtifactRef} (h : (r.graph.artifact a).guard = some j) :
    r.judge target (k + 1) held (.artifact a) = r.judge target k held j := by
  simp only [judge, assess, judgementOf_map_succ, assessItem, h]

/-- **What is being combined matters only inside an item**, and at a condition itself. -/
lemma judge_congr (hsame : ∀ c, i = .condition c → (c ∈ held ↔ c ∈ held'))
    (h : ∀ j, r.judge target k (held ++ i.condition?.toList) j =
      r.judge target k (held' ++ i.condition?.toList) j) :
    r.judge target (k + 1) held i = r.judge target (k + 1) held' i := by
  cases i with
  | expression e =>
      rcases (r.graph.expression e).domain.cases_matched with hd | hd | hd | ⟨name, hd⟩
      · simp only [judge, assess, assessItem, hd]
      · simp only [judge, assess, assessItem_matched hd]
      · cases ht : (r.graph.expression e).target with
        | none => simp only [judge, assess, assessItem, hd, ht]
        | some j =>
            rw [judge_reference hd ht, judge_reference hd ht]
            simpa [Item.condition?] using h j
      · simp only [judge, assess, assessItem, hd]
  | condition c =>
      by_cases hc : c ∈ held
      · rw [judge_of_mem hc, judge_of_mem ((hsame c rfl).mp hc)]
      · rw [judge_condition hc, judge_condition (mt (hsame c rfl).mpr hc)]
        have hall := funext fun e : ExpressionRef => h (.expression e)
        rw [Item.condition?, Option.toList_some] at hall
        rw [hall]
  | artifact a =>
      cases hg : (r.graph.artifact a).guard with
      | none => simp only [judge, assess, assessItem, hg]
      | some j =>
          rw [judge_guard hg, judge_guard hg]
          simpa [Item.condition?] using h j
  | scripted s => rfl

/-- **The verdict on a condition that lists conditions**, by the verdicts on them. -/
lemma judge_lists {role : Role} {c : ConditionRef} {listed : List ConditionRef}
    (h : r.graph.Lists role c listed) (hc : c ∉ held) :
    r.judge target (k + 2) held (.condition c) =
      (listed.mapM fun d => r.judge target k (held ++ [c]) (.condition d)).map
        (Tally.verdictIn role) := by
  have hroles : (r.graph.condition c).expressions.map r.roleOf =
      List.replicate listed.length role := by
    refine List.eq_replicate_iff.mpr ⟨by rw [List.length_map, h.length_eq], fun x hx => ?_⟩
    obtain ⟨e, he, rfl⟩ := List.mem_map.mp hx
    obtain ⟨d, -, hrole, -⟩ := exists_right_of_forall₂ h he
    exact hrole
  have hall : ((r.graph.condition c).expressions.mapM fun e =>
      r.judge target (k + 1) (held ++ [c]) (.expression e)) =
      listed.mapM fun d => r.judge target k (held ++ [c]) (.condition d) :=
    mapM_of_forall₂ (h.imp fun e d hed => judge_reference hed.2.1 hed.2.2)
  rw [judge_condition hc, hall, hroles]
  cases hverdicts : listed.mapM fun d => r.judge target k (held ++ [c]) (.condition d) with
  | error f => rfl
  | ok verdicts =>
      have hlength := (mapM_eq_ok_iff.mp hverdicts).length_eq
      have hzip : (List.replicate listed.length role).zip verdicts =
          verdicts.map fun v => (role, v) := by
        rw [hlength, ← List.map_const']
        simpa using List.zip_map' (f := fun _ => role) (g := id) (l := verdicts)
      rw [Except.map, Except.map, hzip, Tally.verdictIn]

/-! ### Leading back -/

/-- **A condition that leads back to another one**: while that one is being combined, or if it is
that one itself, it comes to no verdict and to no fault. -/
def Returns (r : Rulebook) (target : Attributes) (c d : ConditionRef) : Prop :=
  ∀ k held, c ∈ held ++ [d] → r.judge target k held (.condition d) = .error none

variable {c d : ConditionRef}

/-- A condition leads back if it lists one that does, after conditions that have a verdict. -/
lemma returns_of_lists {role : Role} {before after : List ConditionRef}
    (h : r.graph.Lists role d (before ++ c :: after))
    (hbefore : ∀ b ∈ before, ∃ v, r.Reads target (.condition b) v) : r.Returns target c d := by
  intro k held hc
  by_cases hd : d ∈ held
  · exact judge_of_mem hd
  by_cases hdeep : r.assess target k held (.condition d) = .error (.problem .tooDeep)
  · rw [judge, hdeep]
    rfl
  -- two levels more make no difference here, and with them the rule for lists applies
  have hlevels : r.judge target (k + 2) held (.condition d) =
      r.judge target k held (.condition d) := by
    rw [judge, judge, assess_of_le (by omega) hdeep]
  have hmissing : ((before ++ c :: after).mapM fun b =>
      r.judge target k (held ++ [d]) (.condition b)) = .error none := by
    refine mapM_append_of_error (judge_of_mem hc) fun b hb => ?_
    obtain ⟨v, hv⟩ := hbefore b hb
    exact hv.judge k _
  rw [← hlevels, judge_lists h hd, hmissing]
  rfl

/-- **Conditions that lead back to one that is being combined** may be combined or not. -/
lemma judge_append_of_returns {around : List ConditionRef}
    (hreturns : ∀ d ∈ around, r.Returns target c d) (hc : c ∈ held) :
    r.judge target k (around ++ held) i = r.judge target k held i := by
  induction k generalizing held i with
  | zero => rfl
  | succ k ih =>
      -- one of the conditions around has no verdict either way; anything else is judged from inside
      by_cases hi : ∃ d, i = .condition d ∧ d ∈ around
      · obtain ⟨d, rfl, hd⟩ := hi
        rw [judge_of_mem (List.mem_append_left _ hd), hreturns d hd (k + 1) held
          (List.mem_append_left _ hc)]
      · refine judge_congr (fun d hd => ?_) fun j => ?_
        · have hfree : d ∉ around := fun hmem => hi ⟨d, hd, hmem⟩
          simp [hfree]
        · rw [List.append_assoc]
          exact ih (List.mem_append_left _ hc)

/-- So they may at that condition itself. -/
lemma judge_of_returns {around : List ConditionRef}
    (hreturns : ∀ d ∈ around, r.Returns target c d) :
    r.judge target k around (.condition c) = r.judge target k [] (.condition c) := by
  by_cases hc : c ∈ around
  · rw [judge_of_mem hc, hreturns c hc k [] (List.mem_singleton.mpr rfl)]
  cases k with
  | zero => rfl
  | succ k =>
      refine judge_congr (fun d hd => ?_) fun j => ?_
      · cases hd
        simp [hc]
      · exact judge_append_of_returns hreturns (List.mem_singleton.mpr rfl)

/-! ### Denied references -/

/-- **A condition that denies a single one** has the opposite verdict. -/
lemma judge_denied (h : r.graph.Lists .deny d [c]) :
    r.judge target (k + 2) [] (.condition d) =
      (r.judge target k [] (.condition c)).map Verdict.negated := by
  have hreturns : ∀ y ∈ [d], r.Returns target c y := by
    intro y hy
    obtain rfl := List.mem_singleton.mp hy
    have hfirst : r.graph.Lists .deny y ([] ++ c :: []) := h
    exact returns_of_lists hfirst (List.forall_mem_nil _)
  rw [judge_lists h (by simp), List.nil_append, List.mapM_cons, List.mapM_nil,
    judge_of_returns hreturns]
  cases hv : r.judge target k [] (.condition c) with
  | error f => rfl
  | ok v => exact congrArg Except.ok (Tally.verdictIn_deny_singleton (reads_of_judge hv).isFinal)

/-- **A condition that denies several ones** has the opposite verdict of one that accepts them. -/
lemma judge_denied_either {a b : ConditionRef} {listed : List ConditionRef}
    (ha : r.graph.Lists .deny a listed) (hb : r.graph.Lists .accept b listed) :
    r.judge target (k + 2) [] (.condition a) =
      (r.judge target (k + 2) [] (.condition b)).map Verdict.negated := by
  -- a listed condition that is reached at all has the same verdict inside the one and the other
  have hall : (listed.mapM fun d => r.judge target k [a] (.condition d)) =
      listed.mapM fun d => r.judge target k [b] (.condition d) := by
    refine mapM_congr_of_answered fun before c after hsplit hbefore => ?_
    subst hsplit
    have hread : ∀ y ∈ before, ∃ v, r.Reads target (.condition y) v := by
      intro y hy
      obtain ⟨v, hv⟩ := hbefore y hy
      exact ⟨v, reads_of_judge hv⟩
    have hreturns : ∀ {role d}, r.graph.Lists role d (before ++ c :: after) →
        ∀ y ∈ [d], r.Returns target c y := by
      intro role d hd y hy
      obtain rfl := List.mem_singleton.mp hy
      exact returns_of_lists hd hread
    rw [judge_of_returns (hreturns ha), judge_of_returns (hreturns hb)]
  rw [judge_lists ha (by simp), judge_lists hb (by simp), List.nil_append, List.nil_append, hall]
  cases hverdicts : listed.mapM fun d => r.judge target k [b] (.condition d) with
  | error f => rfl
  | ok verdicts =>
      refine congrArg Except.ok (Tally.verdictIn_deny fun v hv => ?_)
      obtain ⟨d, -, hd⟩ := exists_left_of_forall₂ (mapM_eq_ok_iff.mp hverdicts) hv
      exact (reads_of_judge hd).isFinal

end Rulebook

end Applicability
