/-
Alternatives: which alternative a report names.

A pass keeps one alternative, the one that counted in the condition combined last, and every
condition that is combined on the way replaces it. In a report it is nevertheless that of the
condition that was checked.

* `Graph.StandsFor`: the items by which a condition is checked;
* `Rulebook.OwnTally`: an error without an alternative, or the tally of the condition's own
  expressions, each as it is evaluated alone;
* `ownTally_of_combine`: what combining a condition comes to and leaves;
* `Untouched`, `ownTally_of_evaluateWithin`: what an evaluation leaves that begins where no
  condition was combined. The induction goes along what stands for the condition;
* `check_accept_result`: the alternative in a report.
-/
import Applicability.Proofs.Bulk
import Applicability.Proofs.Complaints

namespace Applicability

/-! ### Own expressions -/

/-- **The items that stand for a condition**: it itself, an artifact that it guards, and a reference
that is bound to it, also by way of each other. -/
inductive Graph.StandsFor (g : Graph) (c : ConditionRef) : Item → Prop where
  | condition : StandsFor g c (.condition c)
  | guarded {x : ArtifactRef} {j : Item} : (g.artifact x).guard = some j → StandsFor g c j →
      StandsFor g c (.artifact x)
  | reference {e : ExpressionRef} {j : Item} : (g.expression e).domain = .reference →
      (g.expression e).target = some j → StandsFor g c j → StandsFor g c (.expression e)

lemma Graph.StandsFor.isPlain {g : Graph} {c : ConditionRef} {i : Item} (h : g.StandsFor c i) :
    i.isPlain := by
  cases h <;> rfl

namespace Tally

lemma verdict_le_best {t : Tally} {b : Grade} (h : t.best = some b) :
    ∃ g, t.verdict = .graded g ∧ g ≤ b := by
  obtain ⟨_, w⟩ := t
  cases h
  cases w with
  | none => exact ⟨b, rfl, le_rfl⟩
  | some w => exact ⟨min w b, rfl, min_le_right w b⟩

lemma alternatives_map {α : Type} (role : α → Role) (verdict : α → Verdict) (es : List α) :
    alternatives (es.map fun e => (role e, verdict e)) =
      (es.filter fun e => role e == .accept).filterMap fun e => (verdict e).grade? := by
  rw [alternatives, List.filterMap_map, List.filterMap_filter]
  refine List.filterMap_congr fun e _ => ?_
  simp only [Function.comp_apply, beq_iff_eq]

end Tally

namespace Rulebook

variable {r : Rulebook} {target : Attributes} {c : ConditionRef} {s t : Scene} {v : Verdict}
  {i : Item} {k n : Nat} {recur : Recursion}

/-- **What a condition comes to, with the alternative that counts**: an error, without any, or the
tally of its own expressions, each of which has the verdict that it has alone. -/
inductive OwnTally (r : Rulebook) (target : Attributes) (c : ConditionRef) :
    Verdict → Option Grade → Prop where
  | error : OwnTally r target c .error none
  | tally (verdict : ExpressionRef → Verdict) :
      (∀ e ∈ (r.graph.condition c).expressions,
        r.outcome target (some (.expression e)) = .ok (verdict e)) →
      OwnTally r target c
        (Tally.ofChildren
          ((r.graph.condition c).expressions.map fun e => (r.roleOf e, verdict e))).verdict
        (Tally.ofChildren
          ((r.graph.condition c).expressions.map fun e => (r.roleOf e, verdict e))).best

/-- What an item comes to inside others it also comes to alone. -/
lemma outcome_of_assess {held : List ConditionRef} (h : r.assess target k held i = .ok (v, n))
    (hk : k ≤ r.maxDepth) : r.outcome target (some i) = .ok v := by
  obtain ⟨hv, hn, hle⟩ := reads_of_assess h
  rw [outcome, assess_of_reads hn hv r.maxDepth (List.forall_mem_nil _), if_pos (hle.trans hk)]
  rfl

/-- What is counted are the verdicts of the expressions. -/
lemma exists_of_assessTally {assess : Item → Assessment} {es : List ExpressionRef} {tally : Tally}
    (h : r.assessTally assess es {} = .ok (tally, n)) :
    ∃ outcome : ExpressionRef → Verdict × Nat,
      (∀ e ∈ es, assess (.expression e) = .ok (outcome e)) ∧
        tally = Tally.ofChildren (es.map fun e => (r.roleOf e, (outcome e).1)) := by
  cases hall : es.mapM fun e => assess (.expression e) with
  | error o =>
      rw [assessTally, hall] at h
      cases h
  | ok outcomes =>
      choose! outcome houtcome using forall_ok_of_mapM hall
      rw [assessTally, mapM_of_ok houtcome] at h
      cases h
      refine ⟨outcome, houtcome, ?_⟩
      rw [List.map_map, List.zip_map']
      rfl

/-! ### What is left -/

/-- An error among the expressions leaves no alternative. -/
lemma accept_of_tallyFrom {es : List ExpressionRef} {tally : Tally}
    (h : r.tallyFrom recur es tally s = .ok none t) : t.pass.accept = none := by
  induction es generalizing tally s with
  | nil => cases h
  | cons e rest ih =>
      cases hv : Run.asking (r.roleOf e == .deny) (recur (some (.expression e))) s with
      | error f u =>
          rw [tallyFrom] at h
          cases (Run.bind_of_error hv).symm.trans h
      | ok v u =>
          by_cases hne : v = .error
          · subst hne
            rw [tallyFrom_of_error hv] at h
            cases h
            rfl
          · rw [tallyFrom_of_ok hv hne] at h
            exact ih h

lemma accept_of_holding {es : List ExpressionRef} {tally : Tally}
    (h : Run.holding c (r.tallyFrom recur es tally) s = .ok none t) : t.pass.accept = none := by
  rw [Run.holding] at h
  cases hall : r.tallyFrom recur es tally { s with pass := s.pass.hold c } with
  | error f u =>
      rw [hall] at h
      dsimp only at h
      split at h <;> cases h
  | ok found u =>
      rw [hall] at h
      dsimp only at h
      split at h
      · cases h
        exact accept_of_tallyFrom (t := u) hall
      · cases h

/-- **Combining a condition** comes to its own tally, and leaves the alternative that counts. -/
lemma ownTally_of_combine (hk : k ≤ r.maxDepth) (hrec : r.Recurs k (.condition c) recur)
    (hready : r.Ready k (.condition c) s) (hd : s.pass.depth ≤ s.pass.reached)
    (hc : c ∉ s.pass.active) (h : r.combine recur c s = .ok v t) :
    r.OwnTally s.pass.target c v t.pass.accept := by
  have htally := holding_follows hrec hready hd hc
  rw [combine_of_not_mem hc] at h
  cases hres : Run.holding c (r.tallyFrom recur (r.graph.condition c).expressions {})
    { s with pass := s.pass.settleAccept none } with
  | error f u =>
      rw [hres] at h
      cases h
  | ok found u =>
      rw [hres] at h htally
      cases found with
      | none =>
          cases h
          rw [accept_of_holding hres]
          exact .error
      | some tally =>
          cases h
          generalize ho : r.assessTally (r.assess s.pass.target k (s.pass.active ++ [c]))
            (r.graph.condition c).expressions {} = o at htally
          cases htally with
          | found =>
              obtain ⟨outcome, houtcome, rfl⟩ := exists_of_assessTally ho
              -- what was assessed inside the condition comes to the same alone
              exact .tally (fun e => (outcome e).1) fun e he =>
                outcome_of_assess (houtcome e he) hk

/-- A scene in which no condition was combined yet. -/
structure Untouched (s : Scene) : Prop where
  records : s.pass.records = []
  active : s.pass.active = []
  accept : s.pass.accept = none

lemma Untouched.enter (h : Untouched s) : Untouched { s with pass := s.pass.enter } :=
  ⟨h.records, h.active, h.accept⟩

/-- One level there: the item is refused, or the alternative is the one that its own evaluation
leaves. -/
lemma visit_of_untouched {body : Run Verdict} (hs : Untouched s)
    (h : r.visit i body s = .ok v t) :
    (v = .error ∧ t.pass.accept = none) ∨
      s.pass.depth < r.maxDepth ∧ ∃ u, body { s with pass := s.pass.enter } = .ok v u ∧
        t.pass.accept = u.pass.accept := by
  have hrec : s.pass.recordedGrade (i, s.pass.denying) = none := by
    simp [Pass.recordedGrade, Pass.lookUp, hs.records]
  by_cases hdepth : s.pass.depth < r.maxDepth
  · rw [visit_of_enter hrec hdepth] at h
    cases hbody : body { s with pass := s.pass.enter } with
    | error f u =>
        rw [hbody] at h
        cases h
    | ok w u =>
        rw [hbody] at h
        cases h
        obtain ⟨records, hp⟩ :=
          (u.pass.leave s.pass.reached).exists_record (i, s.pass.denying) v u.pass.span
        refine .inr ⟨hdepth, u, rfl, ?_⟩
        rw [hp]
        rfl
  · rw [visit_of_deep hrec (by omega), exceed] at h
    cases hshown : r.graph.literal i with
    | error f =>
        rw [hshown] at h
        cases h
    | ok text =>
        rw [hshown] at h
        cases h
        exact .inl ⟨rfl, hs.accept⟩

/-- So what the item itself comes to, one level further down, is what the evaluation comes to. -/
lemma ownTally_of_level (hkn : k < n) (hready : r.Ready k i s) (hs : Untouched s)
    (h : r.evaluateWithin n (some i) s = .ok v t)
    (hbody : ∀ l m u, k = l + 1 → l < m →
      r.evaluateItem (r.evaluateWithin m) i { s with pass := s.pass.enter } = .ok v u →
      r.OwnTally s.pass.target c v u.pass.accept) :
    r.OwnTally s.pass.target c v t.pass.accept := by
  obtain ⟨m, rfl⟩ := Nat.exists_eq_add_of_lt hkn
  rcases visit_of_untouched hs h with ⟨rfl, haccept⟩ | ⟨hdepth, u, hitem, haccept⟩
  · rw [haccept]
    exact .error
  · have hlevels := hready.levels
    rw [haccept]
    exact hbody (k - 1) (k + m) u (by omega) (by omega) hitem

/-- **An evaluation of what stands for a condition** leaves the alternative of that condition. -/
theorem ownTally_of_evaluateWithin (hg : r.graph.isPlain) (hfor : r.graph.StandsFor c i)
    (hkn : k < n) (hk : k ≤ r.maxDepth) (hready : r.Ready k i s) (hs : Untouched s)
    (h : r.evaluateWithin n (some i) s = .ok v t) :
    r.OwnTally s.pass.target c v t.pass.accept := by
  induction hfor generalizing k n s t with
  | condition =>
      refine ownTally_of_level hkn hready hs h fun l m u hl hlm hitem => ?_
      subst hl
      have hrec : r.Recurs l (.condition c) (r.evaluateWithin m) := fun j t hj ht =>
        evaluateWithin_follows hg hlm (Graph.isPlain_of_leads hg hj) ht
      have hfree : c ∉ s.pass.enter.active := by
        rw [hs.enter.active]
        exact List.not_mem_nil
      exact ownTally_of_combine (s := { s with pass := s.pass.enter }) (by omega) hrec hready.enter
        le_rfl hfree hitem
  | @guarded x j hguard _ ih =>
      refine ownTally_of_level hkn hready hs h fun l m u hl hlm hitem => ?_
      subst hl
      have hnext := hready.enter.down (Graph.leads_guard hguard) hready.enter.sound rfl rfl
      simp only [evaluateItem, evaluateArtifact, hguard] at hitem
      exact ih (s := { s with pass := s.pass.enter }) hlm (by omega) hnext hs.enter hitem
  | @reference e j hdomain htarget _ ih =>
      refine ownTally_of_level hkn hready hs h fun l m u hl hlm hitem => ?_
      subst hl
      have hnext :=
        hready.enter.down (Graph.leads_target hdomain htarget) hready.enter.sound rfl rfl
      simp only [evaluateItem, evaluateExpression, hdomain, htarget] at hitem
      exact ih (s := { s with pass := s.pass.enter }) hlm (by omega) hnext hs.enter hitem

end Rulebook

namespace Evaluator

/-- **The alternative in a report** is that of the condition that was checked, by itself, by its id,
as the guard of an artifact or by a reference. Whatever is nested below, the report names none if
the condition is an error, and otherwise the best of the results that its own alternatives have when
they are checked alone, if one of them has a grade. The verdict has a grade then, which is not
better. -/
theorem check_accept_result (ev : Evaluator) (hm : ev.matcher.Decides) (g : Graph)
    (hg : g.isPlain) (store : Store) (subject : Subject) (c : ConditionRef) (i : Item)
    (hfor : g.StandsFor c i) (hresolve : resolve g store subject = .ok (some i)) (target : Datum)
    (a : Attributes) (ha : Attributes.ofDatum target = .ok a) (j : Journals) :
    ∃ (report : Report) (own : ExpressionRef → Report),
      ev.check g store target subject j = .ok report j ∧
      (∀ e, ev.check g store target (.item (some (.expression e))) j = .ok (own e) j) ∧
      report.acceptResult = (if report.result = .error then .undefined else
        .ofBest (((g.condition c).expressions.filter fun e => (g.expression e).isAccept).filterMap
          fun e => (own e).result.grade?).max?) ∧
      ∀ b, report.acceptResult = .graded b → ∃ v, report.result = .graded v ∧ v ≤ b := by
  have halone : ∀ e : ExpressionRef, ∃ report,
      ev.check g store target (.item (some (.expression e))) j = .ok report j ∧
        (ev.rulebook g).outcome a (some (.expression e)) = .ok report.result :=
    fun e => exists_check hg hm rfl ha rfl j
  choose own hown houtcome using halone
  obtain ⟨v, hv⟩ := Rulebook.exists_outcome (r := ev.rulebook g) (i := some i) hg hm hfor.isPlain
  obtain ⟨t, hrun, hrest⟩ := Rulebook.evaluate_of_outcome (i := some i) hg hfor.isPlain j hv
  obtain ⟨text, hshown⟩ := exists_shown hg subject
  obtain ⟨report, hcheck, rfl, haccept⟩ := check_of_evaluate ha hresolve hshown hrun
  have hlevels : ev.settings.maxDepth < (ev.rulebook g).levels (Pass.start a) := by
    show _ < (((ev.settings.maxDepth : Int) - 0).toNat + 1 + _)
    omega
  have hleft : (ev.rulebook g).OwnTally a c report.result t.pass.accept :=
    Rulebook.ownTally_of_evaluateWithin hg hfor hlevels le_rfl (Rulebook.atRest_fresh.ready i)
      ⟨rfl, rfl, rfl⟩ hrun
  refine ⟨report, own, hrest.journals ▸ hcheck, hown, ?_⟩
  rw [haccept]
  generalize report.result = v, t.pass.accept = accept at hleft
  cases hleft with
  | error => exact ⟨rfl, nofun⟩
  | tally verdict hverdict =>
      -- the verdicts that were counted are the results of the single checks
      have hsame : ∀ e ∈ (g.condition c).expressions, verdict e = (own e).result := fun e he =>
        Except.ok.inj ((hverdict e he).symm.trans (houtcome e))
      have hchildren : (g.condition c).expressions.map
          (fun e => ((ev.rulebook g).roleOf e, verdict e)) =
          (g.condition c).expressions.map fun e => ((g.expression e).role, (own e).result) :=
        List.map_congr_left fun e he => by rw [hsame e he]; rfl
      refine ⟨?_, fun b hb => Tally.verdict_le_best ?_⟩
      · rw [if_neg (Tally.verdict_ne_error _)]
        show Verdict.ofBest (Tally.ofChildren ((g.condition c).expressions.map _)).best = _
        rw [hchildren, Tally.ofChildren_eq, Tally.alternatives_map]
        rfl
      · generalize (Tally.ofChildren _).best = best at hb
        cases best <;> cases hb
        rfl

/-- A condition with an alternative, which requires a condition with an alternative of its own, and
guards an artifact. -/
def nested : Graph where
  expressions := #[
    { role := .accept, domain := .device, attributes := Attributes.ofList [("core", "M4")] },
    { role := .accept, domain := .device, attributes := Attributes.ofList [("vendor", "NXP*")] },
    { domain := .reference, target := some (.condition ⟨0⟩) }]
  conditions := #[
    { id := "inner", expressions := [⟨0⟩] }, { id := "outer", expressions := [⟨1⟩, ⟨2⟩] }]
  artifacts := #[{ name := "board.c", guard := some (.condition ⟨1⟩) }]

/-- For an M4 of another vendor the inner alternative is fulfilled, and it is combined last. The
report on the artifact names the outer one, which has failed. -/
theorem check_accept_result_sample :
    let ev : Evaluator := { settings := { maxDepth := 6 } }
    let target : Datum := .table [(.text "core", .text "M4"), (.text "vendor", .text "ST")]
    ev.matcher.Decides ∧ nested.isPlain ∧ nested.StandsFor ⟨1⟩ (.artifact ⟨0⟩) ∧
      ∃ report, ev.check nested {} target (.item (some (.artifact ⟨0⟩))) {} = .ok report {} ∧
        report.result = .graded .failed ∧ report.acceptResult = .graded .failed := by
  intro ev target
  have hm : ev.matcher.Decides := Matcher.decides_wildcard _
  have hg : nested.isPlain := by decide
  have hfor : nested.StandsFor ⟨1⟩ (.artifact ⟨0⟩) := .guarded rfl .condition
  obtain ⟨report, own, hcheck, hown, haccept, -⟩ :=
    check_accept_result ev hm nested hg {} (.item (some (.artifact ⟨0⟩))) ⟨1⟩ _ hfor rfl target _
      rfl {}
  have hfailed : report.result = .graded .failed :=
    result_of_check hg rfl rfl rfl hcheck (by decide +kernel)
  have hvendor : (own ⟨1⟩).result = .graded .failed :=
    result_of_check hg rfl rfl rfl (hown ⟨1⟩) (by decide +kernel)
  refine ⟨hm, hg, hfor, report, hcheck, hfailed, ?_⟩
  rw [haccept, hfailed, if_neg (by decide)]
  show Verdict.ofBest
    (([⟨1⟩] : List ExpressionRef).filterMap fun e => (own e).result.grade?).max? = _
  rw [List.filterMap_cons, hvendor]
  rfl

end Evaluator

end Applicability
