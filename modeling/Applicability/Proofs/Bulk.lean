/-
Bulk questions: many items in a single pass.

An evaluator checks an item in a pass of its own, and all stored conditions, or the items to select
from, in a single one. The answers agree.

* `Store.find?_of_mem`, `Store.addAll_eq_ok`: stored conditions are found by their ids, and
  conditions with different ids can be registered in any order;
* `check_of_evaluate`: a report, from an evaluation in a new pass;
* `check_of_outcome`, `checkAll_of_outcome`, `select_of_outcome`: the three questions, answered from
  the verdicts on the items;
* `bulk_agrees_with_check`: all checks at once have the results of the single checks, whatever the
  order of registration, and what is selected are the items that a single check finds fulfilled.
-/
import Mathlib.Data.List.Nodup
import Applicability.Evaluator
import Applicability.Proofs.Outcomes

namespace Applicability

/-! ### Stores -/

namespace Store

variable {s : Store} {g : Graph}

lemma find?_of_mem (h : (s.ids g).Nodup) {c : ConditionRef} (hc : c ∈ s.members) :
    s.find? g (g.condition c).id = some c := by
  cases hf : s.find? g (g.condition c).id with
  | none => simpa using List.find?_eq_none.mp hf c hc
  | some c' =>
      obtain ⟨hc', hid⟩ := find?_eq_some hf
      rw [List.inj_on_of_nodup_map h hc' hc hid]

/-- Conditions with different ids can be registered, and are stored in that order. -/
lemma addAll_eq_ok {cs : List ConditionRef}
    (h : ((s.members ++ cs).map fun c => (g.condition c).id).Nodup) :
    s.addAll g cs = .ok { s with members := s.members ++ cs } := by
  induction cs generalizing s with
  | nil => simp [addAll, pure, Except.pure]
  | cons c rest ih =>
      have hfree : s.find? g (g.condition c).id = none := by
        refine List.find?_eq_none.mpr fun c' hc' => ?_
        rw [List.map_append, List.nodup_append] at h
        have := h.2.2 _ (List.mem_map_of_mem hc') (g.condition c).id (by simp)
        simpa using this
      have hadd : s.add g c = .ok { s with members := s.members ++ [c] } := by
        rw [add, hfree]
        rfl
      have hrest := ih (s := { s with members := s.members ++ [c] })
        (by rwa [List.append_assoc, List.singleton_append])
      rw [addAll, List.foldlM_cons, hadd]
      rw [List.append_assoc, List.singleton_append] at hrest
      exact hrest

end Store

/-! ### Questions to an evaluator -/

namespace Evaluator

variable {ev : Evaluator} {g : Graph} {s : Store} {target : Datum} {a : Attributes} {j : Journals}

lemma inPass_of_ok {α : Type} {body : Run α} {x : α} {t : Scene}
    (h : body (Rulebook.fresh a j) = .ok x t) : inPass a body j = .ok (x, t.pass) t.journals := by
  rw [Rulebook.fresh] at h
  rw [inPass, h]

lemma inPass_of_error {α : Type} {body : Run α} {f : Fault} {t : Scene}
    (h : body (Rulebook.fresh a j) = .error f t) : inPass a body j = .error f t.journals := by
  rw [Rulebook.fresh] at h
  rw [inPass, h]

/-- What is certain in passes at rest is the answer in a new pass, and the journals are kept. -/
lemma inPass_of_gives {α : Type} {r : Rulebook} {body : Run α} {x : α}
    (h : Run.Gives (r.AtRest a j) body (.ok x)) : ∃ p, inPass a body j = .ok (x, p) j := by
  obtain ⟨hanswer, hrest⟩ := h _ Rulebook.atRest_fresh
  have hjournals := hrest.journals
  rw [Run.answer] at hanswer
  cases hrun : body (Rulebook.fresh a j) with
  | ok y t =>
      rw [hrun] at hanswer
      rw [Run.left, hrun] at hjournals
      cases hanswer
      exact ⟨t.pass, by rw [inPass_of_ok hrun, hjournals]⟩
  | error f t =>
      rw [hrun] at hanswer
      cases hanswer

/-- Whatever is checked in a pack can be shown in a report. -/
lemma exists_shown (hg : g.isPlain) (subject : Subject) : ∃ t, shown g subject = .ok t := by
  cases subject with
  | id id => exact ⟨id, rfl⟩
  | item i =>
      cases i with
      | none => exact ⟨_, rfl⟩
      | some i => exact Graph.exists_literal hg i

/-- The report on an item, from its evaluation in a new pass. -/
lemma check_of_evaluate {subject : Subject} {i : Option Item} {v : Verdict} {t : Scene}
    {text : String} (ha : Attributes.ofDatum target = .ok a)
    (hresolve : resolve g s subject = .ok i) (hshown : shown g subject = .ok text)
    (hrun : (ev.rulebook g).evaluate i (Rulebook.fresh a j) = .ok v t) :
    ∃ report, ev.check g s target subject j = .ok report t.journals ∧ report.result = v ∧
      report.acceptResult = Verdict.ofBest t.pass.accept := by
  simp only [check, hresolve, ha, hshown, MonadExcept.ofExcept, pure, EStateM.pure, bind,
    EStateM.bind, inPass_of_ok hrun]
  exact ⟨_, rfl, rfl, rfl⟩

/-- The report on an item that has an answer in a new pass. -/
lemma check_of_outcome {subject : Subject} {i : Option Item} {v : Verdict} {t : String}
    (hg : g.isPlain) (hi : i.all Item.isPlain) (ha : Attributes.ofDatum target = .ok a)
    (hresolve : resolve g s subject = .ok i) (hshown : shown g subject = .ok t)
    (hv : (ev.rulebook g).outcome a i = .ok v) :
    ∃ report, ev.check g s target subject j = .ok report j ∧ report.result = v := by
  obtain ⟨u, hrun, hrest⟩ := Rulebook.evaluate_of_outcome hg hi j hv
  obtain ⟨report, hreport, hresult, -⟩ := check_of_evaluate ha hresolve hshown hrun
  exact ⟨report, hrest.journals ▸ hreport, hresult⟩

/-- With a matcher that never gives up every item of a pack can be checked. The result is what it
comes to alone. -/
lemma exists_check {subject : Subject} {i : Item} (hg : g.isPlain) (hm : ev.matcher.Decides)
    (hi : i.isPlain) (ha : Attributes.ofDatum target = .ok a)
    (hresolve : resolve g s subject = .ok (some i)) (j : Journals) :
    ∃ report, ev.check g s target subject j = .ok report j ∧
      (ev.rulebook g).outcome a (some i) = .ok report.result := by
  obtain ⟨v, hv⟩ := Rulebook.exists_outcome (r := ev.rulebook g) (i := some i) hg hm hi
  obtain ⟨text, hshown⟩ := exists_shown hg subject
  obtain ⟨report, hcheck, rfl⟩ := check_of_outcome (i := some i) hg hi ha hresolve hshown hv
  exact ⟨report, hcheck, hv⟩

lemma check_id_of_outcome {c : ConditionRef} {v : Verdict} (hg : g.isPlain)
    (hs : (s.ids g).Nodup) (hc : c ∈ s.members) (ha : Attributes.ofDatum target = .ok a)
    (hv : (ev.rulebook g).outcome a (some (.condition c)) = .ok v) :
    ∃ report, ev.check g s target (.id (g.condition c).id) j = .ok report j ∧
      report.result = v := by
  have hresolve : resolve g s (.id (g.condition c).id) = .ok (some (.condition c)) := by
    rw [resolve, Store.find?_of_mem hs hc]
  exact check_of_outcome hg rfl ha hresolve rfl hv

lemma check_item_of_outcome {i : Option Item} {v : Verdict} (hg : g.isPlain)
    (hi : i.all Item.isPlain) (ha : Attributes.ofDatum target = .ok a)
    (hv : (ev.rulebook g).outcome a i = .ok v) :
    ∃ report, ev.check g s target (.item i) j = .ok report j ∧ report.result = v := by
  obtain ⟨t, ht⟩ := exists_shown hg (.item i)
  exact check_of_outcome hg hi ha rfl ht hv

/-- All checks at once come to the verdicts on the stored conditions, in order. -/
lemma checkAll_of_outcome {verdict : ConditionRef → Verdict} (hg : g.isPlain)
    (ha : Attributes.ofDatum target = .ok a)
    (hv : ∀ c ∈ s.members,
      (ev.rulebook g).outcome a (some (.condition c)) = .ok (verdict c)) :
    ev.checkAll g s target j =
      .ok (s.members.map fun c => ((g.condition c).id, verdict c)) j := by
  have hverdicts : (s.members.map fun c => some (.condition c)).mapM
      ((ev.rulebook g).outcome a) = .ok (s.members.map verdict) := by
    rw [List.mapM_map]
    exact mapM_of_ok hv
  have hgives : Run.Gives ((ev.rulebook g).AtRest a j)
      ((ev.rulebook g).evaluateAll (s.members.map fun c => some (.condition c)))
      (.ok (s.members.map verdict)) :=
    hverdicts ▸ Rulebook.evaluateAll_gives hg (by simp [Item.isPlain])
  obtain ⟨p, hp⟩ := inPass_of_gives hgives
  simp only [checkAll, ha, MonadExcept.ofExcept, pure, EStateM.pure, bind, EStateM.bind, hp,
    Store.ids, List.zip_map']

/-- A selection keeps the items whose verdict says so. -/
lemma select_of_outcome {verdict : Option Item → Verdict} {items : List (Option Item)}
    (hg : g.isPlain) (hi : ∀ i ∈ items, i.all Item.isPlain)
    (ha : Attributes.ofDatum target = .ok a)
    (hv : ∀ i ∈ items, (ev.rulebook g).outcome a i = .ok (verdict i)) :
    ev.select g target items j = .ok (items.filter fun i => (verdict i).isFulfilled) j := by
  have hkept : items.filterM (fun i => Verdict.isFulfilled <$> (ev.rulebook g).outcome a i) =
      .ok (items.filter fun i => (verdict i).isFulfilled) :=
    filterM_of_ok fun i hmem => by rw [hv i hmem]; rfl
  have hgives : Run.Gives ((ev.rulebook g).AtRest a j) ((ev.rulebook g).filterItems items)
      (.ok (items.filter fun i => (verdict i).isFulfilled)) :=
    hkept ▸ Rulebook.filterItems_gives hg hi
  obtain ⟨p, hp⟩ := inPass_of_gives hgives
  simp only [select, ha, MonadExcept.ofExcept, pure, EStateM.pure, bind, EStateM.bind, hp]

/-- **Bulk questions agree with single checks.** For a pack, different ids, and a matcher that never
gives up: every stored condition can be checked by its id, and all checks at once have one entry for
each, with the result of the single check; registering the same conditions in another order succeeds
and leads to the same entries; and every item can be checked, and the selection from a list keeps,
in order, those whose check finds them fulfilled. -/
theorem bulk_agrees_with_check (ev : Evaluator) (g : Graph) (hg : g.isPlain)
    (hm : ev.matcher.Decides) (s : Store) (hs : (s.ids g).Nodup) (target : Datum)
    (a : Attributes) (ha : Attributes.ofDatum target = .ok a) (j : Journals) :
    (∃ report : String → Report,
      (∀ id ∈ s.ids g, ev.check g s target (.id id) j = .ok (report id) j) ∧
        ev.checkAll g s target j = .ok ((s.ids g).map fun id => (id, (report id).result)) j) ∧
    (∀ cs : List ConditionRef, cs.Perm s.members →
      ∃ t entries entries', Store.addAll {} g cs = .ok t ∧
        ev.checkAll g s target j = .ok entries j ∧
          ev.checkAll g t target j = .ok entries' j ∧ entries'.Perm entries) ∧
    ∀ items : List (Option Item), (∀ i ∈ items, i.all Item.isPlain) →
      ∃ report : Option Item → Report,
        (∀ i ∈ items, ev.check g s target (.item i) j = .ok (report i) j) ∧
          ev.select g target items j = .ok (items.filter fun i => (report i).fulfilled) j := by
  have houtcome : ∀ i : Option Item, i.all Item.isPlain →
      ∃ v, (ev.rulebook g).outcome a i = .ok v := fun i hi => Rulebook.exists_outcome hg hm hi
  -- any report, for what is not asked about
  have : Nonempty Report := ⟨⟨a, "", .ignored, .undefined, []⟩⟩
  choose! verdict hverdict using houtcome
  have hall : ∀ t : Store, ev.checkAll g t target j =
      .ok (t.members.map fun c => ((g.condition c).id, verdict (some (.condition c)))) j :=
    fun t => checkAll_of_outcome hg ha fun c _ => hverdict _ rfl
  refine ⟨?_, fun cs hcs => ?_, fun items hi => ?_⟩
  · have hcheck : ∀ c ∈ s.members, ∃ report,
        ev.check g s target (.id (g.condition c).id) j = .ok report j ∧
          report.result = verdict (some (.condition c)) := fun c hc =>
      check_id_of_outcome hg hs hc ha (hverdict _ rfl)
    have hid : ∀ id ∈ s.ids g, ∃ report, ev.check g s target (.id id) j = .ok report j := by
      intro id hid
      obtain ⟨c, hc, rfl⟩ := List.mem_map.mp hid
      obtain ⟨report, hreport, -⟩ := hcheck c hc
      exact ⟨report, hreport⟩
    choose! report hreport using hid
    refine ⟨report, hreport, ?_⟩
    rw [hall, Store.ids, List.map_map]
    refine congrArg (EStateM.Result.ok · j) (List.map_congr_left fun c hc => ?_)
    obtain ⟨report', hreport', hresult⟩ := hcheck c hc
    rw [hreport _ (List.mem_map_of_mem hc)] at hreport'
    cases hreport'
    rw [Function.comp_apply, hresult]
  · have hadd : Store.addAll {} g cs = .ok { members := cs } :=
      Store.addAll_eq_ok (((hcs.map _).nodup_iff).mpr hs)
    exact ⟨_, _, _, hadd, hall s, hall _, hcs.map _⟩
  · have hcheck : ∀ i ∈ items, ∃ report, ev.check g s target (.item i) j = .ok report j ∧
        report.result = verdict i := fun i hmem =>
      check_item_of_outcome hg (hi i hmem) ha (hverdict i (hi i hmem))
    choose! report hreport hresult using hcheck
    refine ⟨report, hreport, ?_⟩
    rw [select_of_outcome hg hi ha fun i hmem => hverdict i (hi i hmem)]
    refine congrArg (EStateM.Result.ok · j) (List.filter_congr fun i hmem => ?_)
    rw [Report.fulfilled, hresult i hmem]

/-- Three conditions of the sample, one of them on a cycle and one right at the limit, are checked
one by one and at once; and a selection keeps what applies as often as it is listed. -/
theorem bulk_agrees_with_check_sample :
    let ev : Evaluator := { settings := { maxDepth := 6 } }
    let s : Store := { members := [⟨4⟩, ⟨3⟩, ⟨0⟩] }
    let target : Datum := .table [(.text "core", .text "M4")]
    let items : List (Option Item) := [some (.artifact ⟨2⟩), some (.artifact ⟨0⟩), none,
      some (.condition ⟨3⟩), some (.artifact ⟨2⟩)]
    Graph.sample.isPlain ∧ ev.matcher.Decides ∧ (s.ids Graph.sample).Nodup ∧
      (∃ a, Attributes.ofDatum target = .ok a) ∧ (∀ i ∈ items, i.all Item.isPlain) ∧
      (∃ report : String → Report,
        (∀ id ∈ ["loop", "top", "base"],
          ev.check Graph.sample s target (.id id) {} = .ok (report id) {}) ∧
        ev.checkAll Graph.sample s target {} =
          .ok (["loop", "top", "base"].map fun id => (id, (report id).result)) {}) ∧
      ∃ report : Option Item → Report,
        (∀ i ∈ items, ev.check Graph.sample s target (.item i) {} = .ok (report i) {}) ∧
        ev.select Graph.sample target items {} =
          .ok (items.filter fun i => (report i).fulfilled) {} := by
  intro ev s target items
  have hm : ev.matcher.Decides := Matcher.decides_wildcard true
  have hs : (s.ids Graph.sample).Nodup := by decide
  have ha : Attributes.ofDatum target = .ok (Attributes.ofList [("core", "M4")]) := rfl
  have hi : ∀ i ∈ items, i.all Item.isPlain := by decide
  have h := bulk_agrees_with_check ev Graph.sample Graph.isPlain_sample hm s hs target _ ha {}
  exact ⟨Graph.isPlain_sample, hm, hs, ⟨_, ha⟩, hi, h.1, h.2.2 items hi⟩

end Evaluator

end Applicability
