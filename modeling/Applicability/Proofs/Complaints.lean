/-
Complaints: one fault, one diagnostic, one problem to be raised.

* `evaluate_account`: an evaluation in a pass at rest either is an error and notes one diagnostic,
  which is genuine, or comes to a final verdict and notes none;
* `Diagnostic.problem_of_genuine`: the problem that a genuine diagnostic stands for, with its
  message and the condition concerned;
* `Report.complaint_of_error` and its like: what a report complains of, by its result;
* `check_account`: the account of an evaluation, as a report gives it;
* `one_fault_one_diagnostic`: an error is one diagnostic, after any calls on a pass and in every
  report; and a report raises the problem of this diagnostic, or the one that its result asks for.
-/
import Applicability.Proofs.Bulk
import Applicability.Proofs.Calls

namespace Applicability

/-! ### Evaluations -/

namespace Rulebook

variable {r : Rulebook} {target : Attributes} {journals : Journals} {s : Scene}

/-- Every evaluation notes genuine diagnostics only. -/
lemma evaluate_notes (hg : r.graph.isPlain) {i : Option Item} (hi : i.all Item.isPlain) :
    Run.Effect Pass.Notes (r.evaluate i) :=
  recursion_effect Pass.allows_notes (calm_isPlain hg) i fun j hj => by simpa [hj] using hi

/-- An assessment that leads to a verdict met one problem for an error and none otherwise. -/
lemma codes_of_outcome {i : Option Item} {v : Verdict} (h : r.outcome target i = .ok v) :
    (v = .error ∧ ∃ code, r.codes target i = [code]) ∨ (v.IsFinal ∧ r.codes target i = []) := by
  cases i with
  | none =>
      cases h
      exact .inr ⟨.inr (.inr rfl), rfl⟩
  | some i =>
      rw [outcome] at h
      rw [codes]
      cases ho : r.assess target r.maxDepth [] i with
      | ok x =>
          rw [ho] at h
          cases h
          exact .inr ⟨(reads_of_assess ho).1.isFinal, rfl⟩
      | error o =>
          rw [ho] at h
          cases o with
          | problem kind =>
              cases h
              exact .inl ⟨rfl, kind.code, rfl⟩
          | fault f => cases h

/-- **The account of an evaluation** in a pass at rest: an error is noted in one diagnostic, which
is genuine, and a final verdict in none. -/
lemma evaluate_account (hg : r.graph.isPlain) {i : Option Item} (hi : i.all Item.isPlain)
    (hs : r.AtRest target journals s) {v : Verdict} (h : (r.evaluate i).answer s = .ok v) :
    (v = .error ∧ ∃ d : Diagnostic, d.IsGenuine ∧
        ((r.evaluate i).left s).pass.diagnostics = s.pass.diagnostics ++ [d]) ∨
      (v.IsFinal ∧ ((r.evaluate i).left s).pass.diagnostics = s.pass.diagnostics) := by
  obtain ⟨hanswer, -, noted, hnoted, hcodes⟩ := evaluate_spec hg hi hs
  obtain ⟨noted', hnoted', hgenuine⟩ := evaluate_notes hg hi s
  obtain rfl : noted' = noted := List.append_cancel_left (hnoted'.symm.trans hnoted)
  rcases codes_of_outcome (hanswer.symm.trans h) with ⟨rfl, code, hcode⟩ | ⟨hfinal, hnone⟩
  · rw [hcode] at hcodes
    obtain ⟨d, rfl, -⟩ := List.map_eq_singleton_iff.mp hcodes
    exact .inl ⟨rfl, d, hgenuine d (by simp), hnoted⟩
  · rw [hnone] at hcodes
    obtain rfl := List.map_eq_nil_iff.mp hcodes
    exact .inr ⟨hfinal, by rw [hnoted, List.append_nil]⟩

end Rulebook

/-! ### Problems -/

/-- The condition that a diagnostic concerns, as a detail of a problem. -/
def Diagnostic.concerned (d : Diagnostic) : List (String × Detail) :=
  (d.conditionId.map fun id => ("condition_id", .datum (.text id))).toList

/-- The item and the result of a report, as details of a problem. -/
def Report.particulars (r : Report) : List (String × Detail) :=
  [("item", .datum (.text r.item)), ("result", .datum (.text r.result.text))]

/-- **A genuine diagnostic stands for a problem of its kind**, with its message and the condition
concerned, if there is one. -/
lemma Diagnostic.problem_of_genuine {d : Diagnostic} (h : d.IsGenuine) :
    ∃ kind ∈ Problem.Kind.met, d.code = kind.code ∧
      d.problem = .ok { kind, message := d.message, details := d.concerned } := by
  obtain ⟨kind, hkind, hcode, hmessage⟩ := h
  refine ⟨kind, hkind, hcode, ?_⟩
  have hcoded : kind ∈ Problem.Kind.coded := by
    simp only [Problem.Kind.met, List.mem_cons, List.not_mem_nil, or_false] at hkind
    rcases hkind with rfl | rfl | rfl | rfl <;> decide
  have hfound : Problem.ofCode? d.code (some d.message) = some { kind, message := d.message } := by
    rw [Problem.ofCode?, hcode, Problem.Kind.ofCode?_code hcoded]
    simp only [Option.bind_eq_bind, Option.bind_some]
    rfl
  rw [Diagnostic.problem, hfound, Diagnostic.concerned]
  cases d.conditionId <;> rfl

namespace Report

variable {r : Report}

/-- A problem that names the item and the verdict, after whatever it names already. -/
lemma explain_eq (r : Report) (p : Problem) (h : ∀ x ∈ p.details, x.1 = "condition_id") :
    r.explain p = { p with details := p.details ++ r.particulars } := by
  have hput : ∀ name d (xs : List (String × Detail)), (∀ x ∈ xs, x.1 ≠ name) →
      Problem.putDetail name d xs = xs ++ [(name, d)] := by
    intro name d xs hxs
    induction xs with
    | nil => rfl
    | cons x rest ih =>
        rw [Problem.putDetail, if_neg (hxs x (by simp)), ih fun y hy => hxs y (by simp [hy]),
          List.cons_append]
  have hitem : ∀ x ∈ p.details, x.1 ≠ "item" := fun x hx => by rw [h x hx]; decide
  have hresult : ∀ x ∈ p.details ++ [("item", Detail.datum (.text r.item))], x.1 ≠ "result" := by
    intro x hx
    rcases List.mem_append.mp hx with hx | hx
    · rw [h x hx]
      decide
    · rw [List.mem_singleton.mp hx]
      simp
  simp only [explain, Problem.noteText, Problem.note, hput _ _ _ hitem, hput _ _ _ hresult,
    particulars, List.append_assoc, List.cons_append, List.nil_append]

/-- The complaint about an error with a genuine diagnostic is the problem that it stands for. -/
lemma complaint_of_error {d : Diagnostic} {rest : List Diagnostic} (hr : r.result = .error)
    (hd : r.diagnostics = d :: rest) (h : d.IsGenuine) :
    ∃ kind ∈ Problem.Kind.met, d.code = kind.code ∧
      r.complaint = .ok (some
        { kind, message := d.message, details := d.concerned ++ r.particulars }) := by
  obtain ⟨kind, hkind, hcode, hproblem⟩ := Diagnostic.problem_of_genuine h
  refine ⟨kind, hkind, hcode, ?_⟩
  have hfulfilled : r.fulfilled = false := by rw [fulfilled, hr]; rfl
  have hconcerned : ∀ x ∈ d.concerned, x.1 = "condition_id" := by
    intro x hx
    rw [Diagnostic.concerned, Option.mem_toList, Option.map_eq_some_iff] at hx
    obtain ⟨id, -, rfl⟩ := hx
    rfl
  have hexplain := r.explain_eq { kind, message := d.message, details := d.concerned } hconcerned
  rw [complaint, hfulfilled, hr, hd]
  simp only [Bool.false_eq_true, if_false, hproblem, bind, Except.bind, pure, Except.pure, hexplain]

lemma complaint_of_failed (hr : r.result = .graded .failed) :
    ∃ p, r.complaint = .ok (some p) ∧ p.kind = .notFulfilled := by
  have hfulfilled : r.fulfilled = false := by rw [fulfilled, hr]; rfl
  rw [complaint, hfulfilled, hr]
  exact ⟨_, rfl, rfl⟩

lemma complaint_of_ignored (hr : r.result = .ignored) :
    ∃ p, r.complaint = .ok (some p) ∧ p.kind = .indeterminate := by
  have hfulfilled : r.fulfilled = false := by rw [fulfilled, hr]; rfl
  rw [complaint, hfulfilled, hr]
  exact ⟨_, rfl, rfl⟩

end Report

/-! ### Reports -/

/-- A question about an item of a pack, or about a stored condition. -/
def Subject.isPlain : Subject → Bool
  | .item i => i.all Item.isPlain
  | .id _ => true

namespace Evaluator

variable {ev : Evaluator} {g : Graph} {store : Store} {target : Datum} {subject : Subject}
  {j j' : Journals} {report : Report}

lemma isPlain_of_resolve {i : Option Item} (h : resolve g store subject = .ok i)
    (hsubject : subject.isPlain) : i.all Item.isPlain := by
  cases subject with
  | item i' => cases h; exact hsubject
  | id id =>
      rw [resolve] at h
      cases hf : store.find? g id with
      | none => rw [hf] at h; cases h
      | some c => rw [hf] at h; cases h; rfl

/-- **Where a report comes from**: from an evaluation in a new pass. -/
lemma evaluate_of_check (h : ev.check g store target subject j = .ok report j') :
    ∃ i a t, resolve g store subject = .ok i ∧ Attributes.ofDatum target = .ok a ∧
      (ev.rulebook g).evaluate i (Rulebook.fresh a j) = .ok report.result t ∧
      report.diagnostics = t.pass.diagnostics := by
  simp only [check, bind, EStateM.bind] at h
  cases hresolve : resolve g store subject with
  | error f => rw [hresolve] at h; cases h
  | ok i =>
      cases ha : Attributes.ofDatum target with
      | error f => rw [hresolve, ha] at h; cases h
      | ok a =>
          cases hrun : (ev.rulebook g).evaluate i (Rulebook.fresh a j) with
          | error f t =>
              simp only [hresolve, ha, MonadExcept.ofExcept, pure, EStateM.pure,
                inPass_of_error hrun] at h
              cases h
          | ok v t =>
              simp only [hresolve, ha, MonadExcept.ofExcept, pure, EStateM.pure,
                inPass_of_ok hrun] at h
              cases hshown : shown g subject with
              | error f => rw [hshown] at h; cases h
              | ok text =>
                  rw [hshown] at h
                  cases h
                  exact ⟨i, a, t, rfl, rfl, hrun, rfl⟩

lemma answer_of_check {i : Option Item} {a : Attributes}
    (hresolve : resolve g store subject = .ok i) (ha : Attributes.ofDatum target = .ok a)
    (h : ev.check g store target subject j = .ok report j') :
    ((ev.rulebook g).evaluate i).answer (Rulebook.fresh a j) = .ok report.result := by
  obtain ⟨i', a', t, hresolve', ha', hrun, -⟩ := evaluate_of_check h
  obtain rfl : i' = i := Except.ok.inj (hresolve'.symm.trans hresolve)
  obtain rfl : a' = a := Except.ok.inj (ha'.symm.trans ha)
  rw [Run.answer, hrun]

lemma outcome_of_check {i : Item} {a : Attributes} (hg : g.isPlain) (hi : i.isPlain)
    (hresolve : resolve g store subject = .ok (some i)) (ha : Attributes.ofDatum target = .ok a)
    (h : ev.check g store target subject j = .ok report j') :
    (ev.rulebook g).outcome a (some i) = .ok report.result :=
  (Rulebook.answer_fresh hg hi j).symm.trans (answer_of_check hresolve ha h)

/-- What a check comes to, where the outcome of its item can be computed. -/
lemma result_of_check {i : Item} {a : Attributes} {v : Verdict} (hg : g.isPlain) (hi : i.isPlain)
    (hresolve : resolve g store subject = .ok (some i)) (ha : Attributes.ofDatum target = .ok a)
    (h : ev.check g store target subject j = .ok report j')
    (hv : ((ev.rulebook g).outcome a (some i)).toOption = some v) : report.result = v := by
  rw [outcome_of_check hg hi hresolve ha h] at hv
  exact Option.some.inj hv

lemma codes_of_check {i : Option Item} {a : Attributes} (hg : g.isPlain) (hi : i.all Item.isPlain)
    (hresolve : resolve g store subject = .ok i) (ha : Attributes.ofDatum target = .ok a)
    (h : ev.check g store target subject j = .ok report j') :
    report.diagnostics.map (·.code) = (ev.rulebook g).codes a i := by
  obtain ⟨i', a', t, hresolve', ha', hrun, hdiagnostics⟩ := evaluate_of_check h
  obtain rfl : i' = i := Except.ok.inj (hresolve'.symm.trans hresolve)
  obtain rfl : a' = a := Except.ok.inj (ha'.symm.trans ha)
  have hrest : (ev.rulebook g).AtRest a' j (Rulebook.fresh a' j) := Rulebook.atRest_fresh
  obtain ⟨-, -, noted, hnoted, hcodes⟩ := Rulebook.evaluate_spec hg hi hrest
  rw [Run.left_of_ok hrun, ← hdiagnostics] at hnoted
  rw [hnoted, ← hcodes]
  rfl

/-- **The account of an evaluation, as a report gives it**: an error has one diagnostic, which is
genuine, and a final verdict has none. -/
lemma check_account (hg : g.isPlain) (hsubject : subject.isPlain)
    (h : ev.check g store target subject j = .ok report j') :
    (report.result = .error ∧ ∃ d : Diagnostic, d.IsGenuine ∧ report.diagnostics = [d]) ∨
      (report.result.IsFinal ∧ report.diagnostics = []) := by
  obtain ⟨i, a, t, hresolve, -, hrun, hdiagnostics⟩ := evaluate_of_check h
  have hi : i.all Item.isPlain := isPlain_of_resolve hresolve hsubject
  have hrest : (ev.rulebook g).AtRest a j (Rulebook.fresh a j) := Rulebook.atRest_fresh
  have hanswer : ((ev.rulebook g).evaluate i).answer (Rulebook.fresh a j) = .ok report.result := by
    rw [Run.answer, hrun]
  have hleft : ((ev.rulebook g).evaluate i).left (Rulebook.fresh a j) = t := Run.left_of_ok hrun
  have haccount := Rulebook.evaluate_account hg hi hrest hanswer
  rw [hleft, ← hdiagnostics] at haccount
  exact haccount

/-- **One fault, one diagnostic, one problem.** After any calls on a pass, an evaluation of an item
of a pack has a verdict if the matcher never gives up, and notes one diagnostic if its verdict is an
error, and none otherwise. In every report the result is an error exactly if there is a diagnostic,
and there is no more than one. A report can always be asked for its complaint. There is none exactly
if the item is fulfilled; a failed item is not fulfilled, an ignored one is indeterminate, and the
complaint about an error is a problem of the kind of the diagnostic, with its message, and with the
condition concerned, the item and the result as details. -/
theorem one_fault_one_diagnostic (ev : Evaluator) (g : Graph) (hg : g.isPlain) :
    (∀ (target : Attributes) (journals : Journals) (calls : List Call) (i : Option Item),
        (∀ q ∈ calls, q.isPlain) → i.all Item.isPlain →
      let r := ev.rulebook g
      let s := Call.serveAll r calls (Rulebook.fresh target journals)
      (ev.matcher.Decides → ∃ v, (r.evaluate i).answer s = .ok v) ∧
      ∀ v, (r.evaluate i).answer s = .ok v →
        ∃ noted, ((r.evaluate i).left s).pass.diagnostics = s.pass.diagnostics ++ noted ∧
          noted.length = if v = .error then 1 else 0) ∧
    ∀ (store : Store) (target : Datum) (subject : Subject) (j j' : Journals) (report : Report),
      subject.isPlain → ev.check g store target subject j = .ok report j' →
      report.result ∈ [.graded .fulfilled, .graded .failed, .ignored, .error] ∧
      (report.result = .error ↔ report.diagnostics ≠ []) ∧
      (report.complaint = .ok none ↔ report.result = .graded .fulfilled) ∧
      (report.result = .graded .failed →
        ∃ p, report.complaint = .ok (some p) ∧ p.kind = .notFulfilled) ∧
      (report.result = .ignored →
        ∃ p, report.complaint = .ok (some p) ∧ p.kind = .indeterminate) ∧
      (report.result = .error → ∃ d kind, report.diagnostics = [d] ∧ d.code = kind.code ∧
        d.code ∈ ["PC-E100", "PC-E101", "PC-E200", "PC-E201"] ∧
        report.complaint = .ok (some
          { kind, message := d.message, details := d.concerned ++ report.particulars })) := by
  refine ⟨?_, ?_⟩
  · intro target journals calls i hcalls hi r s
    have hfresh : r.Idle target journals (Rulebook.fresh target journals) := Rulebook.idle_fresh
    have hs := (Call.idle_serveAll hg hcalls hfresh).toAtRest
    refine ⟨fun hm => ?_, fun v hanswer => ?_⟩
    · have houtcome : ∃ v, r.outcome (calls.foldl Call.turn target) i = .ok v :=
        Rulebook.exists_outcome hg hm hi
      obtain ⟨v, hv⟩ := houtcome
      exact ⟨v, (Rulebook.evaluate_spec hg hi hs).1.trans hv⟩
    rcases Rulebook.evaluate_account hg hi hs hanswer with ⟨rfl, d, -, hd⟩ | ⟨hfinal, hd⟩
    · exact ⟨[d], hd, rfl⟩
    · refine ⟨[], by rw [hd, List.append_nil], ?_⟩
      rcases hfinal with rfl | rfl | rfl <;> rfl
  · intro store target subject j j' report hsubject h
    rcases check_account hg hsubject h with ⟨hr, d, hgenuine, hd⟩ | ⟨hfinal, hd⟩
    · obtain ⟨kind, hkind, hcode, hcomplaint⟩ := Report.complaint_of_error hr hd hgenuine
      have hlisted : d.code ∈ ["PC-E100", "PC-E101", "PC-E200", "PC-E201"] := by
        rw [hcode]
        exact List.mem_map_of_mem (f := Problem.Kind.code) hkind
      refine ⟨by simp [hr], by simp [hr, hd], by simp [hr, hcomplaint], by simp [hr], by simp [hr],
        fun _ => ⟨d, kind, hd, hcode, hlisted, hcomplaint⟩⟩
    · rcases hfinal with hr | hr | hr
      · have hcomplaint : report.complaint = .ok none :=
          Report.complaint_of_fulfilled (by rw [Report.fulfilled, hr]; rfl)
        simp [hr, hd, hcomplaint]
      · obtain ⟨p, hp, hkind⟩ := Report.complaint_of_failed hr
        simp [hr, hd, hp, hkind]
      · obtain ⟨p, hp, hkind⟩ := Report.complaint_of_ignored hr
        simp [hr, hd, hp, hkind]

/-- In the sample a condition on a cycle is an error, also after other calls, and a report on it
raises the problem of its one diagnostic. -/
theorem one_fault_one_diagnostic_sample :
    let ev : Evaluator := {}
    let r := ev.rulebook Graph.sample
    let loop : Option Item := some (.condition ⟨4⟩)
    let calls : List Call := [.request (.evaluate (some (.artifact ⟨0⟩))), .conclude .ignored,
      .asCondition loop]
    let s := Call.serveAll r calls (Rulebook.fresh (Attributes.ofList [("core", "M4")]) {})
    Graph.sample.isPlain ∧ (∀ q ∈ calls, q.isPlain) ∧
      (r.evaluate loop).answer s = .ok .error ∧
      (∃ noted, ((r.evaluate loop).left s).pass.diagnostics = s.pass.diagnostics ++ noted ∧
        noted.length = 1) ∧
      ∃ report d kind, ev.check Graph.sample { members := [⟨4⟩] }
          (.table [(.text "core", .text "M4")]) (.id "loop") {} = .ok report {} ∧
        report.result = .error ∧ report.diagnostics = [d] ∧ d.code = kind.code ∧
        report.complaint = .ok (some
          { kind, message := d.message, details := d.concerned ++ report.particulars }) := by
  intro ev r loop calls s
  have hg : Graph.sample.isPlain := Graph.isPlain_sample
  have hcalls : ∀ q ∈ calls, q.isPlain := by simp [calls, loop, Call.isPlain, Request.isPlain,
    Item.isPlain]
  obtain ⟨hevaluate, hcheck⟩ := one_fault_one_diagnostic ev Graph.sample hg
  obtain ⟨hdecided, hnoted⟩ :=
    hevaluate (Attributes.ofList [("core", "M4")]) {} calls loop hcalls rfl
  obtain ⟨report, hreport, hresult⟩ : ∃ report, ev.check Graph.sample { members := [⟨4⟩] }
      (.table [(.text "core", .text "M4")]) (.id "loop") {} = .ok report {} ∧
        report.result = .error :=
    check_id_of_outcome (c := ⟨4⟩) (a := Attributes.ofList [("core", "M4")]) hg (by decide)
      (by decide) rfl rfl
  obtain ⟨-, -, -, -, -, herror⟩ := hcheck _ _ (.id "loop") _ _ report rfl hreport
  obtain ⟨d, kind, hd, hcode, -, hcomplaint⟩ := herror hresult
  have hanswer : (r.evaluate loop).answer s = .ok .error := by
    have hfresh : r.Idle (Attributes.ofList [("core", "M4")]) {}
        (Rulebook.fresh (Attributes.ofList [("core", "M4")]) {}) := Rulebook.idle_fresh
    exact (Rulebook.evaluate_spec hg rfl (Call.idle_serveAll hg hcalls hfresh).toAtRest).1.trans rfl
  exact ⟨hg, hcalls, hanswer, hnoted _ hanswer, report, d, kind, hreport, hresult, hd, hcode,
    hcomplaint⟩

end Evaluator

end Applicability
