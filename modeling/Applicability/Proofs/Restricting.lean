/-
Restricting: a target with fewer attributes.

The usual matcher compares the attributes that both sides name, so that a predicate accepts a target
also after some attributes were taken away. As long as nothing is denied this goes all the way up:
the same items are gone through in the same order, the same stands in the way, and no grade gets
worse.

* `Attributes.Restricts`: a target that names fewer attributes; `agree_of_restricts`;
* `Verdict.Eases`, `Tally.Eases`: a verdict, and what is counted, that is nowhere worse than before;
  `Eases.countVerdict` and `Eases.verdict` are one step and the end of a count;
* `Alongside`: two assessments that take the same course;
* `assess_alongside`: so do the assessments for a target and for one that restricts it;
* `check_restricted_target`: and the reports.
-/
import Applicability.Proofs.Complaints

namespace Applicability

/-! ### Fewer attributes -/

namespace Attributes

/-- **Attributes of which some were taken away**: those that are left have the same values. -/
def Restricts (a b : Attributes) : Prop :=
  ∀ name value, a.get? name = some value → b.get? name = some value

end Attributes

/-- A predicate that accepts a target accepts it also with fewer attributes. -/
lemma agree_of_restricts {observeCase : Bool} {predicate a b : Attributes} (h : b.Restricts a)
    (ha : agree observeCase predicate a = true) : agree observeCase predicate b = true :=
  agree_iff.mpr fun name expected actual hp hb =>
    agree_iff.mp ha name expected actual hp (h name actual hb)

namespace Matcher

/-- A matcher that decides every predicate for two targets, and accepts for the second one whatever
it accepts for the first. -/
def Widens (m : Matcher) (a b : Attributes) : Prop :=
  ∀ predicate, ∃ met met', m predicate a = .ok met ∧ m predicate b = .ok met' ∧
    (met = true → met' = true)

lemma widens_wildcard {a b : Attributes} (h : b.Restricts a) (observeCase : Bool) :
    (wildcard observeCase).Widens a b :=
  fun _ => ⟨_, _, rfl, rfl, agree_of_restricts h⟩

end Matcher

namespace Graph

lemma role_ne_deny {g : Graph} (h : g.expressions.toList.all (·.role != .deny))
    (e : ExpressionRef) : (g.expression e).role ≠ .deny := by
  by_cases he : e.index < g.expressions.size
  · have hx : g.expression e = g.expressions[e.index] := by simp [expression, he]
    rw [hx]
    simpa using List.all_eq_true.mp h _ (Array.mem_toList_iff.mpr (Array.getElem_mem he))
  · have hx : g.expression e = default := by simp [expression, he]
    rw [hx]
    decide

/-- A pack whose guard asks for one vendor, or for a core by way of another condition. -/
def choice : Graph where
  expressions := #[
    { domain := .device, attributes := Attributes.ofList [("core", "M4")] },
    { role := .accept, domain := .device, attributes := Attributes.ofList [("vendor", "NXP*")] },
    { role := .accept, domain := .reference, target := some (.condition ⟨0⟩) },
    { domain := .component }]
  conditions := #[
    { id := "core", expressions := [⟨0⟩] },
    { id := "vendor or core", expressions := [⟨1⟩, ⟨2⟩, ⟨3⟩] }]
  artifacts := #[{ name := "board.c", guard := some (.condition ⟨1⟩) }]

end Graph

/-! ### Nowhere worse -/

/-- A verdict that is not worse than another one: it is graded if that one is, with a grade at least
as good, and ignored if that one is. -/
inductive Verdict.Eases : Verdict → Verdict → Prop where
  | graded {g h : Grade} : g ≤ h → Eases (.graded g) (.graded h)
  | ignored : Eases .ignored .ignored

namespace Tally

variable {t u : Tally} {role : Role} {v w : Verdict}

/-- Counts that have come equally far, the second of which is nowhere worse. -/
structure Eases (t u : Tally) : Prop where
  best : Option.Rel (· ≤ ·) t.best u.best
  weakest : Option.Rel (· ≤ ·) t.weakest u.weakest

lemma better_le_better {b b' : Option Grade} {g h : Grade} (hb : Option.Rel (· ≤ ·) b b')
    (hgh : g ≤ h) : better b g ≤ better b' h := by
  cases hb with
  | none => exact hgh
  | some hle => exact max_le_max hle hgh

lemma weaker_le_weaker {w w' : Option Grade} {g h : Grade} (hw : Option.Rel (· ≤ ·) w w')
    (hgh : g ≤ h) : weaker w g ≤ weaker w' h := by
  cases hw with
  | none => exact hgh
  | some hle => exact min_le_min hle hgh

/-- One more expression that is not denied leaves the count nowhere worse, if its verdict is not. -/
lemma Eases.countVerdict (h : t.Eases u) (hrole : role ≠ .deny) (hvw : v.Eases w) :
    (t.countVerdict role v).Eases (u.countVerdict role w) := by
  cases hvw with
  | ignored => exact h
  | graded hle =>
      cases role with
      | accept => exact ⟨.some (better_le_better h.best hle), h.weakest⟩
      | require => exact ⟨h.best, .some (weaker_le_weaker h.weakest hle)⟩
      | deny => exact absurd rfl hrole

/-- So the verdict is not worse in the end. -/
lemma Eases.verdict (h : t.Eases u) : t.verdict.Eases u.verdict := by
  obtain ⟨b, w⟩ := t
  obtain ⟨b', w'⟩ := u
  obtain ⟨hb, hw⟩ := h
  cases hb with
  | some hle => exact .graded (weaker_le_weaker hw hle)
  | none =>
      cases hw with
      | some hle => exact .graded hle
      | none => exact .ignored

end Tally

/-! ### The same course -/

/-- **Assessments that take the same course**: both come to something at the same height, the second
to something that is not worse, or both meet the same obstacle. -/
inductive Alongside {α : Type} (R : α → α → Prop) :
    Except Obstacle (α × Nat) → Except Obstacle (α × Nat) → Prop where
  | ok {a b : α} {n : Nat} : R a b → Alongside R (.ok (a, n)) (.ok (b, n))
  | error (o : Obstacle) : Alongside R (.error o) (.error o)

lemma Alongside.map {α β : Type} {R : α → α → Prop} {S : β → β → Prop} {f : α → β} {l : Nat → Nat}
    {x y : Except Obstacle (α × Nat)} (h : Alongside R x y) (hf : ∀ a b, R a b → S (f a) (f b)) :
    Alongside S (x.map fun z => (f z.1, l z.2)) (y.map fun z => (f z.1, l z.2)) := by
  cases h with
  | ok hab => exact .ok (hf _ _ hab)
  | error o => exact .error o

namespace Rulebook

variable {r : Rulebook} {a b : Attributes} {i : Item} {held : List ConditionRef}

/-- Counting goes the same course if the assessments of the expressions do, none of which is
denied. -/
lemma assessTally_alongside {recur recur' : Item → Assessment} {es : List ExpressionRef}
    (hroles : ∀ e ∈ es, r.roleOf e ≠ .deny)
    (h : ∀ e ∈ es, Alongside Verdict.Eases (recur (.expression e)) (recur' (.expression e)))
    {t u : Tally} (htu : t.Eases u) :
    Alongside Tally.Eases (r.assessTally recur es t) (r.assessTally recur' es u) := by
  induction es generalizing t u with
  | nil => exact .ok htu
  | cons e rest ih =>
      have hrest := fun {t u : Tally} (htu : t.Eases u) =>
        ih (fun e' he' => hroles e' (by simp [he'])) (fun e' he' => h e' (by simp [he'])) htu
      have he := h e (by simp)
      rw [assessTally_cons, assessTally_cons]
      generalize recur (.expression e) = x at he
      generalize recur' (.expression e) = y at he
      cases he with
      | error o => exact .error o
      | @ok v w n hvw =>
          exact (hrest (htu.countVerdict (hroles e (by simp)) hvw)).map fun _ _ htu => htu

/-- An item is assessed along the same course for two targets if what is evaluated inside is, and if
none of its expressions is denied. -/
lemma assessItem_alongside {recur recur' : List ConditionRef → Item → Assessment}
    (hm : r.matcher.Widens a b)
    (hroles : ∀ e, r.graph.Leads i (.expression e) → r.roleOf e ≠ .deny)
    (h : ∀ held j, r.graph.Leads i j → Alongside Verdict.Eases (recur held j) (recur' held j)) :
    Alongside Verdict.Eases (r.assessItem a recur held i) (r.assessItem b recur' held i) := by
  cases i with
  | expression e =>
      rcases (r.graph.expression e).domain.cases_matched with hd | hd | hd | ⟨name, hd⟩
      · simp only [assessItem, hd]
        exact .ok .ignored
      · obtain ⟨met, met', ha, hb, himp⟩ := hm (r.graph.expression e).attributes
        rw [assessItem_matched hd, assessItem_matched hd, ha, hb]
        refine .ok (.graded ?_)
        cases met with
        | false => exact Grade.failed_le _
        | true => rw [himp rfl]
      · cases ht : (r.graph.expression e).target with
        | none =>
            simp only [assessItem, hd, ht]
            exact .error _
        | some j =>
            simp only [assessItem, hd, ht]
            exact h held j (Graph.leads_target hd ht)
      · simp only [assessItem, hd]
        exact .error _
  | condition c =>
      by_cases hc : c ∈ held
      · simp only [assessItem, hc, if_true]
        exact .error _
      · simp only [assessItem, hc, if_false]
        have hempty : Tally.Eases {} {} := ⟨.none, .none⟩
        have hcount := assessTally_alongside (fun e he => hroles e (Graph.leads_expression he))
          (fun e he => h (held ++ [c]) _ (Graph.leads_expression he)) hempty
        exact hcount.map (l := id) fun _ _ htu => htu.verdict
  | artifact x =>
      cases hg : (r.graph.artifact x).guard with
      | none =>
          simp only [assessItem, hg]
          exact .ok (.graded le_rfl)
      | some j =>
          simp only [assessItem, hg]
          exact h held j (Graph.leads_guard hg)
  | scripted s => exact .error _

/-- **Items in which nothing is denied are assessed along the same course** for a target and for a
second one for which the matcher accepts no less. -/
theorem assess_alongside (hm : r.matcher.Widens a b)
    (hroles : ∀ e, r.graph.Reaches i (.expression e) → r.roleOf e ≠ .deny) (k : Nat) :
    Alongside Verdict.Eases (r.assess a k held i) (r.assess b k held i) := by
  induction k generalizing held i with
  | zero => exact .error _
  | succ k ih =>
      have hitem : Alongside Verdict.Eases (r.assessItem a (r.assess a k) held i)
          (r.assessItem b (r.assess b k) held i) :=
        assessItem_alongside hm (fun e he => hroles e (.single he)) fun held j hij =>
          ih fun e he => hroles e (.head hij he)
      exact hitem.map fun _ _ hvw => hvw

end Rulebook

namespace Evaluator

/-- **A less specific target stays compatible.** Take the usual matcher, an item of a pack that
leads to no denied expression, and a target of which some attributes are taken away. Both targets
can be checked. The item is ignored for the second one exactly if it is for the first, and it is an
error exactly if it is for the first, with a diagnostic of the same code; and it is fulfilled for
the second one if it is for the first. -/
theorem check_restricted_target (ev : Evaluator)
    (hm : ev.matcher = Matcher.wildcard ev.settings.observeCase) (g : Graph) (hg : g.isPlain)
    (store : Store) (subject : Subject) (i : Item) (hi : i.isPlain)
    (hresolve : resolve g store subject = .ok (some i))
    (hfree : ∀ e, g.Reaches i (.expression e) → (g.expression e).role ≠ .deny)
    (target target' : Datum) (a a' : Attributes) (ha : Attributes.ofDatum target = .ok a)
    (ha' : Attributes.ofDatum target' = .ok a') (hless : a'.Restricts a) (j : Journals) :
    ∃ report report', ev.check g store target subject j = .ok report j ∧
      ev.check g store target' subject j = .ok report' j ∧
      (report'.result = .ignored ↔ report.result = .ignored) ∧
      (report'.result = .error ↔ report.result = .error) ∧
      report'.diagnostics.map (·.code) = report.diagnostics.map (·.code) ∧
      (report.result = .graded .fulfilled → report'.result = .graded .fulfilled) := by
  have hdecides : ev.matcher.Decides := by
    rw [hm]
    exact Matcher.decides_wildcard _
  have hwidens : (ev.rulebook g).matcher.Widens a a' := by
    show ev.matcher.Widens a a'
    rw [hm]
    exact Matcher.widens_wildcard hless _
  obtain ⟨report, hcheck, hv⟩ := exists_check hg hdecides hi ha hresolve j
  obtain ⟨report', hcheck', hv'⟩ := exists_check hg hdecides hi ha' hresolve j
  have hcodes := codes_of_check (i := some i) hg hi hresolve ha hcheck
  have hcodes' := codes_of_check (i := some i) hg hi hresolve ha' hcheck'
  have hcourse : Alongside Verdict.Eases
      ((ev.rulebook g).assess a (ev.rulebook g).maxDepth [] i)
      ((ev.rulebook g).assess a' (ev.rulebook g).maxDepth [] i) :=
    Rulebook.assess_alongside hwidens hfree _
  refine ⟨report, report', hcheck, hcheck', ?_⟩
  rw [hcodes, hcodes', Rulebook.codes, Rulebook.codes]
  rw [Rulebook.outcome] at hv hv'
  generalize (ev.rulebook g).assess a (ev.rulebook g).maxDepth [] i = o at hv hcourse
  generalize (ev.rulebook g).assess a' (ev.rulebook g).maxDepth [] i = o' at hv' hcourse
  -- both assessments meet the same problem, or both come to a verdict
  cases hcourse with
  | error o =>
      have hsame : report'.result = report.result := Except.ok.inj (hv'.symm.trans hv)
      simp [hsame]
  | @ok v v' n hvv' =>
      obtain rfl : v = report.result := Except.ok.inj hv
      obtain rfl : v' = report'.result := Except.ok.inj hv'
      generalize report.result = v, report'.result = v' at hvv'
      cases hvv' with
      | ignored => simp [codesOf]
      | graded hle =>
          refine ⟨by simp, by simp, rfl, fun h => ?_⟩
          cases h
          rw [le_antisymm (Grade.le_fulfilled _) hle]

/-- An artifact whose guard accepts one vendor or a core applies for a target of another vendor with
this core, and still does without the core: the one alternative fails, and the other one does not
ask any more. -/
theorem check_restricted_target_sample :
    let ev : Evaluator := { settings := { maxDepth := 6 } }
    let target : Datum := .table [(.text "core", .text "M4"), (.text "vendor", .text "ST")]
    let less : Datum := .table [(.text "vendor", .text "ST")]
    Graph.choice.isPlain ∧
      (∀ e, Graph.choice.Reaches (.artifact ⟨0⟩) (.expression e) →
        (Graph.choice.expression e).role ≠ .deny) ∧
      (Attributes.ofList [("vendor", "ST")]).Restricts
        (Attributes.ofList [("core", "M4"), ("vendor", "ST")]) ∧
      ∃ report report',
        ev.check Graph.choice {} target (.item (some (.artifact ⟨0⟩))) {} = .ok report {} ∧
        ev.check Graph.choice {} less (.item (some (.artifact ⟨0⟩))) {} = .ok report' {} ∧
        report.result = .graded .fulfilled ∧ report'.result = .graded .fulfilled := by
  intro ev target less
  have hg : Graph.choice.isPlain := by decide
  have hfree : ∀ e, Graph.choice.Reaches (.artifact ⟨0⟩) (.expression e) →
      (Graph.choice.expression e).role ≠ .deny := fun e _ => Graph.role_ne_deny (by decide) e
  have hless : (Attributes.ofList [("vendor", "ST")]).Restricts
      (Attributes.ofList [("core", "M4"), ("vendor", "ST")]) := by
    intro name value h
    rw [Attributes.get?_eq_some_iff] at h ⊢
    exact List.mem_cons_of_mem _ h
  obtain ⟨report, report', hcheck, hcheck', -, -, -, hfulfilled⟩ :=
    check_restricted_target ev rfl Graph.choice hg {} (.item (some (.artifact ⟨0⟩))) (.artifact ⟨0⟩)
      rfl rfl hfree target less _ _ rfl rfl hless {}
  have hresult : report.result = .graded .fulfilled :=
    result_of_check hg rfl rfl rfl hcheck (by decide +kernel)
  exact ⟨hg, hfree, hless, report, report', hcheck, hcheck', hresult, hfulfilled hresult⟩

end Evaluator

end Applicability
