/-
Closure: what can go wrong in a pack into which a document was loaded.

Nothing is missing in such a pack: evaluating a stored condition leads to stored conditions only. So
an evaluation can fail in two ways, both of which can be read off the document: the definitions
refer to each other in a circle, or they are nested too deeply.

* `Document.Needs`: how many levels are nested below an id;
* `Loaded.leads_of_refers`, `Loaded.refers_of_leads`: a reference of a definition is two steps of
  nesting;
* `Loaded.onCycle_iff`, `Loaded.needs_of_isChain`, `Loaded.exists_isChain`: circles and chains of
  definitions are cycles and chains of nested items;
* `Loaded.obstructed_iff`: so a circle of definitions and too many levels are all that can obstruct
  a stored condition;
* `check_loaded_condition`: a check of a stored condition stays within the store, is an error
  exactly then, and its diagnostic says so.
-/
import Applicability.Proofs.Complaints
import Applicability.Proofs.Guarding
import Applicability.Proofs.Linking

namespace Applicability

/-! ### Definitions that refer to each other -/

/-- **The levels that are nested below a defined id**: its condition takes one, an expression of the
condition takes another one, and a reference leads on to the id that it names. -/
inductive Document.Needs (doc : Document) : String → Nat → Prop where
  | condition {id : String} {d : ConditionDefinition} : doc.definition? id = some d → Needs doc id 1
  | expression {id : String} {d : ConditionDefinition} : doc.definition? id = some d →
      d.expressions ≠ [] → Needs doc id 2
  | reference {a b : String} {n : Nat} : doc.Refers a b → Needs doc b n → Needs doc a (n + 2)

namespace Pack

variable {p : Pack} {doc : Document} {a b id : String} {c t : ConditionRef} {e : ExpressionRef}
  {i j : Item} {n : Nat}

/-- **A reference of a definition** is two steps of nesting. -/
lemma Loaded.leads_of_refers (h : p.Loaded doc) (hab : doc.Refers a b) (hc : p.stored? a = some c) :
    ∃ e t, p.graph.Leads (.condition c) (.expression e) ∧
      p.graph.Leads (.expression e) (.condition t) ∧ p.stored? b = some t := by
  obtain ⟨d, hd, x, hx, hnamed⟩ := hab
  obtain ⟨c', hc', hbuilds⟩ := h.stored?_of_definition? hd
  obtain rfl : c' = c := Option.some.inj (hc'.symm.trans hc)
  -- the expression that was built from the reference; strict linking has bound it to what `b` names
  obtain ⟨e, he, hexpression⟩ := exists_right_of_forall₂ hbuilds.expressions hx
  have hid := hexpression.named?.trans hnamed
  obtain ⟨t, ht, htarget⟩ := h.bound c' (stored?_eq_some hc).1 e he b hid
  obtain ⟨hdomain, -⟩ := Expression.named?_eq_some_iff.mp hid
  exact ⟨e, t, Graph.leads_expression he, Graph.leads_target hdomain htarget, ht⟩

/-- **An expression of a stored condition**: it is of a known domain, and if it is a reference it is
bound to a stored condition, to whose id the definition refers. -/
lemma Loaded.refers_of_mem (h : p.Loaded doc) (hc : p.stored? a = some c)
    (he : e ∈ (p.graph.condition c).expressions) :
    (∀ name, (p.graph.expression e).domain ≠ .other name) ∧
      ((p.graph.expression e).domain = .reference → ∃ b t, doc.Refers a b ∧ p.stored? b = some t ∧
        (p.graph.expression e).target = some (.condition t)) := by
  obtain ⟨d, hd, hbuilds⟩ := h.definition?_of_stored? hc
  obtain ⟨x, hx, hexpression⟩ := exists_left_of_forall₂ hbuilds.expressions he
  refine ⟨(ExpressionDefinition.of_build hexpression.build).2.2.1, fun hdomain => ?_⟩
  have hnamed := Expression.named?_eq_some_iff.mpr ⟨hdomain, rfl⟩
  obtain ⟨t, ht, htarget⟩ := h.bound c (stored?_eq_some hc).1 e he _ hnamed
  exact ⟨_, t, ⟨d, hd, x, hx, hexpression.named?.symm.trans hnamed⟩, ht, htarget⟩

lemma Loaded.refers_of_leads (h : p.Loaded doc) (hc : p.stored? a = some c)
    (he : e ∈ (p.graph.condition c).expressions) (hj : p.graph.Leads (.expression e) j) :
    ∃ b t, j = .condition t ∧ doc.Refers a b ∧ p.stored? b = some t := by
  by_cases hdomain : (p.graph.expression e).domain = .reference
  · obtain ⟨b, t, hab, ht, htarget⟩ := (h.refers_of_mem hc he).2 hdomain
    rw [Graph.Leads, Graph.successors_expression hdomain, htarget] at hj
    exact ⟨b, t, List.mem_singleton.mp hj, hab, ht⟩
  · rw [Graph.Leads, Graph.successors_expression_of_ne hdomain] at hj
    cases hj

/-! ### What is below a stored condition -/

/-- **What is below an id**: the stored conditions of the ids that it refers to, directly or not,
and their expressions. -/
inductive Below (p : Pack) (doc : Document) (a : String) : Item → Prop where
  | condition {b : String} {t : ConditionRef} : Relation.ReflTransGen doc.Refers a b →
      p.stored? b = some t → Below p doc a (.condition t)
  | expression {b : String} {t : ConditionRef} {e : ExpressionRef} :
      Relation.ReflTransGen doc.Refers a b → p.stored? b = some t →
      e ∈ (p.graph.condition t).expressions → Below p doc a (.expression e)

/-- Nesting does not leave what is below an id. -/
lemma Below.leads (h : p.Loaded doc) (hi : p.Below doc a i) (hij : p.graph.Leads i j) :
    p.Below doc a j := by
  cases hi with
  | condition hab ht =>
      obtain ⟨e, he, rfl⟩ := List.mem_map.mp hij
      exact .expression hab ht he
  | expression hab ht he =>
      obtain ⟨b', t', rfl, hbb', ht'⟩ := h.refers_of_leads ht he hij
      exact .condition (hab.tail hbb') ht'

/-- So whatever a stored condition reaches is below its id. -/
lemma Loaded.below_of_reaches (h : p.Loaded doc) (hc : p.stored? a = some c)
    (hj : p.graph.Reaches (.condition c) j) : p.Below doc a j := by
  induction hj with
  | refl => exact .condition .refl hc
  | tail _ hij ih => exact ih.leads h hij

/-- Ids that are referred to have stored conditions, which are reached. -/
lemma Loaded.reaches_of_refers (h : p.Loaded doc) (hc : p.stored? a = some c)
    (hab : Relation.ReflTransGen doc.Refers a b) :
    ∃ t, p.stored? b = some t ∧ p.graph.Reaches (.condition c) (.condition t) := by
  induction hab with
  | refl => exact ⟨c, hc, .refl⟩
  | tail _ hbb' ih =>
      obtain ⟨t, ht, hreach⟩ := ih
      obtain ⟨e, t', hdown, hover, ht'⟩ := h.leads_of_refers hbb' ht
      exact ⟨t', ht', (hreach.tail hdown).tail hover⟩

/-- **A circle of definitions** is a cycle of conditions. -/
lemma Loaded.onCycle_iff (h : p.Loaded doc) (hc : p.stored? a = some c) :
    p.graph.OnCycle (.condition c) ↔ Relation.TransGen doc.Refers a a := by
  constructor
  · intro hcycle
    obtain ⟨i, hci, hic⟩ := Relation.TransGen.head'_iff.mp hcycle
    obtain ⟨e, he, rfl⟩ := List.mem_map.mp hci
    -- the cycle goes through an expression, and on to a condition that leads back
    rcases Relation.ReflTransGen.cases_head hic with heq | ⟨j, hej, hjc⟩
    · cases heq
    · obtain ⟨b, t, rfl, hab, ht⟩ := h.refers_of_leads hc he hej
      cases h.below_of_reaches ht hjc with
      | @condition b' _ hbb' hb' =>
          obtain rfl : b' = a := (stored?_eq_some hb').2.symm.trans (stored?_eq_some hc).2
          exact .head' hab hbb'
  · intro hcycle
    obtain ⟨b, hab, hba⟩ := Relation.TransGen.head'_iff.mp hcycle
    obtain ⟨e, t, hdown, hover, ht⟩ := h.leads_of_refers hab hc
    obtain ⟨c', hc', hreach⟩ := h.reaches_of_refers ht hba
    obtain rfl : c' = c := Option.some.inj (hc'.symm.trans hc)
    exact .head hdown (.head' hover hreach)

/-- A chain of nested items below a stored condition takes levels that its id needs. -/
lemma Loaded.needs_of_isChain (h : p.Loaded doc) {a : String} {c : ConditionRef} {rest : List Item}
    (hc : p.stored? a = some c) (hchain : List.IsChain p.graph.Leads (.condition c :: rest)) :
    doc.Needs a (.condition c :: rest).length := by
  obtain ⟨d, hd, hbuilds⟩ := h.definition?_of_stored? hc
  match rest, hchain with
  | [], _ => exact .condition hd
  | [i], hchain =>
      obtain ⟨e, he, rfl⟩ := List.mem_map.mp (List.isChain_cons_cons.mp hchain).1
      obtain ⟨x, hx, -⟩ := exists_left_of_forall₂ hbuilds.expressions he
      exact .expression hd (List.ne_nil_of_mem hx)
  | i :: j :: rest, hchain =>
      obtain ⟨hci, hrest⟩ := List.isChain_cons_cons.mp hchain
      obtain ⟨hij, htail⟩ := List.isChain_cons_cons.mp hrest
      obtain ⟨e, he, rfl⟩ := List.mem_map.mp hci
      obtain ⟨b, t, rfl, hab, ht⟩ := h.refers_of_leads hc he hij
      exact .reference hab (h.needs_of_isChain ht htail)
termination_by rest.length

/-- The levels that an id needs are taken by a chain of nested items below its stored condition. -/
lemma Loaded.exists_isChain (h : p.Loaded doc) (hn : doc.Needs a n) (hc : p.stored? a = some c) :
    ∃ rest, List.IsChain p.graph.Leads (.condition c :: rest) ∧
      (.condition c :: rest : List Item).length = n := by
  induction hn generalizing c with
  | condition => exact ⟨[], .singleton _, rfl⟩
  | expression hd hne =>
      obtain ⟨c', hc', hbuilds⟩ := h.stored?_of_definition? hd
      obtain rfl : c' = c := Option.some.inj (hc'.symm.trans hc)
      obtain ⟨x, hx⟩ := List.exists_mem_of_ne_nil _ hne
      obtain ⟨e, he, -⟩ := exists_right_of_forall₂ hbuilds.expressions hx
      exact ⟨[.expression e], .cons_cons (Graph.leads_expression he) (.singleton _), rfl⟩
  | reference hab _ ih =>
      obtain ⟨e, t, hdown, hover, ht⟩ := h.leads_of_refers hab hc
      obtain ⟨rest, hchain, hlength⟩ := ih ht
      refine ⟨.expression e :: .condition t :: rest, .cons_cons hdown (.cons_cons hover hchain), ?_⟩
      rw [List.length_cons, List.length_cons, hlength]

/-- **What obstructs a stored condition**: a circle of definitions, or too many levels. -/
lemma Loaded.obstructed_iff (h : p.Loaded doc) (hc : p.stored? a = some c) {limit : Nat} :
    p.graph.Obstructed limit (.condition c) ↔
      (∃ b, Relation.ReflTransGen doc.Refers a b ∧ Relation.TransGen doc.Refers b b) ∨
        ∃ n, limit < n ∧ doc.Needs a n := by
  constructor
  · intro hobs
    cases hobs with
    | cycle hreach hcycle =>
        cases h.below_of_reaches hc hreach with
        | condition hab ht => exact .inl ⟨_, hab, (h.onCycle_iff ht).mp hcycle⟩
    | unbound hreach hdomain htarget =>
        -- in a loaded pack every reference is bound, and every domain is known
        cases h.below_of_reaches hc hreach with
        | expression _ ht he =>
            obtain ⟨_, _, _, _, hbound⟩ := (h.refers_of_mem ht he).2 hdomain
            rw [htarget] at hbound
            cases hbound
    | unknown hreach hdomain =>
        cases h.below_of_reaches hc hreach with
        | expression _ ht he => exact absurd hdomain ((h.refers_of_mem ht he).1 _)
    | deep hchain hlength => exact .inr ⟨_, hlength, h.needs_of_isChain hc hchain⟩
  · rintro (⟨b, hab, hcycle⟩ | ⟨n, hn, hneeds⟩)
    · obtain ⟨t, ht, hreach⟩ := h.reaches_of_refers hc hab
      exact .cycle hreach ((h.onCycle_iff ht).mpr hcycle)
    · obtain ⟨rest, hchain, hlength⟩ := h.exists_isChain hneeds hc
      exact .deep hchain (hlength ▸ hn)

/-- The conditions on a path are stored ones. -/
def storesAll (p : Pack) (path : List Item) : Bool :=
  (combined path).all p.store.members.contains

/-- **Evaluating a stored condition** takes paths of stored conditions only, with at most two items
for each of them. -/
lemma Loaded.storesAll_of_nests (h : p.Loaded doc) (hc : p.stored? a = some c) {path : List Item}
    (hpath : p.graph.Nests (.condition c) path j) :
    p.storesAll (path ++ [j]) ∧ path.length < 2 * p.store.size + 2 := by
  have hstored : ∀ t, p.graph.Reaches (.condition c) (.condition t) → t ∈ p.store.members := by
    intro t ht
    cases h.below_of_reaches hc ht with
    | condition _ ht => exact (stored?_eq_some ht).1
  constructor
  · refine List.all_eq_true.mpr fun t ht => List.contains_iff_mem.mpr (hstored t ?_)
    rcases List.mem_append.mp (mem_combined.mp ht) with ht | ht
    · exact hpath.reaches_mem _ ht
    · rw [List.mem_singleton.mp ht]
      exact hpath.reaches
  · have hbelow : (p.graph.conditionsBelow (.condition c)).ncard ≤ p.store.size := by
      calc (p.graph.conditionsBelow (.condition c)).ncard
          ≤ (↑p.store.members.toFinset : Set ConditionRef).ncard :=
            Set.ncard_le_ncard (fun t ht => List.mem_toFinset.mpr (hstored t ht))
              (Finset.finite_toSet _)
        _ = p.store.members.toFinset.card := Set.ncard_coe_finset _
        _ ≤ p.store.size := List.toFinset_card_le _
    have hlength := hpath.length_lt h.isPlain h.binds
    omega

lemma Loaded.kind_of_assess (h : p.Loaded doc) (hc : p.stored? a = some c) {r : Rulebook}
    (hr : r.graph = p.graph) {target : Attributes} {k : Nat} {held : List ConditionRef}
    {kind : Problem.Kind}
    (hassess : r.assess target k held (.condition c) = .error (.problem kind)) :
    kind ∈ [.cycle, .tooDeep] := by
  rcases Rulebook.kind_of_assess hassess with rfl | rfl | ⟨e, hreach, he⟩
  · simp
  · simp
  · rw [hr] at hreach he
    cases h.below_of_reaches hc hreach with
    | expression _ ht hmem =>
        obtain ⟨hknown, hbound⟩ := h.refers_of_mem ht hmem
        rcases he with ⟨-, hdomain, htarget⟩ | ⟨-, name, hdomain⟩
        · obtain ⟨_, _, _, _, hsome⟩ := hbound hdomain
          rw [htarget] at hsome
          cases hsome
        · exact absurd hdomain (hknown name)

end Pack

namespace Evaluator

/-- **A pack that was loaded strictly is closed.** If a document is accepted in strict loading into
a new store, then the evaluation of a stored condition does the same as one that raises an alarm as
soon as a condition that is not stored is to be combined, or more than two levels for each stored
condition, and two more, are nested. There is a report on the condition, asked for by its id, if the
matcher never gives up. The result of a report is what the evaluation answers. It is an error
exactly if the id refers, directly or not, to an id that refers to itself, or needs more levels than
the limit allows; and there is one diagnostic then, which says so. -/
theorem check_loaded_condition (ev : Evaluator) (data : Datum) (names : List String)
    (hload : (Pack.load {} data true).1 = .ok names) (target : Datum) (a : Attributes)
    (ha : Attributes.ofDatum target = .ok a) (j : Journals) :
    let p := (Pack.load {} data true).2
    let r := ev.rulebook p.graph
    ∃ doc, Document.ofDatum data = .ok doc ∧ p.store.ids p.graph = doc.conditions.map (·.id) ∧
      ∀ id ∈ p.store.ids p.graph, ∃ c, p.stored? id = some c ∧
        (∀ alarm, r.watch alarm p.storesAll (2 * p.store.size + 2) [] (some (.condition c))
          (Rulebook.fresh a j) = r.evaluate (some (.condition c)) (Rulebook.fresh a j)) ∧
        (ev.matcher.Decides →
          ∃ report, ev.check p.graph p.store target (.id id) j = .ok report j) ∧
        ∀ report j', ev.check p.graph p.store target (.id id) j = .ok report j' →
          (r.evaluate (some (.condition c))).answer (Rulebook.fresh a j) = .ok report.result ∧
          (report.result = .error ↔
            (∃ b, Relation.ReflTransGen doc.Refers id b ∧ Relation.TransGen doc.Refers b b) ∨
              ∃ n, ev.settings.maxDepth < n ∧ doc.Needs id n) ∧
          (report.result = .error →
            ∃ d, report.diagnostics = [d] ∧ d.code ∈ ["PC-E200", "PC-E201"]) := by
  intro p r
  obtain ⟨doc, hdoc, h⟩ := Pack.loaded_of_load hload
  have hg : p.graph.isPlain := h.isPlain
  refine ⟨doc, hdoc, h.ids_eq, fun id hid => ?_⟩
  obtain ⟨c, hc⟩ : ∃ c, p.stored? id = some c :=
    Option.isSome_iff_exists.mp (Store.isSome_find?_iff.mpr hid)
  have hresolve : resolve p.graph p.store (.id id) = .ok (some (.condition c)) := by
    rw [Pack.stored?] at hc
    rw [resolve, hc]
  refine ⟨c, hc, fun alarm => ?_, fun hm => ?_, fun report j' hreport => ?_⟩
  · exact Rulebook.watch_eq_evaluate hg alarm rfl
      (fun path k hpath => h.storesAll_of_nests hc hpath) Rulebook.atRest_fresh
  · obtain ⟨v, hv⟩ : ∃ v, r.outcome a (some (.condition c)) = .ok v :=
      Rulebook.exists_outcome (i := some (.condition c)) hg hm rfl
    obtain ⟨report, hreport, -⟩ := check_of_outcome (i := some (.condition c)) (j := j) hg rfl ha
      hresolve rfl hv
    exact ⟨report, hreport⟩
  · have hanswer := answer_of_check hresolve ha hreport
    have houtcome : r.outcome a (some (.condition c)) = .ok report.result :=
      (Rulebook.answer_fresh hg rfl j).symm.trans hanswer
    refine ⟨hanswer, (Rulebook.outcome_eq_error_iff houtcome).trans (h.obstructed_iff hc),
      fun herror => ?_⟩
    rcases check_account hg rfl hreport with ⟨-, d, -, hd⟩ | ⟨hfinal, -⟩
    · have hcodes := codes_of_check (i := some (.condition c)) hg rfl hresolve ha hreport
      have hcode : d.code ∈ r.codes a (some (.condition c)) := by
        simp only [r, ← hcodes, hd, List.map_cons, List.mem_cons, true_or]
      obtain ⟨kind, hassess, hkind⟩ := Rulebook.exists_of_mem_codes hcode
      refine ⟨d, hd, ?_⟩
      rw [hkind]
      exact List.mem_map_of_mem (f := Problem.Kind.code) (h.kind_of_assess hc rfl hassess)
    · rw [herror] at hfinal
      rcases hfinal with h | h | h <;> cases h

/-- In the sample three levels are one short of what the top condition needs, but enough for its
base; and the condition that refers to itself is an error, too. -/
theorem check_loaded_condition_sample :
    let ev : Evaluator := { settings := { maxDepth := 3 } }
    let target : Datum := .table [(.text "Dcore", .text "M4")]
    let p := (Pack.load {} Document.sampleData true).2
    (Pack.load {} Document.sampleData true).1 = .ok [] ∧ ev.matcher.Decides ∧
      Attributes.ofDatum target = .ok (Attributes.ofList [("Dcore", "M4")]) ∧
      p.store.ids p.graph = ["top", "base", "loop"] ∧
      ∀ id ∈ ["top", "loop"], ∃ report d,
        ev.check p.graph p.store target (.id id) {} = .ok report {} ∧ report.result = .error ∧
          report.diagnostics = [d] ∧ d.code ∈ ["PC-E200", "PC-E201"] := by
  intro ev target p
  have hm : ev.matcher.Decides := Matcher.decides_wildcard true
  have ha : Attributes.ofDatum target = .ok (Attributes.ofList [("Dcore", "M4")]) := rfl
  have hids : p.store.ids p.graph = ["top", "base", "loop"] := rfl
  refine ⟨Document.load_sampleData, hm, ha, hids, fun id hid => ?_⟩
  obtain ⟨doc, hdoc, -, hchecks⟩ := check_loaded_condition ev Document.sampleData []
    Document.load_sampleData target _ ha {}
  obtain rfl : doc = Document.sample :=
    Except.ok.inj (hdoc.symm.trans Document.ofDatum_sampleData)
  have hstored : id ∈ p.store.ids p.graph := by
    rw [hids]
    rcases List.mem_cons.mp hid with rfl | hid
    · simp
    · simp [List.mem_singleton.mp hid]
  obtain ⟨c, -, -, hanswered, hreported⟩ := hchecks id hstored
  obtain ⟨report, hreport⟩ := hanswered hm
  obtain ⟨-, hiff, hdiagnostics⟩ := hreported report {} hreport
  have herror : report.result = .error := by
    refine hiff.mpr ?_
    rcases List.mem_cons.mp hid with rfl | hid
    · have htop : Document.sample.Refers "top" "base" := ⟨_, rfl, _, .head _, rfl⟩
      exact .inr ⟨4, by decide, .reference htop (.expression rfl (by simp))⟩
    · obtain rfl := List.mem_singleton.mp hid
      have hloop : Document.sample.Refers "loop" "loop" := ⟨_, rfl, _, .head _, rfl⟩
      exact .inl ⟨"loop", .refl, .single hloop⟩
  obtain ⟨d, hd, hcode⟩ := hdiagnostics herror
  exact ⟨report, d, hreport, herror, hd, hcode⟩

end Evaluator

end Applicability
