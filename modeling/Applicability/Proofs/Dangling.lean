/-
Dangling: what becomes of the references that linking reports.

Linking that is not strict reports the references that name no stored condition. One that is bound
to nothing is an error wherever it is evaluated, with a diagnostic that says so. But linking does
not unbind anything: a reference that was made for a condition at hand, and not for an id, stays
bound to that condition when it is reported, and is evaluated like it.

* `Pack.ReportsErrors`: every reported reference is bound to nothing, and an error for any target;
* `evaluate_unbound`: evaluating a reference that is bound to nothing;
* `Pack.BindsStored`: whatever is bound names a stored condition. A store keeps this up in every
  call of its own (`BindsStored.serve`), but not a consumer who binds references;
* `reported_references`: the reported references are errors exactly if none of them was bound
  before, as in every store whose references were bound by the store;
* `reported_reference_stays_bound`: a reported reference that is not an error.
-/
import Applicability.Proofs.Lockstep
import Applicability.Proofs.Outcomes
import Applicability.Proofs.Relinking

namespace Applicability

/-! ### References that are bound to nothing -/

namespace Rulebook

variable {r : Rulebook} {e : ExpressionRef}

/-- **A reference that is bound to nothing** is an error in a new pass for any target, and there is
one diagnostic, which names it. -/
lemma evaluate_unbound (hd : (r.graph.expression e).domain = .reference)
    (ht : (r.graph.expression e).target = none) (hdepth : 1 ≤ r.maxDepth) (target : Attributes)
    (journals : Journals) :
    let id := (r.graph.expression e).conditionId
    (r.evaluate (some (.expression e))).answer (fresh target journals) = .ok .error ∧
      ((r.evaluate (some (.expression e))).left (fresh target journals)).pass.diagnostics =
        [.ofKind .unresolvedReference
          s!"Reference to condition '{Graph.textOrNone id}' is not linked" id] := by
  obtain ⟨n, hvisit⟩ := r.exists_evaluate_eq_visit (.expression e) (fresh target journals)
  have henter : (fresh target journals).pass.depth < r.maxDepth := by
    show (0 : Int) < r.maxDepth
    omega
  rw [Run.answer, Run.left, hvisit, visit_of_enter rfl henter, evaluateItem]
  simp only [evaluateExpression, hd, ht]
  exact ⟨rfl, rfl⟩

end Rulebook

/-! ### What a store binds -/

namespace Pack

variable {p q : Pack} {e : ExpressionRef} {t : Item} {strict : Bool}

lemma InOrder.ids_subset (hp : p.InOrder) (h : p.Advances q) :
    p.store.ids p.graph ⊆ q.store.ids q.graph := by
  intro id hid
  obtain ⟨c, hc, rfl⟩ := List.mem_map.mp hid
  exact List.mem_map.mpr ⟨c, h.members.subset hc, (h.keepsIds c (hp.stored c hc)).2⟩

/-- **Whatever is bound names a stored condition.** -/
def BindsStored (p : Pack) : Prop :=
  ∀ e t, (p.graph.expression e).target = some t → ∃ id, p.Names e id ∧ id ∈ p.store.ids p.graph

/-- It stays so if what is bound anew names a stored condition, and no id is lost. -/
lemma BindsStored.mono (h : p.BindsStored) (hnames : ∀ e id, p.Names e id → q.Names e id)
    (hids : p.store.ids p.graph ⊆ q.store.ids q.graph)
    (htarget : ∀ e t, (q.graph.expression e).target = some t →
      (p.graph.expression e).target = some t ∨ ∃ id, p.Names e id ∧ id ∈ p.store.ids p.graph) :
    q.BindsStored := by
  intro e t ht
  have hold : ∃ id, p.Names e id ∧ id ∈ p.store.ids p.graph := (htarget e t ht).elim (h e t) id
  obtain ⟨id, hid, hmem⟩ := hold
  exact ⟨id, hnames e id hid, hids hmem⟩

/-- So unknown references are bound to nothing. -/
lemma BindsStored.target_of_unknown (h : p.BindsStored) {l : Store.Link} (hl : l ∈ p.unknown) :
    (p.graph.expression l.expression).target = none := by
  refine Option.eq_none_iff_forall_ne_some.mpr fun t ht => ?_
  obtain ⟨id, hid, hmem⟩ := h l.expression t ht
  have hunknown : p.named l ∉ p.store.ids p.graph := by simpa using (List.mem_filter.mp hl).2
  exact hunknown (by rwa [named, hid.eq])

/-- What linking binds names a stored condition. -/
lemma target_link_cases (h : ((p.link strict).2.graph.expression e).target = some t) :
    (p.graph.expression e).target = some t ∨ ∃ id, p.Names e id ∧ id ∈ p.store.ids p.graph := by
  -- for any part of the references, since strict linking comes only to the first unknown one
  have hpart : ∀ ls ⊆ p.store.links p.graph,
      ((p.store.bindAll false ls p.graph).2.expression e).target = some t →
        (p.graph.expression e).target = some t ∨
          ∃ id, p.Names e id ∧ id ∈ p.store.ids p.graph := by
    intro ls hls ht
    rw [Store.target_bindAll_false fun l hl => Store.index_lt_of_mem_links (hls hl)] at ht
    split at ht
    · next he =>
      cases hfound : p.store.find? p.graph ((p.graph.expression e).conditionId.getD "") with
      | none =>
          rw [hfound] at ht
          exact .inl ht
      | some c =>
          have hmem : e ∈ (p.store.links p.graph).map Store.Link.expression :=
            List.map_subset _ hls he
          exact .inr ⟨_, mem_links_iff.mp hmem, Store.isSome_find?_iff.mp (by rw [hfound]; rfl)⟩
    · exact .inl ht
  cases strict with
  | false => exact hpart _ (List.Subset.refl _) h
  | true =>
      have hleft : (p.link true).2.graph = _ :=
        Store.bindAll_true_snd (p.store.links p.graph) p.graph
      rw [hleft] at h
      exact hpart _ (List.takeWhile_subset _) h

lemma BindsStored.link (h : p.BindsStored) (hp : p.InOrder) (strict : Bool) :
    (p.link strict).2.BindsStored :=
  h.mono (fun _ _ hid => (names_congr (p.link_unbind strict)).mpr hid)
    (hp.ids_subset (hp.advances_link strict).2) fun _ _ => target_link_cases

lemma BindsStored.define {d : ConditionDefinition} (h : p.BindsStored) (hp : p.InOrder)
    (hq : p.define d = .ok q) : q.BindsStored := by
  have hgains := gains_of_define hq
  exact h.mono (fun _ _ hid => hid.gains hgains) (hp.ids_subset (hp.advances_define hq).2)
    fun e t ht => .inl ((target_gains hgains).mp ht)

lemma BindsStored.defineAll (h : p.BindsStored) (hp : p.InOrder)
    (ds : List ConditionDefinition) : (Pack.defineAll ds p).2.BindsStored := by
  induction ds generalizing p with
  | nil => exact h
  | cons d rest ih =>
      rw [Pack.defineAll]
      cases hd : p.define d with
      | error f => exact h
      | ok q => exact ih (h.define hp hd) (hp.advances_define hd).1

/-- Loading binds what linking does, as far as it comes. -/
lemma BindsStored.load (h : p.BindsStored) (hp : p.InOrder) (data : Datum) (strict : Bool) :
    (p.load data strict).2.BindsStored := by
  rcases p.load_cases data strict with ⟨found, -, hload⟩ | ⟨doc, f, q, -, hdefine, hload⟩ |
    ⟨doc, q, -, hdefine, hload⟩
  · rw [hload]
    exact h
  · have hall := h.defineAll hp doc.conditions
    rw [hdefine] at hall
    rw [hload]
    exact hall
  · have hall := h.defineAll hp doc.conditions
    have horder := (hp.advances_defineAll doc.conditions).1
    rw [hdefine] at hall horder
    rw [hload]
    exact hall.link horder strict

end Pack

/-- A call of the store itself. -/
def StoreCall.isOwn : StoreCall → Bool
  | elsewhere _ => false
  | add _ | link _ | load _ _ => true

namespace Pack

variable {p : Pack} {l : Store.Link}

/-- **A call of the store itself** binds nothing but what names a stored condition. -/
lemma BindsStored.serve (h : p.BindsStored) (hp : p.InOrder) {call : StoreCall}
    (hcall : p.Admits call) (hown : call.isOwn) : (p.serve call).2.BindsStored := by
  cases call with
  | add c =>
      rw [Pack.serve]
      cases hs : p.store.add p.graph c with
      | error f => exact h
      | ok s =>
          have hadvances := (hp.advances_add hcall hs).2
          exact h.mono (fun _ _ hid => hid.of_keeps hadvances.members.subset (.refl p.graph))
            (hp.ids_subset hadvances) fun e t ht => .inl ht
  | link strict => exact h.link hp strict
  | load data strict => exact h.load hp data strict
  | elsewhere g => cases hown

/-- So do any number of calls. -/
lemma BindsStored.serveAll (h : p.BindsStored) (hp : p.InOrder) {calls : List StoreCall}
    (hcalls : p.AdmitsAll calls) (hown : ∀ call ∈ calls, call.isOwn) :
    (p.serveAll calls).BindsStored := by
  induction calls generalizing p with
  | nil => exact h
  | cons call rest ih =>
      obtain ⟨hcall, hrest⟩ := hcalls
      exact ih (h.serve hp hcall (hown call (by simp))) (hp.serve_advances hcall).1 hrest
        fun call' hcall' => hown call' (by simp [hcall'])

/-! ### What is reported -/

/-- **Reported references are errors**: linking that is not strict leaves every unknown reference
bound to nothing, so that evaluating it for any target is an error, with a diagnostic that says
so. -/
def ReportsErrors (p : Pack) : Prop :=
  let q := (p.link false).2
  ∀ l ∈ p.unknown, (q.graph.expression l.expression).target = none ∧
    ∀ (ev : Evaluator) (target : Attributes) (journals : Journals),
      let evaluation := (ev.rulebook q.graph).evaluate (some (.expression l.expression))
      let id := (q.graph.expression l.expression).conditionId
      evaluation.answer (Rulebook.fresh target journals) = .ok .error ∧
        (evaluation.left (Rulebook.fresh target journals)).pass.diagnostics =
          [.ofKind .unresolvedReference
            s!"Reference to condition '{Graph.textOrNone id}' is not linked" id]

lemma expression_link_unknown (hl : l ∈ p.unknown) :
    (p.link false).2.graph.expression l.expression = p.graph.expression l.expression := by
  refine p.expression_link_of_unknown fun l' hl' he => List.mem_filter.mpr ⟨hl', ?_⟩
  have hunknown := (List.mem_filter.mp hl).2
  rwa [named, ← he] at hunknown

lemma domain_of_mem_unknown (hl : l ∈ p.unknown) :
    (p.graph.expression l.expression).domain = .reference :=
  (Store.mem_links.mp (List.mem_of_mem_filter hl)).2.2

/-- The reported references are errors exactly if none of them was bound before. -/
lemma reportsErrors_iff : p.ReportsErrors ↔
    ∀ l ∈ p.unknown, (p.graph.expression l.expression).target = none := by
  constructor
  · intro h l hl
    rw [← expression_link_unknown hl]
    exact (h l hl).1
  · intro h l hl
    have hsame := expression_link_unknown hl
    have hunbound : ((p.link false).2.graph.expression l.expression).target = none := by
      rw [hsame]
      exact h l hl
    have hdomain : ((p.link false).2.graph.expression l.expression).domain = .reference := by
      rw [hsame]
      exact domain_of_mem_unknown hl
    exact ⟨hunbound, fun ev target journals => Rulebook.evaluate_unbound
      (r := ev.rulebook (p.link false).2.graph) hdomain hunbound ev.settings.one_le_maxDepth target
      journals⟩

/-- **What becomes of reported references.** Linking that is not strict reports the unknown
references, which are those whose ids are reported, and leaves them as they were. They are errors
exactly if none of them was bound before: one that was bound is evaluated like what it was bound to.
In a store whose references were bound by calls of the store itself, whatever they were and wherever
they stopped, all reported references are errors. -/
theorem reported_references (p : Pack) :
    let q := (p.link false).2
    (p.link false).1 = .ok (p.unknown.map fun l =>
      Graph.textOrNone (p.graph.expression l.expression).conditionId) ∧
    (∀ l ∈ p.store.links p.graph, p.named l ∈ p.unknown.map p.named ↔ l ∈ p.unknown) ∧
    (∀ l ∈ p.unknown, q.graph.expression l.expression = p.graph.expression l.expression) ∧
    (p.ReportsErrors ↔ ∀ l ∈ p.unknown, (p.graph.expression l.expression).target = none) ∧
    (∀ l ∈ p.unknown, ∀ i, (p.graph.expression l.expression).target = some i → ∀ ev : Evaluator,
      (ev.rulebook q.graph).evaluateAsExpression (some (.expression l.expression)) =
        (ev.rulebook q.graph).evaluate (some i)) ∧
    ∀ (g : Graph) (calls : List StoreCall), (∀ e, (g.expression e).target = none) →
      AdmitsAll { graph := g } calls → (∀ call ∈ calls, call.isOwn) →
        p = serveAll { graph := g } calls → p.ReportsErrors := by
  intro q
  refine ⟨?_, fun l hl => ⟨fun hmem => ?_, List.mem_map_of_mem⟩,
    fun l => expression_link_unknown, reportsErrors_iff, fun l hl i hi ev => ?_,
    fun g calls hg hcalls hown hp => ?_⟩
  · refine (Store.answer_bindAll_false _ _).trans ?_
    rw [← unknown_eq]
  · obtain ⟨l', hl', hnamed⟩ := List.mem_map.mp hmem
    have hunknown := (List.mem_filter.mp hl').2
    rw [hnamed] at hunknown
    exact List.mem_filter.mpr ⟨hl, hunknown⟩
  · have hsame : (ev.rulebook q.graph).graph.expression l.expression =
        p.graph.expression l.expression := expression_link_unknown hl
    rw [Rulebook.evaluateAsExpression, Rulebook.evaluateExpression]
    simp only [hsame, domain_of_mem_unknown hl, hi]
    rfl
  · have hnew : BindsStored { graph := g } := fun e t ht => by
      rw [hg e] at ht
      cases ht
    have hbinds : p.BindsStored := hp ▸ hnew.serveAll (.empty g) hcalls hown
    exact reportsErrors_iff.mpr fun l hl => hbinds.target_of_unknown hl

/-- Two conditions are registered, and strict linking stops at a reference to a third one. When the
store is linked otherwise, this reference is reported, and is an error. -/
theorem reported_references_sample :
    let calls : List StoreCall := [.add ⟨0⟩, .add ⟨1⟩, .link true]
    let p := serveAll { graph := loose } calls
    (∀ e, (loose.expression e).target = none) ∧ AdmitsAll { graph := loose } calls ∧
      (∀ call ∈ calls, call.isOwn) ∧ (p.link false).1 = .ok ["late"] ∧
      p.unknown = [⟨⟨0⟩, ⟨0⟩⟩] ∧ p.ReportsErrors := by
  intro calls p
  have hunbound : ∀ e, (loose.expression e).target = none := by
    intro e
    have hall : ∀ x ∈ loose.expressions.toList, x.target = none := by decide
    by_cases he : e.index < loose.expressions.size
    · have hx : loose.expression e = loose.expressions[e.index] := by simp [Graph.expression, he]
      rw [hx]
      exact hall _ (Array.mem_toList_iff.mpr (Array.getElem_mem he))
    · exact Graph.target_of_le (not_lt.mp he)
  have hcalls : AdmitsAll { graph := loose } calls :=
    ⟨(by decide : 0 < 2), (by decide : 1 < 2), trivial, trivial⟩
  have hown : ∀ call ∈ calls, call.isOwn := by simp [calls, StoreCall.isOwn]
  obtain ⟨hreported, -, -, -, -, herrors⟩ := reported_references p
  exact ⟨hunbound, hcalls, hown, hreported, by decide, herrors loose calls hunbound hcalls hown rfl⟩

/-- A stored condition with a reference to a condition that is not stored, made for this condition
and not for its id. -/
def detached : Pack where
  graph := {
    expressions := #[
      { domain := .device, attributes := Attributes.ofList [("Dname", "stm32")] },
      { Expression.reference .require "X" with target := some (.condition ⟨0⟩) }]
    conditions := #[{ id := "X", expressions := [⟨0⟩] }, { id := "A", expressions := [⟨1⟩] }] }
  store := { members := [⟨1⟩] }

/-- **A reported reference that is not an error**: linking reports its id, and it stays bound. It is
evaluated like the condition that it was made for. -/
theorem reported_reference_stays_bound :
    let q := (detached.link false).2
    detached.InOrder ∧
      (∀ l ∈ detached.store.links detached.graph,
        (detached.graph.expression l.expression).conditionId ≠ none) ∧
      (detached.link false).1 = .ok ["X"] ∧
      (q.graph.expression ⟨1⟩).target = some (.condition ⟨0⟩) ∧
      ((({} : Evaluator).rulebook q.graph).evaluate (some (.expression ⟨1⟩))).answer
        (Rulebook.fresh (Attributes.ofList [("Dname", "stm32")]) {}) = .ok (.graded .fulfilled) ∧
      ¬ detached.ReportsErrors := by
  intro q
  have hbound : (q.graph.expression ⟨1⟩).target = some (.condition ⟨0⟩) := by rfl
  refine ⟨⟨by decide, by decide⟩, by decide, by rfl, hbound, ?_, fun h => ?_⟩
  · have hplain : (({} : Evaluator).rulebook q.graph).graph.isPlain := by decide
    exact (Rulebook.answer_fresh hplain rfl {}).trans rfl
  · have hunbound := (h ⟨⟨1⟩, ⟨1⟩⟩ (by decide)).1
    rw [hbound] at hunbound
    cases hunbound

end Pack

end Applicability
