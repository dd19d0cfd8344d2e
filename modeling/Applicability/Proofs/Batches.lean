/-
Batches: loading in parts comes to the same as loading at once.

What is stored does not depend on what references are bound to, and where linking is not strict,
what they are bound to in the end depends on what is stored only: a reference that was bound too
early to nothing is bound by a later load.

* `Pack.unbind`: a pack before anything is bound; `defineAll_unbind`, `link_unbind`;
* `Pack.BindsNamed`: whatever is bound is bound to what it names; it stays so (`BindsNamed.gains`,
  `BindsNamed.link`);
* `BindsNamed.target_link`, `BindsNamed.target_link_of_not`: what references are bound to in the
  end;
* `link_eq_of_unbind_eq`: so linking leads to one pack from all packs that store the same;
* `load_in_batches`: two loads after each other, and one load of the definitions together.
-/
import Applicability.Proofs.Acceptance

namespace Applicability

/-! ### Nothing bound -/

namespace Expression

variable {x y : Expression}

lemma unbound_eq_self (h : x.target = none) : x.unbound = x := by
  rw [unbound, ← h]

lemma eq_of_unbound_eq (h : x.unbound = y.unbound) (htarget : x.target = y.target) : x = y := by
  obtain ⟨hrole, hdomain, hattributes, hid⟩ := unbound_eq_iff.mp h
  cases x
  cases y
  simp only at hrole hdomain hattributes hid htarget
  rw [hrole, hdomain, hattributes, hid, htarget]

end Expression

namespace Graph

variable {g g' : Graph} {d : ConditionDefinition} {xs : List Expression} {e : ExpressionRef}
  {c : ConditionRef}

/-- A graph before anything is bound. -/
def unbind (g : Graph) : Graph := { g with expressions := g.expressions.map Expression.unbound }

lemma expression_unbind (g : Graph) (e : ExpressionRef) :
    g.unbind.expression e = (g.expression e).unbound := by
  simp only [expression, unbind, Array.getD_eq_getD_getElem?, Array.getElem?_map]
  cases g.expressions[e.index]? <;> rfl

lemma unbind_bind (g : Graph) (e : ExpressionRef) (target : Option Item) :
    (g.bind e target).unbind = g.unbind := by
  have hsame : (g.expressions.modify e.index fun x => { x with target }).map Expression.unbound =
      g.expressions.map Expression.unbound := by
    refine Array.ext (by simp) fun i hi hi' => ?_
    simp only [Array.getElem_map, Array.getElem_modify]
    split <;> rfl
  rw [unbind, unbind, bind, hsame]

/-- A new condition whose expressions are bound to nothing. -/
lemma unbind_withCondition (hxs : ∀ x ∈ xs, x.target = none) :
    (g.withCondition d xs).unbind = g.unbind.withCondition d xs := by
  have hsame : xs.map Expression.unbound = xs :=
    (List.map_congr_left fun x hx => Expression.unbound_eq_self (hxs x hx)).trans (List.map_id xs)
  simp only [unbind, withCondition, nextExpressions, Array.map_append, List.map_toArray, hsame,
    Array.size_map]

/-- Graphs that bind the same, and are the same apart from that, are the same. -/
lemma eq_of_unbind_eq (h : g.unbind = g'.unbind)
    (htarget : ∀ e, (g.expression e).target = (g'.expression e).target) : g = g' := by
  obtain ⟨expressions, conditions, artifacts, scripts⟩ := g
  obtain ⟨expressions', conditions', artifacts', scripts'⟩ := g'
  obtain ⟨hexpressions, rfl, rfl, rfl⟩ := Graph.mk.inj h
  have hsize : expressions.size = expressions'.size := by
    simpa using congrArg Array.size hexpressions
  have hsame : expressions = expressions' := by
    refine Array.ext hsize fun i hi hi' => ?_
    have hunbound : expressions[i].unbound = expressions'[i].unbound := by
      simpa [hi, hi'] using congrArg (·[i]?) hexpressions
    have hbound : expressions[i].target = expressions'[i].target := by
      simpa [expression, hi, hi'] using htarget ⟨i⟩
    exact Expression.eq_of_unbound_eq hunbound hbound
  rw [hsame]

lemma index_lt_of_domain (h : (g.expression e).domain = .reference) :
    e.index < g.expressions.size := by
  by_contra he
  rw [expression, Array.getD_eq_getD_getElem?, Array.getElem?_eq_none (not_lt.mp he)] at h
  cases h

lemma index_lt_of_mem_expressions (h : e ∈ (g.condition c).expressions) :
    c.index < g.conditions.size := by
  by_contra hc
  rw [condition, Array.getD_eq_getD_getElem?, Array.getElem?_eq_none (not_lt.mp hc)] at h
  cases h

end Graph

namespace Pack

variable {p p' q : Pack} {ds : List ConditionDefinition} {d : ConditionDefinition} {strict : Bool}

/-- A pack before anything is bound. -/
def unbind (p : Pack) : Pack := { p with graph := p.graph.unbind }

/-- What a definition brings does not depend on what is bound. -/
lemma define_unbind (p : Pack) (d : ConditionDefinition) :
    p.unbind.define d = (p.define d).map unbind := by
  rw [define_eq, define_eq]
  cases hxs : d.expressions.mapM ExpressionDefinition.build with
  | error f => rfl
  | ok xs =>
      have hunbound : ∀ x ∈ xs, x.target = none := by
        intro x hx
        obtain ⟨definition, -, hdefinition⟩ := exists_left_of_forall₂ (mapM_eq_ok_iff.mp hxs) hx
        exact (ExpressionDefinition.of_build hdefinition).2.2.2
      have hgraph := Graph.unbind_withCondition (g := p.graph) (d := d) hunbound
      have hadd : p.unbind.store.add (p.unbind.graph.withCondition d xs)
          ⟨p.unbind.graph.conditions.size⟩ =
          p.store.add (p.graph.withCondition d xs) ⟨p.graph.conditions.size⟩ := by
        rw [show p.unbind.graph = p.graph.unbind from rfl, ← hgraph]
        rfl
      simp only [bind, Except.bind, hadd]
      cases p.store.add (p.graph.withCondition d xs) ⟨p.graph.conditions.size⟩ with
      | error f => rfl
      | ok s => exact congrArg (fun g => Except.ok (Pack.mk g s)) hgraph.symm

lemma defineAll_unbind (ds : List ConditionDefinition) (p : Pack) :
    defineAll ds p.unbind = ((defineAll ds p).1, (defineAll ds p).2.unbind) := by
  induction ds generalizing p with
  | nil => rfl
  | cons d rest ih =>
      rw [defineAll, defineAll, define_unbind]
      cases p.define d with
      | error f => rfl
      | ok q => exact ih q

end Pack

namespace Store

lemma unbind_bindAll (s : Store) (strict : Bool) (ls : List Link) (g : Graph) :
    (s.bindAll strict ls g).2.unbind = g.unbind := by
  induction ls generalizing g with
  | nil => rfl
  | cons l rest ih =>
      rw [bindAll]
      cases s.resolve? g l with
      | none =>
          cases strict with
          | true => rfl
          | false => exact ih g
      | some c => exact (ih _).trans (g.unbind_bind _ _)

end Store

/-! ### What references are bound to -/

namespace Pack

variable {p p' q : Pack} {ds : List ConditionDefinition} {c : ConditionRef} {e : ExpressionRef}
  {id : String} {strict : Bool}

lemma link_unbind (p : Pack) (strict : Bool) : (p.link strict).2.unbind = p.unbind :=
  congrArg (fun g => Pack.mk g p.store) (p.store.unbind_bindAll strict _ p.graph)

/-- **A reference of a stored condition**, and the id that it names. -/
structure Names (p : Pack) (e : ExpressionRef) (id : String) : Prop where
  owned : ∃ c ∈ p.store.members, e ∈ (p.graph.condition c).expressions
  named : (p.graph.expression e).named? = some id

/-- **Whatever is bound is bound to what it names**, in a whole pack. -/
structure BindsNamed (p : Pack) : Prop extends p.Whole where
  names (e : ExpressionRef) (t : Item) : (p.graph.expression e).target = some t →
    ∃ id a, p.Names e id ∧ p.stored? id = some a ∧ t = .condition a

/-- The links of a pack are what the stored conditions name. -/
lemma mem_links_iff : e ∈ (p.store.links p.graph).map Store.Link.expression ↔
    p.Names e ((p.graph.expression e).conditionId.getD "") := by
  constructor
  · intro he
    obtain ⟨l, hl, rfl⟩ := List.mem_map.mp he
    obtain ⟨howner, he, hdomain⟩ := Store.mem_links.mp hl
    exact ⟨⟨_, howner, he⟩, Expression.named?_eq_some_iff.mpr ⟨hdomain, rfl⟩⟩
  · rintro ⟨⟨c, hc, he⟩, hnamed⟩
    exact List.mem_map.mpr ⟨⟨c, e⟩, Store.mem_links.mpr
      ⟨hc, he, (Expression.named?_eq_some_iff.mp hnamed).1⟩, rfl⟩

lemma Names.eq (h : p.Names e id) : (p.graph.expression e).conditionId.getD "" = id :=
  (Expression.named?_eq_some_iff.mp h.named).2

/-- What a reference names does not depend on what is bound, nor on what is stored later. -/
lemma Names.of_keeps (h : p.Names e id) (hmembers : p.store.members ⊆ q.store.members)
    (hkeeps : p.graph.Keeps q.graph) : q.Names e id := by
  obtain ⟨⟨c, hc, he⟩, hnamed⟩ := h
  -- an owner with expressions, and a reference, are of the graph, even of one that is not whole
  have hcondition := (hkeeps.condition c (Graph.index_lt_of_mem_expressions he)).2
  have hthere := Graph.index_lt_of_domain (Expression.named?_eq_some_iff.mp hnamed).1
  refine ⟨⟨c, hmembers hc, by rwa [hcondition]⟩, ?_⟩
  calc (q.graph.expression e).named? = (q.graph.expression e).unbound.named? := rfl
    _ = (p.graph.expression e).unbound.named? := by rw [(hkeeps.expression e hthere).2]
    _ = some id := hnamed

/-- New conditions leave what is bound. -/
lemma target_gains (hq : p.Gains ds q) {t : Item} :
    (q.graph.expression e).target = some t ↔ (p.graph.expression e).target = some t := by
  by_cases hthere : e.index < p.graph.expressions.size
  · rw [(hq.expression e hthere).2]
  · rw [hq.unbound e (not_lt.mp hthere), Graph.target_of_le (not_lt.mp hthere)]

lemma Names.gains (h : p.Names e id) (hq : p.Gains ds q) : q.Names e id := by
  obtain ⟨new, hmembers, -⟩ := hq.members
  exact h.of_keeps (by simp [hmembers]) hq.keeps

lemma stored?_gains {a : ConditionRef} (hp : p.Whole) (hq : p.Gains ds q)
    (ha : p.stored? id = some a) : q.stored? id = some a := by
  obtain ⟨new, hmembers, -⟩ := hq.members
  rw [stored?, ← Store.find?_keeps hq.keeps hp.conditions] at ha
  rw [stored?, Store.find?, hmembers, List.find?_append, ← Store.find?, ha]
  rfl

lemma BindsNamed.gains (h : p.BindsNamed) (hq : p.Gains ds q) : q.BindsNamed where
  toWhole := h.toWhole.gains hq
  names e t ht := by
    obtain ⟨id, a, hnames, ha, ht⟩ := h.names e t ((target_gains hq).mp ht)
    exact ⟨id, a, hnames.gains hq, stored?_gains h.toWhole hq ha, ht⟩

/-- What is bound to nothing so far may as well be bound to what it names. -/
lemma BindsNamed.or_target (h : p.BindsNamed) (hnames : p.Names e id) :
    ((p.stored? id).map .condition).or (p.graph.expression e).target =
      (p.stored? id).map .condition := by
  cases ht : (p.graph.expression e).target with
  | none => exact Option.or_none
  | some t =>
      obtain ⟨id', a, hnames', ha, rfl⟩ := h.names e t ht
      obtain rfl : id' = id := hnames'.eq.symm.trans hnames.eq
      rw [ha]
      rfl

/-- **What a reference is bound to** by linking that is not strict: to the stored condition that it
names, if there is one. -/
lemma BindsNamed.target_link (h : p.BindsNamed) (hnames : p.Names e id) :
    ((p.link false).2.graph.expression e).target = (p.stored? id).map .condition := by
  have hlink : e ∈ (p.store.links p.graph).map Store.Link.expression := by
    rwa [mem_links_iff, hnames.eq]
  have htarget := Store.target_bindAll_false (s := p.store) h.link_lt e
  rw [if_pos hlink, hnames.eq] at htarget
  exact htarget.trans (h.or_target hnames)

/-- And nothing else is bound. -/
lemma BindsNamed.target_link_of_not (h : p.BindsNamed) (hnone : ¬ ∃ id, p.Names e id) :
    ((p.link false).2.graph.expression e).target = none := by
  have hlink : e ∉ (p.store.links p.graph).map Store.Link.expression :=
    fun he => hnone ⟨_, mem_links_iff.mp he⟩
  have htarget := Store.target_bindAll_false (s := p.store) h.link_lt e
  rw [if_neg hlink] at htarget
  refine htarget.trans (Option.eq_none_iff_forall_ne_some.mpr fun t ht => hnone ?_)
  obtain ⟨id, -, hnames, -⟩ := h.names e t ht
  exact ⟨id, hnames⟩

/-- What is bound stays bound to it. -/
lemma BindsNamed.target_link_of_eq_some (h : p.BindsNamed) {t : Item}
    (ht : (p.graph.expression e).target = some t) :
    ((p.link false).2.graph.expression e).target = some t := by
  obtain ⟨id, a, hnames, ha, rfl⟩ := h.names e t ht
  rw [h.target_link hnames, ha]
  rfl

/-- What is named, and what is stored under an id, does not depend on what is bound. -/
lemma names_congr (h : p.unbind = p'.unbind) : p.Names e id ↔ p'.Names e id := by
  have hunbind (p : Pack) : p.unbind.Names e id ↔ p.Names e id := by
    have hnamed : (p.unbind.graph.expression e).named? = (p.graph.expression e).named? := by
      rw [show p.unbind.graph = p.graph.unbind from rfl, Graph.expression_unbind]
      rfl
    exact ⟨fun h => ⟨h.owned, hnamed ▸ h.named⟩, fun h => ⟨h.owned, hnamed ▸ h.named⟩⟩
  rw [← hunbind, h, hunbind]

lemma stored?_congr (h : p.unbind = p'.unbind) (id : String) : p.stored? id = p'.stored? id :=
  calc p.stored? id = p.unbind.stored? id := rfl
    _ = p'.unbind.stored? id := by rw [h]
    _ = p'.stored? id := rfl

/-- **So linking leads to one pack** from all packs that store the same. -/
lemma link_eq_of_unbind_eq (h : p.BindsNamed) (h' : p'.BindsNamed)
    (hsame : p.unbind = p'.unbind) : (p.link false).2 = (p'.link false).2 := by
  have hstore : p.unbind.store = p'.unbind.store := congrArg Pack.store hsame
  have hgraph : (p.link false).2.graph = (p'.link false).2.graph := by
    refine Graph.eq_of_unbind_eq ?_ fun e => ?_
    · have hunbind := (p.link_unbind false).trans (hsame.trans (p'.link_unbind false).symm)
      exact congrArg Pack.graph hunbind
    · by_cases he : ∃ id, p.Names e id
      · obtain ⟨id, hid⟩ := he
        rw [h.target_link hid, h'.target_link ((names_congr hsame).mp hid), stored?_congr hsame]
      · have he' : ¬ ∃ id, p'.Names e id := by simpa only [← names_congr hsame] using he
        rw [h.target_link_of_not he, h'.target_link_of_not he']
  calc (p.link false).2 = ⟨(p.link false).2.graph, p.unbind.store⟩ := rfl
    _ = ⟨(p'.link false).2.graph, p'.unbind.store⟩ := by rw [hgraph, hstore]
    _ = (p'.link false).2 := rfl

/-- Linking leaves a pack whole. -/
lemma Whole.link (hp : p.Whole) (strict : Bool) : (p.link strict).2.Whole := by
  have hkeeps := (p.store.keeps_bindAll strict (p.store.links p.graph) p.graph).1
  refine ⟨fun c hc => (hkeeps.condition c (hp.conditions c hc)).1, fun c hc e he => ?_⟩
  exact (hkeeps.expression e (hp.expressions c hc e
    ((hkeeps.condition c (hp.conditions c hc)).2 ▸ he))).1

/-- And whatever is bound then is bound to what it names. -/
lemma BindsNamed.link (h : p.BindsNamed) : (p.link false).2.BindsNamed where
  toWhole := h.toWhole.link false
  names e t ht := by
    by_cases he : ∃ id, p.Names e id
    · obtain ⟨id, hid⟩ := he
      rw [h.target_link hid] at ht
      obtain ⟨a, ha, rfl⟩ := Option.map_eq_some_iff.mp ht
      have hsame := p.link_unbind false
      exact ⟨id, a, (names_congr hsame).mpr hid, (stored?_congr hsame id).trans ha, rfl⟩
    · rw [h.target_link_of_not he] at ht
      cases ht

lemma bindsNamed_nil : BindsNamed {} where
  toWhole := holds_nil.whole
  names _ _ ht := by cases ht

end Pack

/-! ### Loading in parts -/

namespace Document

/-- A document that lists the given definitions. -/
def listing (items : List Datum) : Datum := .table [(.text "conditions", .list items)]

lemma written_listing_iff {items : List Datum} {doc : Document} :
    doc.Written (listing items) ↔
      List.Forall₂ ConditionDefinition.Written items doc.conditions := by
  have hfield : Datum.fieldOr [(.text "conditions", .list items)] "conditions" (.list []) =
      .list items := rfl
  constructor
  · rintro ⟨-, hitems, h⟩
    obtain rfl := Datum.list.inj (hfield.symm.trans hitems)
    exact h
  · exact fun h => .record (by simp [Datum.IsRecord]) hfield h

end Document

namespace Pack

open Document (listing)

variable {p p' q : Pack} {ds : List ConditionDefinition} {items : List Datum}

/-- A load that is not strict succeeds exactly if the definitions have their form and can be carried
out. -/
lemma exists_load_listing_iff :
    (∃ names, (p.load (listing items) false).1 = .ok names) ↔
      ∃ ds q, List.Forall₂ ConditionDefinition.Written items ds ∧
        defineAll ds p = (.ok (), q) := by
  constructor
  · rintro ⟨names, hnames⟩
    rcases p.load_cases (listing items) false with ⟨found, -, hload⟩ | ⟨doc, f, q, -, -, hload⟩ |
      ⟨doc, q, hdoc, hdefine, -⟩
    · rw [hload] at hnames
      cases hnames
    · rw [hload] at hnames
      cases hnames
    · exact ⟨doc.conditions, q, Document.written_listing_iff.mp
        (Document.ofDatum_eq_ok_iff_written.mp hdoc), hdefine⟩
  · rintro ⟨ds, q, hitems, hdefine⟩
    have hdoc : Document.ofDatum (listing items) = .ok ⟨ds⟩ :=
      Document.ofDatum_eq_ok_iff_written.mpr (Document.written_listing_iff.mpr hitems)
    rw [load_eq_link hdoc hdefine]
    exact q.store.exists_bindAll_false _ _

lemma load_listing (hitems : List.Forall₂ ConditionDefinition.Written items ds)
    (hdefine : defineAll ds p = (.ok (), q)) :
    (p.load (listing items) false).2 = (q.link false).2 := by
  have hdoc : Document.ofDatum (listing items) = .ok ⟨ds⟩ :=
    Document.ofDatum_eq_ok_iff_written.mpr (Document.written_listing_iff.mpr hitems)
  rw [load_eq_link hdoc hdefine]

/-- Definitions that can be carried out can be carried out whatever is bound, and bring the same. -/
lemma exists_defineAll_of_unbind_eq (h : p.unbind = p'.unbind)
    (hq : defineAll ds p = (.ok (), q)) :
    ∃ q', defineAll ds p' = (.ok (), q') ∧ q.unbind = q'.unbind := by
  have hboth : ((defineAll ds p).1, (defineAll ds p).2.unbind) =
      ((defineAll ds p').1, (defineAll ds p').2.unbind) := by
    rw [← defineAll_unbind, ← defineAll_unbind, h]
  rw [hq] at hboth
  obtain ⟨hanswer, hsame⟩ := Prod.ext_iff.mp hboth
  exact ⟨(defineAll ds p').2, Prod.ext hanswer.symm rfl, hsame⟩

lemma exists_of_defineAll_append {rest : List ConditionDefinition}
    (h : defineAll (ds ++ rest) p = (.ok (), q)) :
    ∃ p', defineAll ds p = (.ok (), p') ∧ defineAll rest p' = (.ok (), q) := by
  rcases hds : defineAll ds p with ⟨f | u, p'⟩
  · obtain ⟨before, d, after, hsplit, hbefore, hd⟩ := exists_of_defineAll_error hds
    rw [hsplit, List.append_assoc, List.cons_append, defineAll_append hbefore, defineAll, hd] at h
    cases h
  · exact ⟨p', rfl, (defineAll_append hds rest).symm.trans h⟩

/-- The steps of a load of two lists of definitions, with nothing bound in between. -/
lemma exists_load_append_iff {d₁ d₂ : List Datum} :
    (∃ names, (p.load (listing (d₁ ++ d₂)) false).1 = .ok names) ↔
      ∃ ds₁ ds₂ p' q, List.Forall₂ ConditionDefinition.Written d₁ ds₁ ∧
        List.Forall₂ ConditionDefinition.Written d₂ ds₂ ∧ defineAll ds₁ p = (.ok (), p') ∧
          defineAll ds₂ p' = (.ok (), q) := by
  rw [exists_load_listing_iff]
  constructor
  · rintro ⟨ds, q, hitems, hdefine⟩
    have hfirst := (List.forall₂_take_append ds d₁ d₂ hitems.flip).flip
    have hsecond := (List.forall₂_drop_append ds d₁ d₂ hitems.flip).flip
    rw [← List.take_append_drop d₁.length ds] at hdefine
    obtain ⟨p', hp', hq⟩ := exists_of_defineAll_append hdefine
    exact ⟨_, _, p', q, hfirst, hsecond, hp', hq⟩
  · rintro ⟨ds₁, ds₂, p', q, hfirst, hsecond, hp', hq⟩
    exact ⟨ds₁ ++ ds₂, q, List.rel_append hfirst hsecond,
      (defineAll_append hp' ds₂).trans hq⟩

/-- The steps of two loads after each other. -/
lemma exists_load_load_iff {d₁ d₂ : List Datum} :
    (∃ names, (p.load (listing d₁) false).1 = .ok names) ∧
        (∃ names, ((p.load (listing d₁) false).2.load (listing d₂) false).1 = .ok names) ↔
      ∃ ds₁ ds₂ p' q, List.Forall₂ ConditionDefinition.Written d₁ ds₁ ∧
        List.Forall₂ ConditionDefinition.Written d₂ ds₂ ∧ defineAll ds₁ p = (.ok (), p') ∧
          defineAll ds₂ (p'.link false).2 = (.ok (), q) := by
  constructor
  · rintro ⟨hfirst, hsecond⟩
    obtain ⟨ds₁, p', hd₁, hp'⟩ := exists_load_listing_iff.mp hfirst
    rw [load_listing hd₁ hp'] at hsecond
    obtain ⟨ds₂, q, hd₂, hq⟩ := exists_load_listing_iff.mp hsecond
    exact ⟨ds₁, ds₂, p', q, hd₁, hd₂, hp', hq⟩
  · rintro ⟨ds₁, ds₂, p', q, hd₁, hd₂, hp', hq⟩
    refine ⟨exists_load_listing_iff.mpr ⟨ds₁, p', hd₁, hp'⟩, ?_⟩
    rw [load_listing hd₁ hp']
    exact exists_load_listing_iff.mpr ⟨ds₂, q, hd₂, hq⟩

/-- **Loading in batches equals loading at once.** Two loads after each other into a new store, both
not strict, succeed exactly if one load of the definitions together does, and lead to the same: the
same conditions, and references that are bound to the stored conditions that they name, if there are
such. So a reference of the first batch is bound to a condition that only the second one defines;
and what was bound by the first load stays bound to it. -/
theorem load_in_batches (d₁ d₂ : List Datum) :
    let first := Pack.load {} (listing d₁) false
    let second := first.2.load (listing d₂) false
    let once := Pack.load {} (listing (d₁ ++ d₂)) false
    ((∃ names, first.1 = .ok names) ∧ (∃ names, second.1 = .ok names) ↔
      ∃ names, once.1 = .ok names) ∧
    ((∃ names, once.1 = .ok names) → second.2 = once.2 ∧
      (∀ e id, once.2.Names e id →
        (once.2.graph.expression e).target = (once.2.stored? id).map .condition) ∧
      (∀ e id, first.2.Names e id → id ∈ second.2.store.ids second.2.graph →
        ∃ t, second.2.stored? id = some t ∧
          (second.2.graph.expression e).target = some (.condition t)) ∧
      ∀ e t, (first.2.graph.expression e).target = some t →
        (second.2.graph.expression e).target = some t) := by
  intro first second once
  refine ⟨?_, fun honce => ?_⟩
  · rw [exists_load_load_iff, exists_load_append_iff]
    constructor
    · rintro ⟨ds₁, ds₂, p', q, hd₁, hd₂, hp', hq⟩
      obtain ⟨q', hq', -⟩ := exists_defineAll_of_unbind_eq (p'.link_unbind false) hq
      exact ⟨ds₁, ds₂, p', q', hd₁, hd₂, hp', hq'⟩
    · rintro ⟨ds₁, ds₂, p', q, hd₁, hd₂, hp', hq⟩
      obtain ⟨q', hq', -⟩ := exists_defineAll_of_unbind_eq (p'.link_unbind false).symm hq
      exact ⟨ds₁, ds₂, p', q', hd₁, hd₂, hp', hq'⟩
  · obtain ⟨ds₁, ds₂, p', q, hd₁, hd₂, hp', hq⟩ := exists_load_append_iff.mp honce
    obtain ⟨q', hq', hsame⟩ := exists_defineAll_of_unbind_eq (p'.link_unbind false).symm hq
    have hfirst : first.2 = (p'.link false).2 := load_listing hd₁ hp'
    have hsecond : second.2 = (q'.link false).2 := by
      rw [← load_listing hd₂ hq', ← hfirst]
    have honce' : once.2 = (q.link false).2 :=
      load_listing (List.rel_append hd₁ hd₂) ((defineAll_append hp' ds₂).trans hq)
    have hnamed' := (bindsNamed_nil.gains (gains_of_defineAll hp')).link
    have hgains := gains_of_defineAll hq'
    have hnamed := hnamed'.gains hgains
    have hnamedOnce := (bindsNamed_nil.gains (gains_of_defineAll hp')).gains (gains_of_defineAll hq)
    rw [hfirst, hsecond, honce']
    refine ⟨link_eq_of_unbind_eq hnamed hnamedOnce hsame.symm, fun e id hid => ?_,
      fun e id hid hmem => ?_, fun e t ht => ?_⟩
    · have hid' : q.Names e id := (names_congr (q.link_unbind false)).mp hid
      rw [hnamedOnce.target_link hid', stored?_congr (q.link_unbind false)]
    · obtain ⟨t, ht⟩ := Option.isSome_iff_exists.mp (Store.isSome_find?_iff.mpr hmem)
      refine ⟨t, ht, ?_⟩
      rw [hnamed.target_link (hid.gains hgains),
        ← stored?_congr (q'.link_unbind false), stored?, ht]
      rfl
    · exact hnamed.target_link_of_eq_some ((target_gains hgains).mpr ht)

/-- If the top condition of the sample is loaded before the others, its reference to the base is
reported first, and bound by the second load. -/
theorem load_in_batches_sample :
    let first := Pack.load {} (listing (Document.sampleItems.take 1)) false
    let second := first.2.load (listing (Document.sampleItems.drop 1)) false
    first.1 = .ok ["base"] ∧ (first.2.graph.expression ⟨0⟩).target = none ∧ second.1 = .ok [] ∧
      second.2 = (Pack.load {} (listing Document.sampleItems) false).2 ∧
      (second.2.graph.expression ⟨0⟩).target = some (.condition ⟨1⟩) := by
  intro first second
  have hsecond : second.1 = .ok [] := rfl
  obtain ⟨hiff, hequal⟩ :=
    load_in_batches (Document.sampleItems.take 1) (Document.sampleItems.drop 1)
  have honce := hiff.mp ⟨⟨["base"], rfl⟩, ⟨[], hsecond⟩⟩
  exact ⟨rfl, rfl, hsecond, (hequal honce).1, rfl⟩

end Pack

end Applicability
