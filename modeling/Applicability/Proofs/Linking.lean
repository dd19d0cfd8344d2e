/-
Linking: what a document is loaded into.

* `bindAll_eq_ok_iff`, `target_bindAll`: strict linking succeeds exactly if every reference names a
  stored condition, and each of them is bound to it then;
* `Document.IsSound`: the expressions of a document can be built, no id is defined twice, and every
  reference names a defined id;
* `Pack.Loaded`: a pack that holds what a document says, with its references bound;
* `load_eq_ok_iff`, `loaded_of_load`: strict loading into a new pack accepts exactly the sound
  documents, and this is what it leads to.
-/
import Applicability.Proofs.Building

namespace Applicability

/-! ### Binding -/

namespace Graph

variable {g : Graph}

lemma keeps_bind (e : ExpressionRef) (target : Option Item) : g.Keeps (g.bind e target) where
  expression f hf := by
    refine ⟨by simpa [bind] using hf, ?_⟩
    rw [expression_bind]
    split <;> rfl
  condition _ hc := ⟨hc, rfl⟩

lemma conditionId_bind (e f : ExpressionRef) (target : Option Item) :
    ((g.bind e target).expression f).conditionId = (g.expression f).conditionId := by
  rw [expression_bind]
  split <;> rfl

lemma bindsConditions_iff :
    g.bindsConditions ↔ ∀ e j, (g.expression e).target = some j → j.isCondition := by
  refine ⟨fun h e j => isCondition_target h, fun h => List.all_eq_true.mpr fun x hx => ?_⟩
  obtain ⟨i, hi, rfl⟩ := List.getElem_of_mem hx
  have he : g.expression ⟨i⟩ = g.expressions.toList[i] := by
    have hi' : i < g.expressions.size := by simpa using hi
    simp [expression, hi']
  rw [← he]
  cases ht : (g.expression ⟨i⟩).target with
  | none => rfl
  | some j => exact h _ j ht

lemma bindsConditions_bind (h : g.bindsConditions) (e : ExpressionRef) (c : ConditionRef) :
    (g.bind e (some (.condition c))).bindsConditions := by
  rw [bindsConditions_iff] at h ⊢
  intro f j hj
  rw [expression_bind] at hj
  split at hj
  · cases hj
    rfl
  · exact h f j hj

lemma Keeps.refl (g : Graph) : g.Keeps g := ⟨fun _ h => ⟨h, rfl⟩, fun _ h => ⟨h, rfl⟩⟩

lemma Keeps.trans {g' g'' : Graph} (h : g.Keeps g') (h' : g'.Keeps g'') : g.Keeps g'' where
  expression e he := by
    obtain ⟨he', hsame⟩ := h.expression e he
    obtain ⟨he'', hsame'⟩ := h'.expression e he'
    exact ⟨he'', hsame'.trans hsame⟩
  condition c hc := by
    obtain ⟨hc', hsame⟩ := h.condition c hc
    obtain ⟨hc'', hsame'⟩ := h'.condition c hc'
    exact ⟨hc'', hsame'.trans hsame⟩

end Graph

namespace Store

variable {s : Store} {g : Graph} {ls : List Link} {names : List String}

/-- What a reference names does not depend on what others are bound to. -/
lemma resolve?_bind (l : Link) (e : ExpressionRef) (target : Option Item) :
    s.resolve? (g.bind e target) l = s.resolve? g l := by
  rw [resolve?, resolve?, Graph.conditionId_bind]
  rfl

/-- **Strict linking succeeds** exactly if every reference names a stored condition. There is
nothing to report then. -/
lemma bindAll_eq_ok_iff :
    (s.bindAll true ls g).1 = .ok names ↔ names = [] ∧ ∀ l ∈ ls, (s.resolve? g l).isSome := by
  induction ls generalizing g with
  | nil =>
      simp only [bindAll, Except.ok.injEq, List.not_mem_nil, false_implies, implies_true, and_true]
      exact eq_comm
  | cons l rest ih =>
      rw [bindAll, List.forall_mem_cons]
      cases hl : s.resolve? g l with
      | none => simp
      | some c => simp only [ih, resolve?_bind, Option.isSome_some, true_and]

/-- Linking leaves all but what expressions are bound to. -/
lemma keeps_bindAll (strict : Bool) (ls : List Link) (g : Graph) :
    g.Keeps (s.bindAll strict ls g).2 ∧ (s.bindAll strict ls g).2.artifacts = g.artifacts ∧
      (s.bindAll strict ls g).2.scripts = g.scripts := by
  induction ls generalizing g with
  | nil => exact ⟨.refl g, rfl, rfl⟩
  | cons l rest ih =>
      rw [bindAll]
      cases hl : s.resolve? g l with
      | none =>
          cases strict with
          | true => exact ⟨.refl g, rfl, rfl⟩
          | false => exact ih g
      | some c =>
          obtain ⟨hkeeps, hrest⟩ := ih (g.bind l.expression (some (.condition c)))
          exact ⟨(Graph.keeps_bind _ _).trans hkeeps, hrest⟩

lemma bindsConditions_bindAll (strict : Bool) (ls : List Link) (hg : g.bindsConditions) :
    (s.bindAll strict ls g).2.bindsConditions := by
  induction ls generalizing g with
  | nil => exact hg
  | cons l rest ih =>
      rw [bindAll]
      cases hl : s.resolve? g l with
      | none =>
          cases strict with
          | true => exact hg
          | false => exact ih hg
      | some c => exact ih (Graph.bindsConditions_bind hg l.expression c)

/-- **What linking binds**, if it is not strict: every reference that names something is bound to
that, and nothing else is bound anew. -/
lemma target_bindAll_false (hstored : ∀ l ∈ ls, l.expression.index < g.expressions.size)
    (e : ExpressionRef) : ((s.bindAll false ls g).2.expression e).target =
      if e ∈ ls.map Link.expression then
        ((s.find? g ((g.expression e).conditionId.getD "")).map .condition).or
          (g.expression e).target
      else (g.expression e).target := by
  induction ls generalizing g with
  | nil => simp [bindAll]
  | cons l rest ih =>
      have hrest := fun l' hl' => hstored l' (List.mem_cons_of_mem l hl')
      rw [bindAll, List.map_cons]
      cases hl : s.resolve? g l with
      | none =>
          rw [resolve?] at hl
          refine (ih hrest).trans ?_
          by_cases he : e = l.expression
          · subst he
            simp [hl]
          · simp [he]
      | some c =>
          have hbound := ih (g := g.bind l.expression (some (.condition c)))
            fun l' hl' => by simpa [Graph.bind] using hrest l' hl'
          have hfind : ∀ id, s.find? (g.bind l.expression (some (.condition c))) id =
            s.find? g id := fun _ => rfl
          rw [resolve?] at hl
          dsimp only
          rw [hbound, Graph.conditionId_bind, hfind, Graph.expression_bind]
          -- whether it is bound here or by a later reference, it is to the same condition
          by_cases he : e = l.expression
          · subst he
            simp [hl, hstored l List.mem_cons_self]
          · simp [he]

/-- Strict linking binds the same, if every reference names something. -/
lemma bindAll_true_eq (hls : ∀ l ∈ ls, (s.resolve? g l).isSome) :
    (s.bindAll true ls g).2 = (s.bindAll false ls g).2 := by
  induction ls generalizing g with
  | nil => rfl
  | cons l rest ih =>
      obtain ⟨c, hc⟩ := Option.isSome_iff_exists.mp (hls l List.mem_cons_self)
      rw [bindAll, bindAll, hc]
      exact ih fun l' hl' => by rw [resolve?_bind]; exact hls l' (List.mem_cons_of_mem l hl')

/-- **What strict linking binds**: every reference is bound to what it names, and nothing else is
bound anew. -/
lemma target_bindAll (hls : ∀ l ∈ ls, (s.resolve? g l).isSome)
    (hstored : ∀ l ∈ ls, l.expression.index < g.expressions.size) (e : ExpressionRef) :
    ((s.bindAll true ls g).2.expression e).target =
      if e ∈ ls.map Link.expression then
        (s.find? g ((g.expression e).conditionId.getD "")).map .condition
      else (g.expression e).target := by
  rw [bindAll_true_eq hls, target_bindAll_false hstored]
  split
  · rename_i he
    obtain ⟨l, hl, rfl⟩ := List.mem_map.mp he
    obtain ⟨c, hc⟩ := Option.isSome_iff_exists.mp (hls l hl)
    rw [resolve?] at hc
    rw [hc]
    rfl
  · rfl

/-- The references that stored conditions make. -/
lemma mem_links {l : Link} :
    l ∈ s.links g ↔ l.owner ∈ s.members ∧ l.expression ∈ (g.condition l.owner).expressions ∧
      (g.expression l.expression).domain = .reference := by
  simp only [links, List.mem_flatMap, List.mem_map, List.mem_filter, decide_eq_true_eq]
  constructor
  · rintro ⟨c, hc, e, he, rfl⟩
    exact ⟨hc, he⟩
  · rintro ⟨hc, he⟩
    exact ⟨l.owner, hc, l.expression, he, rfl⟩

end Store

/-! ### Loading -/

/-- **A sound document**: the expressions can be built, no id is defined twice, and every reference
names a defined id. -/
structure Document.IsSound (doc : Document) : Prop where
  buildable : ∀ d ∈ doc.conditions, d.IsBuildable
  ids : (doc.conditions.map (·.id)).Nodup
  named : ∀ d ∈ doc.conditions, ∀ x ∈ d.expressions, ∀ id, x.named? = some id →
    id ∈ doc.conditions.map (·.id)

namespace Pack

variable {p : Pack} {ds : List ConditionDefinition} {doc : Document} {data : Datum}
  {names : List String} {id : String} {c : ConditionRef} {e : ExpressionRef}

/-- The stored condition of an id. -/
def stored? (p : Pack) (id : String) : Option ConditionRef := p.store.find? p.graph id

lemma stored?_eq_some (h : p.stored? id = some c) :
    c ∈ p.store.members ∧ (p.graph.condition c).id = id :=
  Store.find?_eq_some h

/-- **A pack into which a document was loaded**: it holds what the document says, and every
reference is bound to the stored condition that it names. -/
structure Loaded (p : Pack) (doc : Document) : Prop extends p.Holds doc.conditions where
  bound : ∀ c ∈ p.store.members, ∀ e ∈ (p.graph.condition c).expressions, ∀ id,
    (p.graph.expression e).named? = some id → ∃ t, p.stored? id = some t ∧
      (p.graph.expression e).target = some (.condition t)

/-- What the references of stored conditions name is what the references of the definitions name. -/
lemma Holds.links_resolve_iff (h : p.Holds ds) :
    (∀ l ∈ p.store.links p.graph, (p.store.resolve? p.graph l).isSome) ↔
      ∀ d ∈ ds, ∀ x ∈ d.expressions, ∀ id, x.named? = some id → id ∈ ds.map (·.id) := by
  constructor
  · intro hall d hd x hx id hid
    obtain ⟨c, hc, hbuilds⟩ := exists_right_of_forall₂ h.built hd
    obtain ⟨e, he, hexpression⟩ := exists_right_of_forall₂ hbuilds.expressions hx
    obtain ⟨hdomain, hnamed⟩ :=
      Expression.named?_eq_some_iff.mp (hexpression.named?.trans hid)
    have hlink := hall ⟨c, e⟩ (Store.mem_links.mpr ⟨hc, he, hdomain⟩)
    rwa [Store.resolve?, hnamed, Store.isSome_find?_iff, h.ids_eq] at hlink
  · intro hall l hl
    obtain ⟨howner, he, hdomain⟩ := Store.mem_links.mp hl
    obtain ⟨d, hd, hbuilds⟩ := h.exists_builds howner
    obtain ⟨x, hx, hexpression⟩ := exists_left_of_forall₂ hbuilds.expressions he
    have hnamed := Expression.named?_eq_some_iff.mpr ⟨hdomain, rfl⟩
    rw [Store.resolve?, Store.isSome_find?_iff, h.ids_eq]
    exact hall d hd x hx _ (hexpression.named?.symm.trans hnamed)

lemma Holds.exists_link (h : p.Holds ds) {g : Graph} (hg : p.graph.Keeps g)
    (hc : c ∈ p.store.members) (he : e ∈ (g.condition c).expressions)
    (hid : (g.expression e).named? = some id) :
    ⟨c, e⟩ ∈ p.store.links p.graph ∧ (p.graph.expression e).conditionId.getD "" = id := by
  rw [(hg.condition c (h.stored c hc)).2] at he
  have hthere := h.index_lt_of_mem_parts (List.mem_flatMap.mpr ⟨c, hc, he⟩)
  have hsame : (g.expression e).unbound.named? = (p.graph.expression e).unbound.named? := by
    rw [(hg.expression e hthere).2]
  obtain ⟨hdomain, hnamed⟩ := Expression.named?_eq_some_iff.mp (hsame.symm.trans hid)
  exact ⟨Store.mem_links.mpr ⟨hc, he, hdomain⟩, hnamed⟩

lemma Holds.link (h : p.Holds ds) (strict : Bool) : (p.link strict).2.Holds ds := by
  obtain ⟨hkeeps, hartifacts, hscripts⟩ :=
    p.store.keeps_bindAll strict (p.store.links p.graph) p.graph
  have hparts := h.parts_keeps hkeeps
  exact ⟨h.built.imp fun d c hd => hd.keeps hkeeps, by rw [parts]; exact hparts ▸ h.apart, h.ids,
    p.store.bindsConditions_bindAll strict _ h.binds, hartifacts.trans h.artifacts,
    hscripts.trans h.scripts⟩

/-- What strict linking leads to, if it succeeds. -/
lemma Holds.loaded_of_link (h : p.Holds doc.conditions) (hlink : (p.link true).1 = .ok names) :
    (p.link true).2.Loaded doc := by
  have hall := (Store.bindAll_eq_ok_iff.mp hlink).2
  obtain ⟨hkeeps, -, -⟩ := p.store.keeps_bindAll true (p.store.links p.graph) p.graph
  have hstored : ∀ l ∈ p.store.links p.graph, l.expression.index < p.graph.expressions.size := by
    intro l hl
    obtain ⟨howner, he, -⟩ := Store.mem_links.mp hl
    exact h.index_lt_of_mem_parts (List.mem_flatMap.mpr ⟨_, howner, he⟩)
  refine ⟨h.link true, fun c hc e he id hid => ?_⟩
  obtain ⟨hl, hnamed⟩ := h.exists_link hkeeps hc he hid
  obtain ⟨t, ht⟩ := Option.isSome_iff_exists.mp (hall _ hl)
  rw [Store.resolve?, hnamed] at ht
  have htarget := Store.target_bindAll hall hstored e
  rw [if_pos (List.mem_map.mpr ⟨_, hl, rfl⟩), hnamed, ht] at htarget
  exact ⟨t, (Store.find?_keeps hkeeps h.stored).trans ht, htarget⟩

/-- Loading is carrying out the definitions and linking. -/
lemma load_eq_link {q : Pack} (hdoc : Document.ofDatum data = .ok doc)
    (hq : defineAll doc.conditions p = (.ok (), q)) (strict : Bool) :
    p.load data strict = q.link strict := by
  rw [load, hdoc]
  dsimp only
  rw [hq]

/-- Strict loading into a new pack, where it succeeds, goes this way. -/
lemma exists_defineAll_of_load (h : (Pack.load {} data true).1 = .ok names) :
    ∃ doc q, Document.ofDatum data = .ok doc ∧ defineAll doc.conditions {} = (.ok (), q) ∧
      (q.link true).1 = .ok names := by
  cases hdoc : Document.ofDatum data with
  | error found =>
      rw [load_of_malformed hdoc] at h
      cases h
  | ok doc =>
      rcases hdefine : defineAll doc.conditions {} with ⟨answer, q⟩
      cases answer with
      | error f =>
          rw [load, hdoc] at h
          dsimp only at h
          rw [hdefine] at h
          cases h
      | ok u =>
          rw [load_eq_link hdoc hdefine] at h
          exact ⟨doc, q, rfl, hdefine, h⟩

/-- **Strict loading into a new pack** accepts exactly the sound documents, and has nothing to
report then. -/
lemma load_eq_ok_iff :
    (Pack.load {} data true).1 = .ok names ↔
      names = [] ∧ ∃ doc, Document.ofDatum data = .ok doc ∧ doc.IsSound := by
  constructor
  · intro h
    obtain ⟨doc, q, hdoc, hq, hlink⟩ := exists_defineAll_of_load h
    have hholds : q.Holds doc.conditions := holds_nil.defineAll hq
    obtain ⟨hbuildable, hids⟩ := holds_nil.exists_defineAll_iff.mp ⟨q, hq⟩
    obtain ⟨hnames, hall⟩ := Store.bindAll_eq_ok_iff.mp hlink
    exact ⟨hnames, doc, hdoc, hbuildable, hids, hholds.links_resolve_iff.mp hall⟩
  · rintro ⟨rfl, doc, hdoc, hsound⟩
    obtain ⟨q, hq⟩ := holds_nil.exists_defineAll_iff.mpr ⟨hsound.buildable, hsound.ids⟩
    have hholds : q.Holds doc.conditions := holds_nil.defineAll hq
    rw [load_eq_link hdoc hq]
    exact Store.bindAll_eq_ok_iff.mpr ⟨rfl, hholds.links_resolve_iff.mpr hsound.named⟩

/-- **What strict loading leads to.** -/
lemma loaded_of_load (h : (Pack.load {} data true).1 = .ok names) :
    ∃ doc, Document.ofDatum data = .ok doc ∧ (Pack.load {} data true).2.Loaded doc := by
  obtain ⟨doc, q, hdoc, hq, hlink⟩ := exists_defineAll_of_load h
  have hholds : q.Holds doc.conditions := holds_nil.defineAll hq
  rw [load_eq_link hdoc hq]
  exact ⟨doc, hdoc, hholds.loaded_of_link hlink⟩

end Pack

/-! ### Ids and what they stand for -/

namespace Document

/-- The definition of an id. -/
def definition? (doc : Document) (id : String) : Option ConditionDefinition :=
  doc.conditions.find? fun d => d.id == id

/-- The definition of an id has a reference to another id. -/
def Refers (doc : Document) (a b : String) : Prop :=
  ∃ d, doc.definition? a = some d ∧ ∃ x ∈ d.expressions, x.named? = some b

/-- A document whose top condition refers to its base, and with a condition that refers to itself by
its attributes. -/
def sample : Document where
  conditions := [
    { id := "top", description := "", expressions := [⟨.accept, .condition "base"⟩] },
    { id := "base", description := "",
      expressions := [⟨.require, .attributes [("Dcore", "M4")]⟩] },
    { id := "loop", description := "",
      expressions := [⟨.require, .attributes [("condition", "loop")]⟩] }]

/-- Its definitions as they are handed in. -/
def sampleItems : List Datum := [
  .table [(.text "id", .text "top"), (.text "expressions", .list [
    .table [(.text "role", .text "accept"), (.text "condition", .text "base")]])],
  .table [(.text "id", .text "base"), (.text "expressions", .list [
    .table [(.text "role", .text "require"),
      (.text "attributes", .table [(.text "Dcore", .text "M4")])]])],
  .table [(.text "id", .text "loop"), (.text "expressions", .list [
    .table [(.text "role", .text "require"),
      (.text "attributes", .table [(.text "condition", .text "loop")])]])]]

/-- The document as it is handed in. -/
def sampleData : Datum := .table [(.text "conditions", .list sampleItems)]

lemma ofDatum_sampleData : ofDatum sampleData = .ok sample := rfl

lemma load_sampleData : (Pack.load {} sampleData true).1 = .ok [] := rfl

end Document

namespace Pack

variable {p : Pack} {doc : Document} {id : String} {c : ConditionRef} {d : ConditionDefinition}

/-- An id has a definition exactly if it has a stored condition, which is as the definition says. -/
lemma Holds.rel_stored? (h : p.Holds doc.conditions) (id : String) :
    Option.Rel p.graph.Builds (doc.definition? id) (p.stored? id) :=
  rel_find? h.built fun d c hd => by rw [hd.id]

lemma Holds.stored?_of_definition? (h : p.Holds doc.conditions)
    (hd : doc.definition? id = some d) : ∃ c, p.stored? id = some c ∧ p.graph.Builds d c := by
  have hrel := h.rel_stored? id
  rw [hd] at hrel
  generalize p.stored? id = found at hrel ⊢
  cases hrel with
  | some hbuilds => exact ⟨_, rfl, hbuilds⟩

lemma Holds.definition?_of_stored? (h : p.Holds doc.conditions)
    (hc : p.stored? id = some c) : ∃ d, doc.definition? id = some d ∧ p.graph.Builds d c := by
  have hrel := h.rel_stored? id
  rw [hc] at hrel
  generalize doc.definition? id = found at hrel ⊢
  cases hrel with
  | some hbuilds => exact ⟨_, rfl, hbuilds⟩

end Pack

end Applicability
