/-
Relinking: what linking does, exactly, and that doing it again does nothing more.

The references of a store are bound one after the other, in place. An expression can be among them
several times, it can be bound to something else already, and strict linking stops midway. What is
looked up does not change on the way, so that linking is described by the references that name
nothing.

* `Pack.unknown`: the references that name no stored condition, in order;
* `answer_bindAll_false`, `answer_bindAll_true`: what is answered;
* `bindAll_true_snd`: strict linking leaves what linking the references before the first unknown one
  leaves;
* `answer_bindAll_congr`, `bindAll_bindAll`: neither what is answered nor what is left changes when
  references are bound again;
* `link_exact`: the whole of it for a store in order.
-/
import Applicability.Proofs.Batches
import Applicability.Proofs.Storing

namespace Applicability

namespace Graph

variable {g g' : Graph}

/-- Graphs that are the same but for what is bound are the same beside their expressions. -/
lemma beside_of_unbind_eq (h : g.unbind = g'.unbind) :
    g.expressions.size = g'.expressions.size ∧ g.conditions = g'.conditions ∧
      g.artifacts = g'.artifacts ∧ g.scripts = g'.scripts := by
  obtain ⟨hexpressions, hconditions, hartifacts, hscripts⟩ := Graph.mk.inj h
  exact ⟨by simpa using congrArg Array.size hexpressions, hconditions, hartifacts, hscripts⟩

end Graph

namespace Store

variable {s : Store} {g g' : Graph} {ls : List Link} {strict : Bool}

/-! ### What is answered -/

/-- What the problem of a reference says that names an id. -/
lemma unresolved_eq {l : Link} {id : String}
    (h : (g.expression l.expression).conditionId = some id) :
    unresolved g l = {
      kind := .unresolvedReference
      message := s!"Condition '{(g.condition l.owner).id}' references unknown condition '{id}'"
      details := [("condition_id", .datum (.text (g.condition l.owner).id)),
        ("reference", .datum (.text id))] } := by
  simp only [unresolved, h]
  rfl

/-- A reference that names no stored condition. -/
def isUnknown (s : Store) (g : Graph) (l : Link) : Bool := (s.resolve? g l).isNone

lemma isUnknown_bind (e : ExpressionRef) (target : Option Item) :
    s.isUnknown (g.bind e target) = s.isUnknown g := by
  funext l
  rw [isUnknown, isUnknown, resolve?_bind]

lemma isUnknown_of_none {l : Link} (h : s.resolve? g l = none) : s.isUnknown g l = true := by
  rw [isUnknown, h]
  rfl

lemma not_isUnknown_of_some {l : Link} {c : ConditionRef} (h : s.resolve? g l = some c) :
    ¬ s.isUnknown g l = true := by
  rw [isUnknown, h]
  nofun

/-- **Linking that is not strict answers** what the unknown references name. -/
lemma answer_bindAll_false (ls : List Link) (g : Graph) :
    (s.bindAll false ls g).1 = .ok ((ls.filter (s.isUnknown g)).map fun l =>
      Graph.textOrNone (g.expression l.expression).conditionId) := by
  induction ls generalizing g with
  | nil => rfl
  | cons l rest ih =>
      rw [bindAll]
      cases hl : s.resolve? g l with
      | none =>
          rw [List.filter_cons_of_pos (isUnknown_of_none hl), List.map_cons]
          exact congrArg (Except.map _) (ih g)
      | some c =>
          rw [List.filter_cons_of_neg (not_isUnknown_of_some hl)]
          simp only [ih, isUnknown_bind, Graph.conditionId_bind]

/-- **Strict linking answers** the problem of the first unknown reference, or that there is none. -/
lemma answer_bindAll_true (ls : List Link) (g : Graph) :
    (s.bindAll true ls g).1 =
      match ls.filter (s.isUnknown g) with
      | [] => .ok []
      | l :: _ => .error (.problem (unresolved g l)) := by
  induction ls generalizing g with
  | nil => rfl
  | cons l rest ih =>
      rw [bindAll]
      cases hl : s.resolve? g l with
      | none => rw [List.filter_cons_of_pos (isUnknown_of_none hl)]; rfl
      | some c =>
          rw [List.filter_cons_of_neg (not_isUnknown_of_some hl)]
          simp only [ih, isUnknown_bind, unresolved_bind]

/-! ### What is left -/

/-- **Strict linking leaves** what linking the references before the first unknown one leaves. -/
lemma bindAll_true_snd (ls : List Link) (g : Graph) :
    (s.bindAll true ls g).2 =
      (s.bindAll false (ls.takeWhile fun l => !s.isUnknown g l) g).2 := by
  induction ls generalizing g with
  | nil => rfl
  | cons l rest ih =>
      rw [bindAll]
      cases hl : s.resolve? g l with
      | none =>
          have hunknown := isUnknown_of_none hl
          rw [List.takeWhile_cons_of_neg (by simpa using hunknown)]
          rfl
      | some c =>
          have hknown := not_isUnknown_of_some hl
          rw [List.takeWhile_cons_of_pos (by simpa using hknown), bindAll, hl]
          simpa only [isUnknown_bind] using ih (g.bind l.expression (some (.condition c)))

/-- What a reference names, and what it is bound to, is looked up in a graph before anything is
bound. -/
lemma resolve?_unbind (l : Link) : s.resolve? g.unbind l = s.resolve? g l := by
  rw [resolve?, resolve?, Graph.expression_unbind]
  rfl

lemma unresolved_unbind (l : Link) : unresolved g.unbind l = unresolved g l := by
  rw [unresolved, unresolved, Graph.expression_unbind]
  rfl

lemma links_unbind : s.links g.unbind = s.links g := by
  simp only [links, Graph.expression_unbind]
  rfl

lemma isUnknown_congr (h : g.unbind = g'.unbind) : s.isUnknown g = s.isUnknown g' := by
  funext l
  rw [isUnknown, ← resolve?_unbind, h, resolve?_unbind, ← isUnknown]

/-- What is answered does not depend on what is bound already. -/
lemma answer_bindAll_congr (h : g.unbind = g'.unbind) (ls : List Link) :
    (s.bindAll strict ls g).1 = (s.bindAll strict ls g').1 := by
  cases strict with
  | false =>
      have hid : ∀ e, (g.expression e).conditionId = (g'.expression e).conditionId := fun e =>
        calc (g.expression e).conditionId = (g.unbind.expression e).conditionId := by
              rw [Graph.expression_unbind]; rfl
          _ = (g'.unbind.expression e).conditionId := by rw [h]
          _ = (g'.expression e).conditionId := by rw [Graph.expression_unbind]; rfl
      simp only [answer_bindAll_false, isUnknown_congr h, hid]
  | true =>
      have hproblem : ∀ l, unresolved g l = unresolved g' l := fun l => by
        rw [← unresolved_unbind, h, unresolved_unbind]
      simp only [answer_bindAll_true, isUnknown_congr h, hproblem]

/-- References that are bound again are bound to what they are bound to. -/
lemma bindAll_false_bindAll (hthere : ∀ l ∈ ls, l.expression.index < g.expressions.size) :
    (s.bindAll false ls (s.bindAll false ls g).2).2 = (s.bindAll false ls g).2 := by
  set after := (s.bindAll false ls g).2 with hafter
  have hunbind : after.unbind = g.unbind := s.unbind_bindAll false ls g
  have hsize : after.expressions.size = g.expressions.size :=
    (Graph.beside_of_unbind_eq hunbind).1
  -- an expression that occurs several times is bound to the same condition each time, so that it is
  -- enough to compare what each of them is bound to in the end
  refine Graph.eq_of_unbind_eq (s.unbind_bindAll false ls after) fun e => ?_
  have htarget := target_bindAll_false (s := s) hthere e
  have hfound : s.find? after ((after.expression e).conditionId.getD "") =
      s.find? g ((g.expression e).conditionId.getD "") := by
    have hlookUp := resolve?_unbind (s := s) (g := after) (l := ⟨default, e⟩)
    rw [hunbind, resolve?_unbind] at hlookUp
    exact hlookUp.symm
  rw [target_bindAll_false (fun l hl => hsize ▸ hthere l hl), hfound, htarget]
  split
  · rw [← Option.or_assoc, Option.or_self]
  · rfl

/-- **Binding references again**, strictly or not, answers the same and changes nothing. -/
lemma bindAll_bindAll (hthere : ∀ l ∈ ls, l.expression.index < g.expressions.size) :
    s.bindAll strict ls (s.bindAll strict ls g).2 = s.bindAll strict ls g := by
  have hunbind := s.unbind_bindAll strict ls g
  refine Prod.ext ?_ ?_
  · exact answer_bindAll_congr hunbind ls
  · cases strict with
    | false => exact bindAll_false_bindAll hthere
    | true =>
        rw [bindAll_true_snd ls (s.bindAll true ls g).2, isUnknown_congr hunbind, bindAll_true_snd]
        exact bindAll_false_bindAll fun l hl => hthere l (List.takeWhile_subset _ hl)

lemma index_lt_of_mem_links {l : Link} (hl : l ∈ s.links g) :
    l.expression.index < g.expressions.size :=
  Graph.index_lt_of_domain (mem_links.mp hl).2.2

end Store

/-! ### Linking a pack -/

namespace Pack

variable {p : Pack} {l : Store.Link} {strict : Bool}

/-- The id that a reference names. -/
def named (p : Pack) (l : Store.Link) : String :=
  (p.graph.expression l.expression).conditionId.getD ""

/-- **The unknown references**: those of the stored conditions, in the order of registration and of
the conditions' own lists, whose ids are not stored. -/
def unknown (p : Pack) : List Store.Link :=
  (p.store.links p.graph).filter fun l => p.named l ∉ p.store.ids p.graph

lemma unknown_eq (p : Pack) :
    p.unknown = (p.store.links p.graph).filter (p.store.isUnknown p.graph) := by
  refine List.filter_congr fun l _ => ?_
  rw [Store.isUnknown, Store.resolve?, ← Option.not_isSome, ← named]
  simp only [← Store.isSome_find?_iff, Bool.not_eq_true, Bool.decide_eq_false]

/-- **Linking again** answers the same and changes nothing. -/
lemma link_link (p : Pack) (strict : Bool) : (p.link strict).2.link strict = p.link strict := by
  have hunbind := p.store.unbind_bindAll strict (p.store.links p.graph) p.graph
  have hlinks : p.store.links (p.store.link p.graph strict).2 = p.store.links p.graph := by
    rw [Store.link, ← Store.links_unbind, hunbind, Store.links_unbind]
  have hagain : p.store.link (p.store.link p.graph strict).2 strict =
      p.store.link p.graph strict := by
    rw [Store.link, hlinks]
    exact Store.bindAll_bindAll fun l hl => Store.index_lt_of_mem_links hl
  exact congrArg
    (fun x : Except Fault (List String) × Graph => (x.1, { p with graph := x.2 })) hagain

lemma InOrder.expression_link (hp : p.InOrder) (hl : l ∈ p.store.links p.graph) {c : ConditionRef}
    (hc : c ∈ p.store.members) (hid : (p.graph.condition c).id = p.named l) :
    (p.link false).2.graph.expression l.expression =
      { p.graph.expression l.expression with target := some (.condition c) } := by
  have hthere : ∀ l ∈ p.store.links p.graph, l.expression.index < p.graph.expressions.size :=
    fun l hl => Store.index_lt_of_mem_links hl
  have hfound : p.store.find? p.graph (p.named l) = some c := hid ▸ Store.find?_of_mem hp.ids hc
  have htarget := Store.target_bindAll_false (s := p.store) hthere l.expression
  rw [if_pos (List.mem_map_of_mem hl), ← named, hfound] at htarget
  refine Expression.eq_of_unbound_eq ?_ htarget
  have hkeeps := (p.store.keeps_bindAll false (p.store.links p.graph) p.graph).1
  exact (hkeeps.expression l.expression (hthere l hl)).2

/-- What is no reference of a stored condition, or is an unknown one, is as it was. -/
lemma expression_link_of_unknown (p : Pack) {e : ExpressionRef}
    (he : ∀ l ∈ p.store.links p.graph, l.expression = e → l ∈ p.unknown) :
    (p.link false).2.graph.expression e = p.graph.expression e := by
  have hthere : ∀ l ∈ p.store.links p.graph, l.expression.index < p.graph.expressions.size :=
    fun l hl => Store.index_lt_of_mem_links hl
  have hunbind := p.store.unbind_bindAll false (p.store.links p.graph) p.graph
  have htarget := Store.target_bindAll_false (s := p.store) hthere e
  refine Expression.eq_of_unbound_eq ?_ (htarget.trans ?_)
  · rw [← Graph.expression_unbind, ← Graph.expression_unbind]
    exact congrArg (·.expression e) hunbind
  · split
    · next hmem =>
      obtain ⟨l, hl, rfl⟩ := List.mem_map.mp hmem
      have hunknown := he l hl rfl
      rw [unknown_eq, List.mem_filter, Store.isUnknown, Store.resolve?, Option.isNone_iff_eq_none]
        at hunknown
      rw [hunknown.2]
      rfl
    · rfl

/-- **Linking is exact.** Take a store in order, whose references have ids. Linking that is not
strict binds each reference whose id is stored to the condition of this id, and changes nothing
else: not what else it says, not the unknown references, not the expressions of no stored condition,
nor anything beside the expressions. It answers the ids of the unknown references, in order. If
there are any, strict linking fails with the problem of the first one; if there are none, it does
the same as the other and answers nothing. Linking again answers the same and changes nothing. -/
theorem link_exact (p : Pack) (hp : p.InOrder)
    (hids : ∀ l ∈ p.store.links p.graph, (p.graph.expression l.expression).conditionId ≠ none) :
    let q := (p.link false).2
    (∀ l ∈ p.store.links p.graph, ∀ c ∈ p.store.members, (p.graph.condition c).id = p.named l →
      q.graph.expression l.expression =
        { p.graph.expression l.expression with target := some (.condition c) }) ∧
    (∀ e, (∀ l ∈ p.store.links p.graph, l.expression = e → l ∈ p.unknown) →
      q.graph.expression e = p.graph.expression e) ∧
    ((q.graph.expressions.size = p.graph.expressions.size ∧
      q.graph.conditions = p.graph.conditions ∧ q.graph.artifacts = p.graph.artifacts ∧
      q.graph.scripts = p.graph.scripts) ∧ q.store = p.store) ∧
    (p.link false).1 = .ok (p.unknown.map p.named) ∧
    (match p.unknown with
      | [] => p.link true = (.ok [], q)
      | l :: _ =>
        let id := (p.graph.condition l.owner).id
        (p.link true).1 = .error (.problem {
          kind := .unresolvedReference
          message := s!"Condition '{id}' references unknown condition '{p.named l}'"
          details := [("condition_id", .datum (.text id)),
            ("reference", .datum (.text (p.named l)))] })) ∧
    ∀ strict, (p.link strict).2.link strict = p.link strict := by
  intro q
  have hunbind : q.graph.unbind = p.graph.unbind :=
    p.store.unbind_bindAll false (p.store.links p.graph) p.graph
  have hname : ∀ l ∈ p.store.links p.graph,
      (p.graph.expression l.expression).conditionId = some (p.named l) := by
    intro l hl
    obtain ⟨id, hid⟩ := Option.ne_none_iff_exists'.mp (hids l hl)
    rw [named, hid]
    rfl
  refine ⟨fun l hl c hc hid => hp.expression_link hl hc hid,
    fun e he => p.expression_link_of_unknown he, ⟨Graph.beside_of_unbind_eq hunbind, rfl⟩, ?_, ?_,
    fun strict => p.link_link strict⟩
  · refine (Store.answer_bindAll_false _ _).trans ?_
    rw [← unknown_eq]
    refine congrArg Except.ok (List.map_congr_left fun l hl => ?_)
    rw [hname l (List.mem_of_mem_filter hl)]
    rfl
  · have hanswer : (p.link true).1 = _ := Store.answer_bindAll_true (p.store.links p.graph) p.graph
    rw [← unknown_eq] at hanswer
    split
    · next hnone =>
      rw [hnone] at hanswer
      have hknown : ∀ l ∈ p.store.links p.graph, (p.store.resolve? p.graph l).isSome := by
        intro l hl
        rw [unknown_eq, List.filter_eq_nil_iff] at hnone
        simpa [Store.isUnknown, Option.isSome_iff_ne_none] using hnone l hl
      exact Prod.ext hanswer (congrArg (fun g => ({ p with graph := g } : Pack))
        (Store.bindAll_true_eq hknown))
    · next l rest hunknown =>
      have hl : l ∈ p.store.links p.graph :=
        List.mem_of_mem_filter (show l ∈ p.unknown by rw [hunknown]; simp)
      rw [hunknown] at hanswer
      exact hanswer.trans (congrArg (Except.error ∘ Fault.problem)
        (Store.unresolved_eq (hname l hl)))

/-- Two stored conditions and another one of the second id. The first reference is listed by both
stored conditions and bound to the other condition, and so is the second one, whose id is not
stored; it is listed twice. -/
def tangled : Pack where
  graph := {
    expressions := #[
      { Expression.reference .require "base" with target := some (.condition ⟨2⟩) },
      { Expression.reference .accept "gone" with target := some (.condition ⟨2⟩) },
      .reference .deny "top"]
    conditions := #[{ id := "top", expressions := [⟨0⟩, ⟨1⟩, ⟨1⟩] },
      { id := "base", expressions := [⟨2⟩, ⟨0⟩] }, { id := "base" }] }
  store := { members := [⟨0⟩, ⟨1⟩] }

/-- The first reference is bound to the stored condition, and the second one stays as it was. -/
theorem link_exact_sample :
    tangled.InOrder ∧
      (∀ l ∈ tangled.store.links tangled.graph,
        (tangled.graph.expression l.expression).conditionId ≠ none) ∧
      (tangled.link false).1 = .ok ["gone", "gone"] ∧
      ((tangled.link false).2.graph.expression ⟨0⟩).target = some (.condition ⟨1⟩) ∧
      ((tangled.link false).2.graph.expression ⟨1⟩).target = some (.condition ⟨2⟩) ∧
      (tangled.link true).1 = .error (.problem {
        kind := .unresolvedReference
        message := "Condition 'top' references unknown condition 'gone'"
        details := [("condition_id", .datum (.text "top")),
          ("reference", .datum (.text "gone"))] }) ∧
      (tangled.link false).2.link false = tangled.link false := by
  have hp : tangled.InOrder := ⟨by decide, by decide⟩
  have hids : ∀ l ∈ tangled.store.links tangled.graph,
      (tangled.graph.expression l.expression).conditionId ≠ none := by decide
  obtain ⟨hbound, hother, -, hanswer, hstrict, hagain⟩ := link_exact tangled hp hids
  have hfirst := hbound ⟨⟨0⟩, ⟨0⟩⟩ (by decide) ⟨1⟩ (by decide) (by decide)
  have hsecond := hother ⟨1⟩ (by decide)
  exact ⟨hp, hids, hanswer, by rw [hfirst], by rw [hsecond]; rfl, hstrict, hagain false⟩

end Pack

end Applicability
