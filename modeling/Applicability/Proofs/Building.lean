/-
Building: what definitions are built into.

Expressions and conditions are added to a graph one after the other, and nothing that is there
already changes but what references are bound to.

* `named?`: the id that a reference names, in a definition and in an expression;
* `ExpressionDefinition.of_build`: an expression has the role of its definition and names the same
  id, is of a known domain, and is bound to nothing;
* `Graph.Keeps`: what a graph and a later one have in common;
* `Graph.Builds`, `Builds.keeps`: a condition of a graph is as its definition says, and stays so;
* `Pack.Holds`: a pack stores what some definitions say, in order, and shares no expressions;
* `Holds.exists_defineAll_iff`, `Holds.defineAll`: definitions can be carried out exactly if the
  expressions can be built and no id occurs twice, and are held then.
-/
import Mathlib.Data.List.Find
import Mathlib.Data.List.Nodup
import Applicability.Loading
import Applicability.Proofs.Reading

namespace Applicability

/-! ### Expressions -/

namespace Domain

/-- A name has one of three domains. -/
lemma mem_of_ofName? {name : String} {d : Domain} (h : ofName? name = some d) :
    d ∈ [component, device, toolchain] := by
  obtain ⟨c, -, hc⟩ := Option.bind_eq_some_iff.mp h
  unfold ofLetter? at hc
  split at hc <;> cases hc <;> simp

lemma mem_of_ofDatum {name : Datum} {d : Domain} (h : ofDatum name = .ok d) :
    d ∈ [component, device, toolchain] := by
  cases name with
  | text t =>
      rw [ofDatum] at h
      cases hd : ofName? t with
      | none => rw [hd] at h; cases h
      | some d' =>
          rw [hd] at h
          cases h
          exact mem_of_ofName? hd
  | _ => cases h

/-- Attributes are a reference if their single name says so, and otherwise of one of three
domains. -/
lemma of_infer {entries : List (Datum × Datum)} {d : Domain} (h : infer (.table entries) = .ok d) :
    (d = reference ∧ (Datum.field? entries referenceName).isSome ∧ entries.length = 1) ∨
      (d ∈ [component, device, toolchain] ∧ Datum.field? entries referenceName = none) := by
  obtain ⟨named, hnamed, h⟩ := exists_of_bind_eq_ok h
  cases hnamed
  by_cases hf : (Datum.field? entries referenceName).isSome
  · left
    rw [if_pos hf] at h
    by_cases hlength : (Datum.table entries).names.length = 1
    · rw [if_pos hlength] at h
      cases h
      exact ⟨rfl, hf, by simpa [Datum.names] using hlength⟩
    · rw [if_neg hlength] at h
      obtain ⟨sorted, -, h⟩ := exists_of_bind_eq_ok h
      cases h
  · right
    rw [if_neg hf] at h
    obtain ⟨domains, hdomains, h⟩ := exists_of_bind_eq_ok h
    refine ⟨?_, by simpa using hf⟩
    cases domains with
    | nil => cases h
    | cons d' rest =>
        obtain ⟨name, -, hname, -, -⟩ := List.forall₂_cons_right_iff.mp (mapM_eq_ok_iff.mp hdomains)
        have hd' := mem_of_ofDatum hname
        dsimp only at h
        split at h
        · cases h
          exact hd'
        · cases h

end Domain

namespace Expression

/-- The id that an expression names, if it is a reference. A reference without an id names the empty
one. -/
def named? (x : Expression) : Option String :=
  if x.domain = .reference then some (x.conditionId.getD "") else none

lemma named?_eq_some_iff {x : Expression} {id : String} :
    x.named? = some id ↔ x.domain = .reference ∧ x.conditionId.getD "" = id := by
  simp [named?]

end Expression

namespace ExpressionDefinition

/-- The id that a definition names, if it is one of a reference. A single attribute called
`condition` makes a reference, too. -/
def named? (d : ExpressionDefinition) : Option String :=
  match d.demand with
  | .condition id => some id
  | .attributes [(name, id)] => if name = Domain.referenceName then some id else none
  | .attributes _ => none

/-- A definition names an id exactly if its attributes are a single one called `condition`. -/
lemma named?_eq_some_iff {d : ExpressionDefinition} {id : String} :
    d.named? = some id ↔ d.attributes = .table [(.text Domain.referenceName, .text id)] := by
  obtain ⟨role, demand⟩ := d
  rcases demand with id' | (_ | ⟨⟨name, value⟩, _ | ⟨e, rest⟩⟩)
  · simp [named?, attributes]
  · simp [named?, attributes]
  · by_cases hname : name = Domain.referenceName <;> simp [named?, attributes, hname]
  · simp [named?, attributes]

/-- Attributes of which a single one is called `condition` name an id. -/
lemma exists_named? {d : ExpressionDefinition} {entries : List (Datum × Datum)}
    (hd : d.attributes = .table entries) (hlength : entries.length = 1)
    (hfield : (Datum.field? entries Domain.referenceName).isSome) : ∃ id, d.named? = some id := by
  obtain ⟨role, demand⟩ := d
  cases demand with
  | condition id => exact ⟨id, rfl⟩
  | attributes es =>
      cases hd
      obtain ⟨⟨name, value⟩, rfl⟩ := List.length_eq_one_iff.mp (List.length_map _ ▸ hlength)
      have hname : name = Domain.referenceName := by
        simpa [Datum.field?, Datum.same] using hfield
      exact ⟨value, by simp [named?, hname]⟩

/-- **What an expression is built into.** It names the id that its definition names, and is bound to
nothing so far. -/
lemma of_build {d : ExpressionDefinition} {x : Expression} (h : d.build = .ok x) :
    x.role = d.role ∧ x.named? = d.named? ∧ (∀ name, x.domain ≠ .other name) ∧ x.target = none := by
  obtain ⟨make, hmake, hx⟩ := exists_of_bind_eq_ok h
  obtain ⟨domain, hdomain, hmake⟩ := exists_of_bind_eq_ok hmake
  obtain ⟨entries, hentries⟩ : ∃ entries, d.attributes = .table entries := by
    obtain ⟨role, _ | es⟩ := d <;> exact ⟨_, rfl⟩
  rw [hentries] at hdomain
  rcases Domain.of_infer hdomain with ⟨rfl, hfield, hlength⟩ | ⟨hknown, hfield⟩
  · obtain ⟨id, hid⟩ := exists_named? hentries hlength hfield
    rw [named?_eq_some_iff.mp hid, if_pos rfl] at hmake
    obtain ⟨id', hid', hmake⟩ := exists_of_bind_eq_ok hmake
    cases hmake
    cases hid'
    cases hx
    exact ⟨rfl, hid.symm, nofun, rfl⟩
  · have hne : domain ≠ .reference := by rintro rfl; simp at hknown
    have hnamed : d.named? = none := by
      rw [Option.eq_none_iff_forall_ne_some]
      intro id hid
      rw [named?_eq_some_iff, hentries] at hid
      cases hid
      cases hfield
    rw [if_neg hne] at hmake
    cases hmake
    obtain ⟨a, -, hx⟩ := exists_of_bind_eq_ok hx
    cases hx
    refine ⟨rfl, ?_, ?_, rfl⟩
    · rw [hnamed, Expression.named?, if_neg hne]
    · rintro name rfl
      simp at hknown

end ExpressionDefinition

/-! ### Growing graphs -/

namespace Graph

variable {g g' : Graph} {d : ConditionDefinition} {xs : List Expression} {c : ConditionRef}

/-- **What a graph and a later one have in common**: what is there stays, and nothing changes but
what expressions are bound to. -/
structure Keeps (g g' : Graph) : Prop where
  expression (e : ExpressionRef) : e.index < g.expressions.size →
    e.index < g'.expressions.size ∧ (g'.expression e).unbound = (g.expression e).unbound
  condition (c : ConditionRef) : c.index < g.conditions.size →
    c.index < g'.conditions.size ∧ g'.condition c = g.condition c

/-- An expression of the graph is as its definition says, whatever it is bound to. -/
structure BuildsExpression (g : Graph) (d : ExpressionDefinition) (e : ExpressionRef) : Prop where
  stored : e.index < g.expressions.size
  build : d.build = .ok (g.expression e).unbound

/-- **A condition of the graph is as its definition says**, whatever its references are bound to. -/
structure Builds (g : Graph) (d : ConditionDefinition) (c : ConditionRef) : Prop where
  stored : c.index < g.conditions.size
  id : (g.condition c).id = d.id
  description : (g.condition c).description = d.description
  expressions : List.Forall₂ g.BuildsExpression d.expressions (g.condition c).expressions

/-- What is as its definition says stays so. -/
lemma Builds.keeps (h : g.Builds d c) (hg : g.Keeps g') : g'.Builds d c := by
  obtain ⟨hstored, hcondition⟩ := hg.condition c h.stored
  refine ⟨hstored, hcondition ▸ h.id, hcondition ▸ h.description, ?_⟩
  rw [hcondition]
  refine h.expressions.imp fun x e he => ?_
  obtain ⟨hthere, hexpression⟩ := hg.expression e he.stored
  exact ⟨hthere, hexpression ▸ he.build⟩

/-- An expression names what its definition names, also after it was bound. -/
lemma BuildsExpression.named? {x : ExpressionDefinition} {e : ExpressionRef}
    (h : g.BuildsExpression x e) : (g.expression e).named? = x.named? :=
  (ExpressionDefinition.of_build h.build).2.1

lemma Builds.index_lt (h : g.Builds d c) {e : ExpressionRef}
    (he : e ∈ (g.condition c).expressions) : e.index < g.expressions.size := by
  obtain ⟨x, -, hx⟩ := exists_left_of_forall₂ h.expressions he
  exact hx.stored

/-- References to the next expressions of a graph. -/
def nextExpressions (g : Graph) (n : Nat) : List ExpressionRef :=
  (List.range' g.expressions.size n).map .mk

lemma nodup_nextExpressions (g : Graph) (n : Nat) : (g.nextExpressions n).Nodup :=
  List.Nodup.map (fun _ _ h => ExpressionRef.mk.inj h) List.nodup_range'

lemma le_of_mem_nextExpressions {n : Nat} {e : ExpressionRef} (h : e ∈ g.nextExpressions n) :
    g.expressions.size ≤ e.index := by
  obtain ⟨i, hi, rfl⟩ := List.mem_map.mp h
  exact (List.mem_range'_1.mp hi).1

lemma addExpressions_eq (g : Graph) (xs : List Expression) :
    g.addExpressions xs = (g.nextExpressions xs.length,
      { g with expressions := g.expressions ++ xs.toArray }) := by
  induction xs generalizing g with
  | nil => simp [addExpressions, nextExpressions]
  | cons x rest ih =>
      simp [addExpressions, addExpression, ih, nextExpressions, List.range'_succ]

/-- The graph with one more condition, which has the given expressions. -/
def withCondition (g : Graph) (d : ConditionDefinition) (xs : List Expression) : Graph :=
  { g with
    expressions := g.expressions ++ xs.toArray
    conditions := g.conditions.push
      { id := d.id, description := d.description, expressions := g.nextExpressions xs.length } }

/-- The next condition is the one that was added. -/
lemma condition_withCondition :
    (g.withCondition d xs).condition ⟨g.conditions.size⟩ =
      { id := d.id, description := d.description, expressions := g.nextExpressions xs.length } := by
  simp [condition, withCondition]

/-- The next expressions are its own. -/
lemma expression_withCondition {i : Nat} (hi : i < xs.length) :
    (g.withCondition d xs).expression ⟨g.expressions.size + i⟩ = xs[i] := by
  simp [expression, withCondition, hi]

lemma keeps_withCondition : g.Keeps (g.withCondition d xs) where
  expression e he := by
    have hsize : e.index < (g.withCondition d xs).expressions.size := by
      simp only [withCondition, Array.size_append]
      omega
    refine ⟨hsize, ?_⟩
    simp [expression, withCondition, Array.getElem?_append, he]
  condition c hc := by
    have hsize : c.index < (g.withCondition d xs).conditions.size := by
      simp only [withCondition, Array.size_push]
      omega
    refine ⟨hsize, ?_⟩
    simp [condition, withCondition, Array.getElem?_push, hc.ne, hc]

/-- The condition that was added is as its definition says, if its expressions are built from it. -/
lemma builds_withCondition
    (h : List.Forall₂ (fun x y => ExpressionDefinition.build x = .ok y) d.expressions xs)
    (hxs : ∀ x ∈ xs, x.target = none) :
    (g.withCondition d xs).Builds d ⟨g.conditions.size⟩ := by
  refine ⟨by simp [withCondition], by rw [condition_withCondition], by rw [condition_withCondition],
    ?_⟩
  rw [condition_withCondition, List.forall₂_iff_get]
  refine ⟨by simp [nextExpressions, h.length_eq], fun i hi hnext => ?_⟩
  have hxi : i < xs.length := h.length_eq ▸ hi
  have hget : (g.nextExpressions xs.length).get ⟨i, hnext⟩ = ⟨g.expressions.size + i⟩ := by
    simp [nextExpressions]
  have hunbound : xs[i].unbound = xs[i] := by
    rw [Expression.unbound, ← hxs _ (List.getElem_mem hxi)]
  rw [hget]
  refine ⟨by simp [withCondition, hxi], ?_⟩
  rw [expression_withCondition hxi, hunbound]
  exact h.get hi hxi

end Graph

/-! ### Growing packs -/

namespace Store

variable {s : Store} {g g' : Graph} {id : String}

lemma isSome_find?_iff : (s.find? g id).isSome ↔ id ∈ s.ids g := by
  simp [find?, ids, List.find?_isSome]

/-- The stored ids stay, and what they stand for. -/
lemma ids_keeps (hg : g.Keeps g') (hs : ∀ c ∈ s.members, c.index < g.conditions.size) :
    s.ids g' = s.ids g :=
  List.map_congr_left fun c hc => by rw [(hg.condition c (hs c hc)).2]

lemma find?_keeps (hg : g.Keeps g') (hs : ∀ c ∈ s.members, c.index < g.conditions.size) :
    s.find? g' id = s.find? g id :=
  List.find?_congr fun c hc => by rw [(hg.condition c (hs c hc)).2]

end Store

/-- A definition whose expressions can be built. -/
def ConditionDefinition.IsBuildable (d : ConditionDefinition) : Prop :=
  ∀ x ∈ d.expressions, ∃ y, x.build = .ok y

namespace Pack

variable {p q : Pack} {ds rest : List ConditionDefinition} {d : ConditionDefinition}

/-- The expressions of the stored conditions, in order. -/
def parts (p : Pack) : List ExpressionRef :=
  p.store.members.flatMap fun c => (p.graph.condition c).expressions

/-- **A pack holds what some definitions say**: it stores their conditions in order, under different
ids, and no two of them share an expression. It has nothing else, and nothing is bound to anything
but a condition. -/
structure Holds (p : Pack) (ds : List ConditionDefinition) : Prop where
  built : List.Forall₂ p.graph.Builds ds p.store.members
  apart : p.parts.Nodup
  ids : (ds.map (·.id)).Nodup
  binds : p.graph.bindsConditions
  artifacts : p.graph.artifacts = #[]
  scripts : p.graph.scripts = #[]

lemma holds_nil : Holds {} [] where
  built := .nil
  apart := List.nodup_nil
  ids := List.nodup_nil
  binds := rfl
  artifacts := rfl
  scripts := rfl

lemma Holds.isPlain (h : p.Holds ds) : p.graph.isPlain := by
  rw [Graph.isPlain, h.artifacts, Bool.and_eq_true]
  refine ⟨List.all_eq_true.mpr fun x hx => ?_, rfl⟩
  have hx' := List.all_eq_true.mp h.binds x hx
  cases ht : x.target with
  | none => rfl
  | some j =>
      rw [ht] at hx'
      cases j with
      | condition c => rfl
      | _ => cases hx'

lemma Holds.exists_builds (h : p.Holds ds) {c : ConditionRef} (hc : c ∈ p.store.members) :
    ∃ d ∈ ds, p.graph.Builds d c :=
  exists_left_of_forall₂ h.built hc

lemma Holds.stored (h : p.Holds ds) : ∀ c ∈ p.store.members, c.index < p.graph.conditions.size := by
  intro c hc
  obtain ⟨d, -, hd⟩ := h.exists_builds hc
  exact hd.stored

/-- The expressions of the stored conditions stay theirs. -/
lemma Holds.parts_keeps (h : p.Holds ds) {g : Graph} (hg : p.graph.Keeps g) :
    (p.store.members.flatMap fun c => (g.condition c).expressions) = p.parts :=
  List.flatMap_congr fun c hc => by rw [(hg.condition c (h.stored c hc)).2]

lemma Holds.ids_eq (h : p.Holds ds) : p.store.ids p.graph = ds.map (·.id) := by
  rw [Store.ids, ← List.forall₂_eq_eq_eq, List.forall₂_map_left_iff, List.forall₂_map_right_iff]
  exact h.built.flip.imp fun c d hd => hd.id

/-- A definition is carried out in three steps: its expressions are built and added, the condition
is added, and it is registered. -/
lemma define_eq (p : Pack) (d : ConditionDefinition) :
    p.define d = (do
      let xs ← d.expressions.mapM ExpressionDefinition.build
      let store ← p.store.add (p.graph.withCondition d xs) ⟨p.graph.conditions.size⟩
      return { graph := p.graph.withCondition d xs, store }) := by
  simp only [define, Graph.addExpressions_eq, Graph.addCondition, Graph.withCondition]

/-- A condition can be registered exactly if its id is new. -/
lemma Holds.exists_add_iff (h : p.Holds ds) (xs : List Expression) :
    (∃ s, p.store.add (p.graph.withCondition d xs) ⟨p.graph.conditions.size⟩ = .ok s) ↔
      d.id ∉ ds.map (·.id) := by
  have hkeeps : p.graph.Keeps (p.graph.withCondition d xs) := Graph.keeps_withCondition
  have hids := Store.ids_keeps hkeeps h.stored
  rw [Store.add, Graph.condition_withCondition, ← h.ids_eq, ← hids, ← Store.isSome_find?_iff]
  split <;> simp [*]

/-- **A definition can be carried out** exactly if its expressions can be built and its id is
new. -/
lemma Holds.exists_define_iff (h : p.Holds ds) :
    (∃ q, p.define d = .ok q) ↔ d.IsBuildable ∧ d.id ∉ ds.map (·.id) := by
  rw [define_eq]
  constructor
  · rintro ⟨q, hq⟩
    obtain ⟨xs, hxs, hq⟩ := exists_of_bind_eq_ok hq
    obtain ⟨s, hs, -⟩ := exists_of_bind_eq_ok hq
    exact ⟨forall_ok_of_mapM hxs, (h.exists_add_iff xs).mp ⟨s, hs⟩⟩
  · rintro ⟨hd, hid⟩
    choose! build hbuild using hd
    obtain ⟨s, hs⟩ := (h.exists_add_iff (d.expressions.map build)).mpr hid
    rw [mapM_of_ok hbuild]
    exact ⟨_, by simp only [bind, Except.bind, hs]; rfl⟩

lemma Holds.index_lt_of_mem_parts (h : p.Holds ds) {e : ExpressionRef} (he : e ∈ p.parts) :
    e.index < p.graph.expressions.size := by
  obtain ⟨c, hc, he⟩ := List.mem_flatMap.mp he
  obtain ⟨d, -, hd⟩ := h.exists_builds hc
  exact hd.index_lt he

/-- A pack holds a definition that was carried out. -/
lemma Holds.define (h : p.Holds ds) (hq : p.define d = .ok q) : q.Holds (ds ++ [d]) := by
  have hid := (h.exists_define_iff.mp ⟨q, hq⟩).2
  rw [define_eq] at hq
  obtain ⟨xs, hxs, hq⟩ := exists_of_bind_eq_ok hq
  obtain ⟨s, hs, hq⟩ := exists_of_bind_eq_ok hq
  cases hq
  have hbuilt := mapM_eq_ok_iff.mp hxs
  have hunbound : ∀ x ∈ xs, x.target = none := by
    intro x hx
    obtain ⟨definition, -, hdefinition⟩ := exists_left_of_forall₂ hbuilt hx
    exact (ExpressionDefinition.of_build hdefinition).2.2.2
  have hkeeps : p.graph.Keeps (p.graph.withCondition d xs) := Graph.keeps_withCondition
  have hmembers := Store.members_of_add hs
  have hparts : parts { graph := p.graph.withCondition d xs, store := s } =
      p.parts ++ p.graph.nextExpressions xs.length := by
    rw [parts, hmembers, List.flatMap_append, List.flatMap_singleton, Graph.condition_withCondition]
    exact congrArg (· ++ _) (h.parts_keeps hkeeps)
  refine ⟨?_, ?_, ?_, ?_, h.artifacts, h.scripts⟩
  · rw [hmembers]
    exact List.rel_append (h.built.imp fun d c hd => hd.keeps hkeeps)
      (.cons (Graph.builds_withCondition hbuilt hunbound) .nil)
  · -- the new expressions come behind all those that there were
    rw [hparts, List.nodup_append]
    refine ⟨h.apart, Graph.nodup_nextExpressions _ _, fun e he f hf => ?_⟩
    have hlt := h.index_lt_of_mem_parts he
    have hle := Graph.le_of_mem_nextExpressions hf
    rintro rfl
    omega
  · rw [List.map_append, List.map_singleton, ← List.concat_eq_append]
    exact h.ids.concat hid
  · have hnew : xs.all (·.target.all Item.isCondition) :=
      List.all_eq_true.mpr fun x hx => by rw [hunbound x hx]; rfl
    rw [Graph.bindsConditions, Graph.withCondition, Array.toList_append, List.all_append, hnew,
      Bool.and_true]
    exact h.binds

/-- **Definitions can be carried out** exactly if their expressions can be built and no id occurs
twice. -/
lemma Holds.exists_defineAll_iff (h : p.Holds ds) :
    (∃ q, defineAll rest p = (.ok (), q)) ↔
      (∀ d ∈ rest, d.IsBuildable) ∧ ((ds ++ rest).map (·.id)).Nodup := by
  induction rest generalizing p ds with
  | nil => simpa [defineAll] using h.ids
  | cons d rest ih =>
      have happend : ds ++ d :: rest = ds ++ [d] ++ rest := by simp
      rw [defineAll, happend]
      cases hd : p.define d with
      | ok q =>
          have hbuildable := (h.exists_define_iff.mp ⟨q, hd⟩).1
          simp only [ih (h.define hd), List.forall_mem_cons, hbuildable, true_and]
      | error f =>
          have hnone : ¬ (d.IsBuildable ∧ d.id ∉ ds.map (·.id)) := by
            rw [← h.exists_define_iff, hd]
            rintro ⟨q, hq⟩
            cases hq
          refine iff_of_false (by rintro ⟨q, hq⟩; cases hq) ?_
          rintro ⟨hbuildable, hids⟩
          refine hnone ⟨hbuildable d (by simp), fun hid => ?_⟩
          rw [List.map_append, List.map_append, List.nodup_append, List.nodup_append] at hids
          exact hids.1.2.2 _ hid d.id (by simp) rfl

/-- **A pack holds the definitions that were carried out.** -/
lemma Holds.defineAll (h : p.Holds ds) (hq : defineAll rest p = (.ok (), q)) :
    q.Holds (ds ++ rest) := by
  induction rest generalizing p ds with
  | nil =>
      cases hq
      rwa [List.append_nil]
  | cons d rest ih =>
      rw [Pack.defineAll] at hq
      cases hd : p.define d with
      | ok p' =>
          rw [hd] at hq
          have hholds := ih (h.define hd) hq
          rwa [List.append_assoc, List.singleton_append] at hholds
      | error f => rw [hd] at hq; cases hq

end Pack

end Applicability
