/-
Storing: what calls of any number leave of a store.

A store is filled by registering conditions and by loading documents, and it is linked. A load or a
strict linking can stop midway, and takes nothing back. Whatever is done, the stored ids stay
different, and what is stored stays in its place.

* `Graph.KeepsIds`: conditions stay there, under the ids they have;
* `Pack.InOrder`: what is stored is there, under different ids;
* `Pack.Advances`: what was stored comes first, under the same ids; `advances_add` and
  `advances_of_keepsIds` are the two ways of getting on;
* `StoreCall`, `serve`, `serveAll`: calls of a store, and what they leave;
* `serve_advances`, `InOrder.serveAll`: one call, and any number of calls;
* `store_in_order`: so a store that was empty once lists conditions under different ids, and finds
  just these.
-/
import Applicability.Proofs.Bulk
import Applicability.Proofs.Failing

namespace Applicability

/-! ### Ids that stay -/

namespace Graph

variable {g g' g'' : Graph}

/-- **No id is given anew**: the conditions of a graph are still there, under the same ids. Their
expressions may be others. -/
def KeepsIds (g g' : Graph) : Prop :=
  ∀ c : ConditionRef, c.index < g.conditions.size →
    c.index < g'.conditions.size ∧ (g'.condition c).id = (g.condition c).id

lemma KeepsIds.trans (h : g.KeepsIds g') (h' : g'.KeepsIds g'') : g.KeepsIds g'' := by
  intro c hc
  obtain ⟨hthere, hid⟩ := h c hc
  obtain ⟨hthere', hid'⟩ := h' c hthere
  exact ⟨hthere', hid'.trans hid⟩

lemma keepsIds_addTo (g : Graph) (c : ConditionRef) (e : ExpressionRef) :
    g.KeepsIds (g.addTo c e) := by
  intro d hd
  refine ⟨by simpa [addTo] using hd, ?_⟩
  simp only [condition, addTo, Array.getD_eq_getD_getElem?, Array.getElem?_modify]
  split <;> simp [hd]

lemma Keeps.keepsIds (h : g.Keeps g') : g.KeepsIds g' := by
  intro c hc
  obtain ⟨hthere, hsame⟩ := h.condition c hc
  exact ⟨hthere, by rw [hsame]⟩

end Graph

/-! ### Stores in order -/

namespace Pack

variable {p q r : Pack}

/-- **A pack whose store is in order**: the stored conditions are there, under different ids. -/
structure InOrder (p : Pack) : Prop where
  stored : ∀ c ∈ p.store.members, c.index < p.graph.conditions.size
  ids : (p.store.ids p.graph).Nodup

/-- **A store gets on**: what was stored comes first, under the ids that it had. -/
structure Advances (p q : Pack) : Prop where
  members : p.store.members <+: q.store.members
  keepsIds : p.graph.KeepsIds q.graph

lemma Advances.refl (p : Pack) : p.Advances p :=
  ⟨List.prefix_rfl, fun _ hc => ⟨hc, rfl⟩⟩

lemma Advances.trans (h : p.Advances q) (h' : q.Advances r) : p.Advances r :=
  ⟨h.members.trans h'.members, h.keepsIds.trans h'.keepsIds⟩

lemma InOrder.empty (g : Graph) : InOrder { graph := g } :=
  ⟨List.forall_mem_nil _, List.nodup_nil⟩

/-- What is done to the graph leaves a store in order, if no id is given anew. -/
lemma InOrder.advances_of_keepsIds (hp : p.InOrder) (hstore : q.store = p.store)
    (hids : p.graph.KeepsIds q.graph) : q.InOrder ∧ p.Advances q := by
  have hsame : q.store.ids q.graph = p.store.ids p.graph := by
    rw [hstore]
    exact List.map_congr_left fun c hc => (hids c (hp.stored c hc)).2
  refine ⟨⟨fun c hc => ?_, hsame ▸ hp.ids⟩, hstore ▸ List.prefix_rfl, hids⟩
  rw [hstore] at hc
  exact (hids c (hp.stored c hc)).1

/-- A condition is registered only if no stored one has its id. -/
lemma InOrder.advances_add {c : ConditionRef} {s : Store} (hp : p.InOrder)
    (hc : c.index < p.graph.conditions.size) (hs : p.store.add p.graph c = .ok s) :
    InOrder { p with store := s } ∧ p.Advances { p with store := s } := by
  have hmembers := Store.members_of_add hs
  have hnew : (p.graph.condition c).id ∉ p.store.ids p.graph := by
    rw [← Store.isSome_find?_iff]
    intro htaken
    rw [Store.add, if_pos htaken] at hs
    cases hs
  refine ⟨⟨fun c' hc' => ?_, ?_⟩, ⟨[c], hmembers.symm⟩, fun _ hc' => ⟨hc', rfl⟩⟩
  · rw [hmembers, List.mem_append, List.mem_singleton] at hc'
    rcases hc' with hc' | rfl
    · exact hp.stored c' hc'
    · exact hc
  · rw [Store.ids, hmembers, List.map_append, List.map_singleton, ← List.concat_eq_append]
    exact hp.ids.concat hnew

/-- A definition adds its condition to the graph, and registers it. -/
lemma InOrder.advances_define {d : ConditionDefinition} (hp : p.InOrder)
    (h : p.define d = .ok q) : q.InOrder ∧ p.Advances q := by
  rw [define_eq] at h
  obtain ⟨xs, -, h⟩ := exists_of_bind_eq_ok h
  obtain ⟨s, hs, h⟩ := exists_of_bind_eq_ok h
  cases h
  have hkeeps : p.graph.Keeps (p.graph.withCondition d xs) := Graph.keeps_withCondition
  obtain ⟨hgrown, hadvances⟩ := hp.advances_of_keepsIds
    (q := { p with graph := p.graph.withCondition d xs }) rfl hkeeps.keepsIds
  have hthere : p.graph.conditions.size < (p.graph.withCondition d xs).conditions.size := by
    simp [Graph.withCondition]
  obtain ⟨hq, hadvances'⟩ := hgrown.advances_add (c := ⟨p.graph.conditions.size⟩) hthere hs
  exact ⟨hq, hadvances.trans hadvances'⟩

lemma InOrder.advances_defineAll (hp : p.InOrder) (ds : List ConditionDefinition) :
    (defineAll ds p).2.InOrder ∧ p.Advances (defineAll ds p).2 := by
  induction ds generalizing p with
  | nil => exact ⟨hp, .refl p⟩
  | cons d rest ih =>
      rw [defineAll]
      cases hd : p.define d with
      | error f => exact ⟨hp, .refl p⟩
      | ok q =>
          obtain ⟨hq, hadvances⟩ := hp.advances_define hd
          obtain ⟨hrest, hadvances'⟩ := ih hq
          exact ⟨hrest, hadvances.trans hadvances'⟩

/-- Linking leaves the store, however far it comes. -/
lemma InOrder.advances_link (hp : p.InOrder) (strict : Bool) :
    (p.link strict).2.InOrder ∧ p.Advances (p.link strict).2 :=
  hp.advances_of_keepsIds rfl (p.store.keeps_bindAll strict _ p.graph).1.keepsIds

/-- Loading does both, as far as it comes. -/
lemma InOrder.advances_load (hp : p.InOrder) (data : Datum) (strict : Bool) :
    (p.load data strict).2.InOrder ∧ p.Advances (p.load data strict).2 := by
  rcases p.load_cases data strict with ⟨found, -, hload⟩ | ⟨doc, f, q, -, hdefine, hload⟩ |
    ⟨doc, q, -, hdefine, hload⟩
  · rw [hload]
    exact ⟨hp, .refl p⟩
  · have hall := hp.advances_defineAll doc.conditions
    rw [hdefine] at hall
    rw [hload]
    exact hall
  · have hall := hp.advances_defineAll doc.conditions
    rw [hdefine] at hall
    rw [hload]
    obtain ⟨hq, hadvances⟩ := hall
    obtain ⟨hlinked, hadvances'⟩ := hq.advances_link strict
    exact ⟨hlinked, hadvances.trans hadvances'⟩

end Pack

/-! ### Calls -/

/-- What a consumer does to a store, or beside it. -/
inductive StoreCall where
  /-- registers a condition -/
  | add (c : ConditionRef)
  /-- binds the references of the stored conditions -/
  | link (strict : Bool)
  /-- loads a document -/
  | load (data : Datum) (strict : Bool)
  /-- makes new items or changes those that there are -/
  | elsewhere (g : Graph)

namespace Pack

variable {p : Pack}

/-- The answer to a call, and what it leaves. -/
def serve (p : Pack) : StoreCall → Except Fault (List String) × Pack
  | .add c =>
    match p.store.add p.graph c with
    | .ok store => (.ok [], { p with store })
    | .error f => (.error f, p)
  | .link strict => p.link strict
  | .load data strict => p.load data strict
  | .elsewhere graph => (.ok [], { p with graph })

/-- What calls leave, one after the other, whatever their answers are. -/
def serveAll (p : Pack) (calls : List StoreCall) : Pack :=
  calls.foldl (fun p call => (p.serve call).2) p

/-- A call that can be made: what is registered is a condition of the graph, and beside the store no
condition gets another id. -/
def Admits (p : Pack) : StoreCall → Prop
  | .add c => c.index < p.graph.conditions.size
  | .elsewhere g => p.graph.KeepsIds g
  | .link _ => True
  | .load _ _ => True

/-- Calls each of which can be made after those before it. -/
def AdmitsAll (p : Pack) : List StoreCall → Prop
  | [] => True
  | call :: rest => p.Admits call ∧ (p.serve call).2.AdmitsAll rest

/-- A condition cannot be registered exactly if its id is taken. Nothing changes then. -/
lemma serve_add_eq_error_iff {c : ConditionRef} {f : Fault} {q : Pack} :
    p.serve (.add c) = (.error f, q) ↔ (p.graph.condition c).id ∈ p.store.ids p.graph ∧
      f = .problem (Store.duplicate (p.graph.condition c).id) ∧ q = p := by
  rw [serve, Store.add, ← Store.isSome_find?_iff]
  by_cases htaken : (p.store.find? p.graph (p.graph.condition c).id).isSome
  · rw [if_pos htaken]
    constructor
    · rintro h
      cases h
      exact ⟨htaken, rfl, rfl⟩
    · rintro ⟨-, rfl, rfl⟩
      rfl
  · rw [if_neg htaken]
    exact iff_of_false (by simp) fun h => htaken h.1

/-- **One call**, whether it succeeds or not, leaves a store in order, and what was stored in its
place. -/
lemma InOrder.serve_advances (hp : p.InOrder) {call : StoreCall} (h : p.Admits call) :
    (p.serve call).2.InOrder ∧ p.Advances (p.serve call).2 := by
  cases call with
  | add c =>
      rw [serve]
      cases hs : p.store.add p.graph c with
      | ok s => exact hp.advances_add h hs
      | error f => exact ⟨hp, .refl p⟩
  | link strict => exact hp.advances_link strict
  | load data strict => exact hp.advances_load data strict
  | elsewhere g => exact hp.advances_of_keepsIds rfl h

/-- **Any number of calls** leaves a store in order. -/
lemma InOrder.serveAll (hp : p.InOrder) {calls : List StoreCall} (h : p.AdmitsAll calls) :
    (p.serveAll calls).InOrder := by
  induction calls generalizing p with
  | nil => exact hp
  | cons call rest ih =>
      obtain ⟨hcall, hrest⟩ := h
      exact ih (hp.serve_advances hcall).1 hrest

/-- **A store is always in order.** Take an empty store, and any conditions that are registered,
linked and loaded in any number of calls, each of which succeeds or fails, and may stop midway. The
ids of the listed conditions are different. Each listed condition is what is found under its id, and
nothing is found under any other id. There are as many conditions as listed ids. A further call
leaves what was listed, first and in the same order, and what was found under an id; and registering
a condition fails exactly if its id is taken, and leaves all as it was then. -/
theorem store_in_order (g : Graph) (calls : List StoreCall)
    (h : AdmitsAll { graph := g } calls) :
    let p := serveAll { graph := g } calls
    (p.store.ids p.graph).Nodup ∧
      (∀ c ∈ p.store.members, p.stored? (p.graph.condition c).id = some c) ∧
      (∀ id, id ∉ p.store.ids p.graph → p.stored? id = none) ∧
      (p.store.size = (p.store.ids p.graph).length ∧
        ∀ id, (p.stored? id).isSome ↔ id ∈ p.store.ids p.graph) ∧
      (∀ call, p.Admits call → p.store.members <+: (p.serve call).2.store.members ∧
        ∀ id c, p.stored? id = some c → (p.serve call).2.stored? id = some c) ∧
      ∀ c f q, p.serve (.add c) = (.error f, q) ↔
        (p.graph.condition c).id ∈ p.store.ids p.graph ∧
          f = .problem (Store.duplicate (p.graph.condition c).id) ∧ q = p := by
  intro p
  have hp : p.InOrder := (InOrder.empty g).serveAll h
  refine ⟨hp.ids, fun c hc => Store.find?_of_mem hp.ids hc, fun id hid => ?_,
    ⟨by rw [Store.size, Store.ids, List.length_map], fun _ => Store.isSome_find?_iff⟩,
    fun call hcall => ?_, fun c f q => serve_add_eq_error_iff⟩
  · rw [← Store.isSome_find?_iff, Option.not_isSome_iff_eq_none] at hid
    exact hid
  · obtain ⟨hq, hadvances⟩ := hp.serve_advances hcall
    refine ⟨hadvances.members, fun id c hc => ?_⟩
    obtain ⟨hmem, rfl⟩ := stored?_eq_some hc
    rw [← (hadvances.keepsIds c (hp.stored c hmem)).2]
    exact Store.find?_of_mem hq.ids (hadvances.members.subset hmem)

/-- Two conditions, the first of which refers to one that is not there. -/
def loose : Graph where
  expressions := #[.reference .require "late", .reference .accept "top"]
  conditions := #[{ id := "top", expressions := [⟨0⟩] }, { id := "base", expressions := [] }]

/-- The first condition is registered and cannot be linked, the second one gets a reference to it,
the first one cannot be registered again, and a document fails midway. The second condition can be
registered after that. -/
theorem store_in_order_sample :
    let calls : List StoreCall := [.add ⟨0⟩, .link true, .elsewhere (loose.addTo ⟨1⟩ ⟨1⟩),
      .add ⟨0⟩, .load Evaluator.lateData true]
    let p := serveAll { graph := loose } calls
    AdmitsAll { graph := loose } calls ∧ p.store.ids p.graph = ["top", "late"] ∧
      (p.store.ids p.graph).Nodup ∧
      p.Admits (.add ⟨1⟩) ∧ p.store.members <+: (p.serve (.add ⟨1⟩)).2.store.members := by
  intro calls p
  have hcalls : AdmitsAll { graph := loose } calls :=
    ⟨(by decide : 0 < 2), trivial, Graph.keepsIds_addTo _ _ _, (by decide : 0 < 2), trivial,
      trivial⟩
  have hadd : p.Admits (.add ⟨1⟩) := (by decide : 1 < 3)
  obtain ⟨hids, -, -, -, hfirst, -⟩ := store_in_order loose calls hcalls
  exact ⟨hcalls, rfl, hids, hadd, (hfirst _ hadd).1⟩

end Pack

end Applicability
