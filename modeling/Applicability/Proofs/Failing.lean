/-
Failing: what a load that fails leaves behind.

A load takes nothing back. What it leaves depends on how far it came: data that are no document
change nothing, a definition that cannot be carried out leaves those before it, and a reference that
names nothing, where this is not tolerated, leaves all definitions and the bindings made before it.

* `Pack.Whole`: what is stored is there;
* `Pack.Gains`: a pack has got new conditions, and is otherwise as it was; `Gains.trans`;
* `define_eq_error`, `exists_of_defineAll_error`: where carrying out definitions stops, and why;
* `exists_of_bindAll_error`: where strict linking stops;
* `load_cases`: the three ways of a load;
* `Pack.Failure`, `failure_of_load`: how a load fails;
* `failed_load`, `failed_load_changes_store`: so what was stored stays, but there may be more.
-/
import Applicability.Evaluator
import Applicability.Proofs.Linking
import Applicability.Proofs.Making

namespace Applicability

/-! ### New conditions -/

namespace Graph

variable {g : Graph} {d : ConditionDefinition} {xs : List Expression}

lemma expression_withCondition_of_lt {e : ExpressionRef} (he : e.index < g.expressions.size) :
    (g.withCondition d xs).expression e = g.expression e := by
  simp [expression, withCondition, Array.getElem?_append, he]

/-- What is not in the graph is bound to nothing. -/
lemma target_of_le {e : ExpressionRef} (he : g.expressions.size ≤ e.index) :
    (g.expression e).target = none := by
  rw [expression, Array.getD_eq_getD_getElem?, Array.getElem?_eq_none he]
  rfl

/-- The expressions that it brings are bound to nothing, if they were not before. -/
lemma target_withCondition_of_le (hxs : ∀ x ∈ xs, x.target = none) {e : ExpressionRef}
    (he : g.expressions.size ≤ e.index) : ((g.withCondition d xs).expression e).target = none := by
  obtain ⟨i, hi⟩ := Nat.exists_eq_add_of_le he
  obtain rfl : e = ⟨g.expressions.size + i⟩ := by rw [← hi]
  by_cases hlt : i < xs.length
  · rw [expression_withCondition hlt]
    exact hxs _ (List.getElem_mem hlt)
  · exact target_of_le (by simp only [withCondition, Array.size_append, List.size_toArray]; omega)

end Graph

lemma Store.readOnly_of_add {s t : Store} {g : Graph} {c : ConditionRef} (h : s.add g c = .ok t) :
    t.readOnly = s.readOnly := by
  unfold add at h
  split at h <;> cases h
  rfl

namespace Pack

variable {p q r : Pack} {ds ds' : List ConditionDefinition} {d : ConditionDefinition} {f : Fault}

/-- **A whole pack**: the stored conditions and their expressions are in its graph. -/
structure Whole (p : Pack) : Prop where
  conditions : ∀ c ∈ p.store.members, c.index < p.graph.conditions.size
  expressions : ∀ c ∈ p.store.members, ∀ e ∈ (p.graph.condition c).expressions,
    e.index < p.graph.expressions.size

/-- **A pack has got the conditions of some definitions**: they are stored last, their expressions
are new and bound to nothing, and there is no other change. -/
structure Gains (p : Pack) (ds : List ConditionDefinition) (q : Pack) : Prop where
  expression (e : ExpressionRef) : e.index < p.graph.expressions.size →
    e.index < q.graph.expressions.size ∧ q.graph.expression e = p.graph.expression e
  condition (c : ConditionRef) : c.index < p.graph.conditions.size →
    c.index < q.graph.conditions.size ∧ q.graph.condition c = p.graph.condition c
  members : ∃ new, q.store.members = p.store.members ++ new ∧
    List.Forall₂ q.graph.Builds ds new ∧ ∀ c ∈ new, ∀ e ∈ (q.graph.condition c).expressions,
      p.graph.expressions.size ≤ e.index
  unbound (e : ExpressionRef) : p.graph.expressions.size ≤ e.index →
    (q.graph.expression e).target = none
  readOnly : q.store.readOnly = p.store.readOnly
  artifacts : q.graph.artifacts = p.graph.artifacts
  scripts : q.graph.scripts = p.graph.scripts

lemma Gains.refl (p : Pack) : p.Gains [] p where
  expression _ h := ⟨h, rfl⟩
  condition _ h := ⟨h, rfl⟩
  members := ⟨[], by simp, .nil, List.forall_mem_nil _⟩
  unbound _ := Graph.target_of_le
  readOnly := rfl
  artifacts := rfl
  scripts := rfl

lemma Gains.keeps (h : p.Gains ds q) : p.graph.Keeps q.graph where
  expression e he := by
    obtain ⟨hthere, hsame⟩ := h.expression e he
    exact ⟨hthere, by rw [hsame]⟩
  condition := h.condition

/-- What is new later was not there before. -/
lemma Gains.size_le (h : p.Gains ds q) :
    p.graph.expressions.size ≤ q.graph.expressions.size := by
  by_contra hlt
  exact lt_irrefl _ (h.expression ⟨q.graph.expressions.size⟩ (not_le.mp hlt)).1

lemma Gains.trans (h : p.Gains ds q) (h' : q.Gains ds' r) : p.Gains (ds ++ ds') r where
  expression e he := by
    obtain ⟨hthere, hsame⟩ := h.expression e he
    obtain ⟨hthere', hsame'⟩ := h'.expression e hthere
    exact ⟨hthere', hsame'.trans hsame⟩
  condition c hc := by
    obtain ⟨hthere, hsame⟩ := h.condition c hc
    obtain ⟨hthere', hsame'⟩ := h'.condition c hthere
    exact ⟨hthere', hsame'.trans hsame⟩
  members := by
    obtain ⟨new, hmembers, hbuilt, hnew⟩ := h.members
    obtain ⟨new', hmembers', hbuilt', hnew'⟩ := h'.members
    refine ⟨new ++ new', by rw [hmembers', hmembers, List.append_assoc],
      List.rel_append (hbuilt.imp fun _ _ hd => hd.keeps h'.keeps) hbuilt', fun c hc e he => ?_⟩
    rcases List.mem_append.mp hc with hc | hc
    · obtain ⟨d, -, hd⟩ := exists_left_of_forall₂ hbuilt hc
      rw [(h'.condition c hd.stored).2] at he
      exact hnew c hc e he
    · exact h.size_le.trans (hnew' c hc e he)
  unbound e he := by
    by_cases hthere : e.index < q.graph.expressions.size
    · rw [(h'.expression e hthere).2]
      exact h.unbound e he
    · exact h'.unbound e (not_lt.mp hthere)
  readOnly := h'.readOnly.trans h.readOnly
  artifacts := h'.artifacts.trans h.artifacts
  scripts := h'.scripts.trans h.scripts

lemma Whole.gains (hp : p.Whole) (h : p.Gains ds q) : q.Whole := by
  obtain ⟨new, hmembers, hbuilt, -⟩ := h.members
  have hcases : ∀ c ∈ q.store.members, c ∈ p.store.members ∨ ∃ d ∈ ds, q.graph.Builds d c := by
    intro c hc
    rw [hmembers, List.mem_append] at hc
    exact hc.imp_right (exists_left_of_forall₂ hbuilt)
  constructor
  · intro c hc
    rcases hcases c hc with hc | ⟨d, -, hd⟩
    · exact (h.condition c (hp.conditions c hc)).1
    · exact hd.stored
  · intro c hc e he
    rcases hcases c hc with hc | ⟨d, -, hd⟩
    · rw [(h.condition c (hp.conditions c hc)).2] at he
      exact (h.expression e (hp.expressions c hc e he)).1
    · exact hd.index_lt he

/-! ### Where definitions stop -/

lemma gains_of_define (h : p.define d = .ok q) : p.Gains [d] q := by
  rw [define_eq] at h
  obtain ⟨xs, hxs, h⟩ := exists_of_bind_eq_ok h
  obtain ⟨s, hs, h⟩ := exists_of_bind_eq_ok h
  cases h
  have hbuilt := mapM_eq_ok_iff.mp hxs
  have hunbound : ∀ x ∈ xs, x.target = none := by
    intro x hx
    obtain ⟨definition, -, hdefinition⟩ := exists_left_of_forall₂ hbuilt hx
    exact (ExpressionDefinition.of_build hdefinition).2.2.2
  have hkeeps : p.graph.Keeps (p.graph.withCondition d xs) := Graph.keeps_withCondition
  refine ⟨fun e he => ⟨(hkeeps.expression e he).1, Graph.expression_withCondition_of_lt he⟩,
    hkeeps.condition, ⟨[⟨p.graph.conditions.size⟩], Store.members_of_add hs,
      .cons (Graph.builds_withCondition hbuilt hunbound) .nil, fun c hc e he => ?_⟩,
    fun e => Graph.target_withCondition_of_le hunbound, Store.readOnly_of_add hs, rfl, rfl⟩
  rw [List.mem_singleton.mp hc, Graph.condition_withCondition] at he
  exact Graph.le_of_mem_nextExpressions he

/-- **Why a definition cannot be carried out**: an expression cannot be built, or the id is
taken. -/
lemma define_eq_error (hp : p.Whole) (h : p.define d = .error f) :
    (¬ d.IsBuildable ∧ f.OfKind .invalidDefinition) ∨
      d.IsBuildable ∧ (p.stored? d.id).isSome ∧ f = .problem (Store.duplicate d.id) := by
  rw [define_eq] at h
  cases hxs : d.expressions.mapM ExpressionDefinition.build with
  | error f' =>
      rw [hxs] at h
      cases h
      obtain ⟨x, hx, hf⟩ := exists_error_of_mapM hxs
      refine .inl ⟨fun hd => ?_, ExpressionDefinition.kind_of_build hf⟩
      obtain ⟨y, hy⟩ := hd x hx
      rw [hf] at hy
      cases hy
  | ok xs =>
      have hkeeps : p.graph.Keeps (p.graph.withCondition d xs) := Graph.keeps_withCondition
      have hfind : p.store.find? (p.graph.withCondition d xs) d.id = p.stored? d.id :=
        Store.find?_keeps hkeeps hp.conditions
      rw [hxs] at h
      simp only [bind, Except.bind, Store.add, Graph.condition_withCondition, hfind] at h
      split at h
      · rename_i f' hf'
        split at hf' <;> cases hf'
        cases h
        exact .inr ⟨forall_ok_of_mapM hxs, ‹_›, rfl⟩
      · cases h

/-- Definitions are carried out one after the other. -/
lemma defineAll_append (h : defineAll ds p = (.ok (), q)) (rest : List ConditionDefinition) :
    defineAll (ds ++ rest) p = defineAll rest q := by
  induction ds generalizing p with
  | nil =>
      cases h
      rfl
  | cons d ds ih =>
      rw [defineAll] at h
      rw [List.cons_append, defineAll]
      cases hd : p.define d with
      | error f => rw [hd] at h; cases h
      | ok p' =>
          rw [hd] at h
          exact ih h

lemma gains_of_defineAll (h : defineAll ds p = (.ok (), q)) : p.Gains ds q := by
  induction ds generalizing p with
  | nil =>
      cases h
      exact .refl _
  | cons d rest ih =>
      rw [defineAll] at h
      cases hd : p.define d with
      | error f => rw [hd] at h; cases h
      | ok p' =>
          rw [hd] at h
          exact (gains_of_define hd).trans (ih h)

/-- **Where definitions stop**: those before the first one that cannot be carried out are carried
out. -/
lemma exists_of_defineAll_error (h : defineAll ds p = (.error f, q)) :
    ∃ before d after, ds = before ++ d :: after ∧ defineAll before p = (.ok (), q) ∧
      q.define d = .error f := by
  induction ds generalizing p with
  | nil => cases h
  | cons d rest ih =>
      rw [defineAll] at h
      cases hd : p.define d with
      | error f' =>
          rw [hd] at h
          cases h
          exact ⟨[], d, rest, rfl, rfl, hd⟩
      | ok p' =>
          rw [hd] at h
          obtain ⟨before, d', after, rfl, hbefore, herror⟩ := ih h
          exact ⟨d :: before, d', after, rfl, by rw [defineAll, hd]; exact hbefore, herror⟩

end Pack

/-! ### Where linking stops -/

namespace Store

variable {s : Store} {g : Graph} {ls : List Link} {f : Fault}

lemma exists_bindAll_false (s : Store) (ls : List Link) (g : Graph) :
    ∃ names, (s.bindAll false ls g).1 = .ok names := by
  induction ls generalizing g with
  | nil => exact ⟨[], rfl⟩
  | cons l rest ih =>
      rw [bindAll]
      cases s.resolve? g l with
      | some c => exact ih _
      | none =>
          obtain ⟨names, hnames⟩ := ih g
          exact ⟨_, congrArg (Except.map _) hnames⟩

lemma unresolved_bind (l : Link) (e : ExpressionRef) (target : Option Item) :
    unresolved (g.bind e target) l = unresolved g l := by
  rw [unresolved, unresolved, Graph.conditionId_bind]
  rfl

/-- **Where strict linking stops**: the references before the first one that names nothing are
bound. -/
lemma exists_of_bindAll_error (h : (s.bindAll true ls g).1 = .error f) :
    ∃ before l after, ls = before ++ l :: after ∧ (∀ l' ∈ before, (s.resolve? g l').isSome) ∧
      s.resolve? g l = none ∧ f = .problem (unresolved g l) ∧
        (s.bindAll true ls g).2 = (s.bindAll true before g).2 := by
  induction ls generalizing g with
  | nil => cases h
  | cons l rest ih =>
      cases hl : s.resolve? g l with
      | none =>
          rw [bindAll, hl] at h ⊢
          cases h
          exact ⟨[], l, rest, rfl, List.forall_mem_nil _, hl, rfl, rfl⟩
      | some c =>
          have hcons : ∀ ls, s.bindAll true (l :: ls) g =
              s.bindAll true ls (g.bind l.expression (some (.condition c))) := by
            intro ls
            rw [bindAll, hl]
          rw [hcons] at h ⊢
          obtain ⟨before, l', after, rfl, hbefore, hl', hf, hafter⟩ := ih h
          simp only [resolve?_bind] at hbefore hl'
          refine ⟨l :: before, l', after, rfl, ?_, hl', hf.trans (by rw [unresolved_bind]), ?_⟩
          · exact List.forall_mem_cons.mpr ⟨by rw [hl]; rfl, hbefore⟩
          · rw [hafter, hcons]

end Store

/-! ### Loads that fail -/

namespace Pack

variable {p q : Pack} {data : Datum} {strict : Bool} {f : Fault} {ls : List Store.Link}

/-- **Some references of a pack are bound**, each to the stored condition that it names, and there
is no other change. -/
structure Binds (p : Pack) (ls : List Store.Link) (q : Pack) : Prop where
  store : q.store = p.store
  keeps : p.graph.Keeps q.graph
  artifacts : q.graph.artifacts = p.graph.artifacts
  scripts : q.graph.scripts = p.graph.scripts
  target (e : ExpressionRef) : (q.graph.expression e).target =
    if e ∈ ls.map Store.Link.expression then
      (p.stored? ((p.graph.expression e).conditionId.getD "")).map .condition
    else (p.graph.expression e).target

/-- **How a load fails**, and what it leaves behind. -/
inductive Failure (p : Pack) (data : Datum) (strict : Bool) : Fault → Pack → Prop where
  /-- the data are no document, and nothing changes -/
  | malformed {found : List Issue} : Document.ofDatum data = .error found →
      Failure p data strict (.problem (malformed found)) p
  /-- an expression cannot be built, after the conditions defined before were stored -/
  | unbuildable {doc : Document} {before after : List ConditionDefinition}
      {d : ConditionDefinition} {f : Fault} {q : Pack} : Document.ofDatum data = .ok doc →
      doc.conditions = before ++ d :: after → p.Gains before q → (before = [] → q = p) →
      ¬ d.IsBuildable → f.OfKind .invalidDefinition → Failure p data strict f q
  /-- an id is taken, after the conditions defined before were stored -/
  | duplicate {doc : Document} {before after : List ConditionDefinition}
      {d : ConditionDefinition} {q : Pack} : Document.ofDatum data = .ok doc →
      doc.conditions = before ++ d :: after → p.Gains before q → (before = [] → q = p) →
      d.IsBuildable → (q.stored? d.id).isSome →
      Failure p data strict (.problem (Store.duplicate d.id)) q
  /-- a reference names nothing, after all conditions were stored and the references before it were
  bound -/
  | unresolved {doc : Document} {whole q : Pack} {before after : List Store.Link} {l : Store.Link} :
      strict = true → Document.ofDatum data = .ok doc → p.Gains doc.conditions whole →
      whole.store.links whole.graph = before ++ l :: after →
      (∀ l' ∈ before, (whole.store.resolve? whole.graph l').isSome) →
      whole.store.resolve? whole.graph l = none → whole.Binds before q →
      Failure p data strict (.problem (Store.unresolved whole.graph l)) q

/-- The references of a whole pack are in its graph. -/
lemma Whole.link_lt (hp : p.Whole) : ∀ l ∈ p.store.links p.graph,
    l.expression.index < p.graph.expressions.size := by
  intro l hl
  obtain ⟨howner, he, -⟩ := Store.mem_links.mp hl
  exact hp.expressions _ howner _ he

/-- Strict linking that succeeds binds all of the references, and one that fails those before the
first that names nothing. -/
lemma binds_bindAll (hls : ∀ l ∈ ls, (p.store.resolve? p.graph l).isSome)
    (hthere : ∀ l ∈ ls, l.expression.index < p.graph.expressions.size) :
    p.Binds ls { p with graph := (p.store.bindAll true ls p.graph).2 } := by
  obtain ⟨hkeeps, hartifacts, hscripts⟩ := p.store.keeps_bindAll true ls p.graph
  exact ⟨rfl, hkeeps, hartifacts, hscripts, Store.target_bindAll hls hthere⟩

/-- **What a load does**: it is refused at once, or it stops at a definition, or it links. -/
lemma load_cases (p : Pack) (data : Datum) (strict : Bool) :
    (∃ found, Document.ofDatum data = .error found ∧
      p.load data strict = (.error (.problem (malformed found)), p)) ∨
    (∃ doc f q, Document.ofDatum data = .ok doc ∧ defineAll doc.conditions p = (.error f, q) ∧
      p.load data strict = (.error f, q)) ∨
    ∃ doc q, Document.ofDatum data = .ok doc ∧ defineAll doc.conditions p = (.ok (), q) ∧
      p.load data strict = q.link strict := by
  cases hdoc : Document.ofDatum data with
  | error found => exact .inl ⟨found, rfl, load_of_malformed hdoc⟩
  | ok doc =>
      rcases hdefine : defineAll doc.conditions p with ⟨_ | _, q⟩
      · refine .inr (.inl ⟨doc, _, q, rfl, hdefine, ?_⟩)
        rw [load, hdoc]
        dsimp only
        rw [hdefine]
      · exact .inr (.inr ⟨doc, q, rfl, hdefine, load_eq_link hdoc hdefine strict⟩)

/-- **Every load that fails, fails in one of these ways.** -/
lemma failure_of_load (hp : p.Whole) (h : (p.load data strict).1 = .error f) :
    p.Failure data strict f (p.load data strict).2 := by
  rcases p.load_cases data strict with ⟨found, hdoc, hload⟩ | ⟨doc, f', q, hdoc, hdefine, hload⟩ |
    ⟨doc, q, hdoc, hdefine, hload⟩
  all_goals rw [hload] at h ⊢
  · cases h
    exact .malformed hdoc
  · cases h
    obtain ⟨before, d, after, hds, hbefore, hd⟩ := exists_of_defineAll_error hdefine
    have hgains := gains_of_defineAll hbefore
    have hfirst : before = [] → q = p := by
      rintro rfl
      cases hbefore
      rfl
    rcases define_eq_error (hp.gains hgains) hd with ⟨hnot, hkind⟩ | ⟨hbuildable, hid, rfl⟩
    · exact .unbuildable hdoc hds hgains hfirst hnot hkind
    · exact .duplicate hdoc hds hgains hfirst hbuildable hid
  · cases strict with
    | false =>
        obtain ⟨names, hnames⟩ := q.store.exists_bindAll_false (q.store.links q.graph) q.graph
        cases hnames.symm.trans h
    | true =>
        have hgains := gains_of_defineAll hdefine
        obtain ⟨before, l, after, hlinks, hbefore, hl, rfl, hafter⟩ :=
          Store.exists_of_bindAll_error h
        have hthere := (hp.gains hgains).link_lt
        have hbinds := binds_bindAll hbefore fun l' hl' =>
          hthere l' (by rw [hlinks]; exact List.mem_append_left _ hl')
        rw [← hafter] at hbinds
        exact .unresolved rfl hdoc hgains hlinks hbefore hl hbinds

/-- **What was stored stays**, as the first conditions, and as it was but for what its references
are bound to. -/
structure Retains (p q : Pack) : Prop where
  members : p.store.members <+: q.store.members
  condition : ∀ c ∈ p.store.members, q.graph.condition c = p.graph.condition c
  expression : ∀ c ∈ p.store.members, ∀ e ∈ (p.graph.condition c).expressions,
    (q.graph.expression e).unbound = (p.graph.expression e).unbound

lemma Whole.retains_of_keeps (hp : p.Whole) (hmembers : p.store.members <+: q.store.members)
    (hkeeps : p.graph.Keeps q.graph) : p.Retains q where
  members := hmembers
  condition c hc := (hkeeps.condition c (hp.conditions c hc)).2
  expression c hc e he := (hkeeps.expression e (hp.expressions c hc e he)).2

/-- A load that fails leaves what was stored. -/
lemma Failure.retains (hp : p.Whole) (h : p.Failure data strict f q) : p.Retains q := by
  have hgained {ds : List ConditionDefinition} {q : Pack} (hq : p.Gains ds q) :
      p.store.members <+: q.store.members := by
    obtain ⟨new, hmembers, -⟩ := hq.members
    exact ⟨new, hmembers.symm⟩
  cases h with
  | malformed => exact hp.retains_of_keeps (List.prefix_refl _) (.refl _)
  | unbuildable _ _ hq => exact hp.retains_of_keeps (hgained hq) hq.keeps
  | duplicate _ _ hq => exact hp.retains_of_keeps (hgained hq) hq.keeps
  | unresolved _ _ hwhole _ _ _ hq =>
      exact hp.retains_of_keeps (hq.store ▸ hgained hwhole) (hwhole.keeps.trans hq.keeps)

/-- Unless it fails for a reference that names nothing, it also leaves what references are bound
to. -/
lemma Failure.expression_eq (hp : p.Whole) (h : p.Failure data strict f q)
    (hf : ¬ f.OfKind .unresolvedReference) {c : ConditionRef} (hc : c ∈ p.store.members)
    {e : ExpressionRef} (he : e ∈ (p.graph.condition c).expressions) :
    q.graph.expression e = p.graph.expression e := by
  have hthere := hp.expressions c hc e he
  cases h with
  | malformed => rfl
  | unbuildable _ _ hq => exact (hq.expression e hthere).2
  | duplicate _ _ hq => exact (hq.expression e hthere).2
  | unresolved => exact absurd ⟨_, rfl, rfl⟩ hf

lemma Holds.whole {ds : List ConditionDefinition} (h : p.Holds ds) : p.Whole where
  conditions := h.stored
  expressions c hc _ he := h.index_lt_of_mem_parts (List.mem_flatMap.mpr ⟨c, hc, he⟩)

end Pack

namespace Evaluator

open Pack

/-- **A load that fails takes nothing back.** It leaves all that was stored, as the first conditions
and in their order. Data that are no document change nothing, nor does a first definition that
cannot be carried out; a later one leaves the conditions defined before it, bound to nothing, and no
other change. Only where a reference names nothing, and this is not tolerated, all conditions are
there, and the references before it are bound. A store that takes no definitions stays as it is. -/
theorem failed_load (p : Pack) (hp : p.Whole) (data : Datum) :
    (∀ strict f, (p.load data strict).1 = .error f →
      let q := (p.load data strict).2
      p.Failure data strict f q ∧ p.Retains q ∧
        (¬ f.OfKind .unresolvedReference →
          ∀ c ∈ p.store.members, ∀ e ∈ (p.graph.condition c).expressions,
            q.graph.expression e = p.graph.expression e)) ∧
    ∀ (ev : Evaluator) f, (ev.load p data).1 = .error f →
      (p.store.readOnly = true ∧ f = .readOnlyStore ∧ (ev.load p data).2 = p) ∨
        p.Failure data ev.settings.strictLinks f (ev.load p data).2 := by
  constructor
  · intro strict f hf
    have hfailure := failure_of_load hp hf
    exact ⟨hfailure, hfailure.retains hp,
      fun hkind c hc e he => hfailure.expression_eq hp hkind hc he⟩
  · intro ev f hf
    rw [load] at hf ⊢
    split
    · rename_i hreadOnly
      rw [if_pos hreadOnly] at hf
      cases hf
      exact .inl ⟨hreadOnly, rfl, rfl⟩
    · rename_i hreadOnly
      rw [if_neg hreadOnly] at hf
      exact .inr (failure_of_load hp hf)

/-- A document with a new id and one that the sample defines, too. -/
def lateData : Datum := .table [(.text "conditions", .list [
  .table [(.text "id", .text "late")], .table [(.text "id", .text "top")]])]

/-- Loaded after the sample, it fails at the second condition; the first one is stored last. -/
theorem failed_load_sample :
    let p := (Pack.load {} Document.sampleData true).2
    let q := (p.load lateData true).2
    p.Whole ∧ (p.load lateData true).1 = .error (.problem (Store.duplicate "top")) ∧
      p.Retains q ∧ q.store.ids q.graph = ["top", "base", "loop", "late"] := by
  intro p q
  obtain ⟨doc, -, hloaded⟩ := loaded_of_load Document.load_sampleData
  have hp : p.Whole := hloaded.whole
  have hf : (p.load lateData true).1 = .error (.problem (Store.duplicate "top")) := rfl
  obtain ⟨hfailed, -⟩ := failed_load p hp lateData
  obtain ⟨-, hretains, -⟩ := hfailed true _ hf
  exact ⟨hp, hf, hretains, rfl⟩

/-- A condition that is defined twice. -/
def twiceData : Datum := .table [(.text "conditions", .list [
  .table [(.text "id", .text "A")], .table [(.text "id", .text "A")]])]

/-- The same condition, defined once. -/
def onceData : Datum := .table [(.text "conditions", .list [.table [(.text "id", .text "A")]])]

/-- **A load that fails may change a store.** If a condition is defined twice, the load fails, but
the condition is there afterwards; and a document that defines it once, and could be loaded before,
is refused from now on. -/
theorem failed_load_changes_store :
    let p : Pack := {}
    let q := (p.load twiceData true).2
    (p.load twiceData true).1 = .error (.problem (Store.duplicate "A")) ∧
      p.store.ids p.graph = [] ∧ q.store.ids q.graph = ["A"] ∧
      (p.load onceData true).1 = .ok [] ∧
      (q.load onceData true).1 = .error (.problem (Store.duplicate "A")) :=
  ⟨rfl, rfl, rfl, rfl, rfl⟩

end Evaluator

end Applicability
