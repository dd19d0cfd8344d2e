/-
Acceptance: what is loaded into a new store, and what is refused.

* `Document.IsAcceptable`: what there is to ask of a document in which each part has its form;
* `Document.Refuses`: the kind of the first problem with a document;
* `Graph.Makes`: a condition is what its definition describes;
* `exists_load_iff`, `makes_of_load`: a load succeeds exactly if the data are the written form of an
  acceptable document, and its conditions are stored then;
* `refused_of_load`, `exists_load_error`: the kind of problem by which other data are refused;
* `load_accepts_format`: all of it.
-/
import Applicability.Proofs.Failing

namespace Applicability

/-! ### Documents -/

/-- A definition whose expressions describe something. -/
def ConditionDefinition.IsMakeable (d : ConditionDefinition) : Prop :=
  ∀ x ∈ d.expressions, ∃ y, x.Makes y

lemma ConditionDefinition.isBuildable_iff {d : ConditionDefinition} :
    d.IsBuildable ↔ d.IsMakeable :=
  forall₂_congr fun _ _ => exists_congr fun _ => ExpressionDefinition.build_eq_ok_iff

namespace Document

/-- **A document that can be loaded into a new store**: each expression describes something, no id
is defined twice, and where linking is strict, every reference names a defined id. -/
structure IsAcceptable (doc : Document) (strict : Bool) : Prop where
  makeable : ∀ d ∈ doc.conditions, d.IsMakeable
  ids : (doc.conditions.map (·.id)).Nodup
  named : strict = true → ∀ d ∈ doc.conditions, ∀ x ∈ d.expressions, ∀ id, x.named? = some id →
    id ∈ doc.conditions.map (·.id)

/-- **The kind of the first problem with a document.** The definitions are looked at one after the
other, the expressions of each before its id, and the references at last. -/
inductive Refuses (doc : Document) (strict : Bool) : Problem.Kind → Prop where
  /-- an expression describes nothing -/
  | unmakeable {before after : List ConditionDefinition} {d : ConditionDefinition} :
      doc.conditions = before ++ d :: after → IsAcceptable ⟨before⟩ false → ¬ d.IsMakeable →
      Refuses doc strict .invalidDefinition
  /-- an id was defined before -/
  | repeated {before after : List ConditionDefinition} {d : ConditionDefinition} :
      doc.conditions = before ++ d :: after → IsAcceptable ⟨before⟩ false → d.IsMakeable →
      d.id ∈ before.map (·.id) → Refuses doc strict .duplicateCondition
  /-- a reference names no defined id -/
  | unresolved {d : ConditionDefinition} {x : ExpressionDefinition} {id : String} :
      strict = true → doc.IsAcceptable false → d ∈ doc.conditions → x ∈ d.expressions →
      x.named? = some id → id ∉ doc.conditions.map (·.id) → Refuses doc strict .unresolvedReference

end Document

/-- **The kind of problem by which data are refused.** They are no document at all, or there is a
problem with the document. -/
inductive Refused (data : Datum) (strict : Bool) : Problem.Kind → Prop where
  | unwritten : (¬ ∃ doc : Document, doc.Written data) → Refused data strict .invalidDefinition
  | document {doc : Document} {kind : Problem.Kind} : doc.Written data → doc.Refuses strict kind →
      Refused data strict kind

/-- **A condition is what its definition describes**, whatever its references are bound to. -/
structure Graph.Makes (g : Graph) (d : ConditionDefinition) (c : ConditionRef) : Prop where
  id : (g.condition c).id = d.id
  description : (g.condition c).description = d.description
  expressions : List.Forall₂ (fun x e => x.Makes (g.expression e).unbound) d.expressions
    (g.condition c).expressions

lemma Graph.Builds.makes {g : Graph} {d : ConditionDefinition} {c : ConditionRef}
    (h : g.Builds d c) : g.Makes d c where
  id := h.id
  description := h.description
  expressions := h.expressions.imp fun _ _ he => ExpressionDefinition.build_eq_ok_iff.mp he.build

namespace Pack

variable {p q : Pack} {doc : Document} {ds : List ConditionDefinition} {data : Datum}
  {strict : Bool} {names : List String} {f : Fault} {kind : Problem.Kind}

/-! ### What is loaded -/

lemma exists_defineAll_iff_isAcceptable :
    (∃ q, defineAll ds {} = (.ok (), q)) ↔ Document.IsAcceptable ⟨ds⟩ false := by
  have hbuildable : (∀ d ∈ ds, d.IsBuildable) ↔ ∀ d ∈ ds, d.IsMakeable :=
    forall₂_congr fun _ _ => ConditionDefinition.isBuildable_iff
  rw [holds_nil.exists_defineAll_iff, hbuildable, List.nil_append]
  constructor
  · rintro ⟨hmakeable, hids⟩
    exact ⟨hmakeable, hids, fun hstrict => absurd hstrict Bool.false_ne_true⟩
  · intro h
    exact ⟨h.makeable, h.ids⟩

/-- Linking succeeds exactly if it is not strict, or every reference names a defined id. -/
lemma Holds.exists_link_iff (h : p.Holds ds) :
    (∃ names, (p.link strict).1 = .ok names) ↔
      (strict = true → ∀ d ∈ ds, ∀ x ∈ d.expressions, ∀ id, x.named? = some id →
        id ∈ ds.map (·.id)) := by
  cases strict with
  | false =>
      exact iff_of_true (p.store.exists_bindAll_false _ _) fun hstrict =>
        absurd hstrict Bool.false_ne_true
  | true =>
      rw [← h.links_resolve_iff, forall_prop_of_true rfl]
      constructor
      · rintro ⟨_, hnames⟩
        exact (Store.bindAll_eq_ok_iff.mp hnames).2
      · intro hall
        exact ⟨[], Store.bindAll_eq_ok_iff.mpr ⟨rfl, hall⟩⟩

/-- **What is loaded into a new store.** -/
lemma exists_load_iff :
    (∃ names, (Pack.load {} data strict).1 = .ok names) ↔
      ∃ doc : Document, doc.Written data ∧ doc.IsAcceptable strict := by
  constructor
  · rintro ⟨names, hnames⟩
    rcases Pack.load_cases {} data strict with ⟨found, -, hload⟩ | ⟨doc, f, q, -, -, hload⟩ |
      ⟨doc, q, hdoc, hdefine, hload⟩
    all_goals rw [hload] at hnames
    · cases hnames
    · cases hnames
    · have hholds : q.Holds doc.conditions := holds_nil.defineAll hdefine
      have h := exists_defineAll_iff_isAcceptable.mp ⟨q, hdefine⟩
      exact ⟨doc, Document.ofDatum_eq_ok_iff_written.mp hdoc, h.makeable, h.ids,
        hholds.exists_link_iff.mp ⟨names, hnames⟩⟩
  · rintro ⟨doc, hdoc, h⟩
    obtain ⟨q, hdefine⟩ := exists_defineAll_iff_isAcceptable.mpr
      ⟨h.makeable, h.ids, fun hstrict => absurd hstrict Bool.false_ne_true⟩
    have hholds : q.Holds doc.conditions := holds_nil.defineAll hdefine
    rw [load_eq_link (Document.ofDatum_eq_ok_iff_written.mpr hdoc) hdefine]
    exact hholds.exists_link_iff.mpr h.named

/-- **What a load into a new store leads to.** -/
lemma makes_of_load (h : (Pack.load {} data strict).1 = .ok names) :
    ∃ doc : Document, doc.Written data ∧ List.Forall₂ (Pack.load {} data strict).2.graph.Makes
      doc.conditions (Pack.load {} data strict).2.store.members := by
  rcases Pack.load_cases {} data strict with ⟨found, -, hload⟩ | ⟨doc, f, q, -, -, hload⟩ |
    ⟨doc, q, hdoc, hdefine, hload⟩
  all_goals rw [hload] at h ⊢
  · cases h
  · cases h
  · have hholds : q.Holds doc.conditions := holds_nil.defineAll hdefine
    exact ⟨doc, Document.ofDatum_eq_ok_iff_written.mp hdoc,
      (hholds.link strict).built.imp fun _ _ hd => hd.makes⟩

/-! ### What is refused -/

/-- **Why a load is refused.** -/
lemma refused_of_load (h : (Pack.load {} data strict).1 = .error f) :
    ∃ kind, f.OfKind kind ∧ Refused data strict kind := by
  rcases Pack.load_cases {} data strict with ⟨found, hdoc, hload⟩ |
    ⟨doc, f, q, hdoc, hdefine, hload⟩ | ⟨doc, q, hdoc, hdefine, hload⟩
  all_goals rw [hload] at h
  · cases h
    refine ⟨.invalidDefinition, ⟨_, rfl, rfl⟩, .unwritten ?_⟩
    rintro ⟨doc, hwritten⟩
    cases hdoc.symm.trans (Document.ofDatum_eq_ok_iff_written.mpr hwritten)
  · cases h
    have hwritten := Document.ofDatum_eq_ok_iff_written.mp hdoc
    obtain ⟨before, d, after, hds, hbefore, hd⟩ := exists_of_defineAll_error hdefine
    have hacceptable := exists_defineAll_iff_isAcceptable.mp ⟨q, hbefore⟩
    have hholds : q.Holds before := holds_nil.defineAll hbefore
    rcases define_eq_error hholds.whole hd with ⟨hnot, hkind⟩ | ⟨hbuildable, hid, rfl⟩
    · rw [ConditionDefinition.isBuildable_iff] at hnot
      exact ⟨_, hkind, .document hwritten (.unmakeable hds hacceptable hnot)⟩
    · rw [stored?, Store.isSome_find?_iff, hholds.ids_eq] at hid
      exact ⟨_, ⟨_, rfl, rfl⟩, .document hwritten (.repeated hds hacceptable
        (ConditionDefinition.isBuildable_iff.mp hbuildable) hid)⟩
  · have hwritten := Document.ofDatum_eq_ok_iff_written.mp hdoc
    have hholds : q.Holds doc.conditions := holds_nil.defineAll hdefine
    have hacceptable := exists_defineAll_iff_isAcceptable.mp ⟨q, hdefine⟩
    cases strict with
    | false =>
        obtain ⟨names, hnames⟩ := q.store.exists_bindAll_false (q.store.links q.graph) q.graph
        cases hnames.symm.trans h
    | true =>
        obtain ⟨before, l, after, hlinks, -, hl, rfl, -⟩ := Store.exists_of_bindAll_error h
        -- the reference is the one of a definition
        obtain ⟨howner, he, hdomain⟩ :=
          Store.mem_links.mp (hlinks ▸ List.mem_append_right _ List.mem_cons_self)
        obtain ⟨d, hd, hbuilds⟩ := hholds.exists_builds howner
        obtain ⟨x, hx, hexpression⟩ := exists_left_of_forall₂ hbuilds.expressions he
        have hnamed := Expression.named?_eq_some_iff.mpr ⟨hdomain, rfl⟩
        refine ⟨_, ⟨_, rfl, rfl⟩, .document hwritten
          (.unresolved rfl hacceptable hd hx (hexpression.named?.symm.trans hnamed) fun hid => ?_)⟩
        rw [← hholds.ids_eq, ← Store.isSome_find?_iff, ← Store.resolve?, hl] at hid
        cases hid

/-- A load stops at the first definition that cannot be carried out. -/
lemma exists_load_error_of_define {before after : List ConditionDefinition}
    {d : ConditionDefinition} (hdoc : doc.Written data)
    (hds : doc.conditions = before ++ d :: after) (hbefore : Document.IsAcceptable ⟨before⟩ false)
    (hd : ¬ (d.IsMakeable ∧ d.id ∉ before.map (·.id))) :
    ∃ (q : Pack) (f : Fault), q.Holds before ∧ q.define d = .error f ∧
      (Pack.load {} data strict).1 = .error f := by
  obtain ⟨q, hq⟩ := exists_defineAll_iff_isAcceptable.mpr hbefore
  have hholds : q.Holds before := holds_nil.defineAll hq
  rw [← ConditionDefinition.isBuildable_iff, ← hholds.exists_define_iff] at hd
  cases hdefine : q.define d with
  | ok q' => exact absurd ⟨q', hdefine⟩ hd
  | error f =>
      refine ⟨q, f, hholds, hdefine, ?_⟩
      rw [load, Document.ofDatum_eq_ok_iff_written.mpr hdoc]
      dsimp only
      rw [hds, defineAll_append hq, defineAll, hdefine]

/-- **And what is refused for such a reason.** -/
lemma exists_load_error (h : Refused data strict kind) :
    ∃ f, (Pack.load {} data strict).1 = .error f ∧ f.OfKind kind := by
  cases h with
  | unwritten hnone =>
      cases hdoc : Document.ofDatum data with
      | ok doc => exact absurd ⟨doc, Document.ofDatum_eq_ok_iff_written.mp hdoc⟩ hnone
      | error found => exact ⟨_, by rw [load_of_malformed hdoc], _, rfl, rfl⟩
  | document hdoc hrefuses =>
      cases hrefuses with
      | unmakeable hds hbefore hnot =>
          obtain ⟨q, f, hholds, hdefine, hload⟩ :=
            exists_load_error_of_define hdoc hds hbefore fun hd => hnot hd.1
          -- a definition stops a load for one of two reasons, of which the other one is excluded
          rcases define_eq_error hholds.whole hdefine with ⟨-, hkind⟩ | ⟨hbuildable, -, -⟩
          · exact ⟨f, hload, hkind⟩
          · exact absurd (ConditionDefinition.isBuildable_iff.mp hbuildable) hnot
      | repeated hds hbefore hmakeable hid =>
          obtain ⟨q, f, hholds, hdefine, hload⟩ :=
            exists_load_error_of_define hdoc hds hbefore fun hd => hd.2 hid
          rcases define_eq_error hholds.whole hdefine with ⟨hnot, -⟩ | ⟨-, -, rfl⟩
          · exact absurd (ConditionDefinition.isBuildable_iff.mpr hmakeable) hnot
          · exact ⟨_, hload, _, rfl, rfl⟩
      | @unresolved d x id hstrict hacceptable hd hx hid hnone =>
          obtain ⟨q, hq⟩ := exists_defineAll_iff_isAcceptable.mpr hacceptable
          have hholds : q.Holds _ := holds_nil.defineAll hq
          subst hstrict
          rw [load_eq_link (Document.ofDatum_eq_ok_iff_written.mpr hdoc) hq]
          cases hlink : (q.link true).1 with
          | ok names =>
              exact absurd (hholds.exists_link_iff.mp ⟨names, hlink⟩ rfl d hd x hx id hid) hnone
          | error f =>
              obtain ⟨before, l, after, -, -, -, rfl, -⟩ := Store.exists_of_bindAll_error hlink
              exact ⟨_, rfl, _, rfl, rfl⟩

/-- **The loader accepts exactly its format.** A load into a new store succeeds exactly if the data
are the written form of an acceptable document. Then the store holds one condition for each
definition, in order, which is what the definition describes. Otherwise the load fails with a
problem whose kind is that of the first thing that is wrong: with the form, with a definition, or
with a reference. -/
theorem load_accepts_format (data : Datum) (strict : Bool) :
    ((∃ names, (Pack.load {} data strict).1 = .ok names) ↔
      ∃ doc : Document, doc.Written data ∧ doc.IsAcceptable strict) ∧
    (∀ names, (Pack.load {} data strict).1 = .ok names →
      ∃ doc : Document, doc.Written data ∧ List.Forall₂ (Pack.load {} data strict).2.graph.Makes
        doc.conditions (Pack.load {} data strict).2.store.members) ∧
    (∀ f, (Pack.load {} data strict).1 = .error f →
      ∃ kind, f.OfKind kind ∧ Refused data strict kind) ∧
    ∀ kind, Refused data strict kind →
      ∃ f, (Pack.load {} data strict).1 = .error f ∧ f.OfKind kind :=
  ⟨exists_load_iff, fun _ => makes_of_load, fun _ => refused_of_load, fun _ => exists_load_error⟩

/-- The sample is accepted, and a condition that is defined twice is refused as a duplicate. -/
theorem load_accepts_format_sample :
    (∃ doc : Document, doc.Written Document.sampleData ∧ doc.IsAcceptable true) ∧
      Refused Evaluator.twiceData true .duplicateCondition := by
  constructor
  · exact (load_accepts_format Document.sampleData true).1.mp ⟨[], Document.load_sampleData⟩
  · have hload : (Pack.load {} Evaluator.twiceData true).1 =
        .error (.problem (Store.duplicate "A")) := rfl
    obtain ⟨kind, ⟨p, hp, rfl⟩, hrefused⟩ :=
      (load_accepts_format Evaluator.twiceData true).2.2.1 _ hload
    obtain rfl : Store.duplicate "A" = p := Fault.problem.inj hp
    exact hrefused

end Pack

end Applicability
