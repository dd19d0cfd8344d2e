/-
Arrangement: what does not matter about a document.

* `ofDatum_perm`, `IsSound.perm`: a document whose definitions are put in another order is read and
  accepted as well;
* `Pack.correspondence`: two packs correspond as far as their documents say the same below an id;
* `check_of_correspondence`: a check of corresponding conditions comes to the same report;
* `check_depends_on_definitions`: so neither the order of the definitions nor those that an id does
  not refer to matter for a check.
-/
import Mathlib.Data.List.Pairwise
import Mathlib.Data.List.Perm.Basic
import Applicability.Proofs.Complaints
import Applicability.Proofs.Correspondence
import Applicability.Proofs.Format
import Applicability.Proofs.Linking

namespace Applicability

/-! ### Documents in another order -/

namespace Datum

lemma field?_put (name : String) (value : Datum) (entries : List (Datum × Datum)) :
    field? (put (text name) value entries) name = some value := by
  induction entries with
  | nil => simp [put, field?, same]
  | cons e rest ih =>
      obtain ⟨k, v⟩ := e
      by_cases hk : same k (text name)
      · simp [put, field?, hk]
      · rw [field?] at ih
        simpa [put, field?, hk] using ih

lemma map_fst_put {name : String} {entries : List (Datum × Datum)}
    (h : (field? entries name).isSome) (value : Datum) :
    (put (text name) value entries).map Prod.fst = entries.map Prod.fst := by
  induction entries with
  | nil => cases h
  | cons e rest ih =>
      obtain ⟨k, v⟩ := e
      by_cases hk : same k (text name)
      · simp [put, hk]
      · have hrest : (field? rest name).isSome := by simpa [field?, hk] using h
        simp [put, hk, ih hrest]

end Datum

namespace Checked

/-- Whether there are unknown fields can be told from the names. -/
lemma unknownFields_congr {fields : List String} {entries entries' : List (Datum × Datum)}
    (h : entries'.map Prod.fst = entries.map Prod.fst) :
    unknownFields fields entries' = .ok () ↔ unknownFields fields entries = .ok () := by
  have hrecord : ∀ es : List (Datum × Datum),
      Datum.IsRecord fields es ↔ ∀ name ∈ es.map Prod.fst, ∃ t ∈ fields, name = .text t := by
    intro es
    rw [List.forall_mem_map]
    rfl
  rw [unknownFields_eq_ok_iff, unknownFields_eq_ok_iff, hrecord, hrecord, h]

end Checked

namespace Document

variable {doc doc' : Document} {entries : List (Datum × Datum)} {items items' : List Datum}

/-- A document is read from its list of definitions, if there is nothing else. -/
lemma ofDatum_eq_ok_iff (hfield : Datum.field? entries "conditions" = some (.list items)) :
    ofDatum (.table entries) = .ok doc ↔
      List.Forall₂ (fun d a => ConditionDefinition.ofDatum d = .ok a) items doc.conditions ∧
        Checked.unknownFields fields entries = .ok () := by
  have hread : Checked.field entries "conditions" (Checked.list ConditionDefinition.ofDatum)
      (some []) = .ok doc.conditions ↔
        List.Forall₂ (fun d a => ConditionDefinition.ofDatum d = .ok a) items doc.conditions := by
    simp only [Checked.field, hfield]
    exact Checked.under_eq_ok_iff.trans Checked.list_eq_ok_iff
  rw [← hread, ← Checked.both_eq_ok_iff, ofDatum]
  generalize Checked.both _ _ = x
  cases x with
  | error found => simp [Except.map]
  | ok x =>
      obtain ⟨conditions, u⟩ := x
      cases doc
      simp [Except.map]

/-- **A document with its definitions in another order** is read as well. -/
lemma ofDatum_perm (hfield : Datum.field? entries "conditions" = some (.list items))
    (hperm : items'.Perm items) (h : ofDatum (.table entries) = .ok doc) :
    ∃ doc', ofDatum (.table (Datum.put (.text "conditions") (.list items') entries)) = .ok doc' ∧
      doc'.conditions.Perm doc.conditions := by
  obtain ⟨hitems, hnames⟩ := (ofDatum_eq_ok_iff hfield).mp h
  obtain ⟨conditions, hitems', hconditions⟩ := List.perm_comp_forall₂ hperm hitems
  refine ⟨⟨conditions⟩, (ofDatum_eq_ok_iff (Datum.field?_put _ _ _)).mpr ⟨hitems', ?_⟩, hconditions⟩
  exact (Checked.unknownFields_congr (Datum.map_fst_put (by rw [hfield]; rfl) _)).mpr hnames

lemma IsSound.perm (h : doc.IsSound) (hperm : doc'.conditions.Perm doc.conditions) :
    doc'.IsSound where
  buildable d hd := h.buildable d (hperm.mem_iff.mp hd)
  ids := ((hperm.map _).nodup_iff).mpr h.ids
  named d hd x hx id hid := (hperm.map _).mem_iff.mpr (h.named d (hperm.mem_iff.mp hd) x hx id hid)

end Document

/-! ### Packs that correspond -/

namespace Pack

variable {p p' : Pack} {doc doc' : Document} {ds : List ConditionDefinition} {root : String}

/-- An expression has one place in one stored condition. -/
lemma Holds.place_unique (h : p.Holds ds) {c c' : ConditionRef} (hc : c ∈ p.store.members)
    (hc' : c' ∈ p.store.members) {e : ExpressionRef} {n n' : Nat}
    (he : (p.graph.condition c).expressions[n]? = some e)
    (he' : (p.graph.condition c').expressions[n']? = some e) : c = c' ∧ n = n' := by
  obtain ⟨hnodup, hdisjoint⟩ := List.nodup_flatMap.mp h.apart
  have hsame : c = c' := by
    by_contra hne
    have : Std.Symm (Function.onFun List.Disjoint fun c => (p.graph.condition c).expressions) :=
      ⟨fun _ _ h _ hx hy => h hy hx⟩
    exact hdisjoint.forall hc hc' hne (List.mem_of_getElem? he) (List.mem_of_getElem? he')
  subst hsame
  obtain ⟨hn, -⟩ := List.getElem?_eq_some_iff.mp he
  exact ⟨rfl, (List.getElem?_inj hn (hnodup c hc)).mp (he.trans he'.symm)⟩

/-- **The stored conditions of one id** in two packs, where a root refers to the id, directly or
not. -/
structure Shares (p p' : Pack) (doc : Document) (root id : String) (c c' : ConditionRef) :
    Prop where
  refers : Relation.ReflTransGen doc.Refers root id
  left : p.stored? id = some c
  right : p'.stored? id = some c'

section Shares

variable {id id₁ id₂ : String} {c c' c₁ c₂ : ConditionRef}

lemma Shares.mem_left (hs : p.Shares p' doc root id c c') : c ∈ p.store.members :=
  (stored?_eq_some hs.left).1

lemma Shares.mem_right (hs : p.Shares p' doc root id c c') : c' ∈ p'.store.members :=
  (stored?_eq_some hs.right).1

lemma Shares.id_left (hs : p.Shares p' doc root id c c') : (p.graph.condition c).id = id :=
  (stored?_eq_some hs.left).2

lemma Shares.id_right (hs : p.Shares p' doc root id c c') : (p'.graph.condition c').id = id :=
  (stored?_eq_some hs.right).2

lemma Shares.left_unique (hs₁ : p.Shares p' doc root id₁ c₁ c')
    (hs₂ : p.Shares p' doc root id₂ c₂ c') : c₁ = c₂ := by
  obtain rfl : id₁ = id₂ := hs₁.id_right.symm.trans hs₂.id_right
  exact Option.some.inj (hs₁.left.symm.trans hs₂.left)

lemma Shares.right_unique (hs₁ : p.Shares p' doc root id₁ c c₁)
    (hs₂ : p.Shares p' doc root id₂ c c₂) : c₁ = c₂ := by
  obtain rfl : id₁ = id₂ := hs₁.id_left.symm.trans hs₂.id_left
  exact Option.some.inj (hs₁.right.symm.trans hs₂.right)

end Shares

/-- The expressions at one place in the stored conditions of one id. -/
structure SharesPlace (p p' : Pack) (doc : Document) (root id : String) (n : Nat)
    (c c' : ConditionRef) (e e' : ExpressionRef) : Prop where
  shares : p.Shares p' doc root id c c'
  left : (p.graph.condition c).expressions[n]? = some e
  right : (p'.graph.condition c').expressions[n]? = some e'

/-- What two packs share is as one definition says. -/
lemma Shares.exists_builds {id : String} {c c' : ConditionRef} (h : p.Loaded doc)
    (h' : p'.Loaded doc') (hs : p.Shares p' doc root id c c')
    (hsame : doc.definition? id = doc'.definition? id) :
    ∃ d, doc.definition? id = some d ∧ p.graph.Builds d c ∧ p'.graph.Builds d c' := by
  obtain ⟨d, hd, hbuilds⟩ := h.definition?_of_stored? hs.left
  obtain ⟨d', hd', hbuilds'⟩ := h'.definition?_of_stored? hs.right
  obtain rfl : d' = d := Option.some.inj (hd'.symm.trans (hsame.symm.trans hd))
  exact ⟨d', hd, hbuilds, hbuilds'⟩

/-- So are the expressions at one place. -/
lemma SharesPlace.exists_builds {id : String} {n : Nat} {c c' : ConditionRef} {e e' : ExpressionRef}
    (h : p.Loaded doc) (h' : p'.Loaded doc') (hs : p.SharesPlace p' doc root id n c c' e e')
    (hsame : doc.definition? id = doc'.definition? id) :
    ∃ d, doc.definition? id = some d ∧ ∃ x ∈ d.expressions,
      p.graph.BuildsExpression x e ∧ p'.graph.BuildsExpression x e' := by
  obtain ⟨d, hd, hbuilds, hbuilds'⟩ := hs.shares.exists_builds h h' hsame
  obtain ⟨hn, rfl⟩ := List.getElem?_eq_some_iff.mp hs.left
  obtain ⟨hn', rfl⟩ := List.getElem?_eq_some_iff.mp hs.right
  have hdn : n < d.expressions.length := hbuilds.expressions.length_eq ▸ hn
  exact ⟨d, hd, d.expressions[n], List.getElem_mem hdn, hbuilds.expressions.get hdn hn,
    hbuilds'.expressions.get hdn hn'⟩

/-- **What two packs share corresponds**, if their documents define the same below the root. -/
def correspondence (h : p.Loaded doc) (h' : p'.Loaded doc')
    (hsame : ∀ id, Relation.ReflTransGen doc.Refers root id →
      doc.definition? id = doc'.definition? id) : Correspondence p.graph p'.graph where
  conditions c c' := ∃ id, p.Shares p' doc root id c c'
  expressions e e' := ∃ id n c c', p.SharesPlace p' doc root id n c c' e e'
  conditions_unique := by
    refine ⟨?_, ?_⟩
    · rintro c₁ c₂ c' ⟨id₁, hs₁⟩ ⟨id₂, hs₂⟩
      exact hs₁.left_unique hs₂
    · rintro c c₁ c₂ ⟨id₁, hs₁⟩ ⟨id₂, hs₂⟩
      exact hs₁.right_unique hs₂
  expressions_unique := by
    refine ⟨?_, ?_⟩
    · rintro e₁ e₂ e' ⟨id₁, n₁, c₁, c₁', hs₁⟩ ⟨id₂, n₂, c₂, c₂', hs₂⟩
      obtain ⟨rfl, rfl⟩ :=
        h'.place_unique hs₁.shares.mem_right hs₂.shares.mem_right hs₁.right hs₂.right
      obtain rfl := hs₁.shares.left_unique hs₂.shares
      exact Option.some.inj (hs₁.left.symm.trans hs₂.left)
    · rintro e e₁ e₂ ⟨id₁, n₁, c₁, c₁', hs₁⟩ ⟨id₂, n₂, c₂, c₂', hs₂⟩
      obtain ⟨rfl, rfl⟩ := h.place_unique hs₁.shares.mem_left hs₂.shares.mem_left hs₁.left hs₂.left
      obtain rfl := hs₁.shares.right_unique hs₂.shares
      exact Option.some.inj (hs₁.right.symm.trans hs₂.right)
  id := by
    rintro c c' ⟨id, hs⟩
    rw [hs.id_left, hs.id_right]
  members := by
    rintro c c' ⟨id, hs⟩
    obtain ⟨d, -, hbuilds, hbuilds'⟩ := hs.exists_builds h h' (hsame id hs.refers)
    rw [List.forall₂_iff_get]
    refine ⟨hbuilds.expressions.length_eq.symm.trans hbuilds'.expressions.length_eq,
      fun n hn hn' => ⟨id, n, c, c', hs, ?_, ?_⟩⟩
    · exact List.getElem?_eq_getElem hn
    · exact List.getElem?_eq_getElem hn'
  content := by
    rintro e e' ⟨id, n, c, c', hs⟩
    obtain ⟨d, -, x, -, hx, hx'⟩ := hs.exists_builds h h' (hsame id hs.shares.refers)
    exact Except.ok.inj (hx.build.symm.trans hx'.build)
  target := by
    rintro e e' ⟨id, n, c, c', hs⟩ hdomain
    obtain ⟨d, hd, x, hx, hbuilds, hbuilds'⟩ := hs.exists_builds h h' (hsame id hs.shares.refers)
    have hleft := Expression.named?_eq_some_iff.mpr ⟨hdomain, rfl⟩
    have hnamed := hbuilds.named?.symm.trans hleft
    obtain ⟨t, ht, htarget⟩ :=
      h.bound c hs.shares.mem_left e (List.mem_of_getElem? hs.left) _ hleft
    obtain ⟨t', ht', htarget'⟩ := h'.bound c' hs.shares.mem_right e'
      (List.mem_of_getElem? hs.right) _ (hbuilds'.named?.trans hnamed)
    have hrefers : doc.Refers id _ := ⟨d, hd, x, hx, hnamed⟩
    rw [htarget, htarget']
    exact .some (.condition ⟨_, hs.shares.refers.tail hrefers, ht, ht'⟩)

end Pack

namespace Evaluator

variable {ev : Evaluator} {g g' : Graph} {s s' : Store} {id : String}

/-- **Checks of corresponding conditions** come to the same report. -/
lemma check_of_correspondence (t : Correspondence g g') (hscripts : g.scripts = g'.scripts)
    {c c' : ConditionRef} (hc : s.find? g id = some c) (hc' : s'.find? g' id = some c')
    (h : t.conditions c c') (target : Datum) (j : Journals) :
    ev.check g s target (.id id) j = ev.check g' s' target (.id id) j := by
  have hresolve : resolve g s (.id id) = .ok (some (.condition c)) := by rw [resolve, hc]
  have hresolve' : resolve g' s' (.id id) = .ok (some (.condition c')) := by rw [resolve, hc']
  simp only [check, hresolve, hresolve', shown]
  cases ha : Attributes.ofDatum target with
  | error f => rfl
  | ok a =>
      have hagree : t.Agree ((ev.rulebook g).evaluate (some (.condition c)))
          ((ev.rulebook g').evaluate (some (.condition c'))) :=
        t.agree_evaluate hscripts (.condition h)
      have hfresh : t.Scenes (Rulebook.fresh a j) (Rulebook.fresh a j) := .intro .nil .nil
      simp only [MonadExcept.ofExcept, pure, EStateM.pure, bind, EStateM.bind]
      rcases hagree.cases hfresh with ⟨v, u, u', hrun, hrun', hu⟩ | ⟨f, u, u', hrun, hrun', hu⟩
      · -- a report does not say which items it is about
        cases hu
        rw [inPass_of_ok hrun, inPass_of_ok hrun']
      · cases hu
        rw [inPass_of_error hrun, inPass_of_error hrun']

/-- Neither pack has a condition to be checked. -/
lemma check_of_not_found (hs : s.find? g id = none) (hs' : s'.find? g' id = none) (target : Datum)
    (j : Journals) : ev.check g s target (.id id) j = ev.check g' s' target (.id id) j := by
  have hresolve : resolve g s (.id id) = .error (.problem (unknown id)) := by rw [resolve, hs]
  have hresolve' : resolve g' s' (.id id) = .error (.problem (unknown id)) := by rw [resolve, hs']
  simp only [check, hresolve, hresolve']
  rfl

/-- **What a check depends on.** If a document is accepted in strict loading into a new store, so is
every document with its definitions in another order. And if an id and all that it refers to,
directly or not, are defined alike in two accepted documents, then a check of the id comes to the
same report with both. If the id is defined at all and the matcher never gives up, there is a report
on every target that can be read. -/
theorem check_depends_on_definitions :
    (∀ (entries : List (Datum × Datum)) (items items' : List Datum) (names : List String),
      Datum.field? entries "conditions" = some (.list items) → items'.Perm items →
      (Pack.load {} (.table entries) true).1 = .ok names →
        (Pack.load {} (.table (Datum.put (.text "conditions") (.list items') entries)) true).1 =
          .ok names) ∧
    ∀ (data data' : Datum) (names names' : List String),
      (Pack.load {} data true).1 = .ok names → (Pack.load {} data' true).1 = .ok names' →
      let p := (Pack.load {} data true).2
      let p' := (Pack.load {} data' true).2
      ∃ doc doc', Document.ofDatum data = .ok doc ∧ Document.ofDatum data' = .ok doc' ∧
        ∀ id,
          (∀ b, Relation.ReflTransGen doc.Refers id b → doc.definition? b = doc'.definition? b) →
          ∀ (ev : Evaluator) (target : Datum) (j : Journals),
            ev.check p.graph p.store target (.id id) j =
              ev.check p'.graph p'.store target (.id id) j ∧
            (id ∈ doc.conditions.map (·.id) → ev.matcher.Decides →
              (∃ a, Attributes.ofDatum target = .ok a) →
                ∃ report, ev.check p.graph p.store target (.id id) j = .ok report j) := by
  refine ⟨fun entries items items' names hfield hperm hload => ?_,
    fun data data' names names' hload hload' => ?_⟩
  · obtain ⟨hnames, doc, hdoc, hsound⟩ := Pack.load_eq_ok_iff.mp hload
    obtain ⟨doc', hdoc', hconditions⟩ := Document.ofDatum_perm hfield hperm hdoc
    exact Pack.load_eq_ok_iff.mpr ⟨hnames, doc', hdoc', hsound.perm hconditions⟩
  · intro p p'
    obtain ⟨doc, hdoc, h⟩ := Pack.loaded_of_load hload
    obtain ⟨doc', hdoc', h'⟩ := Pack.loaded_of_load hload'
    refine ⟨doc, doc', hdoc, hdoc', fun id hsame ev target j => ⟨?_, fun hid hm ha => ?_⟩⟩
    · -- an id that is stored is defined, so that it is stored in both packs or in neither
      cases hc : p.stored? id with
      | some c =>
          obtain ⟨d, hd, -⟩ := h.definition?_of_stored? hc
          obtain ⟨c', hc', -⟩ := h'.stored?_of_definition? ((hsame id .refl).symm.trans hd)
          have hscripts : p.graph.scripts = p'.graph.scripts := h.scripts.trans h'.scripts.symm
          exact check_of_correspondence (Pack.correspondence h h' hsame) hscripts hc hc'
            ⟨id, .refl, hc, hc'⟩ target j
      | none =>
          cases hc' : p'.stored? id with
          | none => exact check_of_not_found hc hc' target j
          | some c' =>
              obtain ⟨d, hd, -⟩ := h'.definition?_of_stored? hc'
              obtain ⟨c, hsome, -⟩ := h.stored?_of_definition? ((hsame id .refl).trans hd)
              cases hc.symm.trans hsome
    · obtain ⟨a, ha⟩ := ha
      rw [← h.ids_eq] at hid
      obtain ⟨c, hc, rfl⟩ := List.mem_map.mp hid
      obtain ⟨v, hv⟩ : ∃ v, (ev.rulebook p.graph).outcome a (some (.condition c)) = .ok v :=
        Rulebook.exists_outcome (i := some (.condition c)) h.isPlain hm rfl
      obtain ⟨report, hreport, -⟩ :=
        check_id_of_outcome (j := j) h.isPlain (h.ids_eq ▸ h.ids) hc ha hv
      exact ⟨report, hreport⟩

/-- The sample is accepted with its definitions the other way round, and a check of its top
condition does without the definition that this does not refer to. -/
theorem check_depends_on_definitions_sample :
    let entries : List (Datum × Datum) := [(.text "conditions", .list Document.sampleItems)]
    let less : Datum := .table [(.text "conditions", .list (Document.sampleItems.take 2))]
    let p := (Pack.load {} Document.sampleData true).2
    let p' := (Pack.load {} less true).2
    let ev : Evaluator := {}
    let target : Datum := .table [(.text "Dcore", .text "M4")]
    (Pack.load {} (.table (Datum.put (.text "conditions") (.list Document.sampleItems.reverse)
        entries)) true).1 = .ok [] ∧
      (Pack.load {} less true).1 = .ok [] ∧ ev.matcher.Decides ∧
      ∃ report, ev.check p.graph p.store target (.id "top") {} = .ok report {} ∧
        ev.check p'.graph p'.store target (.id "top") {} = .ok report {} := by
  intro entries less p p' ev target
  have hless : (Pack.load {} less true).1 = .ok [] := rfl
  have hm : ev.matcher.Decides := Matcher.decides_wildcard true
  obtain ⟨hreorder, hchecks⟩ := check_depends_on_definitions
  have hreversed := hreorder entries Document.sampleItems Document.sampleItems.reverse [] rfl
    (List.reverse_perm _) Document.load_sampleData
  obtain ⟨doc, doc', hdoc, hdoc', hcheck⟩ :=
    hchecks Document.sampleData less [] [] Document.load_sampleData hless
  obtain rfl : doc = Document.sample :=
    Except.ok.inj (hdoc.symm.trans Document.ofDatum_sampleData)
  obtain rfl : doc' = ⟨Document.sample.conditions.take 2⟩ := Except.ok.inj (hdoc'.symm.trans rfl)
  have hbelow : ∀ b, Relation.ReflTransGen Document.sample.Refers "top" b →
      b = "top" ∨ b = "base" := by
    intro b hb
    induction hb with
    | refl => exact .inl rfl
    | tail _ hab ih =>
        rcases ih with rfl | rfl
        · simp [Document.Refers, Document.definition?, Document.sample,
            ExpressionDefinition.named?] at hab
          exact .inr hab.symm
        · simp [Document.Refers, Document.definition?, Document.sample,
            ExpressionDefinition.named?, Domain.referenceName] at hab
  obtain ⟨hequal, hreport⟩ :=
    hcheck "top" (fun b hb => by rcases hbelow b hb with rfl | rfl <;> rfl) ev target {}
  obtain ⟨report, hreport⟩ := hreport (by decide) hm ⟨_, rfl⟩
  exact ⟨hreversed, hless, hm, report, hreport, hequal ▸ hreport⟩

end Evaluator

end Applicability
