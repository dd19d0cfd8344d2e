/-
Making: which definitions make which expressions.

* `Domain.infer_textEntries_eq_ok_iff`: the domain of attributes is that of each of their names, and
  a single `condition` is a reference;
* `ExpressionDefinition.Makes`: the expressions that definitions describe;
* `build_eq_ok_iff`: these are what is built;
* `kind_of_build`: whatever else is refused as an invalid definition.
-/
import Applicability.Proofs.Format
import Applicability.Proofs.Naming

namespace Applicability

/-! ### Attributes of texts -/

namespace Domain

open Datum (textEntries)

variable {es : List (String × String)} {d : Domain}

lemma names_textEntries :
    (Datum.table (textEntries es)).names = (es.map Prod.fst).map .text := by
  simp [Datum.names, textEntries]

/-- **The domain of attributes.** A single attribute called `condition` makes a reference; other
attributes have a domain if each name begins with a letter of it. -/
lemma infer_textEntries_eq_ok_iff :
    infer (.table (textEntries es)) = .ok d ↔
      (d = reference ∧ es.map Prod.fst = [referenceName]) ∨
        es ≠ [] ∧ ∀ e ∈ es, d.Begins e.1 := by
  rw [infer_eq_ok_iff names_textEntries, named_iff, List.forall_mem_map, ne_eq, List.map_eq_nil_iff]

lemma kind_of_infer {f : Fault} (h : infer (.table (textEntries es)) = .error f) :
    f.OfKind .invalidDefinition :=
  ((infer_eq_error_iff names_textEntries).mp h).ofKind

end Domain

/-! ### Expressions -/

namespace ExpressionDefinition

variable {x : ExpressionDefinition} {y : Expression}

/-- **What a definition describes**: a reference to the condition it names, be it by a single
attribute called `condition`, or the attributes it lists, of the one domain of their names. -/
inductive Makes (x : ExpressionDefinition) : Expression → Prop where
  | condition {id : String} : x.demand = .condition id → Makes x (.reference x.role id)
  | single {id : String} : x.demand = .attributes [(Domain.referenceName, id)] →
      Makes x (.reference x.role id)
  | attributes {es : List (String × String)} {d : Domain} : x.demand = .attributes es →
      es ≠ [] → (∀ e ∈ es, d.Begins e.1) →
      Makes x { role := x.role, domain := d, attributes := .ofList es }

lemma build_eq {es : List (String × String)} (h : x.attributes = .table (Datum.textEntries es)) :
    x.build = (Domain.infer (.table (Datum.textEntries es))).map fun d =>
      if d = .reference then
        .reference x.role
          ((Datum.field? (Datum.textEntries es) Domain.referenceName).getD .null).written
      else { role := x.role, domain := d, attributes := .ofList es } := by
  have hread : Attributes.ofDatum (.table (Datum.textEntries es)) = .ok (.ofList es) := by
    simp [Attributes.ofDatum, Attributes.writtenEntries, Datum.textEntries, Function.comp_def]
  rw [build, h, Expression.ofDatum]
  cases Domain.infer (.table (Datum.textEntries es)) with
  | error f => rfl
  | ok d =>
      by_cases hd : d = .reference
      · simp [hd, Expression.referenceId, bind, Except.bind, pure, Except.pure, Except.map]
      · simp [hd, hread, bind, Except.bind, pure, Except.pure, Except.map]

/-- A single attribute called `condition` is built into a reference, and others into an expression
of their domain. -/
lemma build_eq_ok_iff_of_attributes {es : List (String × String)}
    (h : x.attributes = .table (Datum.textEntries es)) :
    x.build = .ok y ↔ (∃ id, es = [(Domain.referenceName, id)] ∧ y = .reference x.role id) ∨
      ∃ d : Domain, es ≠ [] ∧ (∀ e ∈ es, d.Begins e.1) ∧
        y = { role := x.role, domain := d, attributes := .ofList es } := by
  rw [build_eq h, map_eq_ok_iff]
  constructor
  · rintro ⟨d, hd, rfl⟩
    rcases Domain.infer_textEntries_eq_ok_iff.mp hd with ⟨rfl, hes⟩ | ⟨hne, hall⟩
    · obtain ⟨⟨name, id⟩, rfl, rfl⟩ := List.map_eq_singleton_iff.mp hes
      exact .inl ⟨id, rfl, by simp [Datum.field?, Datum.textEntries, Datum.same]⟩
    · obtain ⟨e, he⟩ := List.exists_mem_of_ne_nil _ hne
      exact .inr ⟨d, hne, hall, by rw [if_neg (hall e he).ne_reference]⟩
  · rintro (⟨id, rfl, rfl⟩ | ⟨d, hne, hall, rfl⟩)
    · refine ⟨.reference, Domain.infer_textEntries_eq_ok_iff.mpr (.inl ⟨rfl, rfl⟩), ?_⟩
      simp [Datum.field?, Datum.textEntries, Datum.same]
    · obtain ⟨e, he⟩ := List.exists_mem_of_ne_nil _ hne
      refine ⟨d, Domain.infer_textEntries_eq_ok_iff.mpr (.inr ⟨hne, hall⟩), ?_⟩
      rw [if_neg (hall e he).ne_reference]

/-- **Building makes what a definition describes.** -/
lemma build_eq_ok_iff : x.build = .ok y ↔ x.Makes y := by
  obtain ⟨role, demand⟩ := x
  cases demand with
  | condition id =>
      have hes : attributes ⟨role, .condition id⟩ =
          .table (Datum.textEntries [(Domain.referenceName, id)]) := rfl
      rw [build_eq_ok_iff_of_attributes hes]
      constructor
      · rintro (⟨id', hid, rfl⟩ | ⟨d, -, hall, -⟩)
        · cases hid
          exact .condition rfl
        · exact absurd rfl (hall _ List.mem_cons_self).ne_referenceName
      · intro h
        cases h with
        | condition hdemand => cases hdemand; exact .inl ⟨id, rfl, rfl⟩
        | single hdemand => cases hdemand
        | attributes hdemand => cases hdemand
  | attributes es =>
      have hes : attributes ⟨role, .attributes es⟩ = .table (Datum.textEntries es) := rfl
      rw [build_eq_ok_iff_of_attributes hes]
      constructor
      · rintro (⟨id, rfl, rfl⟩ | ⟨d, hne, hall, rfl⟩)
        · exact .single rfl
        · exact .attributes rfl hne hall
      · intro h
        cases h with
        | condition hdemand => cases hdemand
        | single hdemand => cases hdemand; exact .inl ⟨_, rfl, rfl⟩
        | attributes hdemand hne hall => cases hdemand; exact .inr ⟨_, hne, hall, rfl⟩

/-- A definition from which nothing can be built is an invalid one. -/
lemma kind_of_build {f : Fault} (h : x.build = .error f) : f.OfKind .invalidDefinition := by
  obtain ⟨es, hes⟩ : ∃ es, x.attributes = .table (Datum.textEntries es) := by
    obtain ⟨role, id | es⟩ := x
    · exact ⟨[(Domain.referenceName, id)], rfl⟩
    · exact ⟨es, rfl⟩
  rw [build_eq hes] at h
  cases hinfer : Domain.infer (.table (Datum.textEntries es)) with
  | error f' =>
      rw [hinfer] at h
      cases h
      exact Domain.kind_of_infer hinfer
  | ok d => rw [hinfer] at h; cases h

end ExpressionDefinition

end Applicability
