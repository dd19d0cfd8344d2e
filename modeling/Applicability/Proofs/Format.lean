/-
Format: which data are documents.

The written form of a document is given once more as it would be explained to somebody who writes
one: which fields there are, what stands in them, and what is taken for those that are missing.

* `Datum.IsRecord`, `Datum.fieldOr`: the fields of a record;
* `Demand.Written`, `ExpressionDefinition.Written`, `ConditionDefinition.Written`,
  `Document.Written`: the written forms of the parts of a document;
* `Checked.field_eq_ok_iff`, `Checked.fieldOr_eq_ok_iff`, `Checked.unknownFields_eq_ok_iff`: what it
  takes to read a field, and a record;
* `Document.ofDatum_eq_ok_iff_written`: data are read exactly if they are the written form of a
  document.
-/
import Applicability.Document
import Applicability.Proofs.Reading

namespace Applicability

/-! ### The written form -/

namespace Datum

/-- The entries of a record: each is named by one of its fields. -/
def IsRecord (fields : List String) (entries : List (Datum × Datum)) : Prop :=
  ∀ e ∈ entries, ∃ name ∈ fields, e.1 = .text name

/-- The value of a field, or another one for records that lack the field. -/
def fieldOr (entries : List (Datum × Datum)) (name : String) (missing : Datum) : Datum :=
  (field? entries name).getD missing

/-- Attributes as the entries of a table. -/
def textEntries (es : List (String × String)) : List (Datum × Datum) :=
  es.map fun e => (.text e.1, .text e.2)

end Datum

open Datum (IsRecord field? fieldOr textEntries)

/-- **What an expression asks for, as it is written**: either there is the id of a condition and
there are no attributes, or the other way round. -/
inductive Demand.Written (entries : List (Datum × Datum)) : Demand → Prop where
  | condition {id : String} : fieldOr entries "condition" .null = .text id →
      fieldOr entries "attributes" (.table []) = .table [] → Written entries (.condition id)
  | attributes {es : List (String × String)} : fieldOr entries "condition" .null = .null →
      fieldOr entries "attributes" (.table []) = .table (textEntries es) → es ≠ [] →
      Written entries (.attributes es)

/-- **An expression as it is written**: its role, and what it asks for. -/
inductive ExpressionDefinition.Written : Datum → ExpressionDefinition → Prop where
  | record {entries : List (Datum × Datum)} {x : ExpressionDefinition} :
      IsRecord ["role", "attributes", "condition"] entries →
      field? entries "role" = some (.text x.role.text) → x.demand.Written entries →
      Written (.table entries) x

/-- **A condition as it is written**: its id, which is not empty, and if there are any, its
description and its expressions. -/
inductive ConditionDefinition.Written : Datum → ConditionDefinition → Prop where
  | record {entries : List (Datum × Datum)} {items : List Datum} {d : ConditionDefinition} :
      IsRecord ["id", "description", "expressions"] entries →
      field? entries "id" = some (.text d.id) → d.id ≠ "" →
      fieldOr entries "description" (.text "") = .text d.description →
      fieldOr entries "expressions" (.list []) = .list items →
      List.Forall₂ ExpressionDefinition.Written items d.expressions → Written (.table entries) d

/-- **A document as it is written**: its conditions, if there are any. -/
inductive Document.Written : Datum → Document → Prop where
  | record {entries : List (Datum × Datum)} {items : List Datum} {doc : Document} :
      IsRecord ["conditions"] entries → fieldOr entries "conditions" (.list []) = .list items →
      List.Forall₂ ConditionDefinition.Written items doc.conditions → Written (.table entries) doc

/-! ### Reading -/

namespace Checked

variable {α β : Type} {read : Datum → Checked α} {entries : List (Datum × Datum)} {name : String}
  {a : α}

lemma under_eq_ok_iff {step : Location} {x : Checked α} {a : α} :
    under step x = .ok a ↔ x = .ok a := by
  cases x <;> simp [under]

lemma text_eq_ok_iff {d : Datum} {t : String} : text d = .ok t ↔ d = .text t := by
  cases d <;> simp [text, fail]

lemma nonEmptyText_eq_ok_iff {d : Datum} {t : String} :
    nonEmptyText d = .ok t ↔ d = .text t ∧ t ≠ "" := by
  constructor
  · intro h
    obtain ⟨t', ht', h⟩ := exists_of_bind_eq_ok h
    split at h <;> cases h
    rename_i hne
    exact ⟨text_eq_ok_iff.mp ht', by simpa using hne⟩
  · rintro ⟨rfl, ht⟩
    have hempty : t.isEmpty = false := by simpa using ht
    simp only [nonEmptyText, text, bind, Except.bind, hempty]
    rfl

lemma textOrNull_eq_ok_iff {d : Datum} {t : Option String} :
    textOrNull d = .ok t ↔ d = t.elim .null .text := by
  cases t <;> cases d <;> simp [textOrNull, text, fail, Except.map]

lemma word_eq_ok_iff {ofText? : String → Option α} {d : Datum} :
    word ofText? d = .ok a ↔ ∃ t, d = .text t ∧ ofText? t = some a := by
  cases d with
  | text t => cases h : ofText? t <;> simp [word, h, fail]
  | _ => simp [word, fail]

/-- A list is read exactly if each of its items is. -/
lemma list_eq_ok_iff {items : List Datum} {as : List α} :
    list read (.list items) = .ok as ↔ List.Forall₂ (fun d a => read d = .ok a) items as := by
  rw [list, all_eq_ok_iff, List.forall₂_iff_get, List.ext_getElem_iff]
  simp only [List.length_mapIdx, List.length_map, List.getElem_mapIdx, List.getElem_map,
    under_eq_ok_iff, List.get_eq_getElem]

/-- Nothing but a list is read as one. -/
lemma exists_of_list_eq_ok {d : Datum} {as : List α} (h : list read d = .ok as) :
    ∃ items, d = .list items := by
  cases d with
  | list items => exact ⟨items, rfl⟩
  | _ => cases h

lemma textEntry_eq_ok_iff {e : Datum × Datum} {t : String × String} :
    textEntry e = .ok t ↔ e = (.text t.1, .text t.2) := by
  rw [textEntry, under_eq_ok_iff, both_eq_ok_iff, under_eq_ok_iff, text_eq_ok_iff, text_eq_ok_iff,
    Prod.ext_iff]

lemma textTable_eq_ok_iff {d : Datum} {es : List (String × String)} :
    textTable d = .ok es ↔ d = .table (textEntries es) := by
  cases d with
  | table entries =>
      rw [textTable, all_eq_ok_iff, Datum.table.injEq, textEntries, ← List.forall₂_eq_eq_eq,
        ← List.forall₂_eq_eq_eq]
      simp only [List.forall₂_map_left_iff, List.forall₂_map_right_iff, textEntry_eq_ok_iff]
  | _ => simp [textTable, fail]

/-- A field that there has to be. -/
lemma field_eq_ok_iff :
    field entries name read none = .ok a ↔ ∃ d, field? entries name = some d ∧ read d = .ok a := by
  cases hd : field? entries name <;> simp [field, hd, under_eq_ok_iff, fail]

/-- A field that may be missing, where the value that is taken then could be written, too. -/
lemma fieldOr_eq_ok_iff {b : α} {missing : Datum} (h : read missing = .ok b) :
    field entries name read (some b) = .ok a ↔ read (fieldOr entries name missing) = .ok a := by
  cases hd : field? entries name <;> simp [field, fieldOr, hd, under_eq_ok_iff, h]

/-- A field with a list, which may be missing. -/
lemma listOr_eq_ok_iff {Written : Datum → α → Prop}
    (h : ∀ {data a}, read data = .ok a ↔ Written data a) {as : List α} :
    field entries name (list read) (some []) = .ok as ↔
      ∃ items, fieldOr entries name (.list []) = .list items ∧ List.Forall₂ Written items as := by
  have hnone : list read (.list []) = .ok [] := rfl
  rw [fieldOr_eq_ok_iff hnone]
  constructor
  · intro hlist
    obtain ⟨items, hitems⟩ := exists_of_list_eq_ok hlist
    rw [hitems, list_eq_ok_iff] at hlist
    exact ⟨items, hitems, hlist.imp fun _ _ => h.mp⟩
  · rintro ⟨items, hitems, hwritten⟩
    rw [hitems, list_eq_ok_iff]
    exact hwritten.imp fun _ _ => h.mpr

/-- Readings side by side succeed exactly if each does. -/
lemma exists_all_iff {cs : List (Checked α)} :
    (∃ as, all cs = .ok as) ↔ ∀ c ∈ cs, ∃ a, c = .ok a := by
  simp only [all_eq_ok_iff]
  constructor
  · rintro ⟨as, rfl⟩ c hc
    obtain ⟨a, -, rfl⟩ := List.mem_map.mp hc
    exact ⟨a, rfl⟩
  · intro h
    choose value hvalue using h
    refine ⟨cs.attach.map fun c => value c.1 c.2, ?_⟩
    calc cs = cs.attach.map (·.1) := (List.attach_map_subtype_val cs).symm
      _ = cs.attach.map fun c => .ok (value c.1 c.2) :=
        List.map_congr_left fun c _ => hvalue c.1 c.2
      _ = (cs.attach.map fun c => value c.1 c.2).map .ok := List.map_map.symm

/-- Nothing but its fields stands in a record. -/
lemma unknownFields_eq_ok_iff {fields : List String} :
    unknownFields fields entries = .ok () ↔ IsRecord fields entries := by
  simp only [unknownFields, map_eq_ok_iff, and_true, exists_all_iff, List.forall_mem_map]
  refine forall₂_congr fun e _ => ?_
  cases hname : e.1 with
  | text t => by_cases ht : t ∈ fields <;> simp [ht, under, fail]
  | _ => simp [under, fail]

end Checked

/-! ### Documents -/

namespace Role

lemma ofText?_eq_some_iff {t : String} {role : Role} : ofText? t = some role ↔ t = role.text := by
  constructor
  · intro h
    unfold ofText? at h
    have hsame := List.find?_some h
    exact (beq_iff_eq.mp hsame).symm
  · rintro rfl
    exact ofText?_text role

end Role

namespace Demand

/-- What an expression asks for is told from its two fields. -/
lemma written_iff {entries : List (Datum × Datum)} {demand : Demand} :
    demand.Written entries ↔ ∃ es id,
      Checked.field entries "attributes" Checked.textTable (some []) = .ok es ∧
        Checked.field entries "condition" Checked.textOrNull (some none) = .ok id ∧
          ofParts id es = .ok demand := by
  have hnone : Checked.textTable (.table []) = .ok [] := rfl
  have hnull : Checked.textOrNull .null = .ok none := rfl
  simp only [Checked.fieldOr_eq_ok_iff hnone, Checked.fieldOr_eq_ok_iff hnull,
    Checked.textTable_eq_ok_iff, Checked.textOrNull_eq_ok_iff]
  constructor
  · intro h
    cases h with
    | @condition id hid hes => exact ⟨[], some id, hes, hid, rfl⟩
    | @attributes es hid hes hne =>
        obtain ⟨e, rest, rfl⟩ := List.exists_cons_of_ne_nil hne
        exact ⟨e :: rest, none, hes, hid, rfl⟩
  · rintro ⟨es, id, hes, hid, hparts⟩
    match id, es, hparts with
    | some id, [], rfl => exact .condition hid hes
    | none, e :: rest, rfl => exact .attributes hid hes (List.cons_ne_nil e rest)

end Demand

namespace ExpressionDefinition

/-- The role of an expression. -/
lemma role_eq_ok_iff {entries : List (Datum × Datum)} {role : Role} :
    Checked.field entries "role" (Checked.word Role.ofText?) none = .ok role ↔
      field? entries "role" = some (.text role.text) := by
  simp [Checked.field_eq_ok_iff, Checked.word_eq_ok_iff, Role.ofText?_eq_some_iff]

lemma ofDatum_eq_ok_iff {data : Datum} {x : ExpressionDefinition} :
    ofDatum data = .ok x ↔ x.Written data := by
  constructor
  · intro h
    cases data with
    | table entries =>
        obtain ⟨⟨⟨role, es, id⟩, u⟩, hread, h⟩ := exists_of_bind_eq_ok h
        obtain ⟨demand, hdemand, h⟩ := exists_of_bind_eq_ok h
        cases h
        obtain ⟨hread, hrecord⟩ := Checked.both_eq_ok_iff.mp hread
        obtain ⟨hrole, hread⟩ := Checked.both_eq_ok_iff.mp hread
        obtain ⟨hes, hid⟩ := Checked.both_eq_ok_iff.mp hread
        exact .record (Checked.unknownFields_eq_ok_iff.mp hrecord) (role_eq_ok_iff.mp hrole)
          (Demand.written_iff.mpr ⟨es, id, hes, hid, hdemand⟩)
    | _ => cases h
  · rintro ⟨hrecord, hrole, hdemand⟩
    obtain ⟨es, id, hes, hid, hdemand⟩ := Demand.written_iff.mp hdemand
    have hread := Checked.both_eq_ok_iff.mpr ⟨Checked.both_eq_ok_iff.mpr
      ⟨role_eq_ok_iff.mpr hrole, Checked.both_eq_ok_iff.mpr ⟨hes, hid⟩⟩,
        Checked.unknownFields_eq_ok_iff.mpr hrecord⟩
    rw [ofDatum, fields, hread]
    simp only [bind, Except.bind, hdemand]
    rfl

end ExpressionDefinition

namespace ConditionDefinition

lemma ofDatum_eq_ok_iff {data : Datum} {d : ConditionDefinition} :
    ofDatum data = .ok d ↔ d.Written data := by
  have hempty : Checked.text (.text "") = .ok "" := rfl
  constructor
  · intro h
    cases data with
    | table entries =>
        obtain ⟨⟨⟨id, description, expressions⟩, u⟩, hread, rfl⟩ := map_eq_ok_iff.mp h
        obtain ⟨hread, hrecord⟩ := Checked.both_eq_ok_iff.mp hread
        obtain ⟨hid, hread⟩ := Checked.both_eq_ok_iff.mp hread
        obtain ⟨hdescription, hexpressions⟩ := Checked.both_eq_ok_iff.mp hread
        obtain ⟨i, hi, hid⟩ := Checked.field_eq_ok_iff.mp hid
        obtain ⟨rfl, hne⟩ := Checked.nonEmptyText_eq_ok_iff.mp hid
        rw [Checked.fieldOr_eq_ok_iff hempty, Checked.text_eq_ok_iff] at hdescription
        obtain ⟨items, hitems, hwritten⟩ :=
          (Checked.listOr_eq_ok_iff ExpressionDefinition.ofDatum_eq_ok_iff).mp hexpressions
        exact .record (Checked.unknownFields_eq_ok_iff.mp hrecord) hi hne hdescription hitems
          hwritten
    | _ => cases h
  · rintro ⟨hrecord, hid, hne, hdescription, hitems, hwritten⟩
    have hid := Checked.field_eq_ok_iff.mpr
      ⟨_, hid, Checked.nonEmptyText_eq_ok_iff.mpr ⟨rfl, hne⟩⟩
    have hdescription := (Checked.fieldOr_eq_ok_iff hempty).mpr
      (Checked.text_eq_ok_iff.mpr hdescription)
    have hexpressions := (Checked.listOr_eq_ok_iff ExpressionDefinition.ofDatum_eq_ok_iff).mpr
      ⟨_, hitems, hwritten⟩
    exact map_eq_ok_iff.mpr ⟨_, Checked.both_eq_ok_iff.mpr ⟨Checked.both_eq_ok_iff.mpr
      ⟨hid, Checked.both_eq_ok_iff.mpr ⟨hdescription, hexpressions⟩⟩,
        Checked.unknownFields_eq_ok_iff.mpr hrecord⟩, rfl⟩

end ConditionDefinition

namespace Document

/-- **Data are read exactly if they are the written form of a document.** -/
lemma ofDatum_eq_ok_iff_written {data : Datum} {doc : Document} :
    ofDatum data = .ok doc ↔ doc.Written data := by
  constructor
  · intro h
    cases data with
    | table entries =>
        obtain ⟨⟨conditions, u⟩, hread, rfl⟩ := map_eq_ok_iff.mp h
        obtain ⟨hconditions, hrecord⟩ := Checked.both_eq_ok_iff.mp hread
        obtain ⟨items, hitems, hwritten⟩ :=
          (Checked.listOr_eq_ok_iff ConditionDefinition.ofDatum_eq_ok_iff).mp hconditions
        exact .record (Checked.unknownFields_eq_ok_iff.mp hrecord) hitems hwritten
    | _ => cases h
  · rintro ⟨hrecord, hitems, hwritten⟩
    have hconditions := (Checked.listOr_eq_ok_iff ConditionDefinition.ofDatum_eq_ok_iff).mpr
      ⟨_, hitems, hwritten⟩
    exact map_eq_ok_iff.mpr ⟨_, Checked.both_eq_ok_iff.mpr
      ⟨hconditions, Checked.unknownFields_eq_ok_iff.mpr hrecord⟩, rfl⟩

end Document

end Applicability
