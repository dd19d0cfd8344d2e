/-
Searching loosely typed data.

* `Datum.names`: what a walk through data meets: the names of a table, the items of a list, the
  characters of a text;
* `Datum.holds`: whether a text is met on such a walk or, in a text, is a part of it. Data that hold
  nothing cannot be searched;
* `occursIn_iff`: the parts of a text are what is left of it when both ends are cut off.
-/
import Applicability.Fault

namespace Applicability

/-- A text that is a part of another. -/
def occursIn (part : List Char) : List Char → Bool
  | [] => part.isEmpty
  | c :: rest => part.isPrefixOf (c :: rest) || occursIn part rest

/-- The parts of a text are what is left of it when both ends are cut off. -/
theorem occursIn_iff {part s : List Char} :
    occursIn part s = true ↔ ∃ before after, s = before ++ part ++ after := by
  induction s with
  | nil =>
    rw [occursIn, List.isEmpty_iff]
    constructor
    · rintro rfl
      exact ⟨[], [], rfl⟩
    · rintro ⟨before, after, h⟩
      simp only [List.nil_eq, List.append_eq_nil_iff] at h
      exact h.1.2
  | cons c rest ih =>
    simp only [occursIn, Bool.or_eq_true, List.isPrefixOf_iff_prefix, ih]
    constructor
    · rintro (⟨after, h⟩ | ⟨before, after, h⟩)
      · exact ⟨[], after, by simp [h]⟩
      · exact ⟨c :: before, after, by simp [h]⟩
    · rintro ⟨before, after, h⟩
      cases before with
      | nil => exact .inl ⟨after, by simpa using h.symm⟩
      | cons d more =>
        simp only [List.cons_append, List.cons.injEq] at h
        exact .inr ⟨more, after, h.2⟩

namespace Datum

/-- What a walk through data meets. -/
def names : Datum → List Datum
  | table entries => entries.map (·.1)
  | list items => items
  | text t => t.toList.map fun c => text c.toString
  | _ => []

/-- Whether data hold a text. -/
def holds (d : Datum) (t : String) : Except Fault Bool :=
  match d with
  | table entries => .ok (field? entries t).isSome
  | list items => .ok (items.any (same (text t)))
  | text s => .ok (occursIn t.toList s.toList)
  | d => .error (.notSearchable d.kind)

end Datum

end Applicability
