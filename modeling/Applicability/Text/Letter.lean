/-
When two characters are the same letter, upper and lower case alike.

Two characters are one letter if their lower-case forms agree or belong to one group of lower-case
letters that differ in shape only, such as the two forms of sigma.

* `sameLetter`: the relation, with `sameLetter_refl` and `sameLetter_comm`;
* `variants`, with `mem_variants_iff`: the characters that are one letter with a given one;
* `Letter`: what stands for a character of a text that is searched, with or without regard to case.
-/
import Applicability.Text.Capital

namespace Applicability.Text

/-- Groups of lower-case letters that differ in shape only. -/
def letterGroups : List (List Nat) := [
  [105, 305], [115, 383], [181, 956], [837, 953, 8126], [912, 8147], [944, 8163], [946, 976],
  [949, 1013], [952, 977], [954, 1008], [960, 982], [961, 1009], [962, 963], [966, 981],
  [1074, 7296], [1076, 7297], [1086, 7298], [1089, 7299], [1090, 7300, 7301], [1098, 7302],
  [1123, 7303], [7304, 42571], [7777, 7835], [64261, 64262]]

/-- Two letters of one group. -/
def grouped (a b : Char) : Bool :=
  letterGroups.any fun group => group.contains a.toNat && group.contains b.toNat

/-- The same letter, upper and lower case alike. -/
def sameLetter (a b : Char) : Bool :=
  lowercase a == lowercase b || grouped (lowercase a) (lowercase b)

/-- The characters that some shift moves to `c`. -/
def shiftSources (c : Char) : List Char :=
  lowercaseShifts.filterMap fun s =>
    let n := s.source c.toNat
    if s.moves n then some (Char.ofNat n) else none

/-- The characters whose lower-case form is `c`. -/
def lowercaseSources (c : Char) : List Char :=
  (c :: shiftSources c).filter (lowercase · == c)

/-- The characters that are the same letter as `c`, itself first. -/
def variants (c : Char) : List Char :=
  let lower := lowercase c
  let kin := (letterGroups.filter (·.contains lower.toNat)).flatten.map Char.ofNat
  c :: (lower :: kin.filter (grouped lower)).flatMap lowercaseSources

/-- A character is the same letter as itself. -/
theorem sameLetter_refl (c : Char) : sameLetter c c = true := by
  simp [sameLetter]

/-- Being the same letter has no direction. -/
theorem sameLetter_comm (a b : Char) : sameLetter a b = sameLetter b a := by
  have swap : ∀ x y : Char, grouped x y = grouped y x := fun x y => by
    simp only [grouped, Bool.and_comm]
  simp only [sameLetter, swap (lowercase a), Bool.beq_comm (a := lowercase a)]

/-- Where the shifts lead there are characters. -/
theorem shifts_lead_to_characters : ∀ s ∈ lowercaseShifts, 0 ≤ s.first + s.offset ∧
    (s.last + s.offset < 0xD800 ∨ 0xDFFF < s.first + s.offset ∧ s.last + s.offset < 0x110000) := by
  decide +kernel

/-- A character is among those whose lower-case form is its own. -/
theorem mem_lowercaseSources (c : Char) : c ∈ lowercaseSources (lowercase c) := by
  refine List.mem_filter.mpr ⟨?_, beq_self_eq_true _⟩
  cases h : lowercaseShifts.find? (fun s => s.moves c.toNat) with
  | none => simp [lowercase, Shift.applyFirst, h]
  | some s =>
    have hs := List.mem_of_find?_eq_some h
    have hm : s.moves c.toNat = true := by simpa using List.find?_some h
    have hl : lowercase c = Char.ofNat (s.image c.toNat) := by
      simp [lowercase, Shift.applyFirst, h]
    have hto : (Char.ofNat (s.image c.toNat)).toNat = s.image c.toNat := by
      have hvalid : (s.image c.toNat).isValidChar := by
        have hc := shifts_lead_to_characters s hs
        simp only [Shift.moves, Bool.and_eq_true, decide_eq_true_eq] at hm
        unfold Shift.image Nat.isValidChar
        omega
      rw [Char.ofNat, dif_pos hvalid]
      rfl
    have hback : s.source (lowercase c).toNat = c.toNat := by
      have hc := shifts_lead_to_characters s hs
      simp only [Shift.moves, Bool.and_eq_true, decide_eq_true_eq] at hm
      rw [hl, hto]
      unfold Shift.source Shift.image
      omega
    refine List.mem_cons_of_mem _ (List.mem_filterMap.mpr ⟨s, hs, ?_⟩)
    simp [hback, hm]

/-- The variants of a character are the characters that are the same letter. -/
theorem mem_variants_iff {c m : Char} : m ∈ variants c ↔ sameLetter c m = true := by
  constructor
  · intro h
    rcases List.mem_cons.mp h with rfl | h
    · exact sameLetter_refl _
    · obtain ⟨x, hx, hm⟩ := List.mem_flatMap.mp h
      have hlow : lowercase m = x := by simpa using (List.mem_filter.mp hm).2
      rcases List.mem_cons.mp hx with rfl | hx
      · simp [sameLetter, hlow]
      · simp [sameLetter, hlow, (List.mem_filter.mp hx).2]
  · intro h
    refine List.mem_cons_of_mem _ (List.mem_flatMap.mpr ⟨lowercase m, ?_, mem_lowercaseSources m⟩)
    rcases Bool.or_eq_true _ _ ▸ h with h | h
    · simp [beq_iff_eq.mp h]
    · refine List.mem_cons_of_mem _ (List.mem_filter.mpr ⟨?_, h⟩)
      obtain ⟨group, hg, hb⟩ := List.any_eq_true.mp h
      obtain ⟨hc, hm⟩ := Bool.and_eq_true _ _ ▸ hb
      refine List.mem_map.mpr ⟨(lowercase m).toNat, ?_, Char.ofNat_toNat _⟩
      exact List.mem_flatten.mpr ⟨group, List.mem_filter.mpr ⟨hg, hc⟩, by simpa using hm⟩

/-- A character is among its own variants. -/
theorem self_mem_variants (c : Char) : c ∈ variants c := List.mem_cons_self

/-! ### Characters of a text that is searched -/

/-- What stands for a character of a text that is searched. -/
structure Letter where
  /-- the one form that stands for it -/
  lower : Char
  /-- all its forms -/
  forms : List Char
  /-- the first of several characters that are its form in capitals -/
  initial? : Option Char
deriving DecidableEq, Repr

namespace Letter

/-- A character that stands for itself only. -/
def exact (c : Char) : Letter := ⟨c, [c], none⟩

/-- A character for which every form of the letter stands. -/
def anyCase (c : Char) : Letter :=
  let lower := lowercase c
  ⟨lower, variants c, capitalInitial? lower⟩

/-- A character of a text that is searched with or without regard to case. -/
def read (observeCase : Bool) (c : Char) : Letter := if observeCase then exact c else anyCase c

end Letter

end Applicability.Text
