/-
Casing: what the two ways to ignore the case of a letter have to do with each other.

Characters are one letter by their lower-case forms and the groups of letters; texts agree by what
their characters fold to. Both rest on tables of shifts, which are nearly the same.

* `lowercaseOnly`, `foldOnly`: where the tables differ;
* `CaseTables`: what the tables have to do with each other, which is decided;
* `Shift.Orderly`, `Shift.Orderly.cases`: in a table in order at most one shift moves a character,
  and its inverse leads back;
* `lowercase_lowercase`, `sameLetter_trans`: a lower-case form is its own, and what is the same
  letter as a third is the same letter;
* `foldCharacter_lowercase`: a character folds like its lower-case form, unless it is a capital I
  with a dot;
* `foldCharacter_eq_of_sameLetter`: the same letters fold alike, but for an i without and a capital
  I with a dot;
* `sameLetter_of_simpleFold_eq`: what case folding moves to the same character is the same letter.
-/
import Mathlib.Data.List.Chain
import Mathlib.Data.List.Nodup
import Mathlib.Tactic.Common
import Applicability.Text.CaseFolding
import Applicability.Text.Letter

namespace Applicability.Text

/-! ### What a table moves -/

namespace Shift

/-- The shift that undoes a shift. -/
def back (s : Shift) : Shift := ⟨s.image s.first, s.image s.last, s.step, -s.offset⟩

/-- The code points that the shift moves, in order. -/
def points (s : Shift) : List Nat :=
  List.range' s.first ((s.last - s.first) / s.step + 1) s.step

/-- The code points that a table moves. -/
def moved (shifts : List Shift) : List Nat := shifts.flatMap points

/-- The code points that a table moves others to. -/
def reached (shifts : List Shift) : List Nat := shifts.flatMap fun s => s.points.map s.image

/-- A shift leads to characters only. -/
def LeadsToCharacters (s : Shift) : Prop :=
  0 ≤ s.first + s.offset ∧
    (s.last + s.offset < 0xD800 ∨ 0xDFFF < s.first + s.offset ∧ s.last + s.offset < 0x110000)

instance (s : Shift) : Decidable s.LeadsToCharacters := inferInstanceAs (Decidable (_ ∧ _))

/-- A shift that ends in front of another one. -/
def Precedes (s t : Shift) : Prop := s.first ≤ s.last ∧ s.last < t.first

instance (s t : Shift) : Decidable (s.Precedes t) := inferInstanceAs (Decidable (_ ∧ _))

end Shift

/-- Numbers as the bits of one, so that many are compared with many at once. -/
def bits (ns : List Nat) : Nat := ns.foldr (fun n m => 1 <<< n ||| m) 0

/-! ### The tables -/

/-- The one character that case folding moves a character to by a shift. -/
def simpleFold (c : Char) : Char := Shift.applyFirst foldShifts c

/-- The code points that fold to several characters. -/
def expanded : List Nat := foldExpansions.map Prod.fst

/-- The shifts to lower case that are none of case folding. -/
def lowercaseOnly : List Shift := [
  ⟨0x130, 0x130, 1, -199⟩, ⟨0x13A0, 0x13EF, 1, 38864⟩, ⟨0x13F0, 0x13F5, 1, 8⟩,
  ⟨0x1E9E, 0x1E9E, 1, -7615⟩, ⟨0x1F88, 0x1F8F, 1, -8⟩, ⟨0x1F98, 0x1F9F, 1, -8⟩,
  ⟨0x1FA8, 0x1FAF, 1, -8⟩, ⟨0x1FBC, 0x1FBC, 1, -9⟩, ⟨0x1FCC, 0x1FCC, 1, -9⟩,
  ⟨0x1FFC, 0x1FFC, 1, -9⟩]

/-- The shifts of case folding that are none to lower case. -/
def foldOnly : List Shift := [
  ⟨0xB5, 0xB5, 1, 775⟩, ⟨0x17F, 0x17F, 1, -268⟩, ⟨0x345, 0x345, 1, 116⟩, ⟨0x3C2, 0x3C2, 1, 1⟩,
  ⟨0x3D0, 0x3D0, 1, -30⟩, ⟨0x3D1, 0x3D1, 1, -25⟩, ⟨0x3D5, 0x3D5, 1, -15⟩, ⟨0x3D6, 0x3D6, 1, -22⟩,
  ⟨0x3F0, 0x3F0, 1, -54⟩, ⟨0x3F1, 0x3F1, 1, -48⟩, ⟨0x3F5, 0x3F5, 1, -64⟩, ⟨0x13F8, 0x13FD, 1, -8⟩,
  ⟨0x1C80, 0x1C80, 1, -6222⟩, ⟨0x1C81, 0x1C81, 1, -6221⟩, ⟨0x1C82, 0x1C82, 1, -6212⟩,
  ⟨0x1C83, 0x1C84, 1, -6210⟩, ⟨0x1C85, 0x1C85, 1, -6211⟩, ⟨0x1C86, 0x1C86, 1, -6204⟩,
  ⟨0x1C87, 0x1C87, 1, -6180⟩, ⟨0x1C88, 0x1C88, 1, 35267⟩, ⟨0x1E9B, 0x1E9B, 1, -58⟩,
  ⟨0x1FBE, 0x1FBE, 1, -7173⟩, ⟨0xAB70, 0xABBF, 1, -38864⟩]

/-- **What the tables have to do with each other**, as far as it takes to compare what they say of
one character. -/
structure CaseTables : Prop where
  lowercase_chain : lowercaseShifts.IsChain Shift.Precedes
  lowercase_leads : ∀ s ∈ lowercaseShifts, s.LeadsToCharacters
  fold_chain : foldShifts.IsChain Shift.Precedes
  fold_leads : ∀ s ∈ foldShifts, s.LeadsToCharacters
  /-- no lower-case form has another one -/
  lowercase_once : bits (Shift.reached lowercaseShifts) &&& bits (Shift.moved lowercaseShifts) = 0
  /-- nothing that a character is moved to by case folding is moved again or folds to several -/
  fold_once : bits (Shift.reached foldShifts) &&& bits (Shift.moved foldShifts ++ expanded) = 0
  /-- nothing that folds to several is moved -/
  fold_single : bits (Shift.moved foldShifts) &&& bits expanded = 0
  /-- the tables have all other shifts in common -/
  common : lowercaseShifts.diff lowercaseOnly = foldShifts.diff foldOnly
  /-- the inverse of a shift to lower case is one of case folding, or the characters that it moves
  fold to several, like their lower-case forms -/
  lowercase_known : ∀ s ∈ lowercaseOnly, s.back ∈ foldShifts ∨ ∀ n ∈ s.points, n = 0x130 ∨
    foldCharacter (lowercase (Char.ofNat n)) = foldCharacter (Char.ofNat n)
  /-- the inverse of a shift of case folding is one to lower case, or the characters that it moves
  are moved to a letter of one group with them -/
  fold_known : ∀ s ∈ foldOnly, s.back ∈ lowercaseShifts ∨ ∀ n ∈ s.points,
    sameLetter (Char.ofNat n) (simpleFold (Char.ofNat n)) = true
  /-- the letters of a group fold alike, but for the i without a dot -/
  groups_fold : ∀ group ∈ letterGroups, ∀ m ∈ group, ∀ n ∈ group, m = 0x131 ∨ n = 0x131 ∨
    foldCharacter (Char.ofNat m) = foldCharacter (Char.ofNat n)
  /-- no letter is in two groups -/
  groups_nodup : letterGroups.flatten.Nodup
  /-- only itself has the i without a dot as its lower-case form -/
  lowercase_dotless : 0x131 ∉ Shift.reached lowercaseShifts
  /-- several characters are two at least, and no ASCII character folds to several -/
  expansions : ∀ e ∈ foldExpansions, 0x80 ≤ e.1 ∧ 2 ≤ e.2.length

lemma caseTables : CaseTables where
  lowercase_chain := by decide +kernel
  lowercase_leads := by decide +kernel
  fold_chain := by decide +kernel
  fold_leads := by decide +kernel
  lowercase_once := by decide +kernel
  fold_once := by decide +kernel
  fold_single := by decide +kernel
  common := by decide +kernel
  lowercase_known := by decide +kernel
  fold_known := by decide +kernel
  groups_fold := by decide +kernel
  groups_nodup := by decide +kernel
  lowercase_dotless := by decide +kernel
  expansions := by decide +kernel

/-! ### Tables in order -/

/-- **A table of shifts in order**, each of which leads to characters. -/
structure Shift.Orderly (shifts : List Shift) : Prop where
  chain : shifts.IsChain Shift.Precedes
  leads : ∀ s ∈ shifts, s.LeadsToCharacters

namespace Shift

variable {shifts : List Shift} {s : Shift} {c : Char} {n : Nat}

instance : Trans Precedes Precedes Precedes where
  trans h h' := ⟨h.1, h.2.trans (h'.1.trans_lt h'.2)⟩

lemma moves_iff : s.moves n = true ↔ s.first ≤ n ∧ n ≤ s.last ∧ (n - s.first) % s.step = 0 := by
  simp [moves, and_assoc]

lemma mem_points (hn : s.moves n = true) : n ∈ s.points := by
  obtain ⟨hfirst, hlast, hstep⟩ := moves_iff.mp hn
  refine List.mem_range'.mpr ⟨(n - s.first) / s.step, ?_, ?_⟩
  · exact Nat.lt_succ_of_le (Nat.div_le_div_right (by omega))
  · have := Nat.div_add_mod (n - s.first) s.step
    omega

lemma mem_moved (hs : s ∈ shifts) (hn : s.moves n = true) : n ∈ moved shifts :=
  List.mem_flatMap.mpr ⟨s, hs, mem_points hn⟩

lemma mem_reached (hs : s ∈ shifts) (hn : s.moves n = true) : s.image n ∈ reached shifts :=
  List.mem_flatMap.mpr ⟨s, hs, List.mem_map_of_mem (mem_points hn)⟩

/-- The inverse of a shift leads back. -/
lemma back_spec (h : s.LeadsToCharacters) (hn : s.moves n = true) :
    s.back.moves (s.image n) = true ∧ s.back.image (s.image n) = n ∧
      (Char.ofNat (s.image n)).toNat = s.image n := by
  obtain ⟨hfirst, hlast, hstep⟩ := moves_iff.mp hn
  obtain ⟨hzero, hrange⟩ := h
  have hmoved : s.image n = s.image s.first + (n - s.first) := by
    unfold image
    omega
  refine ⟨moves_iff.mpr ⟨?_, ?_, ?_⟩, ?_, ?_⟩
  · show s.image s.first ≤ s.image n
    omega
  · show s.image n ≤ s.image s.last
    unfold image
    omega
  · show (s.image n - s.image s.first) % s.step = 0
    rw [hmoved, Nat.add_sub_cancel_left, hstep]
  · show ((s.image n : Int) + -s.offset).toNat = n
    unfold image
    omega
  · have hvalid : (s.image n).isValidChar := by
      unfold image Nat.isValidChar
      omega
    rw [Char.ofNat, dif_pos hvalid]
    rfl

namespace Orderly

/-- The shift of a table in order that moves a character is the one that applies. -/
lemma toNat_applyFirst (h : Orderly shifts) (hs : s ∈ shifts) (hm : s.moves c.toNat = true) :
    (applyFirst shifts c).toNat = s.image c.toNat := by
  have hfind : shifts.find? (fun s => s.moves c.toNat) = some s := by
    obtain ⟨before, after, rfl⟩ := List.append_of_mem hs
    refine List.find?_eq_some_iff_append.mpr ⟨hm, before, after, rfl, fun t ht => ?_⟩
    have hfront : t.Precedes s :=
      (List.pairwise_append.mp (List.isChain_iff_pairwise.mp h.chain)).2.2 t ht s
        List.mem_cons_self
    have := hfront.2
    have := (moves_iff.mp hm).1
    rw [Bool.not_eq_true', ← Bool.not_eq_true, moves_iff]
    omega
  rw [applyFirst, hfind]
  exact (back_spec (h.leads s hs) hm).2.2

/-- **At most one shift of a table in order moves a character**, and its inverse leads back. -/
lemma cases (h : Orderly shifts) (c : Char) :
    applyFirst shifts c = c ∨ ∃ s ∈ shifts, s.moves c.toNat = true ∧
      s.back.moves (applyFirst shifts c).toNat = true ∧
      s.back.image (applyFirst shifts c).toNat = c.toNat := by
  by_cases hc : ∃ s ∈ shifts, s.moves c.toNat = true
  · obtain ⟨s, hs, hm⟩ := hc
    obtain ⟨hback, himage, -⟩ := back_spec (h.leads s hs) hm
    rw [h.toNat_applyFirst hs hm]
    exact .inr ⟨s, hs, hm, hback, himage⟩
  · exact .inl (applyFirst_of_none fun s hs => by simpa using fun hm => hc ⟨s, hs, hm⟩)

/-- What a shift moves that stands in two tables in order, both move alike. -/
lemma applyFirst_eq {shifts' : List Shift} (h : Orderly shifts) (h' : Orderly shifts')
    (hs : s ∈ shifts) (hs' : s ∈ shifts') (hm : s.moves c.toNat = true) :
    applyFirst shifts c = applyFirst shifts' c :=
  Char.toNat_inj.mp ((h.toNat_applyFirst hs hm).trans (h'.toNat_applyFirst hs' hm).symm)

end Orderly

/-- A table does not move what is not among the code points that it moves. -/
lemma applyFirst_of_not_mem (h : c.toNat ∉ moved shifts) : applyFirst shifts c = c :=
  applyFirst_of_none fun s hs => by simpa using fun hm => h (mem_moved hs hm)

end Shift

lemma testBit_bits {ns : List Nat} {n : Nat} : (bits ns).testBit n = true ↔ n ∈ ns := by
  induction ns with
  | nil => simp [bits]
  | cons m ns ih =>
      rw [show bits (m :: ns) = 1 <<< m ||| bits ns from rfl, Nat.testBit_or, Bool.or_eq_true, ih,
        Nat.one_shiftLeft, Nat.testBit_two_pow, List.mem_cons, decide_eq_true_eq, eq_comm]

lemma not_mem_of_bits {ms ns : List Nat} (h : bits ms &&& bits ns = 0) {n : Nat} (hm : n ∈ ms) :
    n ∉ ns := by
  intro hn
  have hboth : (bits ms &&& bits ns).testBit n = true := by
    rw [Nat.testBit_and, testBit_bits.mpr hm, testBit_bits.mpr hn]
    rfl
  rw [h, Nat.zero_testBit] at hboth
  cases hboth

/-! ### Folding -/

variable {a b c : Char}

lemma lowercaseShifts_orderly : Shift.Orderly lowercaseShifts :=
  ⟨caseTables.lowercase_chain, caseTables.lowercase_leads⟩

lemma foldShifts_orderly : Shift.Orderly foldShifts :=
  ⟨caseTables.fold_chain, caseTables.fold_leads⟩

/-- A shift to lower case is one of case folding, or one of those in which the tables differ. -/
lemma mem_foldShifts {s : Shift} (h : s ∈ lowercaseShifts) :
    s ∈ foldShifts ∨ s ∈ lowercaseOnly := by
  by_cases hs : s ∈ lowercaseOnly
  · exact .inr hs
  · have hcommon := List.mem_diff_of_mem h hs
    rw [caseTables.common] at hcommon
    exact .inl (List.diff_subset _ _ hcommon)

/-- A shift of case folding is one to lower case, or one of those in which the tables differ. -/
lemma mem_lowercaseShifts {s : Shift} (h : s ∈ foldShifts) :
    s ∈ lowercaseShifts ∨ s ∈ foldOnly := by
  by_cases hs : s ∈ foldOnly
  · exact .inr hs
  · have hcommon := List.mem_diff_of_mem h hs
    rw [← caseTables.common] at hcommon
    exact .inl (List.diff_subset _ _ hcommon)

/-- **A lower-case form is its own.** -/
lemma lowercase_lowercase (c : Char) : lowercase (lowercase c) = lowercase c := by
  rcases lowercaseShifts_orderly.cases c with hc | ⟨s, hs, hm, -, -⟩
  · have hc' : lowercase c = c := hc
    rw [hc', hc']
  · refine Shift.applyFirst_of_not_mem (not_mem_of_bits caseTables.lowercase_once ?_)
    rw [lowercase, lowercaseShifts_orderly.toNat_applyFirst hs hm]
    exact Shift.mem_reached hs hm

/-- A character that does not fold to several folds to the one that it is moved to. -/
lemma foldCharacter_of_not_mem (h : c.toNat ∉ expanded) : foldCharacter c = [simpleFold c] := by
  have hnone : foldExpansions.lookup c.toNat = none :=
    List.lookup_eq_none_iff.mpr fun e he => bne_iff_ne.mpr fun hc =>
      h (hc ▸ List.mem_map_of_mem he)
  rw [foldCharacter, hnone]
  rfl

lemma foldCharacter_of_length (h : (foldCharacter c).length = 1) :
    foldCharacter c = [simpleFold c] := by
  refine foldCharacter_of_not_mem fun hc => ?_
  obtain ⟨e, he, hec⟩ := List.mem_map.mp hc
  cases hlookup : foldExpansions.lookup c.toNat with
  | none => exact absurd hec (bne_iff_ne.mp (List.lookup_eq_none_iff.mp hlookup e he)).symm
  | some several =>
      obtain ⟨before, after, hsplit, -⟩ := List.lookup_eq_some_iff.mp hlookup
      have hlength : 2 ≤ several.length := (caseTables.expansions (c.toNat, several)
        (hsplit ▸ List.mem_append_right _ List.mem_cons_self)).2
      have hseveral : (foldCharacter c).length = several.length := by
        rw [foldCharacter, hlookup, List.length_map]
      omega

lemma foldCharacter_length_of_ascii (h : c.toNat < 0x80) : (foldCharacter c).length = 1 := by
  rw [foldCharacter_of_not_mem, List.length_singleton]
  intro hc
  obtain ⟨e, he, hec⟩ := List.mem_map.mp hc
  exact absurd h (Nat.not_lt.mpr (hec ▸ (caseTables.expansions e he).1))

/-- A character folds like the one that it is moved to. -/
lemma foldCharacter_simpleFold (c : Char) : foldCharacter (simpleFold c) = foldCharacter c := by
  rcases foldShifts_orderly.cases c with hc | ⟨s, hs, hm, -, -⟩
  · rw [simpleFold, hc]
  · have hreached : (simpleFold c).toNat ∈ Shift.reached foldShifts := by
      rw [simpleFold, foldShifts_orderly.toNat_applyFirst hs hm]
      exact Shift.mem_reached hs hm
    have hmoved := not_mem_of_bits caseTables.fold_once hreached
    rw [List.mem_append, not_or] at hmoved
    have hfixed : simpleFold (simpleFold c) = simpleFold c :=
      Shift.applyFirst_of_not_mem hmoved.1
    rw [foldCharacter_of_not_mem hmoved.2, hfixed,
      foldCharacter_of_not_mem (not_mem_of_bits caseTables.fold_single (Shift.mem_moved hs hm))]

/-- **A character folds like its lower-case form**, unless it is a capital I with a dot. -/
theorem foldCharacter_lowercase (h : c ≠ 'İ') : foldCharacter (lowercase c) = foldCharacter c := by
  rcases lowercaseShifts_orderly.cases c with hc | ⟨s, hs, hm, hback, himage⟩
  · rw [lowercase, hc]
  · rcases mem_foldShifts hs with hs' | honly
    · rw [← foldCharacter_simpleFold c, simpleFold, lowercase,
        lowercaseShifts_orderly.applyFirst_eq foldShifts_orderly hs hs' hm]
    · rcases caseTables.lowercase_known s honly with hs' | hpoints
      · -- case folding moves the lower-case form back to the character
        have hfold : simpleFold (lowercase c) = c :=
          Char.toNat_inj.mp ((foldShifts_orderly.toNat_applyFirst hs' hback).trans himage)
        rw [← foldCharacter_simpleFold (lowercase c), hfold]
      · have hc := hpoints _ (Shift.mem_points hm)
        rw [Char.ofNat_toNat] at hc
        exact hc.resolve_left fun hdotted => h (Char.toNat_inj.mp hdotted)

/-! ### The same letter -/

/-- Letters of one group with a third are of one group. -/
lemma grouped_trans (hab : grouped a b = true) (hbc : grouped b c = true) :
    grouped a c = true := by
  obtain ⟨g, hg, hab⟩ := List.any_eq_true.mp hab
  obtain ⟨g', hg', hbc⟩ := List.any_eq_true.mp hbc
  obtain ⟨ha, hb⟩ := Bool.and_eq_true _ _ ▸ hab
  obtain ⟨hb', hc⟩ := Bool.and_eq_true _ _ ▸ hbc
  have hgroups : g = g' := by
    by_contra hne
    have : Std.Symm (List.Disjoint (α := Nat)) := ⟨fun _ _ => List.disjoint_symm⟩
    have hdisjoint := (List.nodup_flatten.mp caseTables.groups_nodup).2.forall hg hg' hne
    exact hdisjoint (List.contains_iff_mem.mp hb) (List.contains_iff_mem.mp hb')
  subst hgroups
  exact List.any_eq_true.mpr ⟨g, hg, by rw [ha, hc]; rfl⟩

/-- **What is the same letter as a third is the same letter.** -/
lemma sameLetter_trans (hab : sameLetter a b = true) (hbc : sameLetter b c = true) :
    sameLetter a c = true := by
  simp only [sameLetter, Bool.or_eq_true, beq_iff_eq] at *
  rcases hab with hab | hab
  · rwa [hab]
  · rcases hbc with hbc | hbc
    · exact .inr (hbc ▸ hab)
    · exact .inr (grouped_trans hab hbc)

lemma sameLetter_lowercase (c : Char) : sameLetter c (lowercase c) = true := by
  simp [sameLetter, lowercase_lowercase]

/-- A character is the same letter as the one that case folding moves it to. -/
lemma sameLetter_simpleFold (c : Char) : sameLetter c (simpleFold c) = true := by
  rcases foldShifts_orderly.cases c with hc | ⟨s, hs, hm, hback, himage⟩
  · rw [simpleFold, hc]
    exact sameLetter_refl c
  · rcases mem_lowercaseShifts hs with hs' | honly
    · rw [simpleFold, foldShifts_orderly.applyFirst_eq lowercaseShifts_orderly hs hs' hm]
      exact sameLetter_lowercase c
    · rcases caseTables.fold_known s honly with hs' | hpoints
      · -- the character is the lower-case form of the one that it is moved to
        have hlower : lowercase (simpleFold c) = c :=
          Char.toNat_inj.mp ((lowercaseShifts_orderly.toNat_applyFirst hs' hback).trans himage)
        have hsame := sameLetter_lowercase (simpleFold c)
        rwa [hlower, sameLetter_comm] at hsame
      · have hc := hpoints _ (Shift.mem_points hm)
        rwa [Char.ofNat_toNat] at hc

/-- **What case folding moves to the same character is the same letter.** -/
theorem sameLetter_of_simpleFold_eq (h : simpleFold a = simpleFold b) : sameLetter a b = true := by
  have hb := sameLetter_simpleFold b
  rw [← h, sameLetter_comm] at hb
  exact sameLetter_trans (sameLetter_simpleFold a) hb

lemma lowercase_ne_dotless (h : c ≠ 'ı') : lowercase c ≠ 'ı' := by
  rcases lowercaseShifts_orderly.cases c with hc | ⟨s, hs, hm, -, -⟩
  · rwa [lowercase, hc]
  · intro hdotless
    have hreached := Shift.mem_reached hs hm
    rw [← lowercaseShifts_orderly.toNat_applyFirst hs hm] at hreached
    rw [show Shift.applyFirst lowercaseShifts c = 'ı' from hdotless] at hreached
    exact caseTables.lowercase_dotless hreached

/-- **The same letters fold alike**, but for an i without a dot and a capital I with one. -/
theorem foldCharacter_eq_of_sameLetter (h : sameLetter a b = true) (ha : a ≠ 'ı' ∧ a ≠ 'İ')
    (hb : b ≠ 'ı' ∧ b ≠ 'İ') : foldCharacter a = foldCharacter b := by
  rw [← foldCharacter_lowercase ha.2, ← foldCharacter_lowercase hb.2]
  rcases Bool.or_eq_true _ _ ▸ h with h | h
  · rw [beq_iff_eq.mp h]
  · obtain ⟨g, hg, hab⟩ := List.any_eq_true.mp h
    obtain ⟨hga, hgb⟩ := Bool.and_eq_true _ _ ▸ hab
    have hfold := caseTables.groups_fold g hg _ (List.contains_iff_mem.mp hga) _
      (List.contains_iff_mem.mp hgb)
    rw [Char.ofNat_toNat, Char.ofNat_toNat] at hfold
    have hne : ∀ {c : Char}, c ≠ 'ı' → ¬ (lowercase c).toNat = 0x131 := fun hc he =>
      lowercase_ne_dotless hc (Char.toNat_inj.mp he)
    exact (hfold.resolve_left (hne ha.1)).resolve_left (hne hb.1)

end Applicability.Text
