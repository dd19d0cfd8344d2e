/-
Combining verdicts: what a tally comes to.

A tally is kept while the expressions of a condition are gone through. Here it is compared with two
readings that do not go through anything: the extremes of two lists of grades, and the rules by
which a condition is fulfilled.

* `Tally.ofChildren_eq`: the tally of a list of verdicts holds the best of its alternatives and the
  weakest of its constraints;
* `Combines`: the rules. A condition is ignored if all its expressions are; otherwise it is
  fulfilled if its constraints are met and one of its alternatives is, if it has any; otherwise it
  has failed;
* `combines_verdict`: on verdicts that an evaluation comes to, the tally follows the rules, and
  `Combines.unique` says that nothing else does.
-/
import Mathlib.Data.List.Induction
import Mathlib.Order.MinMax
import Mathlib.Tactic.Common
import Applicability.Tally

namespace Applicability

/-- The scale is linearly ordered by position. -/
instance : LinearOrder Grade where
  le_refl a := Nat.le_refl a.rank
  le_trans a b c := Nat.le_trans (n := a.rank) (m := b.rank) (k := c.rank)
  le_antisymm a b h h' := Grade.rank_injective (Nat.le_antisymm h h')
  le_total a b := Nat.le_total a.rank b.rank
  lt_iff_le_not_ge a b := Nat.lt_iff_le_and_not_ge (m := a.rank) (n := b.rank)
  toDecidableLE := inferInstance

lemma Grade.failed_le (g : Grade) : .failed ≤ g := by cases g <;> decide

lemma Grade.le_fulfilled (g : Grade) : g ≤ .fulfilled := by cases g <;> decide

/-! ### The tally of a list of verdicts -/

namespace Tally

/-- Counts one more expression; verdicts without a grade are passed over. -/
def countVerdict (t : Tally) (role : Role) : Verdict → Tally
  | .graded g => t.count role g
  | _ => t

/-- Counts some more expressions, given by their roles and verdicts. -/
def countAll (t : Tally) (children : List (Role × Verdict)) : Tally :=
  children.foldl (fun t x => t.countVerdict x.1 x.2) t

/-- The tally of some expressions. -/
def ofChildren (children : List (Role × Verdict)) : Tally := ({} : Tally).countAll children

/-- The grades of the alternatives. -/
def alternatives (children : List (Role × Verdict)) : List Grade :=
  children.filterMap fun x => if x.1 = .accept then x.2.grade? else none

/-- The grades of the constraints, those of denied ones being turned into their opposites. -/
def constraints (children : List (Role × Verdict)) : List Grade :=
  children.filterMap fun x =>
    match x.1 with
    | .accept => none
    | .require => x.2.grade?
    | .deny => x.2.grade?.map Grade.negated

lemma mem_alternatives {children : List (Role × Verdict)} {g : Grade} :
    g ∈ alternatives children ↔ (.accept, .graded g) ∈ children := by
  simp only [alternatives, List.mem_filterMap]
  constructor
  · rintro ⟨⟨role, v⟩, hx, h⟩
    cases role <;> cases v <;> simp_all [Verdict.grade?]
  · intro h
    exact ⟨_, h, rfl⟩

lemma mem_constraints {children : List (Role × Verdict)} {g : Grade} :
    g ∈ constraints children ↔
      (.require, .graded g) ∈ children ∨ (.deny, .graded g.negated) ∈ children := by
  simp only [constraints, List.mem_filterMap]
  constructor
  · rintro ⟨⟨role, v⟩, hx, h⟩
    cases role <;> cases v <;> simp_all [Verdict.grade?]
    rw [← h, Grade.negated_negated]
    exact Or.inr hx
  · rintro (h | h)
    · exact ⟨_, h, rfl⟩
    · exact ⟨_, h, by simp [Verdict.grade?, Grade.negated_negated]⟩

/-- One more grade takes part in the maximum as in the best alternative so far. -/
lemma max?_concat (grades : List Grade) (g : Grade) :
    (grades ++ [g]).max? = some (better grades.max? g) := by
  cases grades with
  | nil => rfl
  | cons a rest =>
      rw [List.cons_append, List.max?_cons', List.max?_cons', List.foldl_append]
      rfl

/-- One more grade takes part in the minimum as in the weakest constraint so far. -/
lemma min?_concat (grades : List Grade) (g : Grade) :
    (grades ++ [g]).min? = some (weaker grades.min? g) := by
  cases grades with
  | nil => rfl
  | cons a rest =>
      rw [List.cons_append, List.min?_cons', List.min?_cons', List.foldl_append]
      rfl

/-- **A tally holds the extremes**: the best of the alternatives and the weakest of the
constraints. -/
theorem ofChildren_eq (children : List (Role × Verdict)) :
    ofChildren children =
      { best := (alternatives children).max?, weakest := (constraints children).min? } := by
  induction children using List.reverseRecOn with
  | nil => rfl
  | append_singleton children x ih =>
      obtain ⟨role, v⟩ := x
      have hstep : ofChildren (children ++ [(role, v)]) =
          (ofChildren children).countVerdict role v := by
        simp [ofChildren, countAll, List.foldl_append]
      rw [hstep, ih]
      cases v with
      | graded g =>
          cases role <;>
            simp [countVerdict, count, alternatives, constraints, Verdict.grade?, max?_concat,
              min?_concat]
      | _ => cases role <;> simp [countVerdict, alternatives, constraints, Verdict.grade?]

/-- A tally never comes to an error. -/
lemma verdict_ne_error (t : Tally) : t.verdict ≠ .error := by
  rw [verdict]
  cases t.grade? <;> simp [Verdict.ofWeakest]

lemma verdict_of_weakest_failed {t : Tally} (h : t.weakest = some .failed) :
    t.verdict = .graded .failed := by
  obtain ⟨best, weakest⟩ := t
  subst h
  cases best with
  | none => rfl
  | some b => cases b <;> rfl

lemma verdict_of_best_failed {t : Tally} (h : t.best = some .failed) :
    t.verdict = .graded .failed := by
  obtain ⟨best, weakest⟩ := t
  subst h
  cases weakest with
  | none => rfl
  | some w => cases w <;> rfl

/-- Without a grade below the top of the scale, the verdict is its top. -/
lemma verdict_of_fulfilled {t : Tally} (hb : ∀ g, t.best = some g → g = .fulfilled)
    (hw : ∀ g, t.weakest = some g → g = .fulfilled)
    (hne : ¬ (t.best = none ∧ t.weakest = none)) : t.verdict = .graded .fulfilled := by
  obtain ⟨best, weakest⟩ := t
  cases best with
  | none =>
      cases weakest with
      | none => exact absurd ⟨rfl, rfl⟩ hne
      | some w => cases hw w rfl; rfl
  | some b =>
      cases hb b rfl
      cases weakest with
      | none => rfl
      | some w => cases hw w rfl; rfl

end Tally

/-! ### The rules -/

/-- The demands of a condition, by the verdicts on its expressions: its constraints are met, and if
any alternative has a say, one of them is fulfilled. -/
structure Satisfied (children : List (Role × Verdict)) : Prop where
  require : ∀ v, (.require, v) ∈ children → v ≠ .ignored → v = .graded .fulfilled
  deny : ∀ v, (.deny, v) ∈ children → v ≠ .ignored → v = .graded .failed
  accept : (∃ v, (.accept, v) ∈ children ∧ v ≠ .ignored) →
    (.accept, .graded .fulfilled) ∈ children

/-- **The verdict on a condition** by the rules, from the roles of its expressions and the verdicts
on them. -/
inductive Combines (children : List (Role × Verdict)) : Verdict → Prop where
  | ignored : (∀ x ∈ children, x.2 = .ignored) → Combines children .ignored
  | fulfilled : (∃ x ∈ children, x.2 ≠ .ignored) → Satisfied children →
      Combines children (.graded .fulfilled)
  | failed : (∃ x ∈ children, x.2 ≠ .ignored) → ¬ Satisfied children →
      Combines children (.graded .failed)

/-- A verdict that an evaluation of the items of a pack comes to, unless it is an error. -/
def Verdict.IsFinal (v : Verdict) : Prop :=
  v = .graded .fulfilled ∨ v = .graded .failed ∨ v = .ignored

namespace Combines

variable {children : List (Role × Verdict)} {v w : Verdict}

/-- The rules leave no choice. -/
lemma unique (hv : Combines children v) (hw : Combines children w) : v = w := by
  have clash : (∀ x ∈ children, x.2 = .ignored) → ¬ ∃ x ∈ children, x.2 ≠ .ignored :=
    fun h ⟨x, hx, hne⟩ => hne (h x hx)
  cases hv with
  | ignored h =>
      cases hw with
      | ignored => rfl
      | fulfilled h' => exact absurd h' (clash h)
      | failed h' => exact absurd h' (clash h)
  | fulfilled h hs =>
      cases hw with
      | ignored h' => exact absurd h (clash h')
      | fulfilled => rfl
      | failed _ hns => exact absurd hs hns
  | failed h hns =>
      cases hw with
      | ignored h' => exact absurd h (clash h')
      | fulfilled _ hs => exact absurd hs hns
      | failed => rfl

lemma isFinal (h : Combines children v) : v.IsFinal := by
  cases h with
  | ignored => exact .inr (.inr rfl)
  | fulfilled => exact .inl rfl
  | failed => exact .inr (.inl rfl)

end Combines

section

variable {children : List (Role × Verdict)}

open Tally

/-- A final verdict that is not passed over has one of the two ends of the scale. -/
lemma Verdict.IsFinal.graded {v : Verdict} (hv : v.IsFinal) (h : v ≠ .ignored) :
    v = .graded .fulfilled ∨ v = .graded .failed :=
  hv.elim .inl fun hv => hv.elim .inr fun hv => absurd hv h

lemma all_ignored_iff (hf : ∀ x ∈ children, x.2.IsFinal) :
    (∀ x ∈ children, x.2 = .ignored) ↔
      alternatives children = [] ∧ constraints children = [] := by
  simp only [List.eq_nil_iff_forall_not_mem, mem_alternatives, mem_constraints]
  constructor
  · intro h
    have hno : ∀ role g, ((role, .graded g) : Role × Verdict) ∉ children :=
      fun role g hx => by cases h _ hx
    exact ⟨hno _, fun g hg => hg.elim (hno _ _) (hno _ _)⟩
  · rintro ⟨ha, hc⟩ ⟨role, v⟩ hx
    by_contra hne
    obtain ⟨g, rfl⟩ : ∃ g, v = .graded g := by
      rcases (hf _ hx).graded hne with h | h <;> exact ⟨_, h⟩
    cases role with
    | accept => exact ha g hx
    | require => exact hc g (.inl hx)
    | deny => exact hc g.negated (.inr (by rwa [Grade.negated_negated]))

/-- The demands are met exactly if all constraints are fulfilled, and one of the alternatives, if
there are any. -/
lemma satisfied_iff (hf : ∀ x ∈ children, x.2.IsFinal) :
    Satisfied children ↔
      (∀ g ∈ constraints children, g = .fulfilled) ∧
        (alternatives children ≠ [] → .fulfilled ∈ alternatives children) := by
  simp only [mem_constraints, mem_alternatives]
  constructor
  · rintro ⟨hr, hd, ha⟩
    refine ⟨?_, fun hne => ha ?_⟩
    · -- a required child counts as it is, and a denied one with the opposite grade
      rintro g (h | h)
      · simpa using hr _ h (by simp)
      · have := hd _ h (by simp)
        cases g <;> simp_all [Grade.negated]
    · obtain ⟨g, hg⟩ := List.exists_mem_of_ne_nil _ hne
      exact ⟨_, mem_alternatives.mp hg, by simp⟩
  · rintro ⟨hc, ha⟩
    refine ⟨fun v h hne => ?_, fun v h hne => ?_, ?_⟩
    · rcases (hf _ h).graded hne with rfl | rfl
      · rfl
      · cases hc _ (.inl h)
    · rcases (hf _ h).graded hne with rfl | rfl
      · cases hc .failed (.inr h)
      · rfl
    · rintro ⟨v, h, hne⟩
      refine ha (List.ne_nil_of_mem (a := ?_) (mem_alternatives.mpr ?_))
      · exact v.grade?.getD .failed
      · rcases (hf _ h).graded hne with rfl | rfl <;> exact h

/-- On final verdicts, every alternative and every constraint is at an end of the scale. -/
lemma ends_of_final (hf : ∀ x ∈ children, x.2.IsFinal) {g : Grade}
    (hg : g ∈ alternatives children ∨ g ∈ constraints children) :
    g = .fulfilled ∨ g = .failed := by
  have hend : ∀ {role g}, ((role, .graded g) : Role × Verdict) ∈ children →
      g = .fulfilled ∨ g = .failed := fun h => by
    simpa using (hf _ h).graded (by simp)
  rcases hg with hg | hg
  · exact hend (mem_alternatives.mp hg)
  · rcases mem_constraints.mp hg with h | h
    · exact hend h
    · have := hend h
      cases g <;> simp_all [Grade.negated]

/-- **The tally follows the rules** on final verdicts. -/
theorem combines_verdict (hf : ∀ x ∈ children, x.2.IsFinal) :
    Combines children (ofChildren children).verdict := by
  have htally := ofChildren_eq children
  by_cases hall : ∀ x ∈ children, x.2 = .ignored
  · obtain ⟨ha, hc⟩ := (all_ignored_iff hf).mp hall
    rw [htally, ha, hc]
    exact .ignored hall
  have hsome : ∃ x ∈ children, x.2 ≠ .ignored := by simpa using hall
  by_cases hs : Satisfied children
  · obtain ⟨hc, ha⟩ := (satisfied_iff hf).mp hs
    have hverdict : (ofChildren children).verdict = .graded .fulfilled := by
      refine verdict_of_fulfilled (fun g hg => ?_) (fun g hg => ?_) fun hnone => hall ?_
      · rw [htally] at hg
        have hne := List.ne_nil_of_mem (List.max?_mem hg)
        exact le_antisymm g.le_fulfilled ((List.max?_eq_some_iff.mp hg).2 _ (ha hne))
      · rw [htally] at hg
        exact hc g (List.min?_mem hg)
      · rw [htally] at hnone
        exact (all_ignored_iff hf).mpr
          ⟨List.max?_eq_none_iff.mp hnone.1, List.min?_eq_none_iff.mp hnone.2⟩
    exact hverdict ▸ .fulfilled hsome hs
  · have hverdict : (ofChildren children).verdict = .graded .failed := by
      rw [satisfied_iff hf, not_and_or] at hs
      rcases hs with hs | hs
      · -- a constraint is not met, hence at the bottom of the scale
        obtain ⟨g, hg, hne⟩ : ∃ g ∈ constraints children, g ≠ .fulfilled := by simpa using hs
        obtain rfl := (ends_of_final hf (.inr hg)).resolve_left hne
        refine verdict_of_weakest_failed ?_
        rw [htally]
        exact List.min?_eq_some_iff.mpr ⟨hg, fun g _ => g.failed_le⟩
      · -- no alternative is fulfilled, so that they all are at the bottom of the scale
        obtain ⟨hne, hno⟩ := Classical.not_imp.mp hs
        obtain ⟨g, hg⟩ := List.exists_mem_of_ne_nil _ hne
        have hbottom : ∀ g ∈ alternatives children, g = .failed := fun g hg =>
          (ends_of_final hf (.inl hg)).resolve_left fun h => hno (h ▸ hg)
        refine verdict_of_best_failed ?_
        rw [htally]
        exact List.max?_eq_some_iff.mpr
          ⟨hbottom g hg ▸ hg, fun g' hg' => (hbottom g' hg').le⟩
    exact hverdict ▸ .failed hsome hs

end

end Applicability
