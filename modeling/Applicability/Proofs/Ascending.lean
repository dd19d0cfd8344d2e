/-
Ascending: what a sort comes to when a comparison may refuse.

A sort has an answer unless a comparison is refused, and the answer has the elements of the list in
ascending order, by any transitive relation to which the answers of comparisons lead.

* `Waits`: the runs that wait to be merged, and the rest of the list. It is kept when a run is cut
  from the rest (`Waits.cut`), and when two runs are merged (`Waits.mergeRuns_meets`);
* `nextRun_meets`, `collapse_meets`, `gather_meets`, `mergeAll_meets`: the steps of the sort;
* `sort_meets`: the sort. It has an answer where no comparison of the elements is refused.
-/
import Applicability.Proofs.Joining

namespace Applicability.Sorting

variable {ε α : Type} {less : α → α → Except ε Bool} {P : α → Prop} {E : ε → Prop}
  {le : α → α → Prop}

/-! ### Runs that wait to be merged -/

/-- **The runs that wait** are ascending, and with the rest of the list they are all there is. -/
structure Waits (le : α → α → Prop) (whole : List α) (pending : List (Pending α)) (rest : List α) :
    Prop where
  perm : (pending.flatMap Pending.items ++ rest).Perm whole
  ascending : ∀ run ∈ pending, run.items.Pairwise le

namespace Waits

variable {whole rest : List α} {pending : List (Pending α)} {before last : Pending α}

lemma reorder {pending' : List (Pending α)} (h : Waits le whole pending rest)
    (hperm : pending'.Perm pending) : Waits le whole pending' rest where
  perm := ((hperm.flatMap_right _).append_right rest).trans h.perm
  ascending run hrun := h.ascending run (hperm.mem_iff.mp hrun)

/-- A run is cut from the rest of the list. -/
lemma cut {depth : Nat} {run after : List α} (h : Waits le whole pending rest)
    (hperm : (run ++ after).Perm rest) (hrun : run.Pairwise le) :
    Waits le whole (⟨run, depth⟩ :: pending) after where
  perm := by
    have hfront : (run ++ (pending.flatMap Pending.items ++ after)).Perm
        (pending.flatMap Pending.items ++ (run ++ after)) := by
      simpa using List.perm_append_comm.append_right after
    simpa using hfront.trans ((hperm.append_left _).trans h.perm)
  ascending := List.forall_mem_cons.mpr ⟨hrun, h.ascending⟩

/-- **The last two runs are merged.** -/
lemma mergeRuns_meets (hless : LedTo less P E le) (hP : ∀ x ∈ whole, P x) (patience depth : Nat)
    (h : Waits le whole (last :: before :: pending) rest) :
    Meets (fun r => Waits le whole (⟨r.1, depth⟩ :: pending) rest) E
      (mergeRuns less patience before.items last.items) := by
  have hperm : (before.items ++ last.items ++ (pending.flatMap Pending.items ++ rest)).Perm whole :=
    (List.perm_append_comm.append_right _).trans (by simpa using h.perm)
  have hboth : ∀ x ∈ before.items ++ last.items, P x := fun x hx =>
    hP x (hperm.mem_iff.mp (List.mem_append_left _ hx))
  refine (Sorting.mergeRuns_meets hless hboth patience (h.ascending before (by simp))
    (h.ascending last (by simp))).imp fun r ⟨hmerged, hr⟩ => ⟨?_, ?_⟩
  · simpa using (hmerged.append_right _).trans hperm
  · exact List.forall_mem_cons.mpr ⟨hr, fun run hrun => h.ascending run (by simp [hrun])⟩

/-- The last run may wait while the two before it are merged. -/
lemma mergeRuns_meets_before (hless : LedTo less P E le) (hP : ∀ x ∈ whole, P x)
    (patience depth : Nat) {earlier : Pending α}
    (h : Waits le whole (last :: before :: earlier :: pending) rest) :
    Meets (fun r => Waits le whole (last :: ⟨r.1, depth⟩ :: pending) rest) E
      (mergeRuns less patience earlier.items before.items) := by
  have hperm : (before :: earlier :: last :: pending).Perm (last :: before :: earlier :: pending) :=
    ((List.Perm.swap last earlier pending).cons before).trans (List.Perm.swap last before _)
  exact ((h.reorder hperm).mergeRuns_meets hless hP patience depth).imp fun r hr =>
    hr.reorder (List.Perm.swap _ _ _)

lemma single {run : Pending α} (h : Waits le whole [run] []) :
    run.items.Perm whole ∧ run.items.Pairwise le :=
  ⟨by simpa using h.perm, h.ascending run (by simp)⟩

end Waits

/-- **The next run** is ascending, and has an element if the list has. -/
lemma nextRun_meets (h : LedTo less P E le) {xs : List α} (hP : ∀ x ∈ xs, P x) (least : Nat) :
    Meets (fun r => (r.1 ++ r.2).Perm xs ∧ r.1.Pairwise le ∧ (r.1 = [] → xs = [])) E
      (nextRun less least xs) := by
  refine (leadingRun_meets h hP).bind fun (run, after) ⟨hparts, hrun, hempty⟩ => ?_
  have hP' : ∀ x ∈ run ++ after.take (least - run.length), P x := fun x hx =>
    hP x (hparts.mem_iff.mp (((List.take_sublist _ after).append_left run).subset hx))
  refine (foldlM_insert_meets h hP' hrun).bind fun placed ⟨hplaced, hsorted⟩ => ?_
  refine ⟨?_, hsorted, ?_⟩
  · refine .trans (hplaced.append_right _) ?_
    rwa [List.append_assoc, List.take_append_drop]
  · rintro rfl
    exact hempty (List.append_eq_nil_iff.mp hplaced.symm.eq_nil).1

section Runs

variable {whole rest : List α} {pending : List (Pending α)} (h : LedTo less P E le)
  (hP : ∀ x ∈ whole, P x)

include h hP

lemma collapse_meets (depth patience : Nat) (hw : Waits le whole pending rest) :
    Meets (fun r => Waits le whole r.1 rest) E (collapse less depth patience pending) := by
  fun_induction collapse less depth patience pending with
  | case1 patience last before pending _ e he =>
      exact (hw.mergeRuns_meets h hP patience 0).of_eq_error he
  | case2 patience last before pending _ items patience' hmerge ih =>
      exact ih ((hw.mergeRuns_meets h hP patience before.depth).of_eq_ok hmerge)
  | case3 => exact hw
  | case4 => exact hw

lemma gather_meets (n fuel patience : Nat) (hw : Waits le whole pending rest)
    (hfuel : rest.length ≤ fuel) :
    Meets (fun r => Waits le whole r.1 []) E (gather less n fuel patience pending rest) := by
  induction fuel generalizing patience pending rest with
  | zero =>
      obtain rfl := List.length_eq_zero_iff.mp (Nat.le_zero.mp hfuel)
      exact hw
  | succ fuel ih =>
      cases rest with
      | nil => exact hw
      | cons x xs =>
          have hknown : ∀ y ∈ x :: xs, P y := fun y hy =>
            hP y (hw.perm.mem_iff.mp (List.mem_append_right _ hy))
          refine (nextRun_meets h hknown (leastRun n)).bind
            fun (run, after) ⟨hparts, hrun, hempty⟩ => ?_
          -- a run takes at least one element from the rest, so that the fuel lasts
          have hpositive : 0 < run.length :=
            List.length_pos_iff.mpr fun hnil => List.cons_ne_nil x xs (hempty hnil)
          have hafter : after.length ≤ fuel := by
            have hlength : run.length + after.length = (x :: xs).length := by
              simpa using hparts.length_eq
            omega
          cases pending with
          | nil => exact ih patience (hw.cut hparts hrun) hafter
          | cons last others =>
              exact (collapse_meets h hP _ patience hw).bind fun c hc =>
                ih c.2 (hc.cut hparts hrun) hafter

lemma mergeAll_meets (patience : Nat) (hw : Waits le whole pending []) :
    Meets (fun r => r.Perm whole ∧ r.Pairwise le) E (mergeAll less patience pending) := by
  fun_induction mergeAll less patience pending with
  | case1 => exact ⟨by simpa using hw.perm, List.Pairwise.nil⟩
  | case2 patience run => exact hw.single
  | case3 patience last before =>
      exact (hw.mergeRuns_meets h hP patience 0).map fun r hr => hr.single
  | case4 patience last before earlier rest _ e he =>
      exact (hw.mergeRuns_meets_before h hP patience 0).of_eq_error he
  | case5 patience last before earlier rest _ items patience' hmerge ih =>
      exact ih ((hw.mergeRuns_meets_before h hP patience earlier.depth).of_eq_ok hmerge)
  | case6 patience last before earlier rest _ e he =>
      exact (hw.mergeRuns_meets h hP patience 0).of_eq_error he
  | case7 patience last before earlier rest _ items patience' hmerge ih =>
      exact ih ((hw.mergeRuns_meets h hP patience before.depth).of_eq_ok hmerge)

end Runs

/-- **A sort** loses no element and is ascending, unless a comparison is refused. -/
theorem sort_meets (h : LedTo less P E le) {xs : List α} (hP : ∀ x ∈ xs, P x) :
    Meets (fun r => r.Perm xs ∧ r.Pairwise le) E (sort less xs) :=
  (gather_meets h hP xs.length xs.length worthwhile ⟨.refl _, by simp⟩ (Nat.le_refl _)).bind
    fun r hr => mergeAll_meets h hP r.2 hr

end Applicability.Sorting
