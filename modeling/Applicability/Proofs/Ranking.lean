/-
Ranking: what the folds of verdicts come to.

A fold asks about the order of verdicts, and a question about a verdict outside the scale is
refused. Every verdict of a list of at least two is asked about, so that none outside the scale
remains unnoticed, wherever it stands.

* `Verdict.AtMost`: the order of the ranks, which only graded verdicts have;
* `Verdict.ledTo_less`, `Verdict.ledTo_greater`: the answers lead to it, from either end;
* `Verdict.foldlM_keep_meets`: what is kept in the end wins against all others. The induction is on
  the verdicts still to come: what wins against the one kept so far wins against those behind it;
* `Verdict.sorted_eq_sort`: all ways to sort agree, also on what they refuse;
* `Verdict.folds_refuse_ungraded`: the least, the greatest and the sorted verdicts.
-/
import Applicability.Verdict.Order
import Applicability.Proofs.Ascending

namespace Applicability.Verdict

open Sorting (Meets LedTo)

/-! ### The order of verdicts -/

/-- **The order of the ranks**, which only verdicts on the scale have. -/
def AtMost (v w : Verdict) : Prop := ∃ m n, v.rank = .ok m ∧ w.rank = .ok n ∧ m ≤ n

/-- A verdict outside the scale is among the verdicts. -/
def HasUngraded (vs : List Verdict) : Prop := ignored ∈ vs ∨ undefined ∈ vs ∨ error ∈ vs

/-- The refusal of a question about a verdict outside the scale. -/
def refusal (question : Comparison) : Fault :=
  .notComparable question Vocabulary.verdict.title Vocabulary.verdict.title

variable {v w : Verdict} {vs ws : List Verdict}

@[simp] lemma atMost_graded {g h : Grade} : AtMost (graded g) (graded h) ↔ g.rank ≤ h.rank := by
  simp [AtMost, rank, grade?]

/-- Verdicts in the order are graded. -/
lemma AtMost.exists_graded (h : AtMost v w) : (∃ g, v = graded g) ∧ ∃ g, w = graded g := by
  obtain ⟨m, n, hv, hw, -⟩ := h
  cases v <;> cases w <;> simp_all [rank, grade?]

lemma AtMost.trans {u : Verdict} (huv : AtMost u v) (hvw : AtMost v w) : AtMost u w := by
  obtain ⟨⟨g, rfl⟩, h, rfl⟩ := huv.exists_graded
  obtain ⟨-, k, rfl⟩ := hvw.exists_graded
  exact atMost_graded.mpr (Nat.le_trans (atMost_graded.mp huv) (atMost_graded.mp hvw))

lemma AtMost.antisymm (hvw : AtMost v w) (hwv : AtMost w v) : v = w := by
  obtain ⟨⟨g, rfl⟩, h, rfl⟩ := hvw.exists_graded
  exact congrArg graded
    (Grade.rank_injective (Nat.le_antisymm (atMost_graded.mp hvw) (atMost_graded.mp hwv)))

lemma AtMost.refl_left (h : AtMost v w) : AtMost v v := by
  obtain ⟨⟨g, rfl⟩, -⟩ := h.exists_graded
  exact atMost_graded.mpr (Nat.le_refl _)

lemma AtMost.refl_right (h : AtMost v w) : AtMost w w := by
  obtain ⟨-, g, rfl⟩ := h.exists_graded
  exact atMost_graded.mpr (Nat.le_refl _)

lemma hasUngraded_of_mem (hv : v ∈ vs) (h : v.isGraded = false) : HasUngraded vs := by
  cases v with
  | graded g => cases h
  | ignored => exact .inl hv
  | undefined => exact .inr (.inl hv)
  | error => exact .inr (.inr hv)

/-- Where every verdict is in the order, none is outside the scale. -/
lemma not_hasUngraded_of_atMost (h : ∀ v ∈ vs, AtMost v v) : ¬HasUngraded vs := by
  rintro (hv | hv | hv) <;> obtain ⟨⟨g, hg⟩, -⟩ := (h _ hv).exists_graded <;> cases hg

/-! ### What the answers lead to -/

/-- Questions about the order are refused only if there is a verdict outside the scale. -/
def Refuses (question : Comparison) (vs : List Verdict) (e : Fault) : Prop :=
  e = refusal question ∧ HasUngraded vs

lemma ask_eq_ok {question : Comparison} {b : Bool} (h : ask question v w = .ok b) :
    ∃ g k, v = graded g ∧ w = graded k ∧ question.answer (compare g.rank k.rank) = b := by
  cases v <;> cases w <;> simp_all [ask, grade?]

lemma atMost_of_less (h : ask .less v w = .ok true) : AtMost v w := by
  obtain ⟨g, k, rfl, rfl, hanswer⟩ := ask_eq_ok h
  have hlt : g.rank < k.rank := Nat.compare_eq_lt.mp (by simpa [Comparison.answer] using hanswer)
  exact atMost_graded.mpr (Nat.le_of_lt hlt)

lemma atMost_of_not_less (h : ask .less v w = .ok false) : AtMost w v := by
  obtain ⟨g, k, rfl, rfl, hanswer⟩ := ask_eq_ok h
  exact atMost_graded.mpr (Nat.compare_ne_lt.mp (by simpa [Comparison.answer] using hanswer))

/-- Asking whether one verdict is greater is asking whether the other one is less. -/
lemma ask_less_of_greater {b : Bool} (h : ask .greater v w = .ok b) : ask .less w v = .ok b := by
  obtain ⟨g, k, rfl, rfl, hanswer⟩ := ask_eq_ok h
  rw [ask_graded, ← hanswer, ← Nat.compare_swap]
  generalize compare g.rank k.rank = order
  cases order <;> rfl

lemma refuses_of_ask {question : Comparison} {e : Fault} (hv : v ∈ vs) (hw : w ∈ vs)
    (h : ask question v w = .error e) : Refuses question vs e := by
  by_cases hungraded : v.isGraded = false ∨ w.isGraded = false
  · rw [ask_refused question hungraded] at h
    cases h
    exact ⟨rfl, hungraded.elim (hasUngraded_of_mem hv) (hasUngraded_of_mem hw)⟩
  · cases v <;> cases w <;> simp_all [ask, isGraded, grade?]

lemma ledTo_less : LedTo (ask .less) (· ∈ vs) (Refuses .less vs) AtMost where
  trans _ _ _ := AtMost.trans
  yes := atMost_of_less
  no := atMost_of_not_less
  refused := refuses_of_ask

lemma ledTo_greater :
    LedTo (ask .greater) (· ∈ vs) (Refuses .greater vs) fun v w => AtMost w v where
  trans _ _ _ huv hvw := hvw.trans huv
  yes h := atMost_of_less (ask_less_of_greater h)
  no h := atMost_of_not_less (ask_less_of_greater h)
  refused := refuses_of_ask

/-! ### The folds -/

section Keeping

variable {question : Comparison} {P : Verdict → Prop} {E : Fault → Prop}
  {R : Verdict → Verdict → Prop} {kept : Verdict} (h : LedTo (ask question) P E R)
  (hrefl : ∀ v w, R v w → R v v ∧ R w w)

include h hrefl

/-- What is kept wins against both. -/
lemma keep_meets (hkept : P kept) (hv : P v) :
    Meets (fun r => r ∈ [kept, v] ∧ R r kept ∧ R r v) E (keep question kept v) := by
  cases hanswer : ask question v kept with
  | error e =>
      rw [keep, hanswer]
      exact h.refused hv hkept hanswer
  | ok answer =>
      rw [keep, hanswer]
      cases answer with
      | true =>
          have hwins : R v kept := h.yes hanswer
          exact ⟨by simp, hwins, (hrefl v kept hwins).1⟩
      | false =>
          have hwins : R kept v := h.no hanswer
          exact ⟨by simp, (hrefl kept v hwins).1, hwins⟩

/-- **What is kept in the end** is one of the verdicts, and wins against all of them, if there are
several. -/
lemma foldlM_keep_meets (hP : ∀ v ∈ kept :: vs, P v) :
    Meets (fun r => r ∈ kept :: vs ∧ (vs ≠ [] → ∀ v ∈ kept :: vs, R r v)) E
      (vs.foldlM (keep question) kept) := by
  induction vs generalizing kept with
  | nil => exact ⟨by simp, by simp⟩
  | cons v rest ih =>
      obtain ⟨hkept, hv, hrest⟩ : P kept ∧ P v ∧ ∀ w ∈ rest, P w := by simpa using hP
      rw [List.foldlM_cons]
      refine (keep_meets h hrefl hkept hv).bind fun best ⟨hbest, hoverKept, hoverNext⟩ => ?_
      have hPbest : ∀ w ∈ best :: rest, P w := by
        rcases (by simpa using hbest : best = kept ∨ best = v) with rfl | rfl <;>
          simpa [hkept, hv] using hrest
      refine (ih hPbest).imp fun r ⟨hr, hwins⟩ => ⟨?_, fun _ => ?_⟩
      · rcases List.mem_cons.mp hr with rfl | hr
        · exact List.mem_append_left rest hbest
        · simp [hr]
      -- against what the others win, the best of them wins
      have hover : R r best := by
        cases rest with
        | nil =>
            obtain rfl := List.mem_singleton.mp hr
            exact (hrefl _ _ hoverKept).1
        | cons w rest => exact hwins (by simp) best (by simp)
      refine List.forall_mem_cons.mpr ⟨h.trans r best kept hover hoverKept, ?_⟩
      refine List.forall_mem_cons.mpr ⟨h.trans r best v hover hoverNext, fun w hw => ?_⟩
      exact hwins (List.ne_nil_of_mem hw) w (List.mem_cons_of_mem _ hw)

end Keeping

lemma least_meets (hlength : 2 ≤ vs.length) :
    Meets (fun v => v ∈ vs ∧ ∀ w ∈ vs, AtMost v w) (Refuses .less vs) (least vs) := by
  match vs, hlength with
  | first :: second :: rest, _ =>
      have hkept := foldlM_keep_meets ledTo_less (fun _ _ h => ⟨h.refl_left, h.refl_right⟩)
        fun v (hv : v ∈ first :: second :: rest) => hv
      exact hkept.imp fun v ⟨hv, hwins⟩ => ⟨hv, hwins (by simp)⟩

lemma greatest_meets (hlength : 2 ≤ vs.length) :
    Meets (fun v => v ∈ vs ∧ ∀ w ∈ vs, AtMost w v) (Refuses .greater vs) (greatest vs) := by
  match vs, hlength with
  | first :: second :: rest, _ =>
      have hkept := foldlM_keep_meets ledTo_greater (fun _ _ h => ⟨h.refl_right, h.refl_left⟩)
        fun v (hv : v ∈ first :: second :: rest) => hv
      exact hkept.imp fun v ⟨hv, hwins⟩ => ⟨hv, hwins (by simp)⟩

/-- **Ascending verdicts**: those of a list in the order of the ranks. -/
def Ascending (vs ws : List Verdict) : Prop := ws.Perm vs ∧ ws.Pairwise AtMost

lemma sort_meets : Meets (Ascending vs) (Refuses .less vs) (Sorting.sort (ask .less) vs) :=
  Sorting.sort_meets ledTo_less fun _ hv => hv

lemma sorted_meets : Meets (Ascending vs) (Refuses .less vs) (sorted vs) :=
  Sorting.sortByPlacing_meets ledTo_less fun _ hv => hv

/-! ### What is refused -/

/-- A fold that is refused only because of a verdict outside the scale, and answered only if there
is none. -/
lemma refused_iff {α : Type} {Q : α → Prop} {question : Comparison} {x : Except Fault α}
    (hx : Meets Q (Refuses question vs) x) (hQ : ∀ a, Q a → ¬HasUngraded vs) :
    (x = .error (refusal question) ↔ HasUngraded vs) ∧
      (¬HasUngraded vs → ∃ a, x = .ok a ∧ Q a) := by
  cases x with
  | ok a =>
      refine ⟨⟨fun h => ?_, fun h => (hQ a hx h).elim⟩, fun _ => ⟨a, rfl, hx⟩⟩
      cases h
  | error e =>
      obtain ⟨rfl, hungraded⟩ := hx
      exact ⟨⟨fun _ => hungraded, fun _ => rfl⟩, fun h => (h hungraded).elim⟩

/-- Of at least two ascending verdicts, each one is graded. -/
lemma Ascending.not_hasUngraded (h : Ascending vs ws) (hlength : 2 ≤ vs.length) :
    ¬HasUngraded vs := by
  refine not_hasUngraded_of_atMost fun v hv => ?_
  have hmem := h.1.mem_iff.mpr hv
  match ws, h with
  | [], ⟨hperm, _⟩ => simp [← hperm.length_eq] at hlength
  | [w], ⟨hperm, _⟩ => simp [← hperm.length_eq] at hlength
  | first :: second :: rest, ⟨_, hpairwise⟩ =>
      obtain ⟨hfirst, -⟩ := List.pairwise_cons.mp hpairwise
      rcases List.mem_cons.mp hmem with rfl | hothers
      · exact (hfirst second (by simp)).refl_left
      · exact (hfirst v hothers).refl_right

/-- Verdicts are ascending in one order only. -/
lemma Ascending.unique {ws' : List Verdict} (h : Ascending vs ws) (h' : Ascending vs ws') :
    ws = ws' :=
  (h.1.trans h'.1.symm).eq_of_pairwise (fun _ _ _ _ => AtMost.antisymm) h.2 h'.2

/-- **All ways to sort verdicts agree**, also on what they refuse. -/
theorem sorted_eq_sort (vs : List Verdict) : sorted vs = Sorting.sort (ask .less) vs := by
  by_cases hlength : 2 ≤ vs.length
  · have hiff {x} (hx : Meets (Ascending vs) (Refuses .less vs) x) :=
      refused_iff hx fun _ h => h.not_hasUngraded hlength
    by_cases hungraded : HasUngraded vs
    · rw [(hiff sorted_meets).1.mpr hungraded, (hiff sort_meets).1.mpr hungraded]
    · obtain ⟨ws, hws, hsorted⟩ := (hiff sorted_meets).2 hungraded
      obtain ⟨ws', hws', hsort⟩ := (hiff sort_meets).2 hungraded
      rw [hws, hws', hsorted.unique hsort]
  · exact (Sorting.sort_eq_sortByPlacing _ (by omega)).symm

/-- **Folds notice every verdict outside the scale**, wherever it stands among at least two. The
least, the greatest and the sorted verdicts are refused if there is one, and only then. -/
theorem folds_refuse_ungraded {vs : List Verdict} (hlength : 2 ≤ vs.length) :
    (least vs = .error (refusal .less) ↔ HasUngraded vs) ∧
      (greatest vs = .error (refusal .greater) ↔ HasUngraded vs) ∧
      (sorted vs = .error (refusal .less) ↔ HasUngraded vs) ∧
      sorted vs = Sorting.sort (ask .less) vs ∧
      (¬HasUngraded vs →
        (∃ v ∈ vs, least vs = .ok v ∧ ∀ w ∈ vs, AtMost v w) ∧
        (∃ v ∈ vs, greatest vs = .ok v ∧ ∀ w ∈ vs, AtMost w v) ∧
        ∃ ws, sorted vs = .ok ws ∧ ∀ ws', Ascending vs ws' ↔ ws' = ws) := by
  obtain ⟨hleast, hleastOk⟩ := refused_iff (least_meets hlength) fun v ⟨_, hwins⟩ =>
    not_hasUngraded_of_atMost fun w hw => (hwins w hw).refl_right
  obtain ⟨hgreatest, hgreatestOk⟩ := refused_iff (greatest_meets hlength) fun v ⟨_, hwins⟩ =>
    not_hasUngraded_of_atMost fun w hw => (hwins w hw).refl_left
  obtain ⟨hsorted, hsortedOk⟩ := refused_iff sorted_meets fun ws h => h.not_hasUngraded hlength
  refine ⟨hleast, hgreatest, hsorted, sorted_eq_sort vs, fun hgraded => ⟨?_, ?_, ?_⟩⟩
  · obtain ⟨v, hv, hmem, hwins⟩ := hleastOk hgraded
    exact ⟨v, hmem, hv, hwins⟩
  · obtain ⟨v, hv, hmem, hwins⟩ := hgreatestOk hgraded
    exact ⟨v, hmem, hv, hwins⟩
  · obtain ⟨ws, hws, hascending⟩ := hsortedOk hgraded
    exact ⟨ws, hws, fun ws' => ⟨fun h => h.unique hascending, fun h => h ▸ hascending⟩⟩

/-- The verdict outside the scale comes last, behind the least one and the greatest one. -/
theorem folds_refuse_ungraded_sample :
    2 ≤ [graded .failed, graded .fulfilled, ignored].length ∧
      least [graded .failed, graded .fulfilled, ignored] = .error (refusal .less) ∧
      greatest [graded .failed, graded .fulfilled, ignored] = .error (refusal .greater) ∧
      sorted [graded .failed, graded .fulfilled, ignored] = .error (refusal .less) ∧
      2 ≤ [graded .fulfilled, graded .failed].length ∧
      sorted [graded .fulfilled, graded .failed] = .ok [graded .failed, graded .fulfilled] := by
  have hmixed : 2 ≤ [graded .failed, graded .fulfilled, ignored].length := by decide
  have hpair : 2 ≤ [graded .fulfilled, graded .failed].length := by decide
  obtain ⟨hleast, hgreatest, hsorted, -, -⟩ := folds_refuse_ungraded hmixed
  obtain ⟨-, -, -, -, hanswered⟩ := folds_refuse_ungraded hpair
  have hungraded : HasUngraded [graded .failed, graded .fulfilled, ignored] := .inl (by decide)
  refine ⟨hmixed, hleast.mpr hungraded, hgreatest.mpr hungraded, hsorted.mpr hungraded, hpair, ?_⟩
  obtain ⟨-, -, ws, hws, hascending⟩ := hanswered (by simp [HasUngraded])
  have hpairwise : Ascending [graded .fulfilled, graded .failed]
      [graded .failed, graded .fulfilled] := by
    refine ⟨List.Perm.swap _ _ _, ?_⟩
    simp [Grade.rank]
  rwa [(hascending _).mp hpairwise]

end Applicability.Verdict
