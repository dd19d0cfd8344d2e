/-
Joining: what merging two ascending runs comes to when a comparison may refuse.

* `Mergeable`: two runs that are being merged, and what was taken from them so far. Both are
  ascending behind what was taken. It is kept when a stretch of one run and the next element of the
  other one are taken (`Mergeable.takeSecond`), whichever run that is (`Mergeable.symm`);
* `merge_meets`: merging from one end. The induction is that of the merging itself;
* `Overlapping`: the parts of two runs that are merged, between those that are in place already;
* `mergeRuns_meets`: merging two runs.
-/
import Applicability.Proofs.Placing

namespace Applicability.Sorting

variable {ε α : Type} {less : α → α → Except ε Bool} {P : α → Prop} {E : ε → Prop}
  {le : α → α → Prop} {forward : Bool} {taken first second run other : List α}

/-! ### Two runs that are being merged -/

/-- The last element of a run belongs behind all elements of the other one. -/
def Tops (R : α → α → Prop) (run other : List α) : Prop :=
  ∀ x ∈ run.getLast?, ∀ y ∈ other, R y x

/-- **Two runs that are being merged**, seen from the end at which the work is done, behind the
elements that are taken already, the last one first. The run that will be used up ends with the last
element of `whole`, which holds all of them. -/
structure Mergeable (R : α → α → Prop) (forward : Bool) (whole taken first second : List α) :
    Prop where
  perm : (taken ++ (first ++ second)).Perm whole
  onFirst : (taken.reverse ++ first).Pairwise R
  onSecond : (taken.reverse ++ second).Pairwise R
  tops : if forward then Tops R first second else Tops R second first

/-- What is left over of two runs comes behind whatever both come behind. -/
lemma pairwise_leftOver {R : α → α → Prop} {before rest : List α}
    (hrun : (before ++ run).Pairwise R) (hother : (before ++ other).Pairwise R)
    (htops : Tops R run other) (h : leftOver run other = some rest) :
    (before ++ rest).Pairwise R := by
  unfold leftOver at h
  split at h
  · cases h
    exact hother
  · next x other =>
    cases h
    rw [← List.append_assoc]
    refine List.pairwise_append.mpr ⟨hother, List.pairwise_singleton _ _, fun y hy z hz => ?_⟩
    obtain rfl := List.mem_singleton.mp hz
    rcases List.mem_append.mp hy with hy | hy
    · exact (List.pairwise_append.mp hrun).2.2 y hy z hz
    · exact htops z (by simp) y hy
  · cases h
    exact hrun
  · cases h

lemma ended_of_nil (h : first = [] ∨ second = []) : ended forward first second ≠ none := by
  have hleft : ∀ {run other : List α}, run = [] ∨ other = [] → leftOver run other ≠ none := by
    rintro run other (rfl | rfl)
    · simp [leftOver]
    · rcases run with _ | ⟨x, _ | ⟨y, rest⟩⟩ <;> simp [leftOver]
  cases forward with
  | true => exact hleft h
  | false => exact hleft h.symm

namespace Mergeable

variable {R : α → α → Prop} {whole : List α}

lemma symm (h : Mergeable R forward whole taken first second) :
    Mergeable R (!forward) whole taken second first where
  perm := (List.perm_append_comm.append_left taken).trans h.perm
  onFirst := h.onSecond
  onSecond := h.onFirst
  tops := by
    cases forward with
    | true => exact h.tops
    | false => exact h.tops

/-- What is left over when one run is used up comes behind what was taken, and is all there is. -/
lemma ended {rest : List α} (h : Mergeable R forward whole taken first second)
    (hrest : ended forward first second = some rest) :
    (taken.reverse ++ rest).Perm whole ∧ (taken.reverse ++ rest).Pairwise R := by
  refine ⟨((List.reverse_perm taken).append (ended_perm hrest)).trans h.perm, ?_⟩
  have htops := h.tops
  cases forward with
  | true => exact pairwise_leftOver h.onFirst h.onSecond htops hrest
  | false => exact pairwise_leftOver h.onSecond h.onFirst htops hrest

/-- A merge starts with the first element of one of the runs. The elements of the other one come
behind it, and behind the last of them there is none of that run. -/
lemma start (hfirst : first.Pairwise R) (hsecond : second.Pairwise R)
    (hhead : ∀ y ∈ second.head?, ∀ x ∈ first, R y x) (hlast : Tops R first second) :
    Mergeable R true (first ++ second) (second.take 1) first (second.drop 1) := by
  cases second with
  | nil => exact ⟨by simp, by simpa using hfirst, by simp, by simp [Tops]⟩
  | cons b bs =>
      have hperm : (b :: (first ++ bs)).Perm (first ++ b :: bs) := List.perm_middle.symm
      refine ⟨hperm, List.pairwise_cons.mpr ⟨hhead b rfl, hfirst⟩, hsecond, fun x hx y hy => ?_⟩
      exact hlast x hx y (List.mem_cons_of_mem b hy)

lemma known (h : Mergeable R forward whole taken first second) (hP : ∀ x ∈ whole, P x) :
    (∀ x ∈ first, P x) ∧ ∀ x ∈ second, P x :=
  ⟨fun x hx => hP x (h.perm.mem_iff.mp (by simp [hx])),
    fun x hx => hP x (h.perm.mem_iff.mp (by simp [hx]))⟩

lemma ascending (h : Mergeable R forward whole taken first second) :
    first.Pairwise R ∧ second.Pairwise R :=
  ⟨(List.pairwise_append.mp h.onFirst).2.1, (List.pairwise_append.mp h.onSecond).2.1⟩

lemma perm_taken (taken stretch after bs : List α) (b : α) :
    (b :: (stretch.reverse ++ taken) ++ (after ++ bs)).Perm
      (taken ++ (stretch ++ after ++ b :: bs)) := by
  have hstretch : (stretch.reverse ++ taken).Perm (taken ++ stretch) :=
    ((List.reverse_perm stretch).append_right taken).trans List.perm_append_comm
  have hothers : (stretch.reverse ++ taken ++ (after ++ bs)).Perm
      (taken ++ (stretch ++ after) ++ bs) := by
    simpa using hstretch.append_right (after ++ bs)
  have hmiddle : (b :: (taken ++ (stretch ++ after) ++ bs)).Perm
      (taken ++ (stretch ++ after) ++ b :: bs) := List.perm_middle.symm
  simpa using (hothers.cons b).trans hmiddle

/-- **A stretch of the first run and the next element of the second** may be taken if the stretch
comes before the element, and the element before the rest of the first run. -/
lemma takeSecond (htrans : ∀ a b c, R a b → R b c → R a c) {b : α} {bs : List α} (n : Nat)
    (h : Mergeable R forward whole taken first (b :: bs))
    (hparts : (∀ x ∈ first.take n, R x b) ∧ ∀ x ∈ first.drop n, R b x) :
    Mergeable R forward whole (b :: ((first.take n).reverse ++ taken)) (first.drop n) bs := by
  obtain ⟨hbefore, hbehind⟩ := hparts
  have hwhole : first.take n ++ first.drop n = first := List.take_append_drop n first
  generalize first.take n = stretch at hbefore hwhole ⊢
  generalize first.drop n = after at hbehind hwhole ⊢
  subst hwhole
  have hfirst : ((taken.reverse ++ stretch) ++ after).Pairwise R := by
    rw [List.append_assoc]
    exact h.onFirst
  obtain ⟨-, hsecond, hacross⟩ := List.pairwise_append.mp h.onSecond
  have hreverse (xs : List α) : (b :: (stretch.reverse ++ taken)).reverse ++ xs =
      taken.reverse ++ stretch ++ b :: xs := by
    simp
  refine ⟨(perm_taken taken stretch after bs b).trans h.perm, ?_, ?_, ?_⟩
  · rw [hreverse]
    refine pairwise_put hfirst (fun y hy => ?_) hbehind
    rcases List.mem_append.mp hy with hy | hy
    · exact hacross y hy b (by simp)
    · exact hbefore y hy
  · rw [hreverse]
    refine List.pairwise_append.mpr ⟨(List.pairwise_append.mp hfirst).1, hsecond, ?_⟩
    intro y hy z hz
    rcases List.mem_append.mp hy with hy | hy
    · exact hacross y hy z hz
    · exact forall_le_of_head? htrans hsecond (by simpa using hbefore y hy) z hz
  · have htops := h.tops
    cases forward with
    | true =>
        intro x hx y hy
        exact htops x (by rw [List.getLast?_append, hx]; rfl) y (by simp [hy])
    | false =>
        intro x hx y hy
        exact htops x (by rw [List.getLast?_cons, hx]; rfl) y (by simp [hy])

/-- **A stretch of the second run and the next element of the first** may be taken likewise. -/
lemma takeFirst (htrans : ∀ a b c, R a b → R b c → R a c) {a : α} {as : List α} (n : Nat)
    (h : Mergeable R forward whole taken (a :: as) second)
    (hparts : (∀ x ∈ second.take n, R x a) ∧ ∀ x ∈ second.drop n, R a x) :
    Mergeable R forward whole (a :: ((second.take n).reverse ++ taken)) as (second.drop n) := by
  simpa using (h.symm.takeSecond htrans n hparts).symm

end Mergeable

/-! ### Merging -/

/-- Looking for a stretch in an ascending list finds what comes before an element, if that is what
the test is about. -/
lemma gallop_parts {R : α → α → Prop} {test : α → Except ε Bool} {xs : List α} {c : α}
    (htrans : ∀ a b c, R a b → R b c → R a c) (hxs : xs.Pairwise R) (upper : Bool)
    (hrefused : ∀ x ∈ xs, ∀ e, test x = .error e → E e) (hyes : ∀ x, test x = .ok true → R x c)
    (hno : ∀ x, test x = .ok false → R c x) :
    Meets (fun n => (∀ x ∈ xs.take n, R x c) ∧ ∀ x ∈ xs.drop n, R c x) E (gallop test upper xs) :=
  (gallop_meets upper hrefused).imp fun _ hn => parts_of_place htrans hxs hn hyes hno

/-- **The parts of two runs in which they overlap**, between those that are in place already: the
first element of the second run belongs before `overlap`, and the last one of the first run behind
`within`. -/
structure Overlapping (le : α → α → Prop) (low overlap within high : List α) : Prop where
  onFirst : (low ++ overlap).Pairwise le
  onSecond : (within ++ high).Pairwise le
  lows : ∀ x ∈ low, ∀ y ∈ within ++ high, le x y
  highs : ∀ x ∈ overlap, ∀ y ∈ high, le x y
  head : ∀ y ∈ within.head?, ∀ x ∈ overlap, le y x
  last : Tops le overlap within

/-- What is merged may stand between what is in place already. -/
lemma Overlapping.put {low overlap within high merged : List α}
    (h : Overlapping le low overlap within high) (hperm : merged.Perm (overlap ++ within))
    (hmerged : merged.Pairwise le) :
    (low ++ merged ++ high).Perm (low ++ overlap ++ (within ++ high)) ∧
      (low ++ merged ++ high).Pairwise le := by
  obtain ⟨hlows, -, hfirsts⟩ := List.pairwise_append.mp h.onFirst
  obtain ⟨-, hhighs, hseconds⟩ := List.pairwise_append.mp h.onSecond
  constructor
  · have hinner : (low ++ merged ++ high).Perm (low ++ (overlap ++ within) ++ high) :=
      (hperm.append_left low).append_right high
    simpa using hinner
  · refine List.pairwise_append.mpr ⟨List.pairwise_append.mpr ⟨hlows, hmerged, ?_⟩, hhighs, ?_⟩
    · intro x hx y hy
      rcases List.mem_append.mp (hperm.mem_iff.mp hy) with hy | hy
      · exact hfirsts x hx y hy
      · exact h.lows x hx y (List.mem_append_left _ hy)
    · intro x hx y hy
      rcases List.mem_append.mp hx with hx | hx
      · exact h.lows x hx y (List.mem_append_right _ hy)
      rcases List.mem_append.mp (hperm.mem_iff.mp hx) with hx | hx
      · exact h.highs x hx y hy
      · exact hseconds x hx y hy

/-- The parts of two runs, when a place is known in either of them: that of the first element of
the second run, and that of the last one of the first. -/
lemma Overlapping.of_places (htrans : ∀ a b c, le a b → le b c → le a c)
    {low overlap within high : List α} {a b : α} (hfirst : (low ++ overlap).Pairwise le)
    (hsecond : (within ++ high).Pairwise le) (ha : overlap.getLast? = some a)
    (hb : (within ++ high).head? = some b) (hlow : ∀ x ∈ low, le x b)
    (hoverlap : ∀ x ∈ overlap, le b x) (hwithin : ∀ x ∈ within, le x a)
    (hhigh : ∀ x ∈ high, le a x) : Overlapping le low overlap within high where
  onFirst := hfirst
  onSecond := hsecond
  lows x hx := forall_le_of_head? htrans hsecond (by simpa [hb] using hlow x hx)
  highs x hx y hy := forall_le_of_getLast? htrans (List.pairwise_append.mp hfirst).2.1
    (by simpa [ha] using hhigh y hy) x hx
  head y hy x hx := by
    rw [List.head?_append_of_ne_nil within (by rintro rfl; cases hy)] at hb
    obtain rfl : b = y := Option.some.inj (hb.symm.trans hy)
    exact hoverlap x hx
  last := by simpa [Tops, ha] using hwithin

section Merging

variable (h : LedTo less P E le)

include h

/-- The stretch of the first run that comes before an element of the second. -/
lemma stretch_meets (forward : Bool) {b : α} (hfirst : first.Pairwise (seen forward le))
    (hP : ∀ x ∈ first, P x) (hb : P b) :
    Meets (fun n => (∀ x ∈ first.take n, seen forward le x b) ∧
      ∀ x ∈ first.drop n, seen forward le b x) E
      (gallop (fun x => (· != forward) <$> less b x) forward first) := by
  refine gallop_parts (h.seen_trans forward) hfirst forward
    (fun x hx e he => h.refused hb (hP x hx) (map_answer_eq_error_iff.mp he)) ?_ ?_
  · intro x hx
    obtain ⟨answer, hanswer, hne⟩ := map_answer_eq_ok_iff.mp hx
    exact h.seen_of_ne hanswer (by simpa using hne)
  · intro x hx
    obtain ⟨answer, hanswer, heq⟩ := map_answer_eq_ok_iff.mp hx
    exact h.seen_of_eq hanswer (by simpa using heq)

/-- The stretch of the second run that comes before an element of the first. -/
lemma counterStretch_meets (forward : Bool) {a : α} (hsecond : second.Pairwise (seen forward le))
    (hP : ∀ x ∈ second, P x) (ha : P a) :
    Meets (fun n => (∀ x ∈ second.take n, seen forward le x a) ∧
      ∀ x ∈ second.drop n, seen forward le a x) E
      (gallop (fun x => (· == forward) <$> less x a) forward second) := by
  refine gallop_parts (h.seen_trans forward) hsecond forward
    (fun x hx e he => h.refused (hP x hx) ha (map_answer_eq_error_iff.mp he)) ?_ ?_
  · intro x hx
    obtain ⟨answer, hanswer, heq⟩ := map_answer_eq_ok_iff.mp hx
    exact h.seen_of_eq hanswer (by simpa using heq)
  · intro x hx
    obtain ⟨answer, hanswer, hne⟩ := map_answer_eq_ok_iff.mp hx
    exact h.seen_of_ne hanswer (by simpa using hne)

/-- A stretch that is found in the first run is taken, with the element that ends it. -/
lemma takeStretch_meets {whole bs : List α} {b : α} (hP : ∀ x ∈ whole, P x)
    (hm : Mergeable (seen forward le) forward whole taken first (b :: bs)) :
    Meets (fun n => Mergeable (seen forward le) forward whole
      (b :: ((first.take n).reverse ++ taken)) (first.drop n) bs) E
      (gallop (fun x => (· != forward) <$> less b x) forward first) := by
  obtain ⟨hfirst, hsecond⟩ := hm.known hP
  exact (stretch_meets h forward hm.ascending.1 hfirst (hsecond b (by simp))).imp
    fun n hparts => hm.takeSecond (h.seen_trans forward) n hparts

/-- A stretch that is found in the second run is taken likewise. -/
lemma takeCounterStretch_meets {whole as : List α} {a : α} (hP : ∀ x ∈ whole, P x)
    (hm : Mergeable (seen forward le) forward whole taken (a :: as) second) :
    Meets (fun n => Mergeable (seen forward le) forward whole
      (a :: ((second.take n).reverse ++ taken)) as (second.drop n)) E
      (gallop (fun x => (· == forward) <$> less x a) forward second) := by
  obtain ⟨hfirst, hsecond⟩ := hm.known hP
  exact (counterStretch_meets h forward hm.ascending.2 hsecond (hfirst a (by simp))).imp
    fun n hparts => hm.takeFirst (h.seen_trans forward) n hparts

/-- **Merging from one end** loses no element and is ascending, seen from that end. -/
lemma merge_meets {whole : List α} (hP : ∀ x ∈ whole, P x) (patience : Nat) (phase : Phase)
    (hm : Mergeable (seen forward le) forward whole taken first second) :
    Meets (fun r => r.1.Perm whole ∧ r.1.Pairwise (seen forward le)) E
      (merge less forward patience phase taken first second) := by
  have htrans := h.seen_trans forward
  -- elements are taken, a comparison is refused, or a run is used up; the last case does not arise
  fun_induction merge less forward patience phase taken first second with
  | case1 patience phase taken first second rest hrest => exact hm.ended hrest
  | case2 patience taken a as b bs firsts seconds e he =>
      obtain ⟨hfirst, hsecond⟩ := hm.known hP
      exact h.refused (hsecond b (by simp)) (hfirst a (by simp)) he
  | case3 patience taken a as b bs firsts seconds answer hanswer heq _ ih =>
      have hnext : seen forward le b a := h.seen_of_eq hanswer (by simpa using heq)
      refine ih (hm.takeSecond htrans 0 ⟨by simp, ?_⟩)
      exact forall_le_of_head? htrans hm.ascending.1 (by simpa using hnext)
  | case4 patience taken a as b bs firsts seconds answer hanswer hne _ ih =>
      have hnext : seen forward le a b := h.seen_of_ne hanswer (by simpa using hne)
      refine ih (hm.takeFirst htrans 0 ⟨by simp, ?_⟩)
      exact forall_le_of_head? htrans hm.ascending.2 (by simpa using hnext)
  | case5 patience taken a as b bs e he => exact (takeStretch_meets h hP hm).of_eq_error he
  | case6 patience taken a as b bs n hn _ ih => exact ih ((takeStretch_meets h hP hm).of_eq_ok hn)
  | case7 patience taken a as b bs firsts e he =>
      exact (takeCounterStretch_meets h hP hm).of_eq_error he
  | case8 patience taken a as b bs firsts n hn taken' second' rest hrest =>
      exact ((takeCounterStretch_meets h hP hm).of_eq_ok hn).ended hrest
  | case9 patience taken a as b bs firsts n hn taken' second' _ _ _ ih =>
      exact ih ((takeCounterStretch_meets h hP hm).of_eq_ok hn)
  | case10 patience taken a as b bs firsts n hn taken' second' _ _ _ ih =>
      exact ih ((takeCounterStretch_meets h hP hm).of_eq_ok hn)
  | case11 patience phase taken first second hended hempty =>
      match first, second with
      | [], _ => exact (ended_of_nil (.inl rfl) hended).elim
      | _ :: _, [] => exact (ended_of_nil (.inr rfl) hended).elim
      | a :: as, b :: bs => exact (hempty a as b bs rfl rfl).elim

/-- **Merging the overlapping parts of two runs**, from the end at which less is left to do. -/
lemma mergeOverlap_meets (patience : Nat) {low high : List α}
    (ho : Overlapping le low first second high) (hP : ∀ x ∈ first ++ second, P x) :
    Meets (fun r => r.1.Perm (first ++ second) ∧ r.1.Pairwise le) E
      (mergeOverlap less patience first second) := by
  have hfirst := (List.pairwise_append.mp ho.onFirst).2.1
  have hsecond := (List.pairwise_append.mp ho.onSecond).1
  rw [mergeOverlap]
  split
  · exact merge_meets h hP patience _ (.start hfirst hsecond ho.head ho.last)
  · -- seen from the other end, the runs are reversed and change places
    have hstart : Mergeable (seen false le) true (second.reverse ++ first.reverse)
        (first.reverse.take 1) second.reverse (first.reverse.drop 1) := by
      refine .start (pairwise_seen_false.mpr (by simpa)) (pairwise_seen_false.mpr (by simpa)) ?_ ?_
      · intro y hy x hx
        exact ho.last y (by simpa using hy) x (List.mem_reverse.mp hx)
      · intro y hy x hx
        exact ho.head y (by simpa using hy) x (List.mem_reverse.mp hx)
    have hP' : ∀ x ∈ second.reverse ++ first.reverse, P x := by
      intro x hx
      exact hP x (by simpa [or_comm] using hx)
    refine (merge_meets h hP' patience _ hstart.symm).bind fun r ⟨hperm, hr⟩ => ?_
    refine ⟨(List.reverse_perm _).trans (hperm.trans ?_), pairwise_seen_false.mp hr⟩
    rw [← List.reverse_append]
    exact List.reverse_perm _

/-- The place of an element in the first run: what comes before it is in place. -/
lemma lows_meets {b : α} (hfirst : first.Pairwise le) (hP : ∀ x ∈ first, P x) (hb : P b) :
    Meets (fun n => (∀ x ∈ first.take n, le x b) ∧ ∀ x ∈ first.drop n, le b x) E
      (gallop (fun x => (!·) <$> less b x) true first) := by
  simpa [seen] using stretch_meets h true hfirst hP hb

/-- The place of an element in the second run, looked for from its end: what comes behind it is in
place. -/
lemma highs_meets {a : α} (hsecond : second.Pairwise le) (hP : ∀ x ∈ second, P x) (ha : P a) :
    Meets (fun n => (∀ x ∈ second.drop (second.length - n), le a x) ∧
      ∀ x ∈ second.take (second.length - n), le x a) E
      (gallop (fun x => (!·) <$> less x a) false second.reverse) := by
  have hseen : second.reverse.Pairwise (seen false le) :=
    pairwise_seen_false.mpr (by rwa [List.reverse_reverse])
  simpa [seen, List.take_reverse, List.drop_reverse] using
    counterStretch_meets h false hseen (fun x hx => hP x (List.mem_reverse.mp hx)) ha

/-- **Merging two runs** loses no element and is ascending. -/
lemma mergeRuns_meets (hP : ∀ x ∈ first ++ second, P x) (patience : Nat)
    (hfirst : first.Pairwise le) (hsecond : second.Pairwise le) :
    Meets (fun r => r.1.Perm (first ++ second) ∧ r.1.Pairwise le) E
      (mergeRuns less patience first second) := by
  obtain ⟨hPfirst, hPsecond⟩ := List.forall_mem_append.mp hP
  cases second with
  | nil => exact ⟨by simp, hfirst⟩
  | cons b bs =>
      refine (lows_meets h hfirst hPfirst (hPsecond b (by simp))).bind
        fun before ⟨hlow, hoverlap⟩ => ?_
      have hfirsts : first.take before ++ first.drop before = first := List.take_append_drop _ _
      have hb : (b :: bs).head? = some b := rfl
      generalize b :: bs = second at hPsecond hsecond hb ⊢
      generalize first.take before = low at hlow hfirsts ⊢
      generalize first.drop before = overlap at hoverlap hfirsts ⊢
      subst hfirsts
      cases ha : overlap.getLast? with
      | none =>
          -- all of the first run comes before the second one
          obtain rfl := List.getLast?_eq_none_iff.mp ha
          rw [List.append_nil] at hfirst ⊢
          refine ⟨.refl _, List.pairwise_append.mpr ⟨hfirst, hsecond, fun x hx => ?_⟩⟩
          exact forall_le_of_head? h.trans hsecond (by simpa [hb] using hlow x hx)
      | some a =>
          refine (highs_meets h hsecond hPsecond
            (hPfirst a (by simp [List.mem_of_getLast? ha]))).bind fun after ⟨hhigh, hwithin⟩ => ?_
          change Meets _ E (mergeOverlap less patience overlap
            (second.take (second.length - after)) >>= _)
          have hseconds : second.take (second.length - after) ++
              second.drop (second.length - after) = second := List.take_append_drop _ _
          generalize second.take (second.length - after) = within at hwithin hseconds ⊢
          generalize second.drop (second.length - after) = high at hhigh hseconds ⊢
          subst hseconds
          have ho : Overlapping le low overlap within high :=
            .of_places h.trans hfirst hsecond ha hb hlow hoverlap hwithin hhigh
          have hPoverlap : ∀ x ∈ overlap ++ within, P x := List.forall_mem_append.mpr
            ⟨fun x hx => hPfirst x (by simp [hx]), fun x hx => hPsecond x (by simp [hx])⟩
          exact (mergeOverlap_meets h patience ho hPoverlap).bind fun r ⟨hperm, hr⟩ =>
            ho.put hperm hr

end Merging

end Applicability.Sorting
