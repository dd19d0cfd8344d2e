/-
Placing: what the steps of a sort come to when a comparison may refuse.

A step either has an answer or passes on the refusal of a comparison. Of the order of the elements
nothing is known but what the answers say, so that a list is called ascending by any transitive
relation to which they lead.

* `Meets`: a computation has an answer with a property or an error of some kind. It is put together
  from parts (`Meets.bind`, `Meets.foldlM`);
* `LedTo`: a relation to which the answers of a comparison lead;
* `Passes`, `Stops`: a place in a list as far as a test tells, right before it and right behind;
  `halve_meets` finds one. The induction is that of the halving, which keeps it between two places;
* `leadingRun_meets`, `insert_meets`: the leading run, and an element that is placed;
* `sortByPlacing_meets`: the sort of a short list.
-/
import Mathlib.Data.List.Basic
import Mathlib.Tactic.Common
import Applicability.Sorting

namespace Applicability.Sorting

variable {ε α β : Type}

/-! ### Computations that meet a specification -/

/-- **A computation meets a specification**: its answer has a property, or its error is of a certain
kind. -/
def Meets (Q : α → Prop) (E : ε → Prop) : Except ε α → Prop
  | .ok a => Q a
  | .error e => E e

namespace Meets

variable {Q : α → Prop} {R : β → Prop} {E : ε → Prop} {x : Except ε α}

lemma imp {Q' : α → Prop} (h : Meets Q E x) (hq : ∀ a, Q a → Q' a) : Meets Q' E x := by
  cases x with
  | ok a => exact hq a h
  | error e => exact h

lemma of_eq_ok {a : α} (h : Meets Q E x) (hx : x = .ok a) : Q a := by
  subst hx
  exact h

lemma of_eq_error {e : ε} (h : Meets Q E x) (hx : x = .error e) : E e := by
  subst hx
  exact h

lemma bind {f : α → Except ε β} (hx : Meets Q E x) (hf : ∀ a, Q a → Meets R E (f a)) :
    Meets R E (x >>= f) := by
  cases x with
  | ok a => exact hf a hx
  | error e => exact hx

lemma map {f : α → β} (hx : Meets Q E x) (hf : ∀ a, Q a → R (f a)) : Meets R E (f <$> x) := by
  cases x with
  | ok a => exact hf a hx
  | error e => exact hx

/-- What every step keeps holds in the end. `R` tells of the elements that are still to come. -/
lemma foldlM {f : β → α → Except ε β} {R : β → List α → Prop} {xs : List α}
    (hf : ∀ b a rest, R b (a :: rest) → Meets (R · rest) E (f b a)) {b : β} (hb : R b xs) :
    Meets (R · []) E (xs.foldlM f b) := by
  induction xs generalizing b with
  | nil => exact hb
  | cons a rest ih =>
      rw [List.foldlM_cons]
      exact (hf b a rest hb).bind fun c hc => ih hc

end Meets

lemma map_answer_eq_ok_iff {x : Except ε Bool} {f : Bool → Bool} {b : Bool} :
    f <$> x = .ok b ↔ ∃ answer, x = .ok answer ∧ f answer = b := by
  cases x <;> simp [Functor.map, Except.map]

lemma not_answer_eq_ok_iff {x : Except ε Bool} {b : Bool} :
    (!·) <$> x = .ok b ↔ x = .ok !b := by
  cases x <;> cases b <;> simp [Functor.map, Except.map]

lemma map_answer_eq_error_iff {x : Except ε Bool} {f : Bool → Bool} {e : ε} :
    f <$> x = .error e ↔ x = .error e := by
  cases x <;> simp [Functor.map, Except.map]

/-! ### Ascending lists -/

/-- **A relation to which the answers of a comparison lead.** Refusals of comparisons between
certain elements are errors of a certain kind. -/
structure LedTo (less : α → α → Except ε Bool) (P : α → Prop) (E : ε → Prop) (le : α → α → Prop) :
    Prop where
  trans (a b c : α) : le a b → le b c → le a c
  yes {a b : α} : less a b = .ok true → le a b
  no {a b : α} : less a b = .ok false → le b a
  refused {a b : α} {e : ε} : P a → P b → less a b = .error e → E e

section Ascending

variable {le : α → α → Prop} {xs : List α} {x : α}

/-- What comes after the last element of an ascending list comes after all of them. -/
lemma forall_le_of_getLast? (htrans : ∀ a b c, le a b → le b c → le a c) (hxs : xs.Pairwise le)
    (h : ∀ y ∈ xs.getLast?, le y x) : ∀ y ∈ xs, le y x := by
  induction xs with
  | nil => simp
  | cons first rest ih =>
      obtain ⟨hfirst, hrest⟩ := List.pairwise_cons.mp hxs
      cases rest with
      | nil => simpa using h
      | cons second rest =>
          have hothers : ∀ y ∈ second :: rest, le y x := ih hrest (by simpa using h)
          refine List.forall_mem_cons.mpr ⟨?_, hothers⟩
          exact htrans first second x (hfirst second (by simp)) (hothers second (by simp))

/-- What comes before the first element of an ascending list comes before all of them. -/
lemma forall_le_of_head? (htrans : ∀ a b c, le a b → le b c → le a c) (hxs : xs.Pairwise le)
    (h : ∀ y ∈ xs.head?, le x y) : ∀ y ∈ xs, le x y := by
  cases xs with
  | nil => simp
  | cons first rest =>
      have hfirst : le x first := h first (by simp)
      intro y hy
      rcases List.mem_cons.mp hy with rfl | hy
      · exact hfirst
      · exact htrans x first y hfirst ((List.pairwise_cons.mp hxs).1 y hy)

/-- An element may be put into an ascending list between what comes before and behind it. -/
lemma pairwise_put {before after : List α} (h : (before ++ after).Pairwise le)
    (hbefore : ∀ y ∈ before, le y x) (hafter : ∀ y ∈ after, le x y) :
    (before ++ x :: after).Pairwise le := by
  obtain ⟨hpre, hpost, hacross⟩ := List.pairwise_append.mp h
  refine List.pairwise_append.mpr ⟨hpre, List.pairwise_cons.mpr ⟨hafter, hpost⟩, ?_⟩
  intro y hy z hz
  rcases List.mem_cons.mp hz with rfl | hz
  · exact hbefore y hy
  · exact hacross y hy z hz

/-- The relation as it is seen from one of the ends of a list. -/
def seen (forward : Bool) (le : α → α → Prop) (a b : α) : Prop := if forward then le a b else le b a

lemma pairwise_seen_false : xs.Pairwise (seen false le) ↔ xs.reverse.Pairwise le :=
  List.pairwise_reverse.symm

end Ascending

section Steps

variable {less : α → α → Except ε Bool} {P : α → Prop} {E : ε → Prop} {le : α → α → Prop}
  {test : α → Except ε Bool} {xs : List α}

lemma LedTo.seen_trans (h : LedTo less P E le) (forward : Bool) (a b c : α)
    (hab : seen forward le a b) (hbc : seen forward le b c) : seen forward le a c := by
  cases forward with
  | true => exact h.trans a b c hab hbc
  | false => exact h.trans c b a hbc hab

/-- An answer in the direction that is asked for. -/
lemma LedTo.seen_of_eq (h : LedTo less P E le) {forward answer : Bool} {a b : α}
    (hanswer : less b a = .ok answer) (heq : answer = forward) : seen forward le b a := by
  subst heq
  cases answer with
  | true => exact h.yes hanswer
  | false => exact h.no hanswer

/-- An answer in the other direction. -/
lemma LedTo.seen_of_ne (h : LedTo less P E le) {forward answer : Bool} {a b : α}
    (hanswer : less b a = .ok answer) (hne : answer ≠ forward) : seen forward le a b := by
  cases forward with
  | true => exact h.no (by rwa [Bool.eq_false_iff.mpr hne] at hanswer)
  | false => exact h.yes (by rwa [(Bool.not_eq_false _).mp hne] at hanswer)

/-! ### Looking for a place -/

/-- The element right before a place passes a test. -/
def Passes (test : α → Except ε Bool) (xs : List α) (n : Nat) : Prop :=
  ∀ x ∈ (xs.take n).getLast?, test x = .ok true

/-- The element right behind a place does not pass a test. -/
def Stops (test : α → Except ε Bool) (xs : List α) (n : Nat) : Prop :=
  ∀ x ∈ (xs.drop n).head?, test x = .ok false

lemma passes_zero : Passes test xs 0 := by simp [Passes]

lemma stops_length : Stops test xs xs.length := by simp [Stops]

lemma passes_succ {n : Nat} {x : α} (hx : xs[n]? = some x) (h : test x = .ok true) :
    Passes test xs (n + 1) := by
  intro y hy
  rw [List.getLast?_take] at hy
  simp [hx] at hy
  exact hy ▸ h

lemma stops_of_getElem? {n : Nat} {x : α} (hx : xs[n]? = some x) (h : test x = .ok false) :
    Stops test xs n := by
  intro y hy
  rw [List.head?_drop, hx] at hy
  cases hy
  exact h

/-- A place in an ascending list has before it what comes before an element, and behind it what
comes behind that element, if that is what the test is about. -/
lemma parts_of_place {c : α} {n : Nat} (htrans : ∀ a b c, le a b → le b c → le a c)
    (hxs : xs.Pairwise le) (hplace : Passes test xs n ∧ Stops test xs n)
    (hyes : ∀ x, test x = .ok true → le x c) (hno : ∀ x, test x = .ok false → le c x) :
    (∀ x ∈ xs.take n, le x c) ∧ ∀ x ∈ xs.drop n, le c x :=
  ⟨forall_le_of_getLast? htrans (hxs.sublist (List.take_sublist n xs)) fun x hx =>
      hyes x (hplace.1 x hx),
    forall_le_of_head? htrans (hxs.sublist (List.drop_sublist n xs)) fun x hx =>
      hno x (hplace.2 x hx)⟩

lemma middle_lt (upper : Bool) {lo hi : Nat} (h : lo < hi) :
    lo + (hi - lo - if upper then 0 else 1) / 2 < hi := by
  split <;> omega

/-- **Halving finds a place** between two places of which the first passes the test and the second
does not. -/
lemma halve_meets (upper : Bool) (hrefused : ∀ x ∈ xs, ∀ e, test x = .error e → E e) {lo hi : Nat}
    (hlo : Passes test xs lo) (hhi : Stops test xs hi) (hle : lo ≤ hi) (hlength : hi ≤ xs.length) :
    Meets (fun n => Passes test xs n ∧ Stops test xs n) E (halve test upper xs lo hi) := by
  fun_induction halve test upper xs lo hi with
  | case1 lo hi hlt mid hnone =>
      have hmid := middle_lt upper hlt
      rw [List.getElem?_eq_none_iff] at hnone
      omega
  | case2 lo hi hlt mid x hx e he => exact hrefused x (List.mem_of_getElem? hx) e he
  | case3 lo hi hlt mid x hx htrue ih =>
      exact ih (passes_succ hx htrue) hhi (middle_lt upper hlt) hlength
  | case4 lo hi hlt mid x hx hfalse ih =>
      have hmid : mid < hi := middle_lt upper hlt
      exact ih hlo (stops_of_getElem? hx hfalse) (Nat.le_add_right ..) (by omega)
  | case5 lo hi hnot =>
      obtain rfl : lo = hi := by omega
      exact ⟨hlo, hhi⟩

/-- Looking in strides that double finds two neighbouring places between which to halve. -/
lemma stride_meets (hrefused : ∀ x ∈ xs, ∀ e, test x = .error e → E e) {known next : Nat}
    (hknown : Passes test xs (known + 1)) (hlt : known < next) (hlength : known < xs.length) :
    Meets (fun r => Passes test xs (r.1 + 1) ∧ Stops test xs r.2 ∧ r.1 < r.2 ∧
      r.2 ≤ xs.length) E (stride test xs known next) := by
  fun_induction stride test xs known next with
  | case1 known next hnext e he => exact hrefused _ (List.getElem_mem hnext) e he
  | case2 known next hnext htrue ih =>
      exact ih (passes_succ (List.getElem?_eq_getElem hnext) htrue) (by omega) hnext
  | case3 known next hnext hfalse =>
      exact ⟨hknown, stops_of_getElem? (List.getElem?_eq_getElem hnext) hfalse, hlt,
        Nat.le_of_lt hnext⟩
  | case4 known next hend => exact ⟨hknown, stops_length, hlength, Nat.le_refl _⟩

/-- **Looking for a stretch finds its end.** -/
lemma gallop_meets (upper : Bool) (hrefused : ∀ x ∈ xs, ∀ e, test x = .error e → E e) :
    Meets (fun n => Passes test xs n ∧ Stops test xs n) E (gallop test upper xs) := by
  cases xs with
  | nil => exact ⟨passes_zero, stops_length⟩
  | cons x rest =>
      cases hx : test x with
      | error e =>
          rw [gallop, hx]
          exact hrefused x (by simp) e hx
      | ok answer =>
          rw [gallop, hx]
          cases answer with
          | false => exact ⟨passes_zero, stops_of_getElem? rfl hx⟩
          | true =>
              refine (stride_meets hrefused (passes_succ rfl hx) Nat.zero_lt_one (by simp)).bind
                fun r ⟨hpasses, hstops, hlt, hlength⟩ => ?_
              exact halve_meets upper hrefused hpasses hstops hlt hlength

/-! ### Placing -/

/-- **An element is placed** among ascending ones. -/
lemma insert_meets (h : LedTo less P E le) {sorted : List α} {x : α}
    (hP : ∀ y ∈ x :: sorted, P y) (hsorted : sorted.Pairwise le) :
    Meets (fun r => r.Perm (x :: sorted) ∧ r.Pairwise le) E (insert less sorted x) := by
  obtain ⟨hx, hothers⟩ := List.forall_mem_cons.mp hP
  have hplace : Meets _ E (halve (fun y => (!·) <$> less x y) true sorted 0 sorted.length) :=
    halve_meets true (fun y hy e he => h.refused hx (hothers y hy) (map_answer_eq_error_iff.mp he))
      passes_zero stops_length (Nat.zero_le _) (Nat.le_refl _)
  refine hplace.bind fun n hn => ⟨insertAt_perm n x sorted, ?_⟩
  obtain ⟨hbefore, hbehind⟩ := parts_of_place h.trans hsorted hn
    (fun y hy => h.no (not_answer_eq_ok_iff.mp hy)) fun y hy => h.yes (not_answer_eq_ok_iff.mp hy)
  exact pairwise_put (by rwa [List.take_append_drop]) hbefore hbehind

/-- **A run goes on in one direction**: it ascends, seen from the end where it is least. -/
lemma extendRun_meets (h : LedTo less P E le) (falling : Bool) {last : α}
    (hP : ∀ x ∈ last :: xs, P x) :
    Meets (fun r => r.1 ++ r.2 = xs ∧ (last :: r.1).Pairwise (seen (!falling) le)) E
      (extendRun less falling last xs) := by
  induction xs generalizing last with
  | nil => exact ⟨rfl, List.pairwise_singleton _ _⟩
  | cons x rest ih =>
      obtain ⟨hlast, hrest⟩ := List.forall_mem_cons.mp hP
      cases hanswer : less x last with
      | error e =>
          rw [extendRun, hanswer]
          exact h.refused (hrest x (by simp)) hlast hanswer
      | ok answer =>
          rw [extendRun, hanswer]
          change Meets _ E (if (answer == falling) = true then _ else _)
          split
          · next heq =>
            -- the run goes on with an element that comes before all that follow it
            refine (ih hrest).bind fun r hr => ?_
            obtain ⟨hparts, hrun⟩ := hr
            refine ⟨congrArg (x :: ·) hparts, ?_⟩
            have hfirst : seen (!falling) le last x :=
              h.seen_of_ne hanswer (by simp [beq_iff_eq.mp heq])
            exact List.pairwise_cons.mpr ⟨forall_le_of_head? (h.seen_trans _) hrun
              (by simpa using hfirst), hrun⟩
          · exact ⟨rfl, List.pairwise_singleton _ _⟩

/-- **The leading run** is ascending, and has an element if the list has. -/
lemma leadingRun_meets (h : LedTo less P E le) (hP : ∀ x ∈ xs, P x) :
    Meets (fun r => (r.1 ++ r.2).Perm xs ∧ r.1.Pairwise le ∧ (r.1 = [] → xs = [])) E
      (leadingRun less xs) := by
  match xs with
  | [] => exact ⟨.refl _, List.Pairwise.nil, fun _ => rfl⟩
  | [x] => exact ⟨.refl _, List.pairwise_singleton _ _, by simp⟩
  | x :: y :: rest =>
      cases hanswer : less y x with
      | error e =>
          rw [leadingRun, hanswer]
          exact h.refused (hP y (by simp)) (hP x (by simp)) hanswer
      | ok falling =>
          rw [leadingRun, hanswer]
          have hnext : ∀ z ∈ y :: rest, P z := fun z hz => hP z (List.mem_cons_of_mem _ hz)
          refine (extendRun_meets h falling hnext).bind fun r hr => ?_
          obtain ⟨hparts, hrun⟩ := hr
          have hfirst : seen (!falling) le x y := h.seen_of_ne hanswer (by simp)
          have hstart : (x :: y :: r.1).Pairwise (seen (!falling) le) :=
            List.pairwise_cons.mpr ⟨forall_le_of_head? (h.seen_trans _) hrun
              (by simpa using hfirst), hrun⟩
          have hperm : (x :: y :: r.1 ++ r.2).Perm (x :: y :: rest) := by
            simp [hparts]
          -- a falling run is ascending when it is turned round
          cases falling with
          | false => exact ⟨hperm, hstart, by simp⟩
          | true =>
              refine ⟨?_, pairwise_seen_false.mp hstart, by simp⟩
              exact ((List.reverse_perm _).append_right _).trans hperm

lemma foldlM_insert_meets (h : LedTo less P E le) {run : List α} (hP : ∀ x ∈ run ++ xs, P x)
    (hrun : run.Pairwise le) :
    Meets (fun r => r.Perm (run ++ xs) ∧ r.Pairwise le) E (xs.foldlM (insert less) run) := by
  have hfold : Meets _ E (xs.foldlM (insert less) run) :=
    .foldlM (R := fun r rest => (r ++ rest).Perm (run ++ xs) ∧ r.Pairwise le)
      (fun r x rest ⟨hperm, hr⟩ => ?_) ⟨.refl _, hrun⟩
  · exact hfold.imp fun r ⟨hperm, hr⟩ => ⟨by rwa [List.append_nil] at hperm, hr⟩
  · have hP' : ∀ y ∈ x :: r, P y := fun y hy => hP y (hperm.mem_iff.mp (by
      rcases List.mem_cons.mp hy with rfl | hy <;> simp_all))
    exact (insert_meets h hP' hr).imp fun placed ⟨hplaced, hsorted⟩ =>
      ⟨(hplaced.append_right _).trans (List.perm_middle.symm.trans hperm), hsorted⟩

/-- **The sort of a short list** is ascending and loses no element. -/
theorem sortByPlacing_meets (h : LedTo less P E le) (hP : ∀ x ∈ xs, P x) :
    Meets (fun r => r.Perm xs ∧ r.Pairwise le) E (sortByPlacing less xs) := by
  refine (leadingRun_meets h hP).bind fun r ⟨hparts, hrun, _⟩ => ?_
  exact (foldlM_insert_meets h (fun x hx => hP x (hparts.mem_iff.mp hx)) hrun).imp
    fun sorted ⟨hperm, hsorted⟩ => ⟨hperm.trans hparts, hsorted⟩

end Steps

end Applicability.Sorting
