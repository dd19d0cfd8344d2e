/-
Sorting a short list with a comparison that may refuse.

A comparison either answers or refuses, and a refusal ends the sort. Which elements meet is
therefore visible: first each element meets its left neighbour for as long as the leading run goes
on in one direction, then every further element is placed among the sorted ones by halving.

* `leadingRun`: the leading run, smallest first;
* `halve`: the number of leading elements that pass a test, by halving;
* `sortByPlacing`: the sort, smallest first;
* `leadingRun_length`: the leading run and what follows it make up the list;
* `insertAt_perm`: placing an element loses none.
-/

namespace Applicability.Sorting

variable {ε α : Type}

/-- The rest of the run that `last` belongs to, and what follows the run. A falling run goes on
as long as each element is smaller than its left neighbour, a rising one as long as none is. -/
def extendRun (less : α → α → Except ε Bool) (falling : Bool) :
    α → List α → Except ε (List α × List α)
  | _, [] => .ok ([], [])
  | last, x :: rest => do
    if (← less x last) == falling then
      let (run, after) ← extendRun less falling x rest
      return (x :: run, after)
    else
      return ([], x :: rest)

/-- The leading run of a list, smallest first, and what follows it. -/
def leadingRun (less : α → α → Except ε Bool) : List α → Except ε (List α × List α)
  | [] => .ok ([], [])
  | [x] => .ok ([x], [])
  | x :: y :: rest => do
    let falling ← less y x
    let (run, after) ← extendRun less falling y rest
    let start := x :: y :: run
    return (if falling then start.reverse else start, after)

/-- The number of leading elements that pass a test, which is at least `lo` and at most `hi`, when
all that pass it come first. Of two middle elements the test is made of the right one if `upper`
holds, else of the left one. -/
def halve (test : α → Except ε Bool) (upper : Bool) (xs : List α) (lo hi : Nat) : Except ε Nat :=
  if lo < hi then
    let mid := lo + (hi - lo - if upper then 0 else 1) / 2
    match xs[mid]? with
    | none => .ok lo
    | some x =>
      match test x with
      | .error e => .error e
      | .ok true => halve test upper xs (mid + 1) hi
      | .ok false => halve test upper xs lo mid
  else .ok lo
termination_by hi - lo
decreasing_by all_goals (split <;> omega)

/-- The list with `x` at the given place. -/
def insertAt (place : Nat) (x : α) (xs : List α) : List α := xs.take place ++ x :: xs.drop place

/-- Places `x` among sorted elements, after its equals. -/
def insert (less : α → α → Except ε Bool) (sorted : List α) (x : α) : Except ε (List α) := do
  let place ← halve (fun y => (!·) <$> less x y) true sorted 0 sorted.length
  return insertAt place x sorted

/-- Sorts, smallest first. -/
def sortByPlacing (less : α → α → Except ε Bool) (xs : List α) : Except ε (List α) := do
  let (run, after) ← leadingRun less xs
  after.foldlM (insert less) run

/-- A run and what follows it make up the list. -/
theorem extendRun_length {less : α → α → Except ε Bool} {falling : Bool} {last : α}
    {xs run after : List α} (h : extendRun less falling last xs = .ok (run, after)) :
    run.length + after.length = xs.length := by
  induction xs generalizing last run with
  | nil => cases h; rfl
  | cons x rest ih =>
    simp only [extendRun, bind, Except.bind] at h
    split at h
    · cases h
    · split at h
      · split at h
        · cases h
        · rename_i heq
          cases h
          rw [List.length_cons, List.length_cons, ← ih heq]
          omega
      · cases h
        simp

/-- The leading run and what follows it make up the list. -/
theorem leadingRun_length {less : α → α → Except ε Bool} {xs run after : List α}
    (h : leadingRun less xs = .ok (run, after)) : run.length + after.length = xs.length := by
  match xs, h with
  | [], h => cases h; rfl
  | [x], h => cases h; rfl
  | x :: y :: rest, h =>
    simp only [leadingRun, bind, Except.bind] at h
    split at h
    · cases h
    · split at h
      · cases h
      · rename_i heq
        cases h
        have := extendRun_length heq
        split <;> simp only [List.length_reverse, List.length_cons] <;> omega

/-- Placing an element loses none. -/
theorem insertAt_perm (place : Nat) (x : α) (xs : List α) :
    (insertAt place x xs).Perm (x :: xs) := by
  have h : (xs.take place ++ x :: xs.drop place).Perm (x :: (xs.take place ++ xs.drop place)) :=
    List.perm_middle
  rwa [List.take_append_drop] at h

end Applicability.Sorting
