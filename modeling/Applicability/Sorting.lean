/-
Sorting a list of any length with a comparison that may refuse.

A refusal ends the sort, so that it is visible which elements meet, and in which order. The list is
cut into runs that are sorted already; short ones are lengthened by placing the elements that
follow. A run is merged with its left neighbour as soon as the boundary between them is deeper than
the one to its right, where the boundary at the middle of the list is the least deep. What then
remains is merged from the right.

* `sort`: the sort, smallest first;
* `boundaryDepth`: how deep a boundary lies when the list is halved again and again;
* `sort_eq_sortByPlacing`: a list of fewer than 64 elements is one run.
-/
import Applicability.Sorting.Merging

namespace Applicability.Sorting

variable {ε α : Type}

/-- A sorted run that waits to be merged, and the depth of its left boundary. -/
structure Pending (α : Type) where
  items : List α
  depth : Nat

/-- The number after its halvings down to less than 64, raised by one if it was odd before one of
them, as `odd` says of the halvings so far. -/
def shorten (odd n : Nat) : Nat :=
  if n < 64 then n + odd else shorten (max odd (n % 2)) (n / 2)

/-- The least length of a run in a list of length `n`, at least 32 and at most 64 in a long list:
such that the number of runs is a power of two or little less. -/
def leastRun (n : Nat) : Nat := shorten 0 n

/-- A short list is to be one run. -/
theorem leastRun_eq_self {n : Nat} (h : n < 64) : leastRun n = n := by
  rw [leastRun, shorten, if_pos h, Nat.add_zero]

/-- The next run of a list, of a given length at least unless the list ends, and what follows. -/
def nextRun (less : α → α → Except ε Bool) (least : Nat) (xs : List α) :
    Except ε (List α × List α) := do
  let (run, after) ← leadingRun less xs
  let missing := least - run.length
  return (← (after.take missing).foldlM (insert less) run, after.drop missing)

/-- How deep the boundary of two neighbouring runs lies in a list of length `n`: after so many
halvings of the list the middles of the two runs lie in different parts. -/
def boundaryDepth (n start firstLength secondLength : Nat) : Nat :=
  let first := 2 * start + firstLength
  let second := first + firstLength + secondLength
  let apart (k : Nat) := (first <<< k) / (2 * n) != (second <<< k) / (2 * n)
  ((List.range (n.log2 + 3)).find? apart).getD 0

/-- Merges the last runs for as long as their boundary is deeper than the one that follows. -/
def collapse (less : α → α → Except ε Bool) (depth patience : Nat) :
    List (Pending α) → Except ε (List (Pending α) × Nat)
  | last :: before :: rest =>
    if depth < last.depth then
      match mergeRuns less patience before.items last.items with
      | .error e => .error e
      | .ok (items, patience) => collapse less depth patience (⟨items, before.depth⟩ :: rest)
    else .ok (last :: before :: rest, patience)
  | pending => .ok (pending, patience)
termination_by pending => pending.length

/-- Cuts a list of length `n` into runs, in no more steps than `fuel`, and merges them as soon as
their boundaries allow; the runs so far, the last one first. -/
def gather (less : α → α → Except ε Bool) (n : Nat) :
    Nat → Nat → List (Pending α) → List α → Except ε (List (Pending α) × Nat)
  | 0, patience, pending, _ => .ok (pending, patience)
  | _, patience, pending, [] => .ok (pending, patience)
  | fuel + 1, patience, pending, x :: rest => do
    let xs := x :: rest
    let (run, after) ← nextRun less (leastRun n) xs
    match pending with
    | [] => gather less n fuel patience [⟨run, 0⟩] after
    | last :: _ =>
      let start := n - xs.length - last.items.length
      let depth := boundaryDepth n start last.items.length run.length
      let (pending, patience) ← collapse less depth patience pending
      gather less n fuel patience (⟨run, depth⟩ :: pending) after

/-- Merges the runs that remain, from the last one on; a run that is longer than the one before
the one before it waits until these two are merged. -/
def mergeAll (less : α → α → Except ε Bool) (patience : Nat) : List (Pending α) → Except ε (List α)
  | [] => .ok []
  | [run] => .ok run.items
  | [last, before] => Prod.fst <$> mergeRuns less patience before.items last.items
  | last :: before :: earlier :: rest =>
    if earlier.items.length < last.items.length then
      match mergeRuns less patience earlier.items before.items with
      | .error e => .error e
      | .ok (items, patience) => mergeAll less patience (last :: ⟨items, earlier.depth⟩ :: rest)
    else
      match mergeRuns less patience before.items last.items with
      | .error e => .error e
      | .ok (items, patience) => mergeAll less patience (⟨items, before.depth⟩ :: earlier :: rest)
termination_by pending => pending.length

/-- Sorts, smallest first. -/
def sort (less : α → α → Except ε Bool) (xs : List α) : Except ε (List α) := do
  let (pending, patience) ← gather less xs.length xs.length worthwhile [] xs
  mergeAll less patience pending

/-- Where the list ends, all runs have been found. -/
theorem gather_nil (less : α → α → Except ε Bool) (n fuel patience : Nat)
    (pending : List (Pending α)) :
    gather less n fuel patience pending [] = .ok (pending, patience) := by
  cases fuel <;> rfl

/-- A list of fewer than 64 elements is one run. -/
theorem sort_eq_sortByPlacing (less : α → α → Except ε Bool) {xs : List α} (h : xs.length < 64) :
    sort less xs = sortByPlacing less xs := by
  cases xs with
  | nil =>
    simp [sort, gather, mergeAll, sortByPlacing, leadingRun, bind, Except.bind, pure, Except.pure]
  | cons x rest =>
    have hleast : leastRun (rest.length + 1) = rest.length + 1 := leastRun_eq_self h
    cases hrun : leadingRun less (x :: rest) with
    | error e => simp [sort, gather, nextRun, sortByPlacing, hrun, bind, Except.bind]
    | ok found =>
      obtain ⟨run, after⟩ := found
      have hmissing : rest.length + 1 - run.length = after.length := by
        have := leadingRun_length hrun
        rw [List.length_cons] at this
        omega
      cases hfold : after.foldlM (insert less) run with
      | error e =>
        simp [sort, gather, nextRun, sortByPlacing, hrun, hleast, hmissing, hfold, bind,
          Except.bind]
      | ok sorted =>
        simp [sort, gather, gather_nil, mergeAll, nextRun, sortByPlacing, hrun, hleast, hmissing,
          hfold, bind, Except.bind, pure, Except.pure]

end Applicability.Sorting
