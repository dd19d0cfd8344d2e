/-
Merging two sorted runs with a comparison that may refuse.

The runs are merged from the end at which less is left to do: from the front if the first run is the
shorter one, else from the back. Elements that are in place already take no part. As long as neither
run wins often in a row, the elements at the working ends meet one by one; then whole stretches are
looked for by strides that double.

* `gallop`: the length of a stretch;
* `merge`: merging two runs, seen from the end at which it works;
* `mergeRuns`: merging two runs;
* `ended_perm`: what is left over when one run is used up loses no element.
-/
import Applicability.Sorting.Placing

namespace Applicability.Sorting

variable {ε α : Type}

/-- Looks, from an element that passes the test, in strides that double for one that does not:
the place of the last element met that passes, and that of the first that does not or the length. -/
def stride (test : α → Except ε Bool) (xs : List α) (known next : Nat) : Except ε (Nat × Nat) :=
  if h : next < xs.length then
    match test xs[next] with
    | .error e => .error e
    | .ok true => stride test xs next (2 * next + 1)
    | .ok false => .ok (known, next)
  else .ok (known, xs.length)
termination_by xs.length - next

/-- The number of leading elements that pass a test, when all that pass it come first. -/
def gallop (test : α → Except ε Bool) (upper : Bool) : List α → Except ε Nat
  | [] => .ok 0
  | x :: rest => do
    if ← test x then
      let (known, bound) ← stride test (x :: rest) 0 1
      halve test upper (x :: rest) (known + 1) bound
    else return 0

/-- What is left over when the run that is being used up has at most one element, which belongs
behind the other run, or when nothing is left of the other run. -/
def leftOver : List α → List α → Option (List α)
  | [], other => some other
  | [x], other => some (other ++ [x])
  | run, [] => some run
  | _, _ => none

/-- What is left over of two runs, of which the first is used up if the work is done from the
front, the second if from the back. -/
def ended (forward : Bool) (first second : List α) : Option (List α) :=
  if forward then leftOver first second else leftOver second first

/-- How the next elements of a merge are found. -/
inductive Phase where
  /-- one by one, after so many of the first and so many of the second run were taken in a row -/
  | single (firsts seconds : Nat)
  /-- by a stretch of the first run -/
  | stretch
  /-- by a stretch of the second run, after one of the first run of that length -/
  | counterStretch (firsts : Nat)
deriving Repr

/-- The length from which on stretches are worth looking for. -/
def worthwhile : Nat := 7

/-- Merges two runs, both seen from the end at which the work is done; `taken` holds the elements
taken so far, the last one first. Given back are the elements in this order and the patience, the
number of elements in a row at which the search for stretches begins: it falls while that search
goes on, and rises when it is given up. -/
def merge (less : α → α → Except ε Bool) (forward : Bool) (patience : Nat) (phase : Phase)
    (taken first second : List α) : Except ε (List α × Nat) :=
  match ended forward first second with
  | some rest => .ok (taken.reverse ++ rest, patience)
  | none =>
    match first, second with
    | a :: as, b :: bs =>
      match phase with
      | .single firsts seconds =>
        match less b a with
        | .error e => .error e
        | .ok answer =>
          if answer == forward then
            merge less forward patience
              (if seconds + 1 < patience then .single 0 (seconds + 1) else .stretch)
              (b :: taken) (a :: as) bs
          else
            merge less forward patience
              (if firsts + 1 < patience then .single (firsts + 1) 0 else .stretch)
              (a :: taken) as (b :: bs)
      | .stretch =>
        match gallop (fun x => (· != forward) <$> less b x) forward (a :: as) with
        | .error e => .error e
        | .ok n =>
          merge less forward patience (.counterStretch n)
            (b :: (((a :: as).take n).reverse ++ taken)) ((a :: as).drop n) bs
      | .counterStretch n =>
        match gallop (fun x => (· == forward) <$> less x a) forward (b :: bs) with
        | .error e => .error e
        | .ok m =>
          let taken := a :: (((b :: bs).take m).reverse ++ taken)
          let second := (b :: bs).drop m
          match ended forward as second with
          | some rest => .ok (taken.reverse ++ rest, patience)
          | none =>
            if worthwhile ≤ n ∨ worthwhile ≤ m then
              merge less forward (max 1 (patience - 1)) .stretch taken as second
            else merge less forward (patience + 1) (.single 0 0) taken as second
    | _, _ => .ok (taken.reverse ++ first ++ second, patience)
termination_by first.length + second.length
decreasing_by
  all_goals simp only [List.length_cons, List.length_drop]
  all_goals omega

/-- Merges the parts of two runs in which they overlap. The last element of the first run belongs
behind the second, and the first element of the second before the first run. -/
def mergeOverlap (less : α → α → Except ε Bool) (patience : Nat) (first second : List α) :
    Except ε (List α × Nat) :=
  if first.length ≤ second.length then
    merge less true patience (.single 0 0) (second.take 1) first (second.drop 1)
  else do
    let (merged, patience) ← merge less false patience (.single 0 0)
      (first.reverse.take 1) (first.reverse.drop 1) second.reverse
    return (merged.reverse, patience)

/-- Merges two runs, of which the first comes before the second where elements are equal. -/
def mergeRuns (less : α → α → Except ε Bool) (patience : Nat) (first second : List α) :
    Except ε (List α × Nat) :=
  match second with
  | [] => .ok (first, patience)
  | b :: _ => do
    let before ← gallop (fun x => (!·) <$> less b x) true first
    match (first.drop before).getLast? with
    | none => return (first ++ second, patience)
    | some a =>
      let after ← gallop (fun x => (!·) <$> less x a) false second.reverse
      let within := second.length - after
      let (merged, patience) ←
        mergeOverlap less patience (first.drop before) (second.take within)
      return (first.take before ++ merged ++ second.drop within, patience)

/-- What is left over when one run is used up loses no element. -/
theorem leftOver_perm {run other rest : List α} (h : leftOver run other = some rest) :
    rest.Perm (run ++ other) := by
  unfold leftOver at h
  split at h
  · cases h; simp
  · cases h; exact List.perm_append_comm
  · cases h; simp
  · cases h

/-- What is left over of two runs loses no element. -/
theorem ended_perm {forward : Bool} {first second rest : List α}
    (h : ended forward first second = some rest) : rest.Perm (first ++ second) := by
  unfold ended at h
  split at h
  · exact leftOver_perm h
  · exact (leftOver_perm h).trans List.perm_append_comm

end Applicability.Sorting
