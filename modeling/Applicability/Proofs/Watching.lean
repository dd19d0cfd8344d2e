/-
Watching: an evaluation that knows what it is in the middle of.

A pass holds the conditions that are being combined, but not the items that are being evaluated.
Here an evaluation is given the whole path that has led to the item at hand, and a say in it: it
gives up as soon as an item is to be evaluated at the end of a path that is not permitted.

* `Graph.Nests`: the paths that an evaluation can take. Inside a condition that is on the path
  already nothing is evaluated;
* `Rulebook.watch`: the evaluation that is watched;
* `watch_eq_evaluateWithin`: if every path that an evaluation can take is permitted and not too
  long, then an evaluation that is watched does the same as one that is not. So neither does the
  other one ever take a path that is not permitted. `watch_eq_evaluate` is the case of a pass at
  rest.
-/
import Applicability.Proofs.Lockstep
import Applicability.Proofs.Outcomes

namespace Applicability

/-! ### Paths -/

/-- The conditions on a path, the outermost first. -/
def combined (path : List Item) : List ConditionRef := path.filterMap Item.condition?

@[simp] lemma combined_nil : combined [] = [] := rfl

lemma combined_concat (path : List Item) (i : Item) :
    combined (path ++ [i]) = combined path ++ i.condition?.toList := by
  cases h : i.condition? <;> simp [combined, List.filterMap_append, h]

lemma mem_combined {path : List Item} {c : ConditionRef} :
    c ∈ combined path ↔ .condition c ∈ path := by
  simp [combined, Item.condition?_eq_some_iff]

namespace Graph

variable {g : Graph} {i j k : Item} {path : List Item}

/-- **The paths that an evaluation can take** from an item to another one that is evaluated inside
it. A condition that is on the path already leads no further. -/
inductive Nests (g : Graph) (i : Item) : List Item → Item → Prop where
  | here : Nests g i [] i
  | inside {path : List Item} {j k : Item} : Nests g i path j →
      (∀ c, j = .condition c → c ∉ combined path) → g.Leads j k → Nests g i (path ++ [j]) k

/-- A path leads to an item that is evaluated inside the first one. -/
lemma Nests.reaches (h : g.Nests i path j) : g.Reaches i j := by
  induction h with
  | here => exact .refl
  | inside _ _ hjk ih => exact .tail ih hjk

/-- So it does on its way. -/
lemma Nests.reaches_mem (h : g.Nests i path j) : ∀ k ∈ path, g.Reaches i k := by
  induction h with
  | here => simp
  | @inside path j _ hpath _ _ ih =>
      intro k hk
      rcases List.mem_append.mp hk with hk | hk
      · exact ih k hk
      · obtain rfl := List.mem_singleton.mp hk
        exact hpath.reaches

/-- **No condition is combined inside itself.** -/
lemma Nests.nodup_combined (h : g.Nests i path j) : (combined path).Nodup := by
  induction h with
  | here => exact List.nodup_nil
  | @inside path j k _ hfree _ ih =>
      rw [combined_concat]
      cases hj : j.condition? with
      | none => simpa using ih
      | some c =>
          have hc : c ∉ combined path := hfree c (Item.condition?_eq_some_iff.mp hj)
          rw [Option.toList_some, List.nodup_append]
          refine ⟨ih, by simp, fun x hx y hy => ?_⟩
          obtain rfl := List.mem_singleton.mp hy
          exact fun hxy => hc (hxy ▸ hx)

end Graph

/-! ### Being watched -/

namespace Rulebook

variable {r : Rulebook} {i : Item} {s : Scene}

/-- **An evaluation that is watched**, with at most the given number of levels. `path` holds the
items that are being evaluated around the one at hand, the outermost first. An alarm is raised if
the levels are used up, and if the path that ends with the item at hand is not permitted. -/
def watch (r : Rulebook) (alarm : Fault) (permitted : List Item → Bool) :
    Nat → List Item → Recursion
  | _, _, none => return .ignored
  | 0, _, some _ => throw alarm
  | n + 1, path, some i =>
    if permitted (path ++ [i]) then
      r.visit i (r.evaluateItem (r.watch alarm permitted n (path ++ [i])) i)
    else throw alarm

lemma watch_none (r : Rulebook) (alarm : Fault) (permitted : List Item → Bool) (n : Nat)
    (path : List Item) : r.watch alarm permitted n path none = return .ignored := by
  cases n <;> rfl

/-- **An evaluation that only takes permitted paths of limited length does not show that it is
watched.** `i` is the item on which the evaluation began. -/
theorem watch_eq_evaluateWithin (hg : r.graph.isPlain) (alarm : Fault)
    {permitted : List Item → Bool} {limit : Nat} (hi : i.isPlain)
    (hpermitted : ∀ path j, r.graph.Nests i path j →
      permitted (path ++ [j]) ∧ path.length < limit)
    {n m k : Nat} {path : List Item} {j : Item} {s : Scene} (hpath : r.graph.Nests i path j)
    (hn : path.length + n = limit) (hm : k < m) (hk : s.pass.depth + k = r.maxDepth)
    (hactive : s.pass.active = combined path) :
    r.watch alarm permitted n path (some j) s = r.evaluateWithin m (some j) s := by
  induction n generalizing m k path j s with
  | zero =>
      have := (hpermitted path j hpath).2
      omega
  | succ n ih =>
      obtain ⟨m, rfl⟩ : ∃ m', m = m' + 1 := ⟨m - 1, by omega⟩
      have hj : j.isPlain := Graph.isPlain_of_reaches hg hi hpath.reaches
      have hcalm : r.Calm (fun i => i.isPlain) := calm_isPlain hg
      rw [watch, if_pos (hpermitted path j hpath).1, evaluateWithin]
      refine visit_congr fun _ hfits => (evaluateItem_congr Pass.allows_balanced.unnoted hcalm hj
        (evaluateWithin_effect Pass.allows_balanced hcalm m)
        ((funext fun t => evaluateWithin_none r m t).trans (watch_none ..).symm) ?_).symm
      intro hfree j' hasks t ht
      have hjj' : r.graph.Leads j j' := Graph.leads_of_asks hj hasks
      -- one level further down, on the path that the item at hand is added to
      refine (ih (k := k - 1) (.inside hpath (fun c hc => hactive ▸ hfree c hc) hjj') ?_ ?_ ?_
        ?_).symm
      · rw [List.length_append, List.length_singleton]
        omega
      · omega
      · have hdepth : t.pass.depth = s.pass.depth + 1 := ht.depth.trans (Pass.within_depth _ _)
        rw [Scene.turn_depth, hdepth]
        omega
      · rw [Scene.turn_active, ht.active, Pass.within_active, combined_concat, ← hactive]
        rfl

/-- Nor does an evaluation in a pass at rest. -/
lemma watch_eq_evaluate (hg : r.graph.isPlain) (alarm : Fault) {permitted : List Item → Bool}
    {limit : Nat} (hi : i.isPlain) (hpermitted : ∀ path j, r.graph.Nests i path j →
      permitted (path ++ [j]) ∧ path.length < limit) {target : Attributes} {journals : Journals}
    (hs : r.AtRest target journals s) :
    r.watch alarm permitted limit [] (some i) s = r.evaluate (some i) s := by
  have hlevels : r.maxDepth < r.levels s.pass := by
    rw [levels, hs.depth]
    omega
  exact watch_eq_evaluateWithin hg alarm hi hpermitted .here (Nat.zero_add _) hlevels
    (by rw [hs.depth, Int.zero_add]) (by rw [hs.active, combined_nil])

end Rulebook

end Applicability
