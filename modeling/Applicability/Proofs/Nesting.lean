/-
Nesting: which items are evaluated inside which, and how deep.

An item is evaluated inside another one if it is one of its successors. The graph may be cyclic, so
that nesting need not come to an end; where it does, it has a height.

* `Graph.Leads`, `Graph.Reaches`, `Graph.OnCycle`: one step of nesting, any number of steps, and an
  item that is nested inside itself;
* `Graph.Spans`: an item spans one level more than the highest of its successors. Only an item below
  which nesting comes to an end has a height, and it has one (`Spans.unique`);
* `Spans.not_onCycle`, `Spans.length_le_of_isChain`: below such an item there is no cycle, and no
  chain of nested items is longer than its height;
* `Graph.isPlain`: the graph of a pack, in which no item of a consumer's own takes part.
  `exists_literal`: every item of such a graph can be shown.
-/
import Mathlib.Data.List.Chain
import Mathlib.Data.List.MinMax
import Mathlib.Logic.Relation
import Mathlib.Order.Nat
import Applicability.Graph.Literal

namespace Applicability

namespace Graph

/-! ### Steps and heights -/

/-- One item is evaluated directly inside another. -/
def Leads (g : Graph) (i j : Item) : Prop := j ∈ g.successors i

/-- An item is another one, or is evaluated somewhere inside it. -/
abbrev Reaches (g : Graph) : Item → Item → Prop := Relation.ReflTransGen g.Leads

/-- An item that would be evaluated inside itself. -/
def OnCycle (g : Graph) (i : Item) : Prop := Relation.TransGen g.Leads i i

/-- The greatest of some heights, `0` if there are none. -/
def highest (heights : List Nat) : Nat := heights.foldr max 0

@[simp] lemma highest_nil : highest [] = 0 := rfl

@[simp] lemma highest_cons (n : Nat) (rest : List Nat) :
    highest (n :: rest) = max n (highest rest) := rfl

lemma le_highest {heights : List Nat} {n : Nat} (h : n ∈ heights) : n ≤ highest heights :=
  List.le_max_of_le h le_rfl

lemma highest_le {heights : List Nat} {n : Nat} (h : ∀ m ∈ heights, m ≤ n) :
    highest heights ≤ n :=
  List.max_le_of_forall_le heights n h

/-- **The height of an item**: one level for the item itself, above the highest of its successors.
There is a height only where nesting comes to an end. -/
inductive Spans (g : Graph) : Item → Nat → Prop where
  | above {i : Item} (height : Item → Nat) :
      (∀ j ∈ g.successors i, Spans g j (height j)) →
      Spans g i (highest ((g.successors i).map height) + 1)

variable {g : Graph} {i j : Item} {n : Nat}

lemma Spans.successor (h : g.Spans i n) (hij : g.Leads i j) : ∃ m, g.Spans j m ∧ m < n := by
  cases h with
  | above height hs =>
      refine ⟨height j, hs j hij, ?_⟩
      exact Nat.lt_succ_of_le (le_highest (List.mem_map.mpr ⟨j, hij, rfl⟩))

/-- Whatever is evaluated inside an item has at most its height. -/
lemma Spans.of_reaches (h : g.Spans i n) (hij : g.Reaches i j) : ∃ m, g.Spans j m ∧ m ≤ n := by
  induction hij with
  | refl => exact ⟨n, h, le_rfl⟩
  | tail _ hjk ih =>
      obtain ⟨m, hm, hle⟩ := ih
      obtain ⟨l, hl, hlt⟩ := hm.successor hjk
      exact ⟨l, hl, by omega⟩

/-- The height is determined by the graph. -/
lemma Spans.unique {m : Nat} (hn : g.Spans i n) (hm : g.Spans i m) : n = m := by
  induction hn generalizing m with
  | above height _ ih =>
      cases hm with
      | above other hs =>
          have : (g.successors _).map height = (g.successors _).map other :=
            List.map_congr_left fun j hj => ih j hj (hs j hj)
          rw [this]

/-- An item with a height is not evaluated inside itself. -/
lemma Spans.not_onCycle (h : g.Spans i n) : ¬ g.OnCycle i := by
  induction h with
  | above height hs ih =>
      intro hc
      -- the first step of the cycle leads to a successor, which lies on the same cycle
      obtain ⟨j, hj, hback⟩ := Relation.TransGen.head'_iff.mp hc
      exact ih j hj (Relation.TransGen.tail' hback hj)

/-- No chain of nested items is longer than the height of its first one. -/
lemma Spans.length_le_of_isChain (h : g.Spans i n) {rest : List Item}
    (hc : List.IsChain g.Leads (i :: rest)) : (i :: rest).length ≤ n := by
  induction rest generalizing i n with
  | nil => cases h; simp
  | cons j rest ih =>
      obtain ⟨hij, hrest⟩ := List.isChain_cons_cons.mp hc
      obtain ⟨m, hm, hlt⟩ := h.successor hij
      have := ih hm hrest
      simp only [List.length_cons] at this ⊢
      omega

/-! ### The successors of each kind of item -/

lemma successors_expression {e : ExpressionRef} (h : (g.expression e).domain = .reference) :
    g.successors (.expression e) = (g.expression e).target.toList := by
  simp [successors, h]

lemma successors_expression_of_ne {e : ExpressionRef} (h : (g.expression e).domain ≠ .reference) :
    g.successors (.expression e) = [] := by
  simp [successors, h]

lemma leads_target {e : ExpressionRef} (hd : (g.expression e).domain = .reference)
    (ht : (g.expression e).target = some j) : g.Leads (.expression e) j := by
  simp [Leads, successors, hd, ht]

lemma leads_guard {a : ArtifactRef} (h : (g.artifact a).guard = some j) :
    g.Leads (.artifact a) j := by
  simp [Leads, successors, h]

lemma leads_expression {c : ConditionRef} {e : ExpressionRef}
    (h : e ∈ (g.condition c).expressions) : g.Leads (.condition c) (.expression e) :=
  List.mem_map.mpr ⟨e, h, rfl⟩

lemma Spans.leaf (h : g.successors i = []) : g.Spans i 1 := by
  have := Spans.above (g := g) (i := i) (fun _ => 0) (by simp [h])
  rwa [h] at this

/-- An item with a single successor is one level higher. -/
lemma Spans.over (h : g.successors i = [j]) (hj : g.Spans j n) : g.Spans i (n + 1) := by
  have := Spans.above (g := g) (i := i) (fun _ => n) (by simpa [h] using hj)
  rwa [h, List.map_singleton, highest_cons, highest_nil, Nat.max_zero] at this

/-- A condition is one level higher than the highest of its expressions. -/
lemma Spans.condition {c : ConditionRef} {height : ExpressionRef → Nat}
    (h : ∀ e ∈ (g.condition c).expressions, g.Spans (.expression e) (height e)) :
    g.Spans (.condition c) (highest ((g.condition c).expressions.map height) + 1) := by
  let onItems : Item → Nat
    | .expression e => height e
    | _ => 0
  have hs : g.Spans (.condition c) (highest ((g.successors (.condition c)).map onItems) + 1) :=
    .above onItems fun j hj => by
      obtain ⟨e, he, rfl⟩ := List.mem_map.mp hj
      exact h e he
  rwa [successors, List.map_map] at hs

end Graph

/-! ### Graphs of a pack -/

/-- An item of a pack: an expression, a condition or an artifact. -/
def Item.isPlain : Item → Bool
  | .scripted _ => false
  | _ => true

/-- A condition. -/
def Item.isCondition : Item → Bool
  | .condition _ => true
  | _ => false

/-- The condition that an item is, if it is one. -/
def Item.condition? : Item → Option ConditionRef
  | .condition c => some c
  | _ => none

/-- An expression as it is before it is bound. -/
def Expression.unbound (x : Expression) : Expression := { x with target := none }

/-- Expressions that were the same before they were bound differ in nothing else. -/
lemma Expression.unbound_eq_iff {x y : Expression} :
    x.unbound = y.unbound ↔ x.role = y.role ∧ x.domain = y.domain ∧ x.attributes = y.attributes ∧
      x.conditionId = y.conditionId := by
  simp [unbound]

lemma Item.condition?_eq_some_iff {i : Item} {c : ConditionRef} :
    i.condition? = some c ↔ i = .condition c := by
  cases i <;> simp [Item.condition?]

namespace Graph

/-- The graph of a pack: references are bound to items of a pack, and guards are conditions. -/
def isPlain (g : Graph) : Bool :=
  g.expressions.toList.all (·.target.all Item.isPlain) &&
    g.artifacts.toList.all (·.guard.all Item.isCondition)

/-- A pack whose top condition comes to its base in two ways, one of them a denied one, and with a
condition that refers to itself. The first artifact is guarded by the top condition, the second by
the one on the cycle. -/
def sample : Graph where
  expressions := #[
    { domain := .device, attributes := Attributes.ofList [("core", "M4")] },
    { role := .accept, domain := .reference, target := some (.condition ⟨0⟩) },
    { role := .deny, domain := .reference, target := some (.condition ⟨0⟩) },
    { role := .accept },
    { role := .accept, domain := .reference, target := some (.condition ⟨1⟩) },
    { role := .accept, domain := .reference, target := some (.condition ⟨2⟩) },
    { domain := .reference, target := some (.condition ⟨4⟩) }]
  conditions := #[
    { id := "base", expressions := [⟨0⟩] },
    { id := "one way", expressions := [⟨1⟩] },
    { id := "another way", expressions := [⟨2⟩, ⟨3⟩] },
    { id := "top", expressions := [⟨4⟩, ⟨5⟩] },
    { id := "loop", expressions := [⟨6⟩] }]
  artifacts := #[
    { name := "startup.c", guard := some (.condition ⟨3⟩) },
    { name := "loop.c", guard := some (.condition ⟨4⟩) },
    { name := "readme.txt" }]

lemma isPlain_sample : sample.isPlain := by decide

variable {g : Graph} {i j : Item}

/-- An expression that is bound to something is one of the graph. -/
lemma expression_mem {e : ExpressionRef} (h : (g.expression e).target = some j) :
    g.expression e ∈ g.expressions.toList := by
  by_cases he : e.index < g.expressions.size
  · have hx : g.expression e = g.expressions[e.index] := by simp [expression, he]
    rw [hx]
    exact Array.mem_toList_iff.mpr (Array.getElem_mem he)
  · have hx : g.expression e = default := by simp [expression, he]
    rw [hx] at h
    cases h

/-- An artifact that is guarded is one of the graph. -/
lemma artifact_mem {a : ArtifactRef} (h : (g.artifact a).guard = some j) :
    g.artifact a ∈ g.artifacts.toList := by
  by_cases ha : a.index < g.artifacts.size
  · have hx : g.artifact a = g.artifacts[a.index] := by simp [artifact, ha]
    rw [hx]
    exact Array.mem_toList_iff.mpr (Array.getElem_mem ha)
  · have hx : g.artifact a = default := by simp [artifact, ha]
    rw [hx] at h
    cases h

lemma isPlain_target (hg : g.isPlain) {e : ExpressionRef}
    (h : (g.expression e).target = some j) : j.isPlain := by
  have := List.all_eq_true.mp (Bool.and_eq_true_iff.mp hg).1 _ (expression_mem h)
  simpa [h] using this

/-- A graph whose references are bound to conditions. -/
def bindsConditions (g : Graph) : Bool :=
  g.expressions.toList.all (·.target.all Item.isCondition)

lemma isCondition_target (hb : g.bindsConditions) {e : ExpressionRef}
    (h : (g.expression e).target = some j) : j.isCondition := by
  have := List.all_eq_true.mp hb _ (expression_mem h)
  simpa [h] using this

lemma isCondition_guard (hg : g.isPlain) {a : ArtifactRef}
    (h : (g.artifact a).guard = some j) : j.isCondition := by
  have := List.all_eq_true.mp (Bool.and_eq_true_iff.mp hg).2 _ (artifact_mem h)
  simpa [h] using this

/-- In the graph of a pack nothing but items of the pack is evaluated inside them. -/
lemma isPlain_of_leads (hg : g.isPlain) (h : g.Leads i j) : j.isPlain := by
  cases i with
  | expression e =>
      by_cases hd : (g.expression e).domain = .reference
      · rw [Leads, successors_expression hd] at h
        exact isPlain_target hg (Option.mem_toList.mp h)
      · rw [Leads, successors_expression_of_ne hd] at h
        cases h
  | condition c =>
      obtain ⟨e, _, rfl⟩ := List.mem_map.mp h
      rfl
  | artifact a =>
      have := isCondition_guard hg (Option.mem_toList.mp h)
      cases j <;> first | rfl | cases this
  | scripted s => cases h

/-- Nor at any depth. -/
lemma isPlain_of_reaches (hg : g.isPlain) (hi : i.isPlain) (h : g.Reaches i j) : j.isPlain := by
  induction h with
  | refl => exact hi
  | tail _ hjk _ => exact isPlain_of_leads hg hjk

/-- In the graph of a pack every item can be shown: the guards of artifacts have ids. -/
lemma exists_literal (hg : g.isPlain) (i : Item) : ∃ t, g.literal i = .ok t := by
  cases i with
  | artifact a =>
      cases ha : (g.artifact a).guard with
      | none => exact ⟨_, by rw [literal, artifactLiteral, ha]; rfl⟩
      | some j =>
          have hj := isCondition_guard hg ha
          cases j with
          | condition c => exact ⟨_, by rw [literal, artifactLiteral, ha]; rfl⟩
          | _ => cases hj
  | _ => exact ⟨_, rfl⟩

end Graph

end Applicability
