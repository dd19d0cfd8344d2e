/-
Guarding: how deep an evaluation can nest at all.

Conditions that are being combined are held, and a condition that is held is not combined again. As
references are bound to conditions, every second item of a path is a condition, so that the number
of conditions that can be reached bounds the length of a path, whatever the depth limit is.

* `Graph.conditionsBelow`, `finite_conditionsBelow`: the conditions that an item reaches;
* `Nests.length_le`, `Nests.length_lt`: the length of a path;
* `Graph.NestsWithin`: an item inside which no path is too long;
* `nests_of_assess`: an assessment that is too deep has taken a path as long as its levels;
* `Graph.OnlyCyclic`: an item that reaches a reference cycle and nothing else that obstructs it;
* `evaluate_within_guard`: an evaluation nests at most two levels for each condition and two more
  and combines no condition inside itself; with that many levels it is never too deep, and a cycle
  is reported as one.
-/
import Mathlib.Data.Set.Card
import Applicability.Proofs.Calls
import Applicability.Proofs.Watching

namespace Applicability

namespace Graph

variable {g : Graph} {i j : Item} {path : List Item}

/-! ### The conditions that an item reaches -/

/-- The conditions that an item reaches, itself included if it is one. -/
def conditionsBelow (g : Graph) (i : Item) : Set ConditionRef := {c | g.Reaches i (.condition c)}

/-- The conditions that something in the graph is bound to or guarded by. -/
def namedConditions (g : Graph) : List ConditionRef :=
  g.expressions.toList.filterMap (·.target.bind Item.condition?) ++
    g.artifacts.toList.filterMap (·.guard.bind Item.condition?)

/-- What leads to a condition names it. -/
lemma mem_namedConditions {c : ConditionRef} (h : g.Leads j (.condition c)) :
    c ∈ g.namedConditions := by
  cases j with
  | expression e =>
      by_cases hd : (g.expression e).domain = .reference
      · rw [Leads, successors_expression hd, Option.mem_toList] at h
        refine List.mem_append_left _ (List.mem_filterMap.mpr ⟨_, expression_mem h, ?_⟩)
        rw [h]
        rfl
      · rw [Leads, successors_expression_of_ne hd] at h
        cases h
  | condition d =>
      obtain ⟨e, _, he⟩ := List.mem_map.mp h
      cases he
  | artifact a =>
      rw [Leads, successors, Option.mem_toList] at h
      refine List.mem_append_right _ (List.mem_filterMap.mpr ⟨_, artifact_mem h, ?_⟩)
      rw [h]
      rfl
  | scripted s => cases h

lemma finite_conditionsBelow (g : Graph) (i : Item) : (g.conditionsBelow i).Finite := by
  have hall : g.conditionsBelow i ⊆ {c | c ∈ i.condition?.toList ++ g.namedConditions} := by
    intro c hc
    refine List.mem_append.mpr ?_
    rcases Relation.ReflTransGen.cases_tail hc with hc | ⟨j, -, hj⟩
    · exact .inl (Option.mem_toList.mpr (Item.condition?_eq_some_iff.mpr hc.symm))
    · exact .inr (mem_namedConditions hj)
  exact (List.finite_toSet _).subset hall

/-! ### The length of a path -/

/-- Every second item of a path is a condition: two items for each, and one more before an item that
is a condition itself. -/
lemma Nests.length_le (hg : g.isPlain) (hb : g.bindsConditions) (h : g.Nests i path j) :
    path.length ≤ 2 * (combined path).length + (if j.isCondition then 1 else 0) := by
  induction h with
  | here => simp
  | @inside path j k hpath hfree hjk ih =>
      rw [combined_concat, List.length_append, List.length_append, List.length_singleton]
      cases j with
      | condition c =>
          simp only [Item.isCondition, if_true, Item.condition?, Option.toList_some,
            List.length_singleton] at ih ⊢
          omega
      | expression e =>
          -- what comes after an expression is a condition, and makes up for it
          have hk : k.isCondition := by
            by_cases hd : (g.expression e).domain = .reference
            · rw [Leads, successors_expression hd] at hjk
              exact isCondition_target hb (Option.mem_toList.mp hjk)
            · rw [Leads, successors_expression_of_ne hd] at hjk
              cases hjk
          have hbefore : path.length ≤ 2 * (combined path).length := ih
          rw [if_pos hk]
          omega
      | artifact a =>
          have hk : k.isCondition := isCondition_guard hg (Option.mem_toList.mp hjk)
          have hbefore : path.length ≤ 2 * (combined path).length := ih
          rw [if_pos hk]
          omega
      | scripted s => cases hjk

/-- The conditions on a path are among those that the first item reaches. -/
lemma Nests.length_combined_le (h : g.Nests i path j) :
    (combined path).length ≤ (g.conditionsBelow i).ncard := by
  have hsub : (↑(combined path).toFinset : Set ConditionRef) ⊆ g.conditionsBelow i := by
    intro c hc
    rw [Finset.mem_coe, List.mem_toFinset, mem_combined] at hc
    exact h.reaches_mem _ hc
  calc (combined path).length = (combined path).toFinset.card :=
        (List.toFinset_card_of_nodup h.nodup_combined).symm
    _ = (↑(combined path).toFinset : Set ConditionRef).ncard := (Set.ncard_coe_finset _).symm
    _ ≤ (g.conditionsBelow i).ncard := Set.ncard_le_ncard hsub (g.finite_conditionsBelow i)

/-- **A path is shorter than two items for each condition that the first one reaches, and two
more.** -/
lemma Nests.length_lt (hg : g.isPlain) (hb : g.bindsConditions) (h : g.Nests i path j) :
    path.length < 2 * (g.conditionsBelow i).ncard + 2 := by
  have hlength := h.length_le hg hb
  have hcombined := h.length_combined_le
  split at hlength <;> omega

/-- **Nesting that stays within a limit**: on every path that an evaluation of the item can take,
the items are no more than that. -/
def NestsWithin (g : Graph) (limit : Nat) (i : Item) : Prop :=
  ∀ path j, g.Nests i path j → path.length < limit

/-- **An item that reaches a reference cycle, and nothing else that would obstruct it.** -/
structure OnlyCyclic (g : Graph) (i : Item) : Prop where
  cycle : ∃ c, g.Reaches i (.condition c) ∧ g.OnCycle (.condition c)
  bound : ∀ e, g.Reaches i (.expression e) → (g.expression e).domain = .reference →
    (g.expression e).target ≠ none
  known : ∀ e name, g.Reaches i (.expression e) → (g.expression e).domain ≠ .other name

end Graph

/-- A path on which no condition is combined inside itself. The last item of a path is evaluated,
but nothing is evaluated inside it so far. -/
def unrepeated (path : List Item) : Bool := decide (combined path.dropLast).Nodup

namespace Rulebook

variable {r : Rulebook} {target : Attributes} {journals : Journals} {s : Scene} {i j : Item}

/-- **An assessment that is too deep has taken a path as long as its levels.** -/
lemma nests_of_assess {k : Nat} {path : List Item} (hpath : r.graph.Nests i path j)
    (h : r.assess target k (combined path) j = .error (.problem .tooDeep)) :
    ∃ path' j', r.graph.Nests i path' j' ∧ path'.length = path.length + k := by
  induction k generalizing path j with
  | zero => exact ⟨path, j, hpath, rfl⟩
  | succ k ih =>
      rw [assess] at h
      cases hitem : r.assessItem target (r.assess target k) (combined path) j with
      | ok x => rw [hitem] at h; cases h
      | error o =>
          rw [hitem] at h
          cases h
          rcases assessItem_error hitem with hb | ⟨hfree, j', hjj', hj'⟩
          · -- what blocks an item by itself is never its depth
            cases hb
          · rw [← combined_concat] at hj'
            obtain ⟨path', j'', hpath', hlength⟩ := ih (.inside hpath hfree hjj') hj'
            refine ⟨path', j'', hpath', ?_⟩
            rw [hlength, List.length_append, List.length_singleton]
            omega

lemma assess_ne_tooDeep_of_nestsWithin {k : Nat} (h : r.graph.NestsWithin k i) :
    r.assess target k [] i ≠ .error (.problem .tooDeep) := by
  intro hdeep
  obtain ⟨path, j, hpath, hlength⟩ := nests_of_assess (k := k) .here hdeep
  have hshort := h path j hpath
  rw [List.length_nil] at hlength
  omega

/-- With two levels for each condition and two more, an assessment is never too deep. -/
lemma assess_ne_tooDeep (hg : r.graph.isPlain) (hb : r.graph.bindsConditions) {k : Nat}
    (hk : 2 * (r.graph.conditionsBelow i).ncard + 2 ≤ k) :
    r.assess target k [] i ≠ .error (.problem .tooDeep) :=
  assess_ne_tooDeep_of_nestsWithin fun _ _ hpath => (hpath.length_lt hg hb).trans_le hk

/-- An evaluation in a pass at rest does the same when it is watched for repeated conditions, with
two levels for each condition and two more. -/
lemma watch_unrepeated (hg : r.graph.isPlain) (hb : r.graph.bindsConditions) (hi : i.isPlain)
    (hs : r.AtRest target journals s) (alarm : Fault) :
    r.watch alarm unrepeated (2 * (r.graph.conditionsBelow i).ncard + 2) [] (some i) s =
      r.evaluate (some i) s := by
  refine watch_eq_evaluate hg alarm hi (fun path j hpath => ⟨?_, hpath.length_lt hg hb⟩) hs
  rw [unrepeated, List.dropLast_concat, decide_eq_true_eq]
  exact hpath.nodup_combined

/-- Where nothing but a cycle obstructs an item and no assessment is too deep, a cycle is met. -/
lemma assess_of_onlyCyclic (hg : r.graph.isPlain) (hm : r.matcher.Decides) (hi : i.isPlain)
    (hcyclic : r.graph.OnlyCyclic i) {k : Nat}
    (hk : r.assess target k [] i ≠ .error (.problem .tooDeep)) :
    r.assess target k [] i = .error (.problem .cycle) := by
  obtain ⟨c, hreach, hcycle⟩ := hcyclic.cycle
  cases h : r.assess target k [] i with
  | ok x =>
      obtain ⟨v, n⟩ := x
      obtain ⟨hv, hn, -⟩ := reads_of_assess h
      exact absurd (.cycle hreach hcycle) (hv.not_obstructed hn le_rfl)
  | error o =>
      cases o with
      | fault f => exact absurd h (assess_ne_fault hg hm hi)
      | problem kind =>
          rcases kind_of_assess h with rfl | rfl | ⟨e, he, ⟨-, hd, ht⟩ | ⟨-, name, hd⟩⟩
          · exact absurd h hk
          · rfl
          · exact absurd ht (hcyclic.bound e he hd)
          · exact absurd hd (hcyclic.known e name he)

/-- **The guard alone bounds an evaluation.** After any calls on a pass, an evaluation of an item of
a pack whose references are bound to conditions does the same as one that raises an alarm as soon as
a condition is combined inside itself, or as soon as the items that are evaluated inside each other
are more than two for each condition that the item reaches, and two more. It has a verdict if the
matcher never gives up. If the depth limit leaves so many levels, no diagnostic says that the
evaluation is too deep, and an item that reaches a reference cycle and nothing else that obstructs
it is reported for a cycle. -/
theorem evaluate_within_guard (r : Rulebook) (hg : r.graph.isPlain) (hb : r.graph.bindsConditions)
    (target : Attributes) (journals : Journals) (calls : List Call)
    (hcalls : ∀ q ∈ calls, q.isPlain) (i : Item) (hi : i.isPlain) :
    let s := Call.serveAll r calls (fresh target journals)
    let limit := 2 * (r.graph.conditionsBelow i).ncard + 2
    (r.graph.conditionsBelow i).Finite ∧
    (∀ alarm, r.watch alarm unrepeated limit [] (some i) s = r.evaluate (some i) s) ∧
    (r.matcher.Decides → ∃ v, (r.evaluate (some i)).answer s = .ok v) ∧
    (limit ≤ r.maxDepth → ∃ noted,
      ((r.evaluate (some i)).left s).pass.diagnostics = s.pass.diagnostics ++ noted ∧
      (∀ d ∈ noted, d.code ≠ Problem.Kind.tooDeep.code) ∧
      (r.graph.OnlyCyclic i → r.matcher.Decides →
        (r.evaluate (some i)).answer s = .ok .error ∧
          ∃ d, noted = [d] ∧ d.code = Problem.Kind.cycle.code)) := by
  intro s limit
  have hfresh : r.Idle target journals (fresh target journals) := idle_fresh
  have hs := (Call.idle_serveAll hg hcalls hfresh).toAtRest
  obtain ⟨hanswer, -, noted, hnoted, hcodes⟩ := evaluate_spec (i := some i) hg hi hs
  refine ⟨r.graph.finite_conditionsBelow i, watch_unrepeated hg hb hi hs, fun hm => ?_,
    fun hlimit => ?_⟩
  · rw [hanswer]
    exact exists_outcome (i := some i) hg hm hi
  have hdeep : r.assess (calls.foldl Call.turn target) r.maxDepth [] i ≠
      .error (.problem .tooDeep) := assess_ne_tooDeep hg hb hlimit
  refine ⟨noted, hnoted, fun d hd hcode => ?_, fun hcyclic hm => ?_⟩
  · have hmem : Problem.Kind.tooDeep.code ∈ r.codes (calls.foldl Call.turn target) (some i) := by
      rw [← hcodes, ← hcode]
      exact List.mem_map_of_mem hd
    obtain ⟨kind, hassess, hkind⟩ := exists_of_mem_codes hmem
    rcases kind_of_assess hassess with rfl | rfl | ⟨e, -, ⟨rfl, -⟩ | ⟨rfl, -⟩⟩
    · exact hdeep hassess
    · exact absurd hkind (by decide)
    · exact absurd hkind (by decide)
    · exact absurd hkind (by decide)
  · have hcycle := assess_of_onlyCyclic hg hm hi hcyclic hdeep
    rw [codes, hcycle] at hcodes
    obtain ⟨d, rfl, hcode⟩ := List.map_eq_singleton_iff.mp hcodes
    refine ⟨?_, d, rfl, hcode⟩
    rw [hanswer, outcome, hcycle]
    rfl

/-- In the sample the artifact that is guarded by the condition on the cycle reaches one condition.
Four levels, all of which it takes, are enough to report the cycle, also after the condition was
combined as such. -/
theorem evaluate_within_guard_sample :
    let r : Rulebook := ⟨Graph.sample, Matcher.wildcard true, 4⟩
    let calls : List Call := [.asCondition (some (.condition ⟨4⟩)),
      .request (.evaluate (some (.condition ⟨0⟩)))]
    let s := Call.serveAll r calls (fresh Attributes.empty {})
    r.graph.isPlain ∧ r.graph.bindsConditions ∧ (∀ q ∈ calls, q.isPlain) ∧
      r.matcher.Decides ∧ r.graph.OnlyCyclic (.artifact ⟨1⟩) ∧
      (∀ alarm, r.watch alarm unrepeated 4 [] (some (.artifact ⟨1⟩)) s =
        r.evaluate (some (.artifact ⟨1⟩)) s) ∧
      (r.evaluate (some (.artifact ⟨1⟩))).answer s = .ok .error := by
  intro r calls s
  have hm : r.matcher.Decides := Matcher.decides_wildcard true
  have hcalls : ∀ q ∈ calls, q.isPlain := by decide
  let below : List Item := [.artifact ⟨1⟩, .condition ⟨4⟩, .expression ⟨6⟩]
  have hclosed : ∀ j ∈ below, ∀ k ∈ r.graph.successors j, k ∈ below := by decide
  have hreach : ∀ j, r.graph.Reaches (.artifact ⟨1⟩) j → j ∈ below := by
    intro j hj
    induction hj with
    | refl => exact .head _
    | tail _ hjk ih => exact hclosed _ ih _ hjk
  have hguard : r.graph.Leads (.artifact ⟨1⟩) (.condition ⟨4⟩) := .head _
  have hdown : r.graph.Leads (.condition ⟨4⟩) (.expression ⟨6⟩) := .head _
  have hback : r.graph.Leads (.expression ⟨6⟩) (.condition ⟨4⟩) := .head _
  have hcyclic : r.graph.OnlyCyclic (.artifact ⟨1⟩) := by
    have hexpression : ∀ e, r.graph.Reaches (.artifact ⟨1⟩) (.expression e) → e = ⟨6⟩ := by
      intro e he
      simpa [below] using hreach _ he
    refine ⟨⟨⟨4⟩, .single hguard, .head hdown (.single hback)⟩, fun e he _ => ?_,
      fun e name he => ?_⟩
    · rw [hexpression e he]
      decide
    · rw [hexpression e he]
      exact nofun
  have hbelow : r.graph.conditionsBelow (.artifact ⟨1⟩) = {⟨4⟩} := by
    ext c
    refine ⟨fun hc => ?_, fun hc => ?_⟩
    · simpa [below] using hreach _ hc
    · obtain rfl := Set.mem_singleton_iff.mp hc
      exact .single hguard
  have h := evaluate_within_guard r Graph.isPlain_sample (by decide) Attributes.empty {} calls
    hcalls (.artifact ⟨1⟩) rfl
  rw [hbelow, Set.ncard_singleton] at h
  obtain ⟨-, hwatch, -, hreport⟩ := h
  obtain ⟨noted, -, -, hcycle⟩ := hreport (by decide)
  exact ⟨Graph.isPlain_sample, by decide, hcalls, hm, hcyclic, hwatch, (hcycle hcyclic hm).1⟩

end Rulebook

end Applicability
