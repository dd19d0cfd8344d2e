/-
Outcomes: what an evaluation in a new pass comes to.

* `Graph.Obstructed`: the four reasons for which there is no verdict on an item. It reaches a
  condition that is nested inside itself, a reference that is bound to nothing, an expression of an
  unknown domain, or a chain of nested items that is longer than the limit;
* `obstructed_of_assess`, `Reads.not_obstructed`: an assessment meets a problem only for one of
  these reasons, and comes to a verdict only if there is none;
* `evaluate_eq_error_iff`: the verdict is an error exactly for these reasons;
* `evaluate_reads`: every other verdict is the one by the rules.
-/
import Applicability.Proofs.Questions

namespace Applicability

namespace Matcher

/-- A matcher that never gives up. -/
def Decides (m : Matcher) : Prop := ∀ predicate target, ∃ met, m predicate target = .ok met

lemma decides_wildcard (observeCase : Bool) : (wildcard observeCase).Decides :=
  fun _ _ => ⟨_, rfl⟩

end Matcher

/-! ### Obstructions -/

namespace Graph

/-- **Why there is no verdict on an item**, given how many items may be nested. -/
inductive Obstructed (g : Graph) (limit : Nat) (i : Item) : Prop where
  | cycle {c : ConditionRef} : g.Reaches i (.condition c) → g.OnCycle (.condition c) →
      Obstructed g limit i
  | unbound {e : ExpressionRef} : g.Reaches i (.expression e) →
      (g.expression e).domain = .reference → (g.expression e).target = none → Obstructed g limit i
  | unknown {e : ExpressionRef} {name : String} : g.Reaches i (.expression e) →
      (g.expression e).domain = .other name → Obstructed g limit i
  | deep {rest : List Item} : List.IsChain g.Leads (i :: rest) → limit < (i :: rest).length →
      Obstructed g limit i

/-- What obstructs a successor obstructs the item, which takes one level itself. -/
lemma Obstructed.over {g : Graph} {limit : Nat} {i j : Item} (h : g.Obstructed limit j)
    (hij : g.Leads i j) : g.Obstructed (limit + 1) i := by
  cases h with
  | cycle hr hc => exact .cycle (.head hij hr) hc
  | unbound hr hd ht => exact .unbound (.head hij hr) hd ht
  | unknown hr hd => exact .unknown (.head hij hr) hd
  | deep hchain hlen =>
      refine .deep (hchain.cons_cons hij) ?_
      rw [List.length_cons]
      omega

end Graph

namespace Rulebook

variable {r : Rulebook} {target : Attributes} {i j : Item} {v : Verdict} {o : Obstacle}

/-- What stands in the way at an item itself, while some conditions are being combined. -/
inductive Blocked (r : Rulebook) (target : Attributes) (held : List ConditionRef) :
    Item → Obstacle → Prop where
  | cycle {c : ConditionRef} : c ∈ held → Blocked r target held (.condition c) (.problem .cycle)
  | unbound {e : ExpressionRef} : (r.graph.expression e).domain = .reference →
      (r.graph.expression e).target = none →
      Blocked r target held (.expression e) (.problem .unresolvedReference)
  | unknown {e : ExpressionRef} {name : String} : (r.graph.expression e).domain = .other name →
      Blocked r target held (.expression e) (.problem .unknownDomain)
  | gaveUp {e : ExpressionRef} {f : Fault} :
      r.matcher (r.graph.expression e).attributes target = .error f →
      Blocked r target held (.expression e) (.fault f)
  | scripted {s : ScriptRef} : Blocked r target held (.scripted s) (.fault .noVerdict)

/-- **Where an obstacle comes from**: from the item itself or from one of its successors, which is
assessed while the item is held too, if it is a condition; it is not held already then. -/
lemma assessItem_error {recur : List ConditionRef → Item → Assessment} {held : List ConditionRef}
    (h : r.assessItem target recur held i = .error o) :
    r.Blocked target held i o ∨
      (∀ c, i = .condition c → c ∉ held) ∧
        ∃ j, r.graph.Leads i j ∧ recur (held ++ i.condition?.toList) j = .error o := by
  cases i with
  | expression e =>
      rcases (r.graph.expression e).domain.cases_matched with hd | hd | hd | ⟨name, hd⟩
      · simp only [assessItem, hd] at h
        cases h
      · rw [assessItem_matched hd] at h
        cases hm : r.matcher (r.graph.expression e).attributes target with
        | ok met => rw [hm] at h; cases h
        | error f => rw [hm] at h; cases h; exact .inl (.gaveUp hm)
      · simp only [assessItem, hd] at h
        cases ht : (r.graph.expression e).target with
        | none => rw [ht] at h; cases h; exact .inl (.unbound hd ht)
        | some j =>
            rw [ht] at h
            refine .inr ⟨fun c hc => Item.noConfusion hc, j, Graph.leads_target hd ht, ?_⟩
            simpa [Item.condition?] using h
      · simp only [assessItem, hd] at h
        cases h
        exact .inl (.unknown hd)
  | condition c =>
      by_cases hc : c ∈ held
      · simp only [assessItem, hc, if_true] at h
        cases h
        exact .inl (.cycle hc)
      · simp only [assessItem, assessTally, hc, if_false] at h
        -- the first expression without a verdict is the obstacle of the condition
        cases hm : (r.graph.condition c).expressions.mapM
          (fun e => recur (held ++ [c]) (.expression e)) with
        | ok outcomes => rw [hm] at h; cases h
        | error o' =>
            rw [hm] at h
            cases h
            obtain ⟨e, he, ho⟩ := exists_error_of_mapM hm
            refine .inr ⟨?_, .expression e, Graph.leads_expression he, ho⟩
            rintro _ ⟨⟩
            exact hc
  | artifact a =>
      simp only [assessItem] at h
      cases hg : (r.graph.artifact a).guard with
      | none => rw [hg] at h; cases h
      | some j =>
          rw [hg] at h
          refine .inr ⟨fun c hc => Item.noConfusion hc, j, Graph.leads_guard hg, ?_⟩
          simpa [Item.condition?] using h
  | scripted s =>
      cases h
      exact .inl .scripted

/-- **An assessment meets a problem only where the item is obstructed**, or leads back to one of the
conditions that are being combined. -/
lemma obstructed_of_assess {kind : Problem.Kind} {k : Nat} {held : List ConditionRef}
    (h : r.assess target k held i = .error (.problem kind)) :
    r.graph.Obstructed k i ∨ ∃ c ∈ held, r.graph.Reaches i (.condition c) := by
  induction k generalizing held i with
  | zero => exact .inl (.deep (.singleton i) (by simp))
  | succ k ih =>
      rw [assess] at h
      cases hitem : r.assessItem target (r.assess target k) held i with
      | ok x => rw [hitem] at h; cases h
      | error o =>
          rw [hitem] at h
          cases h
          rcases assessItem_error hitem with hb | ⟨-, j, hij, hj⟩
          · cases hb with
            | cycle hc => exact .inr ⟨_, hc, .refl⟩
            | unbound hd ht => exact .inl (.unbound .refl hd ht)
            | unknown hd => exact .inl (.unknown .refl hd)
          · rcases ih hj with hobs | ⟨c, hc, hreach⟩
            · exact .inl (hobs.over hij)
            · rcases List.mem_append.mp hc with hc | hc
              · exact .inr ⟨c, hc, .head hij hreach⟩
              · -- the item itself is the condition that is met again
                obtain rfl := Item.condition?_eq_some_iff.mp (Option.mem_toList.mp hc)
                exact .inl (.cycle .refl (.head' hij hreach))

/-- **What problem an assessment meets**: nesting goes too deep or around in a circle, or the item
reaches an expression that is the problem itself. -/
lemma kind_of_assess {kind : Problem.Kind} {k : Nat} {held : List ConditionRef}
    (h : r.assess target k held i = .error (.problem kind)) :
    kind = .tooDeep ∨ kind = .cycle ∨ ∃ e, r.graph.Reaches i (.expression e) ∧
      (kind = .unresolvedReference ∧ (r.graph.expression e).domain = .reference ∧
          (r.graph.expression e).target = none ∨
        kind = .unknownDomain ∧ ∃ name, (r.graph.expression e).domain = .other name) := by
  induction k generalizing held i with
  | zero =>
      cases h
      exact .inl rfl
  | succ k ih =>
      rw [assess] at h
      cases hitem : r.assessItem target (r.assess target k) held i with
      | ok x => rw [hitem] at h; cases h
      | error o =>
          rw [hitem] at h
          cases h
          rcases assessItem_error hitem with hb | ⟨-, j, hij, hj⟩
          · cases hb with
            | cycle => exact .inr (.inl rfl)
            | unbound hd ht => exact .inr (.inr ⟨_, .refl, .inl ⟨rfl, hd, ht⟩⟩)
            | unknown hd => exact .inr (.inr ⟨_, .refl, .inr ⟨rfl, _, hd⟩⟩)
          · rcases ih hj with hdeep | hcycle | ⟨e, hreach, he⟩
            · exact .inl hdeep
            · exact .inr (.inl hcycle)
            · exact .inr (.inr ⟨e, .head hij hreach, he⟩)

/-- In the graph of a pack, an assessment meets a fault only where the matcher gives up. -/
lemma assess_ne_fault (hg : r.graph.isPlain) (hm : r.matcher.Decides) (hi : i.isPlain) {k : Nat}
    {held : List ConditionRef} {f : Fault} : r.assess target k held i ≠ .error (.fault f) := by
  induction k generalizing held i with
  | zero => intro h; cases h
  | succ k ih =>
      intro h
      rw [assess] at h
      cases hitem : r.assessItem target (r.assess target k) held i with
      | ok x => rw [hitem] at h; cases h
      | error o =>
          rw [hitem] at h
          cases h
          rcases assessItem_error hitem with hb | ⟨-, j, hij, hj⟩
          · cases hb with
            | @gaveUp e _ hf =>
                obtain ⟨met, hmet⟩ := hm (r.graph.expression e).attributes target
                rw [hmet] at hf
                cases hf
            | scripted => cases hi
          · exact ih (Graph.isPlain_of_leads hg hij) hj

/-- Where the rules give a verdict, they give one on everything that is evaluated inside. -/
lemma Reads.of_reaches (h : r.Reads target i v) (hij : r.graph.Reaches i j) :
    ∃ w, r.Reads target j w := by
  induction hij with
  | refl => exact ⟨v, h⟩
  | tail _ hjk ih =>
      obtain ⟨w, hw⟩ := ih
      cases hw with
      | component hd =>
          rw [Graph.Leads, Graph.successors_expression_of_ne (by simp [hd])] at hjk
          cases hjk
      | matched hd _ =>
          rw [Graph.Leads, Graph.successors_expression_of_ne (by rintro he; simp [he] at hd)] at hjk
          cases hjk
      | reference hd ht hj =>
          rw [Graph.Leads, Graph.successors_expression hd, ht] at hjk
          obtain rfl := List.mem_singleton.mp hjk
          exact ⟨w, hj⟩
      | condition verdict hs _ =>
          obtain ⟨e, he, rfl⟩ := List.mem_map.mp hjk
          exact ⟨verdict e, hs e he⟩
      | unguarded hg =>
          rw [Graph.Leads, Graph.successors, hg] at hjk
          cases hjk
      | guarded hg hj =>
          rw [Graph.Leads, Graph.successors, hg] at hjk
          obtain rfl := List.mem_singleton.mp hjk
          exact ⟨w, hj⟩

/-- **Nothing obstructs an item on which the rules give a verdict** and whose height fits. -/
lemma Reads.not_obstructed {n limit : Nat} (h : r.Reads target i v) (hs : r.graph.Spans i n)
    (hn : n ≤ limit) : ¬ r.graph.Obstructed limit i := by
  intro hobs
  cases hobs with
  | cycle hreach hcycle =>
      obtain ⟨m, hm, -⟩ := hs.of_reaches hreach
      exact hm.not_onCycle hcycle
  | unbound hreach hd ht =>
      -- the rules give a verdict on all that is reached, but none on an expression like this one
      obtain ⟨w, hw⟩ := h.of_reaches hreach
      cases hw with
      | component hd' => rw [hd] at hd'; cases hd'
      | matched hd' => simp [hd] at hd'
      | reference _ ht' => rw [ht] at ht'; cases ht'
  | unknown hreach hd =>
      obtain ⟨w, hw⟩ := h.of_reaches hreach
      cases hw with
      | component hd' => rw [hd] at hd'; cases hd'
      | matched hd' => simp [hd] at hd'
      | reference hd' => rw [hd] at hd'; cases hd'
  | deep hchain hlen =>
      have := hs.length_le_of_isChain hchain
      omega

/-! ### New passes -/

/-- In a new pass an evaluation has a verdict by the rules, or an error because of what obstructs
the item, or the matcher gives up. -/
lemma outcome_cases (r : Rulebook) (target : Attributes) (i : Item) :
    (∃ v n, r.outcome target (some i) = .ok v ∧ r.Reads target i v ∧ r.graph.Spans i n ∧
        n ≤ r.maxDepth) ∨
      (r.outcome target (some i) = .ok .error ∧ r.graph.Obstructed r.maxDepth i) ∨
      ∃ f, r.outcome target (some i) = .error f ∧
        r.assess target r.maxDepth [] i = .error (.fault f) := by
  rw [outcome]
  cases h : r.assess target r.maxDepth [] i with
  | ok x =>
      obtain ⟨v, n⟩ := x
      obtain ⟨hv, hn, hle⟩ := reads_of_assess h
      exact .inl ⟨v, n, rfl, hv, hn, hle⟩
  | error o =>
      cases o with
      | problem kind =>
          rcases obstructed_of_assess h with hobs | ⟨c, hc, -⟩
          · exact .inr (.inl ⟨rfl, hobs⟩)
          · cases hc
      | fault f => exact .inr (.inr ⟨f, rfl, rfl⟩)

lemma exists_outcome (hg : r.graph.isPlain) (hm : r.matcher.Decides) {i : Option Item}
    (hi : i.all Item.isPlain) : ∃ v, r.outcome target i = .ok v := by
  cases i with
  | none => exact ⟨_, rfl⟩
  | some i =>
      rcases r.outcome_cases target i with ⟨v, _, hv, -⟩ | ⟨he, -⟩ | ⟨f, -, hf⟩
      · exact ⟨v, hv⟩
      · exact ⟨_, he⟩
      · exact absurd hf (assess_ne_fault hg hm hi)

lemma answer_fresh (hg : r.graph.isPlain) (hi : i.isPlain) (journals : Journals) :
    (r.evaluate (some i)).answer (fresh target journals) = r.outcome target (some i) :=
  (evaluate_spec (i := some i) hg hi atRest_fresh).1

/-- What is answered in a new pass is an error exactly if the item is obstructed. -/
lemma outcome_eq_error_iff (h : r.outcome target (some i) = .ok v) :
    v = .error ↔ r.graph.Obstructed r.maxDepth i := by
  rcases r.outcome_cases target i with ⟨w, n, hw, hr, hs, hn⟩ | ⟨he, hobs⟩ | ⟨f, hf, -⟩
  · obtain rfl : w = v := Except.ok.inj (hw.symm.trans h)
    have hne : w ≠ .error := by rintro rfl; rcases hr.isFinal with h | h | h <;> cases h
    exact ⟨fun h => absurd h hne, fun hobs => absurd hobs (hr.not_obstructed hs hn)⟩
  · obtain rfl : .error = v := Except.ok.inj (he.symm.trans h)
    exact ⟨fun _ => hobs, fun _ => rfl⟩
  · rw [hf] at h
    cases h

/-- **When an evaluation is an error.** If the evaluation of an item of a pack in a new pass has an
answer, it is an error exactly if the item reaches a condition on a reference cycle, a reference
that is bound to nothing, an expression of an unknown domain, or a chain of nested items that is
longer than the limit. With a matcher that never gives up it always has an answer. -/
theorem evaluate_eq_error_iff (r : Rulebook) (hg : r.graph.isPlain) (target : Attributes)
    (journals : Journals) (i : Item) (hi : i.isPlain) :
    (∀ v, (r.evaluate (some i)).answer (fresh target journals) = .ok v →
      (v = .error ↔ r.graph.Obstructed r.maxDepth i)) ∧
    (r.matcher.Decides → ∃ v, (r.evaluate (some i)).answer (fresh target journals) = .ok v) := by
  rw [answer_fresh hg hi]
  exact ⟨fun v hv => outcome_eq_error_iff hv, fun hm => exists_outcome (i := some i) hg hm hi⟩

/-- In the sample an artifact is an error if its guard lies on a cycle, or if the limit is one level
short of it. -/
theorem evaluate_eq_error_sample :
    let r : Rulebook := ⟨Graph.sample, Matcher.wildcard true, 6⟩
    let target := Attributes.ofList [("core", "M4")]
    r.graph.isPlain ∧ r.matcher.Decides ∧
      (r.evaluate (some (.artifact ⟨1⟩))).answer (fresh target {}) = .ok .error ∧
      (r.evaluate (some (.artifact ⟨0⟩))).answer (fresh target {}) = .ok .error := by
  intro r target
  have hg : r.graph.isPlain := Graph.isPlain_sample
  have hm : r.matcher.Decides := Matcher.decides_wildcard true
  have herror : ∀ i : Item, i.isPlain → r.graph.Obstructed r.maxDepth i →
      (r.evaluate (some i)).answer (fresh target {}) = .ok .error := by
    intro i hi hobs
    obtain ⟨hiff, hanswer⟩ := evaluate_eq_error_iff r hg target {} i hi
    obtain ⟨v, hv⟩ := hanswer hm
    rw [hv, (hiff v hv).mpr hobs]
  refine ⟨hg, hm, herror _ rfl ?_, herror _ rfl ?_⟩
  · have hguard : r.graph.Leads (.artifact ⟨1⟩) (.condition ⟨4⟩) := .head _
    have hdown : r.graph.Leads (.condition ⟨4⟩) (.expression ⟨6⟩) := .head _
    have hback : r.graph.Leads (.expression ⟨6⟩) (.condition ⟨4⟩) := .head _
    exact .cycle (.single hguard) (.head hdown (.single hback))
  · have hchain : List.IsChain r.graph.Leads [.artifact ⟨0⟩, .condition ⟨3⟩, .expression ⟨4⟩,
        .condition ⟨1⟩, .expression ⟨1⟩, .condition ⟨0⟩, .expression ⟨0⟩] := by
      simp [Graph.Leads, Graph.successors, r, Graph.sample, Graph.artifact, Graph.condition,
        Graph.expression]
    exact .deep hchain (by decide)

/-- **What every other verdict means.** If the evaluation of an item of a pack in a new pass does
not end in an error, it comes to the one verdict that the rules give, which is fulfilled, failed or
ignored; and every item inside comes to the verdict of the rules on it, too. -/
theorem evaluate_reads (r : Rulebook) (hg : r.graph.isPlain) (target : Attributes)
    (journals : Journals) (i : Item) (hi : i.isPlain) (v : Verdict)
    (h : (r.evaluate (some i)).answer (fresh target journals) = .ok v) (hv : v ≠ .error) :
    (v = .graded .fulfilled ∨ v = .graded .failed ∨ v = .ignored) ∧
      r.Reads target i v ∧ (∀ w, r.Reads target i w → w = v) ∧
      ∀ j, r.graph.Reaches i j →
        ∃ w, (r.evaluate (some j)).answer (fresh target journals) = .ok w ∧
          r.Reads target j w := by
  rw [answer_fresh hg hi] at h
  rcases r.outcome_cases target i with ⟨w, n, hw, hr, hs, hn⟩ | ⟨he, -⟩ | ⟨f, hf, -⟩
  · rw [hw] at h
    cases h
    refine ⟨hr.isFinal, hr, fun w hw => hw.unique hr, fun j hij => ?_⟩
    obtain ⟨w, hw⟩ := hr.of_reaches hij
    obtain ⟨m, hm, hle⟩ := hs.of_reaches hij
    refine ⟨w, ?_, hw⟩
    rw [answer_fresh hg (Graph.isPlain_of_reaches hg hi hij), outcome,
      assess_of_reads hm hw r.maxDepth (by simp), if_pos (hle.trans hn)]
    rfl
  · rw [he] at h
    cases h
    exact absurd rfl hv
  · rw [hf] at h
    cases h

/-- In the sample the top condition is fulfilled in the one way on its base, and in the other way
elsewhere. -/
theorem evaluate_reads_sample :
    let r : Rulebook := ⟨Graph.sample, Matcher.wildcard true, 7⟩
    let target := Attributes.ofList [("core", "M0")]
    r.graph.isPlain ∧
      (r.evaluate (some (.artifact ⟨0⟩))).answer (fresh target {}) = .ok (.graded .fulfilled) ∧
      r.Reads target (.artifact ⟨0⟩) (.graded .fulfilled) := by
  intro r target
  have hg : r.graph.isPlain := Graph.isPlain_sample
  have hanswer : (r.evaluate (some (.artifact ⟨0⟩))).answer (fresh target {}) =
      .ok (.graded .fulfilled) := (answer_fresh hg rfl {}).trans rfl
  exact ⟨hg, hanswer,
    (evaluate_reads r hg target {} (.artifact ⟨0⟩) rfl _ hanswer (by decide)).2.1⟩

end Rulebook

end Applicability
