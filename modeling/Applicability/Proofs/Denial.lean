/-
Denial: asking for the opposite of a condition.

An expression that is denied is evaluated while the pass asks for the opposite. What is asked for is
part of the key under which a verdict is recorded, and of nothing else: the verdict is turned round
where the expression is counted, when everything inside it has been combined. So it does not matter
how many denied references lie around an item, and denying a condition denies it as a whole.

* `Rulebook.evaluateTurned`: an evaluation that is asked for the opposite at any point on its way;
* `evaluateTurned_follows`: it follows the same assessment;
* `deny_negates_condition`: a condition that denies another one has the opposite verdict, denying
  twice gives the verdict back, and denying several conditions is denying that one of them is met.
-/
import Applicability.Proofs.Judging

namespace Applicability

/-- A pack with two conditions on a target, one of which is denied, and denied again. Both are
denied in one condition, and another one denies that either is met. -/
def Graph.denials : Graph where
  expressions := #[
    { domain := .device, attributes := Attributes.ofList [("core", "M4")] },
    { domain := .device, attributes := Attributes.ofList [("vendor", "ST")] },
    { role := .deny, domain := .reference, target := some (.condition ⟨0⟩) },
    { role := .deny, domain := .reference, target := some (.condition ⟨2⟩) },
    { role := .deny, domain := .reference, target := some (.condition ⟨0⟩) },
    { role := .deny, domain := .reference, target := some (.condition ⟨1⟩) },
    { role := .accept, domain := .reference, target := some (.condition ⟨0⟩) },
    { role := .accept, domain := .reference, target := some (.condition ⟨1⟩) },
    { role := .deny, domain := .reference, target := some (.condition ⟨5⟩) }]
  conditions := #[
    { id := "core", expressions := [⟨0⟩] },
    { id := "vendor", expressions := [⟨1⟩] },
    { id := "not core", expressions := [⟨2⟩] },
    { id := "core again", expressions := [⟨3⟩] },
    { id := "neither", expressions := [⟨4⟩, ⟨5⟩] },
    { id := "either", expressions := [⟨6⟩, ⟨7⟩] },
    { id := "not either", expressions := [⟨8⟩] }]

namespace Rulebook

variable {r : Rulebook} {target : Attributes} {journals : Journals} {s : Scene} {i : Item}

/-! ### Asking for the opposite on the way -/

/-- **An evaluation that is turned round on its way**, with at most the given number of levels.
`path` holds the items that are being evaluated around the one at hand, the outermost first. Where
`turned` says so of the path that ends with the item at hand, the opposite is asked for from
there. -/
def evaluateTurned (r : Rulebook) (turned : List Item → Bool) : Nat → List Item → Recursion
  | _, _, none => return .ignored
  | 0, _, some _ => throw .endless
  | n + 1, path, some i =>
    Run.asking (turned (path ++ [i]))
      (r.visit i (r.evaluateItem (r.evaluateTurned turned n (path ++ [i])) i))

/-- **What is asked for makes no difference to the verdict**: wherever it is turned round, the
evaluation follows the same assessment. -/
theorem evaluateTurned_follows (hg : r.graph.isPlain) {turned : List Item → Bool} {n k : Nat}
    (hkn : k < n) (hi : i.isPlain) (hready : r.Ready k i s) (path : List Item) :
    Follows r id Verdict.error s (r.assess s.pass.target k s.pass.active i)
      (r.evaluateTurned turned n path (some i) s) := by
  induction n generalizing k i s path with
  | zero => omega
  | succ n ih =>
      rw [evaluateTurned]
      have hasked : r.Ready k i
          { s with pass := s.pass.ask (turned (path ++ [i]) != s.pass.denying) } :=
        ⟨hready.sound.congr rfl rfl, hready.levels, hready.held⟩
      refine .asking _ (visit_follows hg hasked fun k' hk => ?_)
      subst hk
      exact evaluateItem_follows hi (fun j t hij ht =>
        ih (by omega) (Graph.isPlain_of_leads hg hij) ht (path ++ [i])) hasked.enter le_rfl

lemma answer_of_follows {x : Run Verdict} {o : Assessment}
    (h : Follows r id Verdict.error s o (x s)) : x.answer s = answerOf o := by
  rw [Run.answer]
  generalize x s = res at h
  cases h <;> rfl

/-- In a pass at rest an evaluation that is turned round has the usual answer. -/
lemma answer_evaluateTurned (hg : r.graph.isPlain) (hi : i.isPlain)
    (hs : r.AtRest target journals s) (turned : List Item → Bool) :
    (r.evaluateTurned turned (r.maxDepth + 1) [] (some i)).answer s =
      r.outcome target (some i) := by
  rw [answer_of_follows (evaluateTurned_follows hg (Nat.lt_succ_self _) hi (hs.ready i) []),
    hs.target, hs.active]
  rfl

lemma AtRest.ask (hs : r.AtRest target journals s) (denying : Bool) :
    r.AtRest target journals { s with pass := s.pass.ask denying } :=
  ⟨hs.sound.congr rfl rfl, hs.target, hs.journals, hs.active, hs.depth⟩

/-! ### Denied conditions -/

/-- An answer on an item of a pack is one of four. -/
lemma outcome_mem {v : Verdict} (h : r.outcome target (some i) = .ok v) :
    v ∈ [.graded .fulfilled, .graded .failed, .ignored, .error] := by
  rcases r.outcome_cases target i with ⟨w, -, hw, hread, -⟩ | ⟨herror, -⟩ | ⟨f, hf, -⟩
  · obtain rfl : w = v := Except.ok.inj (hw.symm.trans h)
    rcases hread.isFinal with rfl | rfl | rfl <;> simp
  · obtain rfl : .error = v := Except.ok.inj (herror.symm.trans h)
    simp
  · rw [hf] at h
    cases h

/-- **Denying is negation of a condition as a whole.** Take any calls on a pass, and conditions
inside which nesting stays within the depth limit. One whose only expression is a denied reference
to another condition has the verdict of that one with fulfilled and failed exchanged, an ignored one
and an error staying what they are; a further denied reference gives the verdict back; and a
condition with denied references to some others has the verdict of one with a single denied
reference, to a condition that accepts each of them. If the matcher never gives up there is such a
verdict. It is the same, on every item of a pack, whether the pass asks for the item or for the
opposite, and wherever this is turned round in the course of the evaluation. -/
theorem deny_negates_condition (r : Rulebook) (hg : r.graph.isPlain) (target : Attributes)
    (journals : Journals) (calls : List Call) (hcalls : ∀ q ∈ calls, q.isPlain) :
    let s := Call.serveAll r calls (fresh target journals)
    let verdict := fun i => (r.evaluate (some i)).answer s
    let within := fun c => r.graph.NestsWithin r.maxDepth (.condition c)
    (∀ c d, r.graph.Lists .deny d [c] → within d →
      verdict (.condition d) = (verdict (.condition c)).map Verdict.negated) ∧
    (∀ c d e, r.graph.Lists .deny d [c] → r.graph.Lists .deny e [d] → within e →
      verdict (.condition e) = verdict (.condition c)) ∧
    (∀ listed a b c, r.graph.Lists .deny a listed → r.graph.Lists .accept c listed →
      r.graph.Lists .deny b [c] → within a → within b →
      verdict (.condition a) = verdict (.condition b)) ∧
    ∀ i : Item, i.isPlain →
      (r.matcher.Decides → ∃ v, verdict i = .ok v) ∧
      (∀ v, verdict i = .ok v → v ∈ [.graded .fulfilled, .graded .failed, .ignored, .error]) ∧
      (∀ denying, (r.evaluate (some i)).answer { s with pass := s.pass.ask denying } = verdict i) ∧
      ∀ turned, (r.evaluateTurned turned (r.maxDepth + 1) [] (some i)).answer s = verdict i := by
  intro s verdict within
  have hs : r.AtRest (calls.foldl Call.turn target) journals s :=
    (Call.idle_serveAll hg hcalls idle_fresh).toAtRest
  have hanswer : ∀ i : Item, i.isPlain →
      verdict i = r.outcome (calls.foldl Call.turn target) (some i) := fun i hi =>
    (evaluate_spec (i := some i) hg hi hs).1
  have hany : ∀ c, verdict (.condition c) =
      concluded (r.judge (calls.foldl Call.turn target) r.maxDepth [] (.condition c)) := fun c =>
    (hanswer _ rfl).trans (answerOf_eq_concluded _)
  -- with the limit kept, two levels more for each condition in between change nothing
  have hmore : ∀ c, within c → ∀ n, verdict (.condition c) =
      concluded (r.judge (calls.foldl Call.turn target) (r.maxDepth + n) [] (.condition c)) :=
    fun c hc n => (hanswer _ rfl).trans (outcome_of_nestsWithin hc (Nat.le_add_right _ n))
  refine ⟨fun c d hd hin => ?_, fun c d e hd he hin => ?_,
    fun listed a b c ha hc hb hina hinb => ?_,
    fun i hi => ⟨fun hm => ?_, fun v hv => ?_, fun denying => ?_, fun turned => ?_⟩⟩
  · rw [hmore d hin 2, judge_denied hd, concluded_map_negated, hany c]
  · rw [hmore e hin 4, judge_denied he, judge_denied hd, hany c]
    rcases r.judge _ r.maxDepth [] (.condition c) with f | v
    · rfl
    · exact congrArg Except.ok v.negated_negated
  · rw [hmore a hina 2, judge_denied_either ha hc, hmore b hinb 4, judge_denied hb]
  · rw [hanswer i hi]
    exact exists_outcome (i := some i) hg hm hi
  · exact outcome_mem ((hanswer i hi).symm.trans hv)
  · exact (evaluate_spec (i := some i) hg hi (hs.ask denying)).1.trans (hanswer i hi).symm
  · exact (answer_evaluateTurned hg hi hs turned).trans (hanswer i hi).symm

/-- In the sample of denials the target has the core but not the vendor. A limit of six levels is
just enough for what is denied twice and for the denial of either one. -/
theorem deny_negates_condition_sample :
    let r : Rulebook := ⟨Graph.denials, Matcher.wildcard true, 6⟩
    let calls : List Call := [.request (.evaluate (some (.condition ⟨6⟩))),
      .request (.retarget (Attributes.ofList [("core", "M4")])),
      .asCondition (some (.condition ⟨2⟩))]
    let s := Call.serveAll r calls (fresh Attributes.empty {})
    let verdict := fun i => (r.evaluate (some i)).answer s
    r.graph.isPlain ∧ (∀ q ∈ calls, q.isPlain) ∧
      verdict (.condition ⟨2⟩) = .ok (.graded .failed) ∧
      verdict (.condition ⟨3⟩) = .ok (.graded .fulfilled) ∧
      verdict (.condition ⟨4⟩) = verdict (.condition ⟨6⟩) ∧
      (r.evaluate (some (.condition ⟨0⟩))).answer { s with pass := s.pass.ask true } =
        .ok (.graded .fulfilled) := by
  intro r calls s verdict
  have hg : r.graph.isPlain := by decide
  have hcalls : ∀ q ∈ calls, q.isPlain := by decide
  have hleaf : ∀ d ∈ [(⟨0⟩ : ConditionRef), ⟨1⟩], ∀ k ∈ r.graph.successors (.condition d),
      r.graph.successors k = [] := by decide
  have hbase : ∀ d ∈ [(⟨0⟩ : ConditionRef), ⟨1⟩], r.graph.NestsWithin 2 (.condition d) := by
    refine fun d hd => .over fun k hk => .over fun l hl => ?_
    rw [Graph.Leads, hleaf d hd k hk] at hl
    cases hl
  have hcore : verdict (.condition ⟨0⟩) = .ok (.graded .fulfilled) :=
    (evaluate_spec (r := r) (i := some (.condition ⟨0⟩)) hg rfl
      (Call.idle_serveAll hg hcalls idle_fresh).toAtRest).1.trans rfl
  have hnot : r.graph.Lists .deny ⟨2⟩ [⟨0⟩] := .cons ⟨rfl, rfl, rfl⟩ .nil
  have hagain : r.graph.Lists .deny ⟨3⟩ [⟨2⟩] := .cons ⟨rfl, rfl, rfl⟩ .nil
  have hneither : r.graph.Lists .deny ⟨4⟩ [⟨0⟩, ⟨1⟩] :=
    .cons ⟨rfl, rfl, rfl⟩ (.cons ⟨rfl, rfl, rfl⟩ .nil)
  have heither : r.graph.Lists .accept ⟨5⟩ [⟨0⟩, ⟨1⟩] :=
    .cons ⟨rfl, rfl, rfl⟩ (.cons ⟨rfl, rfl, rfl⟩ .nil)
  have hnotEither : r.graph.Lists .deny ⟨6⟩ [⟨5⟩] := .cons ⟨rfl, rfl, rfl⟩ .nil
  have hnotWithin : r.graph.NestsWithin 4 (.condition ⟨2⟩) :=
    hnot.nestsWithin fun d hd => hbase d (List.mem_singleton.mp hd ▸ .head _)
  have hagainWithin : r.graph.NestsWithin 6 (.condition ⟨3⟩) :=
    hagain.nestsWithin fun d hd => List.mem_singleton.mp hd ▸ hnotWithin
  have hnotEitherWithin : r.graph.NestsWithin 6 (.condition ⟨6⟩) :=
    hnotEither.nestsWithin fun d hd => List.mem_singleton.mp hd ▸ heither.nestsWithin hbase
  obtain ⟨hdenied, htwice, hall, hitems⟩ :=
    deny_negates_condition r hg Attributes.empty {} calls hcalls
  refine ⟨hg, hcalls, ?_, ?_, ?_, ?_⟩
  · exact (hdenied _ _ hnot (hnotWithin.mono (by decide))).trans (congrArg _ hcore)
  · exact (htwice _ _ _ hnot hagain hagainWithin).trans hcore
  · exact hall _ _ _ _ hneither heither hnotEither
      ((hneither.nestsWithin hbase).mono (by decide)) hnotEitherWithin
  · exact ((hitems (.condition ⟨0⟩) rfl).2.2.1 true).trans hcore

end Rulebook

end Applicability
