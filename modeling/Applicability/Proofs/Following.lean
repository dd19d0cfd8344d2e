/-
Following: an evaluation that remembers does what an assessment says, which does not.

* `Follows`: an evaluation gives the same verdict as an assessment and reaches just as deep, or
  notes a diagnostic of the same kind, or meets the same fault; and it keeps the pass sound and
  leaves the rest of it as it was;
* `visit_follows`, `tallyFrom_follows`, `holding_follows`, `combine_follows`,
  `evaluateItem_follows`: one level, the expressions of a condition, the same while it is held, a
  condition, and every item;
* `evaluateWithin_follows`: every evaluation follows the assessment with the levels that are left,
  in any sound pass. The induction is on the levels that are granted; it is carried by
  `Rulebook.Ready`: every condition that is being combined leads to the item at hand, so that an
  item with a grade on record, below which there is no cycle, never meets such a condition again.
-/
import Applicability.Proofs.Records

namespace Applicability

/-! ### Computations step by step -/

namespace Run

variable {α β : Type} {x : Run α} {f : α → Run β} {s t : Scene}

lemma bind_of_ok {a : α} (h : x s = .ok a t) : (x >>= f) s = f a t := by
  simp only [bind, EStateM.bind, h]

lemma bind_of_error {e : Fault} (h : x s = .error e t) : (x >>= f) s = .error e t := by
  simp only [bind, EStateM.bind, h]

lemma get_bind {k : Scene → Run β} : (get >>= k : Run β) s = k s s := rfl

lemma modifyPass_bind {g : Pass → Pass} {k : Unit → Run β} :
    (modifyPass g >>= k) s = k () { s with pass := g s.pass } := rfl

/-- Holding a condition is letting go of it in the end, if it is still held then. -/
lemma holding_eq_ensuring {c : ConditionRef}
    (h : c ∈ (x.left { s with pass := s.pass.hold c }).pass.active) :
    holding c x s = ensuring x (·.release c) { s with pass := s.pass.hold c } := by
  rw [left] at h
  rw [holding, ensuring]
  cases hx : x { s with pass := s.pass.hold c } with
  | ok a t =>
      rw [hx] at h
      simp only [List.contains_eq_mem, h, decide_true, if_true]
  | error f t =>
      rw [hx] at h
      simp only [List.contains_eq_mem, h, decide_true, if_true]

end Run

/-! ### Following an assessment -/

/-- **Doing what an assessment says.** `found` and `failed` are the answers for an outcome and for a
problem. An outcome reaches as many levels deeper as its height says, and no diagnostic is noted; a
problem is noted in one diagnostic with its code; a fault is passed on. -/
inductive Follows (r : Rulebook) {α β : Type} (found : α → β) (failed : β) (s : Scene) :
    Except Obstacle (α × Nat) → EStateM.Result Fault Scene β → Prop where
  | found {a : α} {n : Nat} {t : Scene} : r.Sound t.pass → Kept s t →
      t.pass.reached = max s.pass.reached (s.pass.depth + n) →
      t.pass.diagnostics = s.pass.diagnostics →
      Follows r found failed s (.ok (a, n)) (.ok (found a) t)
  | failed {kind : Problem.Kind} {d : Diagnostic} {t : Scene} : r.Sound t.pass → Kept s t →
      t.pass.diagnostics = s.pass.diagnostics ++ [d] → d.code = kind.code →
      Follows r found failed s (.error (.problem kind)) (.ok failed t)
  | fault {f : Fault} {t : Scene} : r.Sound t.pass → Kept s t →
      t.pass.diagnostics = s.pass.diagnostics →
      Follows r found failed s (.error (.fault f)) (.error f t)

namespace Follows

variable {r : Rulebook} {α β : Type} {found : α → β} {failed : β} {s t : Scene}
  {o : Except Obstacle (α × Nat)} {c : ConditionRef}

lemma settleAccept {accept : Option Grade} {res : EStateM.Result Fault Scene β}
    (h : Follows r found failed { s with pass := s.pass.settleAccept accept } o res) :
    Follows r found failed s o res := by
  cases h with
  | found hs hk hr hd => exact .found hs ⟨hk.1, hk.2, hk.3, hk.4, hk.5⟩ hr hd
  | failed hs hk hd hc => exact .failed hs ⟨hk.1, hk.2, hk.3, hk.4, hk.5⟩ hd hc
  | fault hs hk hd => exact .fault hs ⟨hk.1, hk.2, hk.3, hk.4, hk.5⟩ hd

lemma diagnose (hs : r.Sound s.pass) {found : α → Verdict} (kind : Problem.Kind) (message : String)
    (conditionId : Option String) :
    Follows r found .error s (.error (.problem kind))
      (Run.diagnose kind message conditionId s) :=
  .failed (hs.congr rfl rfl) ⟨rfl, rfl, rfl, rfl, rfl⟩ rfl rfl

/-- An answer that takes no further level. -/
lemma answered {a : α} (hs : r.Sound s.pass) (hd : s.pass.depth ≤ s.pass.reached) :
    Follows r found failed s (.ok (a, 0)) (.ok (found a) s) :=
  .found hs (.refl s) (by simpa using (max_eq_left hd).symm) rfl

lemma verdict {v : Verdict} {n : Nat} (hs : r.Sound t.pass) (hk : Kept s t)
    (hreached : t.pass.reached = max s.pass.reached (s.pass.depth + n))
    (hdiag : t.pass.diagnostics = s.pass.diagnostics) :
    Follows r id Verdict.error s (.ok (v, n)) (.ok v t) :=
  @found r Verdict Verdict id .error s v n t hs hk hreached hdiag

lemma verdict_answered {v : Verdict} (hs : r.Sound s.pass) (hd : s.pass.depth ≤ s.pass.reached) :
    Follows r id Verdict.error s (.ok (v, 0)) (.ok v s) :=
  @answered r Verdict Verdict id .error s v hs hd

/-- What follows an assessment after a part that reached `n` levels deeper. -/
lemma after {n : Nat} {res : EStateM.Result Fault Scene β} (hk : Kept s t)
    (hreached : t.pass.reached = max s.pass.reached (s.pass.depth + n))
    (hdiag : t.pass.diagnostics = s.pass.diagnostics) (h : Follows r found failed t o res) :
    Follows r found failed s (o.map fun x => (x.1, max n x.2)) res := by
  cases h with
  | @found a m u hs hk' hr hd =>
      refine .found hs (hk.trans hk') ?_ (hd.trans hdiag)
      rw [hr, hreached, hk.depth]
      push_cast
      omega
  | failed hs hk' hd hc => exact .failed hs (hk.trans hk') (by rw [hd, hdiag]) hc
  | fault hs hk' hd => exact .fault hs (hk.trans hk') (hd.trans hdiag)

lemma kept {x : Run β} (h : Follows r found failed s o (x s)) : Kept s (x.left s) := by
  rw [Run.left]
  generalize x s = res at h
  cases h with
  | found _ hk => exact hk
  | failed _ hk => exact hk
  | fault _ hk => exact hk

/-- A pass that is changed meanwhile, if the change concerns nothing that is accounted for and is
made up for in the end. -/
lemma framed {u : Scene} {after : Pass → Pass} {x : Run β} (hbefore : s.pass.SameAccount u.pass)
    (hafter : ∀ p : Pass, p.SameAccount (after p))
    (hkept : ∀ t, Kept u t → Kept s { t with pass := after t.pass })
    (h : Follows r found failed u o (x u)) :
    Follows r found failed s o (Run.ensuring x after u) := by
  rw [Run.ensuring]
  generalize x u = res at h
  have hsound : ∀ {t : Scene}, r.Sound t.pass → r.Sound (after t.pass) := fun ht =>
    ht.congr (hafter _).target (hafter _).records
  cases h with
  | @found a n t hs hk hr hd =>
      refine .found (hsound hs) (hkept t hk) ?_ ?_
      · rw [(hafter _).reached, hr, hbefore.reached, hbefore.depth]
      · rw [(hafter _).diagnostics, hd, hbefore.diagnostics]
  | @failed kind d t hs hk hd hc =>
      refine .failed (hsound hs) (hkept t hk) ?_ hc
      rw [(hafter _).diagnostics, hd, hbefore.diagnostics]
  | @fault f t hs hk hd =>
      refine .fault (hsound hs) (hkept t hk) ?_
      rw [(hafter _).diagnostics, hd, hbefore.diagnostics]

/-- Asking for the opposite meanwhile makes no difference. -/
lemma asking (invert : Bool) {body : Run β}
    (h : Follows r found failed { s with pass := s.pass.ask (invert != s.pass.denying) } o
      (body { s with pass := s.pass.ask (invert != s.pass.denying) })) :
    Follows r found failed s o (Run.asking invert body s) :=
  framed ⟨rfl, rfl, rfl, rfl, rfl⟩ (fun _ => ⟨rfl, rfl, rfl, rfl, rfl⟩)
    (fun _ hk => ⟨hk.target, hk.active, rfl, hk.depth, hk.journals⟩) h

/-- Holding a condition meanwhile makes no difference afterwards: it is still held then, and let go
of. -/
lemma holding {body : Run β} (hc : c ∉ s.pass.active)
    (h : Follows r found failed { s with pass := s.pass.hold c } o
      (body { s with pass := s.pass.hold c })) :
    Follows r found failed s o (Run.holding c body s) := by
  rw [Run.holding_eq_ensuring (by rw [h.kept.active]; simp [Pass.hold])]
  refine framed ⟨rfl, rfl, rfl, rfl, rfl⟩ (fun _ => ⟨rfl, rfl, rfl, rfl, rfl⟩) (fun t hk => ?_) h
  refine ⟨hk.target, ?_, hk.denying, hk.depth, hk.journals⟩
  calc (t.pass.release c).active = ((s.pass.hold c).release c).active :=
        congrArg (·.erase c) hk.active
    _ = s.pass.active := by rw [Pass.release_hold hc]

end Follows

/-! ### One level -/

namespace Rulebook

variable {r : Rulebook} {s : Scene} {i : Item} {k : Nat}

/-- A scene in which an item may be evaluated with `k` levels left. Every condition that is being
combined leads to the item. -/
structure Ready (r : Rulebook) (k : Nat) (i : Item) (s : Scene) : Prop where
  sound : r.Sound s.pass
  levels : s.pass.depth + k = r.maxDepth
  held : ∀ c ∈ s.pass.active, Relation.TransGen r.graph.Leads (.condition c) i

/-- One step further down, in a scene that differs in nothing that matters. -/
lemma Ready.down {t : Scene} {j : Item} (h : r.Ready k i s) (hij : r.graph.Leads i j)
    (hs : r.Sound t.pass) (hd : t.pass.depth = s.pass.depth)
    (ha : t.pass.active = s.pass.active) : r.Ready k j t where
  sound := hs
  levels := by rw [hd]; exact h.levels
  held c hc := (h.held c (ha ▸ hc)).tail hij

lemma Ready.enter (h : r.Ready (k + 1) i s) : r.Ready k i { s with pass := s.pass.enter } where
  sound := h.sound.congr rfl rfl
  levels := by
    have := h.levels
    simp only [Pass.enter]
    omega
  held := h.held

/-- An item with a height meets none of the conditions that are being combined: they lead to it, and
it would lead back. -/
lemma Ready.not_reaches {n : Nat} (h : r.Ready k i s) (hn : r.graph.Spans i n) :
    ∀ c ∈ s.pass.active, ¬ r.graph.Reaches i (.condition c) := by
  intro c hc hreach
  obtain ⟨m, hm, -⟩ := hn.of_reaches hreach
  exact hm.not_onCycle ((h.held c hc).trans_left hreach)

/-- Refusing an item for its depth is what an assessment without levels says. -/
lemma exceed_follows (hg : r.graph.isPlain) (hs : r.Sound s.pass) (i : Item) :
    Follows r id Verdict.error s (.error (.problem .tooDeep)) (r.exceed i s) := by
  obtain ⟨shown, hshown⟩ := Graph.exists_literal hg i
  have : r.exceed i s = Run.diagnose .tooDeep
      s!"Evaluation depth limit of {r.maxDepth} reached at {shown}" (r.graph.idOf i) s := by
    rw [exceed, hshown]
    rfl
  rw [this]
  exact .diagnose hs _ _ _

/-- Coming back from a level: what is noted then is what the rules say. -/
lemma settle_follows {held : List ConditionRef} {res : EStateM.Result Fault Scene Verdict}
    (h : Follows r id Verdict.error { s with pass := s.pass.enter }
      (r.assessItem s.pass.target (r.assess s.pass.target k) held i) res) :
    Follows r id Verdict.error s (r.assess s.pass.target (k + 1) held i)
      (settle (i, s.pass.denying) s.pass.reached res) := by
  generalize ho : r.assessItem s.pass.target (r.assess s.pass.target k) held i = o at h
  cases h with
  | @found v n t hs hk hr hd =>
      have hassess : r.assess s.pass.target (k + 1) held i = .ok (v, n + 1) := by
        rw [assess, ho]
        rfl
      obtain ⟨hv, hn, -⟩ := reads_of_assess hassess
      -- the level was entered at depth + 1, and `n` levels were reached from there
      have hreached : t.pass.reached = s.pass.depth + (n + 1) := by
        rw [hr]
        simp only [Pass.enter]
        omega
      have hspan : t.pass.span = (n + 1 : Nat) := by
        have hdepth : t.pass.depth = s.pass.depth + 1 := hk.depth
        rw [Pass.span, hreached, hdepth]
        push_cast
        omega
      have hsound : r.Sound
          ((t.pass.leave s.pass.reached).record (i, s.pass.denying) v t.pass.span) := by
        have hleave : r.Sound (t.pass.leave s.pass.reached) := hs.congr rfl rfl
        have htarget : (t.pass.leave s.pass.reached).target = s.pass.target := hk.target
        rw [hspan]
        exact hleave.record (htarget ▸ hv) hn
      obtain ⟨records, hp⟩ :=
        (t.pass.leave s.pass.reached).exists_record (i, s.pass.denying) v t.pass.span
      rw [hassess]
      simp only [settle, id]
      rw [hp] at hsound ⊢
      have hk' := hk.leave s.pass.reached
      refine .verdict hsound ⟨hk'.1, hk'.2, hk'.3, hk'.4, hk'.5⟩ ?_ hd
      simp only [Pass.leave, hreached]
      push_cast
      rfl
  | @failed kind d t hs hk hd hc =>
      have hassess : r.assess s.pass.target (k + 1) held i = .error (.problem kind) := by
        rw [assess, ho]
        rfl
      have hsound : r.Sound
          ((t.pass.leave s.pass.reached).record (i, s.pass.denying) .error t.pass.span) :=
        Sound.record_error (hs.congr rfl rfl)
      obtain ⟨records, hp⟩ :=
        (t.pass.leave s.pass.reached).exists_record (i, s.pass.denying) .error t.pass.span
      rw [hassess]
      simp only [settle]
      rw [hp] at hsound ⊢
      have hk' := hk.leave s.pass.reached
      exact .failed hsound ⟨hk'.1, hk'.2, hk'.3, hk'.4, hk'.5⟩ hd hc
  | @fault f t hs hk hd =>
      have hassess : r.assess s.pass.target (k + 1) held i = .error (.fault f) := by
        rw [assess, ho]
        rfl
      rw [hassess]
      exact .fault (hs.congr rfl rfl) (hk.leave _) hd

/-- **One level follows the assessment**, whether the item is on record, too deep, or evaluated. -/
theorem visit_follows (hg : r.graph.isPlain) (hready : r.Ready k i s) {body : Run Verdict}
    (hbody : ∀ k', k = k' + 1 →
      Follows r id Verdict.error { s with pass := s.pass.enter }
        (r.assessItem s.pass.target (r.assess s.pass.target k') s.pass.active i)
        (body { s with pass := s.pass.enter })) :
    Follows r id Verdict.error s (r.assess s.pass.target k s.pass.active i) (r.visit i body s) := by
  have hlevels := hready.levels
  rw [visit]
  split
  · next g height hrec =>
    -- a grade on record: the assessment comes to it if its height fits
    obtain ⟨hv, n, rfl, hn⟩ := hready.sound _ _ _ hrec
    rw [assess_of_reads hn hv k (hready.not_reaches hn)]
    by_cases hfits : n ≤ k
    · rw [if_pos hfits, if_neg (by omega)]
      exact .verdict (hready.sound.congr rfl rfl) ⟨rfl, rfl, rfl, rfl, rfl⟩ rfl rfl
    · rw [if_neg hfits, if_pos (by omega)]
      exact exceed_follows hg hready.sound i
  · cases k with
    | zero =>
        rw [if_pos (by omega)]
        exact exceed_follows hg hready.sound i
    | succ k =>
        rw [if_neg (by push_cast at hlevels; omega)]
        exact settle_follows (hbody k rfl)

/-! ### Items -/

/-- A later scene of an evaluation, in which nothing has changed that the verdicts depend on. -/
structure Alike (r : Rulebook) (s t : Scene) : Prop where
  sound : r.Sound t.pass
  target : t.pass.target = s.pass.target
  active : t.pass.active = s.pass.active
  depth : t.pass.depth = s.pass.depth

lemma Alike.kept {t u : Scene} (h : r.Alike s t) (hu : r.Sound u.pass) (hk : Kept t u) :
    r.Alike s u :=
  ⟨hu, hk.target.trans h.target, hk.active.trans h.active, hk.depth.trans h.depth⟩

lemma Alike.ask {t : Scene} (h : r.Alike s t) (denying : Bool) :
    r.Alike s { t with pass := t.pass.ask denying } :=
  ⟨h.sound.congr rfl rfl, h.target, h.active, h.depth⟩

lemma tallyFrom_of_ok {recur : Recursion} {es : List ExpressionRef} {e : ExpressionRef} {t : Scene}
    {v : Verdict}
    (h : Run.asking (r.roleOf e == .deny) (recur (some (.expression e))) s = .ok v t)
    (hne : v ≠ .error) (tally : Tally) : r.tallyFrom recur (e :: es) tally s =
      r.tallyFrom recur es (tally.countVerdict (r.roleOf e) v) t := by
  rw [tallyFrom]
  refine (Run.bind_of_ok h).trans ?_
  cases v with
  | error => exact absurd rfl hne
  | _ => rfl

lemma tallyFrom_of_error {recur : Recursion} {es : List ExpressionRef} {e : ExpressionRef}
    {t : Scene}
    (h : Run.asking (r.roleOf e == .deny) (recur (some (.expression e))) s = .ok .error t)
    (tally : Tally) : r.tallyFrom recur (e :: es) tally s =
      .ok none { t with pass := t.pass.settleAccept none } := by
  rw [tallyFrom]
  exact Run.bind_of_ok h

/-- **Counting follows the assessments of the expressions**, up to the first problem. -/
lemma tallyFrom_follows {recur : Recursion} {assess : Item → Assessment}
    (hfinal : ∀ {j v n}, assess j = .ok (v, n) → v.IsFinal) {es : List ExpressionRef}
    (hrec : ∀ e ∈ es, ∀ t, r.Alike s t →
      Follows r id Verdict.error t (assess (.expression e)) (recur (some (.expression e)) t))
    (tally : Tally) {t : Scene} (ht : r.Alike s t) (hd : t.pass.depth ≤ t.pass.reached) :
    Follows r some none t (r.assessTally assess es tally) (r.tallyFrom recur es tally t) := by
  induction es generalizing tally t with
  | nil => exact .answered ht.sound hd
  | cons e rest ih =>
      have hask : Follows r id Verdict.error t (assess (.expression e))
          (Run.asking ((r.graph.expression e).role == .deny) (recur (some (.expression e))) t) :=
        .asking _ (hrec e (by simp) _ (ht.ask _))
      rw [assessTally_cons, tallyFrom]
      simp only [bind, EStateM.bind]
      generalize Run.asking ((r.graph.expression e).role == .deny)
        (recur (some (.expression e))) t = res at hask
      generalize ho : assess (.expression e) = o at hask
      cases hask with
      | @found v n u hs hk hr hdiag =>
          have hnext : ∀ tally, Follows r some none u (r.assessTally assess rest tally)
              (r.tallyFrom recur rest tally u) := fun tally =>
            ih (fun e' he' => hrec e' (by simp [he'])) tally (ht.kept hs hk) (by
              rw [hr, hk.depth]
              omega)
          rcases hfinal ho with rfl | rfl | rfl
          · exact (hnext _).after hk hr hdiag
          · exact (hnext _).after hk hr hdiag
          · exact (hnext _).after hk hr hdiag
      | failed hs hk hdiag hcode =>
          exact .failed (hs.congr rfl rfl) ⟨hk.1, hk.2, hk.3, hk.4, hk.5⟩ hdiag hcode
      | fault hs hk hdiag => exact .fault hs hk hdiag

/-- The evaluations that an item is made of follow their assessments with `k` levels left. -/
def Recurs (r : Rulebook) (k : Nat) (i : Item) (recur : Recursion) : Prop :=
  ∀ j t, r.graph.Leads i j → r.Ready k j t →
    Follows r id Verdict.error t (r.assess t.pass.target k t.pass.active j) (recur (some j) t)

/-- A condition that is being combined already is not combined again. -/
lemma combine_of_mem {recur : Recursion} {c : ConditionRef} (hc : c ∈ s.pass.active) :
    r.combine recur c s =
      Run.diagnose .cycle s!"Condition '{(r.graph.condition c).id}' references itself"
        (some (r.graph.condition c).id) s := by
  have hheld : s.pass.active.contains c = true := by simpa using hc
  rw [combine, Run.get_bind, if_pos hheld]

/-- Otherwise its expressions are counted while it is held. -/
lemma combine_of_not_mem {recur : Recursion} {c : ConditionRef} (hc : c ∉ s.pass.active) :
    r.combine recur c s =
      match Run.holding c (r.tallyFrom recur (r.graph.condition c).expressions {})
        { s with pass := s.pass.settleAccept none } with
      | .ok none t => .ok .error t
      | .ok (some tally) t => .ok tally.verdict { t with pass := t.pass.settleAccept tally.best }
      | .error f t => .error f t := by
  have hfree : ¬ s.pass.active.contains c = true := by simpa using hc
  rw [combine, Run.get_bind, if_neg hfree, Run.modifyPass_bind]
  cases hres : Run.holding c (r.tallyFrom recur (r.graph.condition c).expressions {})
    { s with pass := s.pass.settleAccept none } with
  | error f t => rw [Run.bind_of_error hres]
  | ok tally t =>
      rw [Run.bind_of_ok hres]
      cases tally <;> rfl

/-- While a condition is held, its expressions are counted as their assessments say. -/
lemma holding_follows {recur : Recursion} {c : ConditionRef}
    (hrec : r.Recurs k (.condition c) recur) (hready : r.Ready k (.condition c) s)
    (hd : s.pass.depth ≤ s.pass.reached) (hc : c ∉ s.pass.active) :
    Follows r some none s
      (r.assessTally (r.assess s.pass.target k (s.pass.active ++ [c]))
        (r.graph.condition c).expressions {})
      (Run.holding c (r.tallyFrom recur (r.graph.condition c).expressions {})
        { s with pass := s.pass.settleAccept none }) := by
  refine .settleAccept (.holding hc (tallyFrom_follows
    (s := { s with pass := (s.pass.settleAccept none).hold c })
    (fun h => (reads_of_assess h).1.isFinal) (fun e he t ht => ?_) {}
    ⟨hready.sound.congr rfl rfl, rfl, rfl, rfl⟩ hd))
  have htarget : t.pass.target = s.pass.target := ht.target
  have hactive : t.pass.active = s.pass.active ++ [c] := ht.active
  have hlead := Graph.leads_expression he
  rw [← htarget, ← hactive]
  refine hrec _ t hlead ⟨ht.sound, by rw [ht.depth]; exact hready.levels, fun c' hc' => ?_⟩
  rw [hactive] at hc'
  rcases List.mem_append.mp hc' with hc' | hc'
  · exact (hready.held c' hc').tail hlead
  · obtain rfl := List.mem_singleton.mp hc'
    exact .single hlead

/-- **Combining a condition follows its assessment.** -/
lemma combine_follows {recur : Recursion} {c : ConditionRef}
    (hrec : r.Recurs k (.condition c) recur) (hready : r.Ready k (.condition c) s)
    (hd : s.pass.depth ≤ s.pass.reached) :
    Follows r id Verdict.error s
      (r.assessItem s.pass.target (r.assess s.pass.target k) s.pass.active (.condition c))
      (r.combine recur c s) := by
  by_cases hc : c ∈ s.pass.active
  · rw [combine_of_mem hc, assessItem, if_pos hc]
    exact .diagnose hready.sound _ _ _
  have htally := holding_follows hrec hready hd hc
  rw [combine_of_not_mem hc, assessItem, if_neg hc]
  generalize Run.holding c (r.tallyFrom recur (r.graph.condition c).expressions {})
    { s with pass := s.pass.settleAccept none } = res at htally
  generalize r.assessTally (r.assess s.pass.target k (s.pass.active ++ [c]))
    (r.graph.condition c).expressions {} = o at htally
  cases htally with
  | @found tally n t hs hk hr hdiag =>
      exact .verdict (hs.congr rfl rfl) ⟨hk.1, hk.2, hk.3, hk.4, hk.5⟩ hr hdiag
  | failed hs hk hdiag hcode => exact .failed hs hk hdiag hcode
  | fault hs hk hdiag => exact .fault hs hk hdiag

/-- The verdict on an expression that the matcher decides. -/
lemma evaluateExpression_of_matched {recur : Recursion} {e : ExpressionRef}
    (hd : (r.graph.expression e).domain = .device ∨ (r.graph.expression e).domain = .toolchain) :
    r.evaluateExpression recur e s =
      match r.matcher (r.graph.expression e).attributes s.pass.target with
      | .ok met => .ok (.graded (if met then .fulfilled else .failed)) s
      | .error f => .error f s := by
  have hmatch : (do
      let met ← MonadExcept.ofExcept
        (r.matcher (r.graph.expression e).attributes (← get).pass.target)
      return .graded (if met then .fulfilled else .failed) : Run Verdict) s =
      match r.matcher (r.graph.expression e).attributes s.pass.target with
      | .ok met => .ok (.graded (if met then .fulfilled else .failed)) s
      | .error f => .error f s := by
    rw [Run.get_bind]
    cases r.matcher (r.graph.expression e).attributes s.pass.target <;> rfl
  rcases hd with hd | hd <;> simpa only [evaluateExpression, hd] using hmatch

/-- **Every item follows its assessment**, as its successors do. -/
lemma evaluateItem_follows {recur : Recursion} (hi : i.isPlain) (hrec : r.Recurs k i recur)
    (hready : r.Ready k i s) (hd : s.pass.depth ≤ s.pass.reached) :
    Follows r id Verdict.error s
      (r.assessItem s.pass.target (r.assess s.pass.target k) s.pass.active i)
      (r.evaluateItem recur i s) := by
  cases i with
  | condition c => exact combine_follows hrec hready hd
  | expression e =>
      rw [evaluateItem]
      rcases (r.graph.expression e).domain.cases_matched with hm | hm | hm | ⟨name, hm⟩
      · simp only [assessItem, evaluateExpression, hm]
        exact .verdict_answered hready.sound hd
      · rw [assessItem_matched hm, evaluateExpression_of_matched hm]
        cases r.matcher (r.graph.expression e).attributes s.pass.target with
        | ok met => exact .verdict_answered hready.sound hd
        | error f => exact .fault hready.sound (.refl s) rfl
      · cases ht : (r.graph.expression e).target with
        | none =>
            simp only [assessItem, evaluateExpression, hm, ht]
            exact .diagnose hready.sound _ _ _
        | some j =>
            simp only [assessItem, evaluateExpression, hm, ht]
            have hlead := Graph.leads_target hm ht
            exact hrec j s hlead (hready.down hlead hready.sound rfl rfl)
      · simp only [assessItem, evaluateExpression, hm]
        exact .diagnose hready.sound _ _ _
  | artifact a =>
      cases hg : (r.graph.artifact a).guard with
      | none =>
          simp only [assessItem, evaluateItem, evaluateArtifact, hg]
          exact .verdict_answered hready.sound hd
      | some j =>
          simp only [assessItem, evaluateItem, evaluateArtifact, hg]
          have hlead := Graph.leads_guard hg
          exact hrec j s hlead (hready.down hlead hready.sound rfl rfl)
  | scripted s => cases hi

/-- **Every evaluation follows the assessment** with the levels that are left, if it is granted more
levels than that. -/
theorem evaluateWithin_follows (hg : r.graph.isPlain) {n : Nat} (hkn : k < n) (hi : i.isPlain)
    (hready : r.Ready k i s) :
    Follows r id Verdict.error s (r.assess s.pass.target k s.pass.active i)
      (r.evaluateWithin n (some i) s) := by
  induction n generalizing k i s with
  | zero => omega
  | succ n ih =>
      rw [evaluateWithin]
      refine visit_follows hg hready fun k' hk => ?_
      subst hk
      exact evaluateItem_follows hi
        (fun j t hij ht => ih (by omega) (Graph.isPlain_of_leads hg hij) ht) hready.enter le_rfl

end Rulebook

end Applicability
