/-
Measuring: the levels that an evaluation takes are the height of its item.

A pass keeps one running maximum of the depths that were reached. Each level sets it aside, starts
it anew and puts it back, an answer from the records raises it, and an evaluation that ends early
leaves it anywhere. Here every call is measured by this maximum, and the height is that of the
graph.

* `Graph.Gauged`: every grade on record has the height of its item;
* `Rulebook.Fills`, `Rulebook.Accounts`: what is to hold of the evaluation of an item itself and of
  a call, if they come to a verdict other than an error;
* `evaluateItem_deepens`, `visit_accounts`, `evaluateWithin_measured`: so it is, whatever the pass
  has been through, as long as its records are gauged. The induction is on the levels granted;
* `Rulebook.measureWithin`: the evaluation in which every call is measured, at whatever depth;
* `height_is_exact`: measuring makes no difference in any pass that calls lead to.
-/
import Mathlib.Order.Lattice.Nat
import Applicability.Proofs.Calls
import Applicability.Proofs.Finality
import Applicability.Proofs.Interrupting

namespace Applicability

open Applicability.Graph (highest)

/-! ### Gauged records -/

/-- **Gauged records**: every grade on record has the height of its item. -/
def Graph.Gauged (g : Graph) (p : Pass) : Prop :=
  ∀ key grade height, p.recordedGrade key = some (grade, height) →
    ∃ n : Nat, height = n ∧ g.Spans key.1 n

namespace Graph.Gauged

variable {g : Graph} {p q : Pass} {i : Item} {denying : Bool} {v : Verdict} {n : Nat}

lemma of_sound {r : Rulebook} (h : r.Sound p) : r.graph.Gauged p :=
  fun key grade height hk => (h key grade height hk).2

lemma congr (h : g.Gauged p) (hr : q.records = p.records) : g.Gauged q := by
  intro key grade height hk
  rw [Pass.recordedGrade_congr hr] at hk
  exact h key grade height hk

lemma record (h : g.Gauged p) (hn : g.Spans i n) :
    g.Gauged (p.record (i, denying) v n) := by
  intro key grade height hk
  rw [Pass.recordedGrade_record] at hk
  split at hk
  · next hkey =>
    obtain ⟨rfl, -⟩ := hkey
    cases v with
    | graded g' =>
        cases hk
        exact ⟨n, rfl, hn⟩
    | _ => cases hk
  · exact h key grade height hk

lemma record_error (h : g.Gauged p) (key : RecordKey) (height : Int) :
    g.Gauged (p.record key .error height) := by
  intro other grade height' hk
  rw [Pass.recordedGrade_record] at hk
  split at hk
  · cases hk
  · exact h other grade height' hk

end Graph.Gauged

/-- Passes whose records stay gauged. -/
def Graph.KeepsGauge (g : Graph) (p q : Pass) : Prop := g.Gauged p → g.Gauged q

lemma allowsUnnoted_keepsGauge (g : Graph) : Pass.AllowsUnnoted g.KeepsGauge where
  refl _ h := h
  trans h h' hp := h' (h hp)
  diagnose _ _ _ h := h
  settleAccept _ _ h := h
  reach _ _ h := h
  level h := h
  asking _ h := h
  holding _ h := h

/-- The height of an item, if it has one. -/
noncomputable def Graph.height (g : Graph) (i : Item) : Nat := sInf {n | g.Spans i n}

lemma Graph.Spans.height_eq {g : Graph} {i : Item} {n : Nat} (h : g.Spans i n) : g.height i = n :=
  Spans.unique (Nat.sInf_mem ⟨n, h⟩) h

namespace Rulebook

variable {r : Rulebook} {recur : Recursion} {i j : Item} {s t : Scene} {v : Verdict}

/-! ### What is to hold of every call -/

/-- **The levels of an item itself**, evaluated in a level of its own: if it comes to a verdict
other than an error, then it has had all its successors evaluated and nothing else, and it spans one
level more than the highest of them. -/
def Fills (r : Rulebook) (recur : Recursion) (i : Item) (s : Scene)
    (res : EStateM.Result Fault Scene Verdict) : Prop :=
  ∀ v t, res = .ok v t → v ≠ .error → ∃ height : Item → Nat,
    (∀ j, r.Evaluates recur i s j ↔ j ∈ r.graph.successors i) ∧
    (∀ j ∈ r.graph.successors i, r.graph.Spans j (height j)) ∧
    t.pass.span = (highest ((r.graph.successors i).map height) + 1 : Nat)

/-- **The account of a call**: if it comes to a verdict other than an error, then the greatest depth
is that of before or as many levels further down as the height of the item says, and a grade is on
record with that height. -/
def Accounts (r : Rulebook) (i : Item) (s : Scene)
    (res : EStateM.Result Fault Scene Verdict) : Prop :=
  ∀ v t, res = .ok v t → v ≠ .error → ∃ n : Nat, r.graph.Spans i n ∧
    t.pass.reached = max s.pass.reached (s.pass.depth + n) ∧
    ∀ grade, v = .graded grade →
      t.pass.recordedGrade (i, s.pass.denying) = some (grade, (n : Int))

/-- Evaluations that are accounted for, keep the records gauged, and make up for what they do. -/
structure Measured (r : Rulebook) (recur : Recursion) : Prop where
  accounts {j : Item} {s : Scene} : j.isPlain → r.graph.Gauged s.pass →
    r.Accounts j s (recur (some j) s)
  gauge : RecursWith (fun i => i.isPlain) r.graph.KeepsGauge recur
  balanced : RecursWith (fun i => i.isPlain) Pass.Balanced recur

/-! ### The depth that is reached -/

/-- What is evaluated while the opposite is asked for, if it is, is accounted for too. -/
lemma Measured.asking (h : r.Measured recur) (hj : j.isPlain) (hs : r.graph.Gauged s.pass)
    {invert : Bool} (hres : Run.asking invert (recur (some j)) s = .ok v t) (hv : v ≠ .error) :
    r.graph.Gauged t.pass ∧ t.pass.depth = s.pass.depth ∧ ∃ n : Nat, r.graph.Spans j n ∧
      t.pass.reached = max s.pass.reached (s.pass.depth + n) := by
  have hgauge := Run.Effect.asking (allowsUnnoted_keepsGauge r.graph) invert (h.gauge.item hj) s
  have hkept := Run.Effect.asking Pass.allows_balanced.unnoted invert (h.balanced.item hj) s
  rw [Run.left_of_ok hres] at hgauge hkept
  refine ⟨hgauge hs, hkept.depth, ?_⟩
  rw [Run.asking, Run.ensuring] at hres
  split at hres
  · next v' u hin =>
    cases hres
    obtain ⟨n, hn, hreached, -⟩ :=
      h.accounts (s := { s with pass := s.pass.ask (invert != s.pass.denying) }) hj
        (hs.congr rfl) _ _ hin hv
    exact ⟨n, hn, hreached⟩
  · cases hres

/-- **Counting reaches as deep as the highest of the expressions.** -/
lemma tallyFrom_deepens (h : r.Measured recur) {es : List ExpressionRef} {tally tally' : Tally}
    (hs : r.graph.Gauged s.pass) (hd : s.pass.depth ≤ s.pass.reached)
    (hcount : r.tallyFrom recur es tally s = .ok (some tally') t) :
    (∀ e ∈ es, ∃ n, r.graph.Spans (.expression e) n) ∧
      t.pass.reached = max s.pass.reached
        (s.pass.depth + highest (es.map fun e => r.graph.height (.expression e))) := by
  induction es generalizing tally s with
  | nil =>
      cases hcount
      exact ⟨by simp, by simpa using hd⟩
  | cons e rest ih =>
      obtain ⟨w, u, hres, hw, hrest⟩ := exists_of_tallyFrom hcount
      obtain ⟨hu, hdepth, n, hn, hreached⟩ := h.asking rfl hs hres hw
      obtain ⟨hspans, hlast⟩ := ih hu (by omega) hrest
      refine ⟨fun e' he' => ?_, ?_⟩
      · rcases List.mem_cons.mp he' with rfl | he'
        · exact ⟨n, hn⟩
        · exact hspans e' he'
      · rw [hlast, hreached, hdepth, List.map_cons, Graph.highest_cons, hn.height_eq]
        omega

lemma deepens_leaf (hleaf : r.graph.successors i = []) (hd : s.pass.depth ≤ s.pass.reached)
    (ht : t.pass = s.pass) :
    (∀ j ∈ r.graph.successors i, ∃ n, r.graph.Spans j n) ∧
      t.pass.reached = max s.pass.reached
        (s.pass.depth + highest ((r.graph.successors i).map r.graph.height)) := by
  rw [hleaf, ht]
  exact ⟨by simp, by simpa using hd⟩

lemma deepens_single (hsingle : r.graph.successors i = [j]) {n : Nat} (hn : r.graph.Spans j n)
    (ht : t.pass.reached = max s.pass.reached (s.pass.depth + n)) :
    (∀ j ∈ r.graph.successors i, ∃ n, r.graph.Spans j n) ∧
      t.pass.reached = max s.pass.reached
        (s.pass.depth + highest ((r.graph.successors i).map r.graph.height)) := by
  rw [hsingle, ht]
  refine ⟨fun k hk => ⟨n, List.mem_singleton.mp hk ▸ hn⟩, ?_⟩
  simp [hn.height_eq]

/-- An expression reaches as deep as what it refers to. -/
lemma evaluateExpression_deepens {e : ExpressionRef} (h : r.Measured recur) (hg : r.graph.isPlain)
    (hs : r.graph.Gauged s.pass) (hd : s.pass.depth ≤ s.pass.reached)
    (hres : r.evaluateExpression recur e s = .ok v t) (hv : v ≠ .error) :
    (∀ j ∈ r.graph.successors (.expression e), ∃ n, r.graph.Spans j n) ∧
      t.pass.reached = max s.pass.reached
        (s.pass.depth + highest ((r.graph.successors (.expression e)).map r.graph.height)) := by
  rcases (r.graph.expression e).domain.cases_matched with hm | hm | hm | ⟨name, hm⟩
  · rw [evaluateExpression, hm] at hres
    cases hres
    exact deepens_leaf (Graph.successors_expression_of_ne (by simp [hm])) hd rfl
  · rw [evaluateExpression_of_matched hm] at hres
    have hne : (r.graph.expression e).domain ≠ .reference := by
      rcases hm with hm | hm <;> simp [hm]
    split at hres
    · cases hres
      exact deepens_leaf (Graph.successors_expression_of_ne hne) hd rfl
    · cases hres
  · cases htarget : (r.graph.expression e).target with
    | none =>
        simp only [evaluateExpression, hm, htarget] at hres
        cases hres
        exact absurd rfl hv
    | some j =>
        simp only [evaluateExpression, hm, htarget] at hres
        obtain ⟨n, hn, hreached, -⟩ :=
          h.accounts (Graph.isPlain_of_leads hg (Graph.leads_target hm htarget)) hs _ _ hres hv
        exact deepens_single (by simp [Graph.successors, hm, htarget]) hn hreached
  · simp only [evaluateExpression, hm] at hres
    cases hres
    exact absurd rfl hv

/-- **An item reaches as deep as the highest of its successors.** -/
lemma evaluateItem_deepens (h : r.Measured recur) (hg : r.graph.isPlain) (hi : i.isPlain)
    (hs : r.graph.Gauged s.pass) (hd : s.pass.depth ≤ s.pass.reached)
    (hres : r.evaluateItem recur i s = .ok v t) (hv : v ≠ .error) :
    (∀ j ∈ r.graph.successors i, ∃ n, r.graph.Spans j n) ∧
      t.pass.reached = max s.pass.reached
        (s.pass.depth + highest ((r.graph.successors i).map r.graph.height)) := by
  cases i with
  | scripted x => cases hi
  | condition c =>
      obtain ⟨-, tally, u, hcount, ht⟩ := exists_of_combine hres hv
      obtain ⟨hspans, hreached⟩ := tallyFrom_deepens h
        (s := { s with pass := s.pass.within (.condition c) }) (hs.congr rfl) hd hcount
      refine ⟨fun j hj => ?_, ?_⟩
      · obtain ⟨e, he, rfl⟩ := List.mem_map.mp hj
        exact hspans e he
      · rw [ht, Graph.successors, List.map_map]
        exact hreached
  | artifact a =>
      rw [evaluateItem, evaluateArtifact] at hres
      cases hguard : (r.graph.artifact a).guard with
      | none =>
          rw [hguard] at hres
          cases hres
          exact deepens_leaf (by simp [Graph.successors, hguard]) hd rfl
      | some j =>
          rw [hguard] at hres
          obtain ⟨n, hn, hreached, -⟩ :=
            h.accounts (Graph.isPlain_of_leads hg (Graph.leads_guard hguard)) hs _ _ hres hv
          exact deepens_single (by simp [Graph.successors, hguard]) hn hreached
  | expression e => exact evaluateExpression_deepens h hg hs hd hres hv

/-! ### One level and all of them -/

/-- **An item fills the level that is entered for it.** -/
lemma evaluateItem_fills (h : r.Measured recur) (hg : r.graph.isPlain) (hi : i.isPlain)
    (hs : r.graph.Gauged s.pass) :
    r.Fills recur i { s with pass := s.pass.enter }
      (r.evaluateItem recur i { s with pass := s.pass.enter }) := by
  intro v t hres hv
  have hkept := effect_evaluateItem Pass.allows_balanced.unnoted (calm_isPlain hg) h.balanced hi
    { s with pass := s.pass.enter }
  rw [Run.left_of_ok hres] at hkept
  obtain ⟨hspans, hreached⟩ := evaluateItem_deepens h hg hi
    (s := { s with pass := s.pass.enter }) (hs.congr rfl) le_rfl hres hv
  refine ⟨r.graph.height, fun j => evaluates_iff hg hi h.balanced hres hv, fun j hj => ?_, ?_⟩
  · obtain ⟨n, hn⟩ := hspans j hj
    rwa [hn.height_eq]
  · rw [Pass.span, hreached, hkept.depth]
    simp only [Pass.enter]
    push_cast
    omega

/-- What fills its level gives the item its height. -/
lemma Fills.spans {res : EStateM.Result Fault Scene Verdict} (h : r.Fills recur i s res)
    (hres : res = .ok v t) (hv : v ≠ .error) :
    ∃ n : Nat, t.pass.span = n ∧ r.graph.Spans i n := by
  obtain ⟨height, -, hspans, hspan⟩ := h v t hres hv
  exact ⟨_, hspan, .above height hspans⟩

/-- **One level is accounted for**, whether the item is on record or is evaluated. -/
lemma visit_accounts {body : Run Verdict} (hs : r.graph.Gauged s.pass)
    (hbody : r.Fills recur i { s with pass := s.pass.enter }
      (body { s with pass := s.pass.enter }))
    (hkept : Run.Effect Pass.Balanced body) : r.Accounts i s (r.visit i body s) := by
  intro v t hres hv
  have hexceed : r.exceed i s ≠ .ok v t := fun h => hv (error_of_exceed h)
  cases hrec : s.pass.recordedGrade (i, s.pass.denying) with
  | some x =>
      obtain ⟨g, height⟩ := x
      by_cases hfits : s.pass.depth + height > r.maxDepth
      · rw [visit_of_misfit hrec hfits] at hres
        exact absurd hres hexceed
      · rw [visit_of_record r i body hrec (by omega)] at hres
        obtain ⟨n, rfl, hn⟩ := hs _ _ _ hrec
        cases hres
        refine ⟨n, hn, rfl, fun grade hgrade => ?_⟩
        cases hgrade
        exact hrec
  | none =>
      by_cases hdeep : s.pass.depth ≥ r.maxDepth
      · rw [visit_of_deep hrec hdeep] at hres
        exact absurd hres hexceed
      · rw [visit_of_enter hrec (by omega)] at hres
        have hin := hkept { s with pass := s.pass.enter }
        cases hb : body { s with pass := s.pass.enter } with
        | error f u => rw [hb] at hres; cases hres
        | ok w u =>
            rw [hb, settle] at hres
            cases hres
            rw [Run.left_of_ok hb] at hin
            -- the span of the level is the height of the item, and the grade is noted with it
            obtain ⟨n, hspan, hn⟩ := hbody.spans hb hv
            have hdepth : u.pass.depth = s.pass.depth + 1 := hin.depth
            have hreached : u.pass.reached = s.pass.depth + n := by
              rw [Pass.span] at hspan
              omega
            obtain ⟨records, hp⟩ := (u.pass.leave s.pass.reached).exists_record
              (i, s.pass.denying) v u.pass.span
            refine ⟨n, hn, ?_, fun grade hgrade => ?_⟩
            · rw [hp, ← hreached]
              rfl
            · subst hgrade
              rw [Pass.recordedGrade_record, if_pos ⟨rfl, rfl⟩, hspan]
              rfl

/-- What an item leaves on record is gauged. -/
lemma notesWith_keepsGauge (h : r.Measured recur) (hg : r.graph.isPlain) (hi : i.isPlain) :
    NotesWith r.graph.KeepsGauge i (r.evaluateItem recur i) := by
  intro s t v _ hb hleave hs
  by_cases hv : v = .error
  · subst hv
    exact (hleave hs).record_error _ _
  · obtain ⟨n, hspan, hn⟩ := (evaluateItem_fills h hg hi hs).spans hb hv
    rw [hspan]
    exact (hleave hs).record hn

/-- **Every evaluation is measured**, with however many levels. The induction is on the levels that
are granted. -/
theorem evaluateWithin_measured (hg : r.graph.isPlain) (n : Nat) :
    r.Measured (r.evaluateWithin n) := by
  induction n with
  | zero =>
      refine ⟨fun _ _ v t hres => ?_, fun i _ => ?_,
        evaluateWithin_effect Pass.allows_balanced (calm_isPlain hg) 0⟩
      · cases hres
      · cases i with
        | none => exact .pure (allowsUnnoted_keepsGauge r.graph) _
        | some i => exact .throw (allowsUnnoted_keepsGauge r.graph) _
  | succ n ih =>
      refine ⟨fun hj hs => ?_, fun i hi => ?_,
        evaluateWithin_effect Pass.allows_balanced (calm_isPlain hg) (n + 1)⟩
      · exact visit_accounts hs (evaluateItem_fills ih hg hj hs)
          (effect_evaluateItem Pass.allows_balanced.unnoted (calm_isPlain hg) ih.balanced hj)
      · cases i with
        | none => exact .pure (allowsUnnoted_keepsGauge r.graph) _
        | some i =>
            have hi' : i.isPlain := hi i rfl
            exact effect_visit (allowsUnnoted_keepsGauge r.graph)
              (effect_evaluateItem (allowsUnnoted_keepsGauge r.graph) (calm_isPlain hg) ih.gauge
                hi')
              (notesWith_keepsGauge ih hg hi')

/-! ### Measuring every call -/

end Rulebook

open Classical in
/-- A computation that is checked: if its outcome is not as it is to be, something else is done
in its stead. -/
noncomputable def Run.checked {α : Type}
    (holds : Scene → EStateM.Result Fault Scene α → Prop) (instead body : Run α) : Run α :=
  fun s => if holds s (body s) then body s else instead s

lemma Run.checked_of_holds {α : Type} {holds : Scene → EStateM.Result Fault Scene α → Prop}
    {instead body : Run α} {s : Scene} (h : holds s (body s)) :
    checked holds instead body s = body s := if_pos h

namespace Rulebook

variable {r : Rulebook} {i : Item} {s : Scene}

/-- **An evaluation in which every call is measured**, with at most the given number of levels, and
so is every item that is evaluated in a level of its own. `instead` is done as soon as a measure is
not as it is to be. -/
noncomputable def measureWithin (r : Rulebook) (instead : Run Verdict) : Nat → Recursion
  | _, none => return .ignored
  | 0, some _ => throw .endless
  | n + 1, some i =>
    Run.checked (r.Accounts i) instead
      (r.visit i
        (Run.checked (r.Fills (r.evaluateWithin n) i) instead
          (r.evaluateItem (r.measureWithin instead n) i)))

/-- The evaluation that is measured, with enough levels. -/
noncomputable def measuring (r : Rulebook) (instead : Run Verdict) : Recursion :=
  fun i s => r.measureWithin instead (r.levels s.pass) i s

lemma measureWithin_none (r : Rulebook) (instead : Run Verdict) (n : Nat) :
    r.measureWithin instead n none = return .ignored := by
  cases n <;> rfl

/-- Recursions that do the same where the records are gauged evaluate an item alike. -/
lemma evaluateItem_congr_of_gauged {recur recur' : Recursion} (hg : r.graph.isPlain)
    (hi : i.isPlain) (hkeep : RecursWith (fun i => i.isPlain) r.graph.KeepsGauge recur)
    (hnone : recur none = recur' none)
    (hsame : ∀ {j t}, j.isPlain → r.graph.Gauged t.pass → recur (some j) t = recur' (some j) t)
    (hs : r.graph.Gauged s.pass) : r.evaluateItem recur i s = r.evaluateItem recur' i s := by
  refine evaluateItem_congr (allowsUnnoted_keepsGauge r.graph) (calm_isPlain hg) hi hkeep hnone
    fun _ j hij t ht => ?_
  have ht' : r.graph.Gauged t.pass := ht (hs.congr (Pass.within_records _ _))
  exact hsame (Graph.isPlain_of_leads hg (Graph.leads_of_asks hi hij)) (ht'.congr rfl)

/-- **Measuring makes no difference** where the records are gauged. -/
theorem measureWithin_eq (hg : r.graph.isPlain) (instead : Run Verdict) {n : Nat} {i : Option Item}
    (hi : i.all Item.isPlain) (hs : r.graph.Gauged s.pass) :
    r.measureWithin instead n i s = r.evaluateWithin n i s := by
  induction n generalizing i s with
  | zero => cases i <;> rfl
  | succ n ih =>
      cases i with
      | none => rfl
      | some i =>
          have hi : i.isPlain := hi
          have hinside := evaluateWithin_measured (r := r) hg n
          -- with the items inside measured without a difference,
          -- neither check has anything to object to
          have hitem : r.evaluateItem (r.evaluateWithin n) i { s with pass := s.pass.enter } =
              r.evaluateItem (r.measureWithin instead n) i { s with pass := s.pass.enter } := by
            refine evaluateItem_congr_of_gauged (s := { s with pass := s.pass.enter }) hg hi
              hinside.gauge ?_ (fun hj ht => (ih (i := some _) hj ht).symm) (hs.congr rfl)
            exact (funext fun t => evaluateWithin_none r n t).trans (measureWithin_none ..).symm
          have hbody : Run.checked (r.Fills (r.evaluateWithin n) i) instead
              (r.evaluateItem (r.measureWithin instead n) i) { s with pass := s.pass.enter } =
                r.evaluateItem (r.evaluateWithin n) i { s with pass := s.pass.enter } := by
            rw [Run.checked_of_holds (by rw [← hitem]; exact evaluateItem_fills hinside hg hi hs),
              hitem]
          have hvisit := visit_congr (r := r) (i := i) (s := s) fun _ _ => hbody
          rw [measureWithin, evaluateWithin]
          rw [Run.checked_of_holds, hvisit]
          rw [hvisit]
          exact (evaluateWithin_measured hg (n + 1)).accounts hi hs

/-- **The height is exact**, in every pass that calls lead to. An item has one height at most, which
is that of the graph: one level more than the highest of its successors. Every call is accounted for
by it. An evaluation is the same if every call in it is measured, at whatever depth, whatever is
done in case a measure is not as it is to be; and so is that of an item as such. -/
theorem height_is_exact (r : Rulebook) (hg : r.graph.isPlain) (target : Attributes)
    (journals : Journals) (calls : List Call) (hcalls : ∀ q ∈ calls, q.isPlain) :
    let s := Call.serveAll r calls (fresh target journals)
    (∀ i n m, r.graph.Spans i n → r.graph.Spans i m → n = m) ∧
      (∀ i : Item, i.isPlain → r.Accounts i s (r.evaluate (some i) s)) ∧
      ∀ instead : Run Verdict,
        (∀ i : Option Item, i.all Item.isPlain → r.measuring instead i s = r.evaluate i s) ∧
        ∀ i : Item, i.isPlain →
          r.evaluateItem (r.measuring instead) i s = r.evaluateItem r.recursion i s := by
  intro s
  have hs : r.graph.Gauged s.pass :=
    .of_sound (Call.idle_serveAll hg hcalls idle_fresh).toAtRest.sound
  refine ⟨fun _ _ _ hn hm => hn.unique hm, fun i hi => ?_, fun instead => ⟨fun i hi => ?_, ?_⟩⟩
  · exact (evaluateWithin_measured hg _).accounts hi hs
  · exact measureWithin_eq hg instead hi hs
  · intro i hi
    have hkeep : RecursWith (fun i => i.isPlain) r.graph.KeepsGauge r.recursion :=
      fun j hj t => (evaluateWithin_measured hg _).gauge j hj t
    have hnone : r.recursion none = r.measuring instead none :=
      funext fun t => (evaluateWithin_none r _ t).trans (congrFun (measureWithin_none ..) t).symm
    exact (evaluateItem_congr_of_gauged hg hi hkeep hnone
      (fun hj ht => (measureWithin_eq hg instead (i := some _) hj ht).symm) hs).symm

/-- The first artifact of the sample is seven levels high, for which a limit of seven levels is just
enough, also after other calls. Measuring that would raise an alarm makes no difference to it. -/
theorem height_is_exact_sample :
    let r : Rulebook := ⟨Graph.sample, Matcher.wildcard true, 7⟩
    let top : Item := .artifact ⟨0⟩
    let calls : List Call := [.request (.evaluate (some (.condition ⟨0⟩))),
      .asCondition (some (.condition ⟨4⟩)), .request (.evaluate (some (.condition ⟨2⟩)))]
    let s := Call.serveAll r calls (fresh (Attributes.ofList [("core", "M4")]) {})
    r.graph.isPlain ∧ (∀ q ∈ calls, q.isPlain) ∧
      r.measuring (throw .endless) (some top) s = r.evaluate (some top) s ∧
      ∃ t, r.evaluate (some top) s = .ok (.graded .fulfilled) t ∧
        t.pass.reached = max s.pass.reached (s.pass.depth + 7) ∧
        t.pass.recordedGrade (top, s.pass.denying) = some (.fulfilled, 7) := by
  intro r top calls s
  have hg : r.graph.isPlain := Graph.isPlain_sample
  have hcalls : ∀ q ∈ calls, q.isPlain := by decide
  obtain ⟨hunique, haccounts, hmeasuring⟩ :=
    height_is_exact r hg (Attributes.ofList [("core", "M4")]) {} calls hcalls
  have hassess : r.assess (Attributes.ofList [("core", "M4")]) 7 [] top =
      .ok (.graded .fulfilled, 7) := rfl
  have hanswer : (r.evaluate (some top)).answer s = .ok (.graded .fulfilled) :=
    (evaluate_spec (r := r) (i := some top) hg rfl
      (Call.idle_serveAll hg hcalls idle_fresh).toAtRest).1.trans rfl
  cases ht : r.evaluate (some top) s with
  | error f t => rw [Run.answer, ht] at hanswer; cases hanswer
  | ok v t =>
      obtain rfl : v = .graded .fulfilled := by simpa [Run.answer, ht] using hanswer
      obtain ⟨n, hn, hreached, hgrade⟩ := haccounts top rfl _ _ ht (by decide)
      obtain rfl : n = 7 := hunique _ _ _ hn (reads_of_assess hassess).2.1
      exact ⟨hg, hcalls, ((hmeasuring _).1 (some top) rfl).trans ht, t, rfl, hreached,
        hgrade _ rfl⟩

end Rulebook

end Applicability
