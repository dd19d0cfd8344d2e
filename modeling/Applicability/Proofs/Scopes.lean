/-
Scopes: what a pass holds, asks and counts belongs to the calls that are under way.

A call to evaluate an item is made by the evaluation of another one, or by the consumer. The calls
that are under way form a stack. A pass does not keep this stack, only what can be read off it: the
conditions in whose combination the calls are made, whether the opposite is asked for, and the
number of the calls. Here an evaluation is given the stack, and compares the two.

* `Frame`, `Graph.frame`: a call on the stack, and the frame of a call that an item makes;
* `Pass.Tracks`: a pass holds, asks and counts what the stack says;
* `Rulebook.observe`: the evaluation that compares them, before and after every call, and before and
  after the evaluation of the call's item. At the first difference it does something else instead;
* `observe_eq_evaluateWithin`: an evaluation that is observed does the same as one that is not, so
  that there is never a difference. The induction is on the levels that are granted;
* `evaluate_tracks_stack`: so it is in every call of a session, whatever the graphs are.
-/
import Applicability.Proofs.Lockstep
import Applicability.Proofs.Sessions

namespace Applicability

/-! ### The stack of calls -/

/-- **A call to evaluate an item**, as far as it concerns the calls that are made inside it. -/
structure Frame where
  /-- the condition in whose combination the call is made -/
  combining : Option ConditionRef
  /-- the call is made for an expression that the condition denies -/
  denied : Bool
deriving DecidableEq, Repr

/-- The call for an item that is made by the evaluation of another one, or by the consumer. -/
def Graph.frame (g : Graph) (parent : Option Item) (i : Item) : Frame where
  combining := parent.bind Item.condition?
  denied := parent.any (g.denies · i)

/-- The opposite is asked for inside an odd number of denied expressions. -/
def Frame.denying (stack : List Frame) : Bool := stack.countP Frame.denied % 2 == 1

/-- **A pass that knows where it is**: it holds the conditions in whose combinations the calls on
the stack are made, each of them once and the outermost first; it asks what they ask; and it counts
the calls whose items are being evaluated. -/
structure Pass.Tracks (p : Pass) (stack : List Frame) (depth : Nat) : Prop where
  active : p.active = stack.filterMap Frame.combining
  nodup : p.active.Nodup
  denying : p.denying = Frame.denying stack
  depth : p.depth = depth

instance (p : Pass) (stack : List Frame) (depth : Nat) : Decidable (p.Tracks stack depth) :=
  decidable_of_iff
    (p.active = stack.filterMap Frame.combining ∧ p.active.Nodup ∧
      p.denying = Frame.denying stack ∧ p.depth = depth)
    ⟨fun ⟨ha, hn, hd, hl⟩ => ⟨ha, hn, hd, hl⟩, fun ⟨ha, hn, hd, hl⟩ => ⟨ha, hn, hd, hl⟩⟩

@[simp] lemma Frame.denying_concat (stack : List Frame) (f : Frame) :
    Frame.denying (stack ++ [f]) = (f.denied != Frame.denying stack) := by
  have hparity : ∀ n : Nat, ((n + 1) % 2 == 1) = !(n % 2 == 1) := by
    intro n
    rcases Nat.mod_two_eq_zero_or_one n with h | h <;> simp [Nat.add_mod, h]
  cases h : f.denied <;> simp [Frame.denying, List.countP_append, h, hparity]

namespace Pass.Tracks

variable {p q : Pass} {stack : List Frame} {depth : Nat} {g : Graph} {i j : Item}

lemma iff_nil : p.Tracks [] 0 ↔ p.active = [] ∧ p.denying = false ∧ p.depth = 0 := by
  constructor
  · intro h
    exact ⟨h.active, h.denying, h.depth⟩
  · rintro ⟨hactive, hdenying, hdepth⟩
    exact ⟨hactive, by simp [hactive], hdenying, hdepth⟩

/-- What is balanced leaves the pass where it is. -/
lemma of_balanced (h : p.Tracks stack depth) (hb : Pass.Balanced p q) : q.Tracks stack depth where
  active := hb.active.trans h.active
  nodup := hb.active ▸ h.nodup
  denying := hb.denying.trans h.denying
  depth := hb.depth.trans h.depth

lemma enter (h : p.Tracks stack depth) : p.enter.Tracks stack (depth + 1) where
  active := h.active
  nodup := h.nodup
  denying := h.denying
  depth := by
    have hdepth := h.depth
    simp only [Pass.enter, hdepth]
    omega

/-- A call that the consumer makes. -/
lemma outside (h : p.Tracks [] depth) : p.Tracks [g.frame none i] depth where
  active := h.active
  nodup := h.nodup
  denying := h.denying
  depth := h.depth

/-- **A call that an item makes**, in a pass that the one inside the item leads to. -/
lemma inside {t : Scene} (h : p.Tracks stack depth) (hfree : ∀ c, i = .condition c → c ∉ p.active)
    (hb : Pass.Balanced (p.within i) t.pass) :
    (t.turn (g.denies i j)).pass.Tracks (stack ++ [g.frame (some i) j]) depth where
  active := by
    rw [Scene.turn_active, hb.active, Pass.within_active, h.active, List.filterMap_append]
    cases hi : i.condition? <;> simp [Graph.frame, hi]
  nodup := by
    rw [Scene.turn_active, hb.active, Pass.within_active]
    cases hi : i.condition? with
    | none => simpa using h.nodup
    | some c =>
        have hc : c ∉ p.active := hfree c (Item.condition?_eq_some_iff.mp hi)
        rw [Option.toList_some, List.nodup_append]
        refine ⟨h.nodup, by simp, fun x hx y hy => ?_⟩
        obtain rfl := List.mem_singleton.mp hy
        exact fun hxy => hc (hxy ▸ hx)
  denying := by
    rw [Scene.turn_denying, hb.denying, Pass.within_denying, h.denying, Frame.denying_concat]
    rfl
  depth := by
    rw [Scene.turn_depth, hb.depth, Pass.within_depth]
    exact h.depth

end Pass.Tracks

/-! ### Being observed -/

namespace Run

variable {α : Type} {x y : Run α} {s : Scene} {demand : Pass → Prop} [DecidablePred demand]

/-- Carries out `body` if the pass meets a demand before and after it, and something else
instead if it does not. -/
def attended (demand : Pass → Prop) [DecidablePred demand] (instead body : Run α) : Run α :=
  fun s => if demand s.pass ∧ demand (body.left s).pass then body s else instead s

/-- Where the demand is met, nothing else is done. -/
lemma attended_of {instead : Run α} (hbefore : demand s.pass) (hafter : demand (x.left s).pass) :
    attended demand instead x s = x s := if_pos ⟨hbefore, hafter⟩

lemma left_congr (h : x s = y s) : x.left s = y.left s := by rw [left, left, h]

end Run

namespace Rulebook

variable {r : Rulebook} {i : Item} {s : Scene}

/-- **An evaluation that is observed**, with at most the given number of levels. `around` is the
stack of the calls around the one at hand, and `parent` the item whose evaluation makes it. When the
call is made and when it has come back, the pass should be where the stack says, and should count
the calls around; when the evaluation of the item begins and ends, it should count this one too. -/
def observe (r : Rulebook) (instead : Run Verdict) : Nat → List Frame → Option Item → Recursion
  | _, _, _, none => return .ignored
  | 0, _, _, some _ => instead
  | n + 1, around, parent, some i =>
    let stack := around ++ [r.graph.frame parent i]
    Run.attended (·.Tracks stack around.length) instead
      (r.visit i
        (Run.attended (·.Tracks stack (around.length + 1)) instead
          (r.evaluateItem (r.observe instead n stack (some i)) i)))

lemma observe_none (r : Rulebook) (instead : Run Verdict) (n : Nat) (around : List Frame)
    (parent : Option Item) : r.observe instead n around parent none = return .ignored := by
  cases n <;> rfl

/-- An item is evaluated alike whether the calls that it makes are observed or not, if observing
makes no difference where the pass is where the stack says. -/
lemma evaluateItem_observe {A : Item → Prop} (hA : r.Calm A) (hi : A i) {instead : Run Verdict}
    {n : Nat} {stack : List Frame} {depth : Nat} {recur : Recursion}
    (hkeep : RecursWith A Pass.Balanced recur) (hnone : recur none = return .ignored)
    (hs : s.pass.Tracks stack depth)
    (hsame : ∀ j, A j → ∀ t : Scene,
      t.pass.Tracks (stack ++ [r.graph.frame (some i) j]) depth →
        r.observe instead n stack (some i) (some j) t = recur (some j) t) :
    r.evaluateItem (r.observe instead n stack (some i)) i s = r.evaluateItem recur i s := by
  refine (evaluateItem_congr Pass.allows_balanced.unnoted hA hi hkeep
    (hnone.trans (observe_none ..).symm) fun hfree j hij t ht => ?_).symm
  exact (hsame j (hA.asks hi hij) _ (hs.inside hfree ht)).symm

/-- **An evaluation does not show that it is observed**, if the pass is where the stack says at the
start and there are more levels than are left. -/
theorem observe_eq_evaluateWithin {A : Item → Prop} (hA : r.Calm A) (instead : Run Verdict)
    {n : Nat} {around : List Frame} {parent : Option Item} (hi : A i)
    (hs : s.pass.Tracks (around ++ [r.graph.frame parent i]) around.length)
    (hfits : around.length ≤ r.maxDepth) (hn : r.maxDepth < around.length + n) :
    r.observe instead n around parent (some i) s = r.evaluateWithin n (some i) s := by
  induction n generalizing around parent i s with
  | zero => omega
  | succ n ih =>
      set stack := around ++ [r.graph.frame parent i] with hstack
      have hbalanced : ∀ n, RecursWith A Pass.Balanced (r.evaluateWithin n) :=
        evaluateWithin_effect Pass.allows_balanced hA
      have hlength : stack.length = around.length + 1 := by simp [hstack]
      -- the evaluation of the item itself, one level further down
      have hbody : s.pass.depth < r.maxDepth →
          Run.attended (·.Tracks stack (around.length + 1)) instead
            (r.evaluateItem (r.observe instead n stack (some i)) i)
              { s with pass := s.pass.enter } =
            r.evaluateItem (r.evaluateWithin n) i { s with pass := s.pass.enter } := by
        intro hdepth
        rw [hs.depth] at hdepth
        have hin : s.pass.enter.Tracks stack (around.length + 1) := hs.enter
        have hitem : r.evaluateItem (r.observe instead n stack (some i)) i
            { s with pass := s.pass.enter } =
              r.evaluateItem (r.evaluateWithin n) i { s with pass := s.pass.enter } := by
          refine evaluateItem_observe hA hi (hbalanced n)
            (funext fun t => evaluateWithin_none r n t) hin fun j hj t ht => ih hj ?_ ?_ ?_
          · rwa [hlength]
          · omega
          · omega
        have hafter : ((r.evaluateItem (r.observe instead n stack (some i)) i).left
            { s with pass := s.pass.enter }).pass.Tracks stack (around.length + 1) := by
          rw [Run.left_congr hitem]
          exact hin.of_balanced (effect_evaluateItem Pass.allows_balanced.unnoted hA (hbalanced n)
            hi { s with pass := s.pass.enter })
        rw [Run.attended_of hin hafter, hitem]
      have hvisit : r.visit i (Run.attended (·.Tracks stack (around.length + 1)) instead
          (r.evaluateItem (r.observe instead n stack (some i)) i)) s =
            r.evaluateWithin (n + 1) (some i) s := visit_congr fun _ => hbody
      have hafter := hs.of_balanced ((hbalanced (n + 1)).item hi s)
      rw [← Run.left_congr hvisit] at hafter
      rw [observe, ← hstack, Run.attended_of hs hafter, hvisit]

end Rulebook

/-! ### Sessions -/

namespace Rulebook

variable {r : Rulebook} {s : Scene}

/-- Between two calls no call is under way. -/
lemma tracks_serveAll {steps : List Step} (hsteps : ∀ x ∈ steps, (r.on x.graph).restarts = false)
    (hs : s.pass.Tracks [] 0) : (Step.serveAll r steps s).pass.Tracks [] 0 := by
  -- a call that starts the pass over leaves a new one; any other one leaves what it found
  refine Step.invariant_serveAll (·.Tracks [] 0)
    (fun target => Pass.Tracks.iff_nil.mpr ⟨rfl, rfl, rfl⟩) (fun x hx hc s hs => ?_) hs
  have hcalm := calm_of_restarts (hsteps x hx)
  exact hs.of_balanced (Call.effect_serve Pass.allows_balanced.unnoted
    (fun p v => ⟨rfl, rfl, rfl⟩) hcalm (recursion_effect Pass.allows_balanced hcalm)
    (fun _ _ _ _ => trivial) hc)

/-- A call that is made where no other one is counted does not show that it is observed. -/
lemma observe_eq_recursion (hr : r.restarts = false) (instead : Run Verdict) {parent : Option Item}
    {i : Item} (hs : s.pass.Tracks [r.graph.frame parent i] 0) :
    r.observe instead (r.maxDepth + 1) [] parent (some i) s = r.recursion (some i) s := by
  rw [recursion_eq_evaluateWithin hr hs.depth]
  exact observe_eq_evaluateWithin (calm_of_restarts hr) instead trivial hs (Nat.zero_le _)
    (by simp)

/-- Nor do the calls that an item makes which is itself evaluated as such. -/
lemma evaluateItem_observe_recursion (hr : r.restarts = false) (instead : Run Verdict) {i : Item}
    (hs : s.pass.Tracks [] 0) :
    r.evaluateItem (r.observe instead (r.maxDepth + 1) [] (some i)) i s =
      r.evaluateItem r.recursion i s :=
  have hcalm := calm_of_restarts hr
  evaluateItem_observe hcalm trivial (recursion_effect Pass.allows_balanced hcalm)
    (funext fun t => evaluateWithin_none r _ t) hs
    fun _ _ _ ht => observe_eq_recursion hr instead ht

/-- **The scopes of a pass.** In a session whose items never start the pass over from inside an
evaluation, whatever else they and the matcher do, and however the graph is changed between the
calls: between two calls nothing is held, asked or counted. While the item of a call is evaluated,
the pass holds exactly the conditions whose combinations enclose the call, asks what the denied
expressions around it say, and counts the calls under way; and when the call is over, by an answer
or by a fault, all this is as it was before. -/
theorem evaluate_tracks_stack (r : Rulebook) (steps : List Step)
    (hsteps : ∀ x ∈ steps, (r.on x.graph).restarts = false) (target : Attributes)
    (journals : Journals) (g : Graph) (hg : (r.on g).restarts = false) (s : Scene)
    (hs : s.pass = (Step.serveAll r steps (fresh target journals)).pass) :
    (s.pass.active = [] ∧ s.pass.denying = false ∧ s.pass.depth = 0) ∧
    (∀ i, s.pass.Balanced (((r.on g).evaluate i).left s).pass) ∧
    ∀ instead : Run Verdict,
      (∀ i, (r.on g).observe instead (r.maxDepth + 1) [] none i s = (r.on g).evaluate i s) ∧
      (∀ e, (r.on g).evaluateExpression
          ((r.on g).observe instead (r.maxDepth + 1) [] (some (.expression e))) e s =
        (r.on g).evaluateAsExpression (some (.expression e)) s) ∧
      ∀ c, (r.on g).combine
          ((r.on g).observe instead (r.maxDepth + 1) [] (some (.condition c))) c s =
        (r.on g).evaluateAsCondition (some (.condition c)) s := by
  have hcalm : (r.on g).Calm (fun _ => True) := calm_of_restarts hg
  have hrest : s.pass.Tracks [] 0 :=
    hs ▸ tracks_serveAll hsteps (Pass.Tracks.iff_nil.mpr ⟨rfl, rfl, rfl⟩)
  refine ⟨Pass.Tracks.iff_nil.mp hrest, fun i => ?_, fun instead => ⟨fun i => ?_, fun e => ?_,
    fun c => ?_⟩⟩
  · exact recursion_effect Pass.allows_balanced hcalm i (fun _ _ => trivial) s
  · cases i with
    | none => exact (evaluateWithin_none (r.on g) _ s).symm
    | some i => exact observe_eq_recursion hg instead hrest.outside
  · exact evaluateItem_observe_recursion (i := .expression e) hg instead hrest
  · exact evaluateItem_observe_recursion (i := .condition c) hg instead hrest

/-- A condition denies another one, which refers to an item that looks at the first condition again
and then gives up. -/
def throwing : Graph where
  expressions := #[
    { role := .deny, domain := .reference, target := some (.condition ⟨1⟩) },
    { domain := .reference, target := some (.scripted ⟨0⟩) }]
  conditions := #[{ id := "outer", expressions := [⟨0⟩] }, { id := "inner", expressions := [⟨1⟩] }]
  scripts := #[{ actions := [.evaluate (some (.condition ⟨0⟩))], failure := some "stop" }]

/-- The item finds both conditions held and the opposite asked for, and the condition that it looks
at refers to itself. When it has given up, no call is under way. -/
theorem evaluate_tracks_stack_sample :
    let r : Rulebook := ⟨throwing, Matcher.wildcard true, 8⟩
    let outer : Option Item := some (.condition ⟨0⟩)
    let journals : Journals := ⟨#[#[]]⟩
    let s := Step.serveAll r [⟨throwing, journals, .request (.evaluate outer)⟩] (fresh .empty {})
    (r.on throwing).restarts = false ∧
      ((r.on throwing).evaluate outer).answer (fresh .empty journals) = .error (.raised "stop") ∧
      s.journals.of ⟨0⟩ = #[⟨true, .undefined, ["outer", "inner"], [.error]⟩] ∧
      s.pass.active = [] ∧ s.pass.denying = false ∧ s.pass.depth = 0 ∧
      s.pass.Balanced (((r.on throwing).evaluate outer).left s).pass := by
  intro r outer journals s
  have hcalm : (r.on throwing).restarts = false := by simp [restarts, r, on, throwing]
  have hfirst := recursion_eq_evaluateWithin (s := fresh .empty journals) hcalm rfl outer
  have hs : s = ((r.on throwing).evaluateWithin 9 outer).left (fresh .empty journals) :=
    Run.left_congr hfirst
  obtain ⟨⟨hactive, hdenying, hdepth⟩, hbalanced, -⟩ := evaluate_tracks_stack r
    [⟨throwing, journals, .request (.evaluate outer)⟩]
    (fun x hx => by rwa [List.mem_singleton.mp hx]) .empty {} throwing hcalm s rfl
  refine ⟨hcalm, ?_, ?_, hactive, hdenying, hdepth, hbalanced outer⟩
  · rw [Run.answer, evaluate, hfirst]
    rfl
  · rw [hs]
    decide +kernel

end Rulebook

end Applicability
