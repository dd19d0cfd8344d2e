/-
Lockstep: two evaluations of an item that do the same wherever something inside it is asked for.

An item is evaluated by evaluating others, each in the pass that those before it have left. What is
known of these passes is a relation to the pass in which the first of them is evaluated. Wherever
two recursions agree in such passes, the item is evaluated alike by them.

* `Graph.Asks`, `Graph.denies`: what an item has evaluated, and when it asks for the opposite;
* `Pass.within`, `Scene.turn`: the pass inside an item, and a scene in which the opposite is asked
  for;
* `Run.SameFrom`: computations that do the same in all passes that a given one leads to;
* `evaluateItem_congr`: the lemma, from one for each kind of item that has others evaluated;
* `visit_congr`: one level, which is the same if the item itself is.
-/
import Applicability.Proofs.Effects

namespace Applicability

/-! ### What an item asks for -/

/-- The items that an item has evaluated: its successors, and the items that a script names. -/
def Graph.Asks (g : Graph) : Item → Item → Prop
  | .scripted s, j => Action.evaluate (some j) ∈ (g.script s).actions
  | i, j => g.Leads i j

/-- A plain item has nothing but its successors evaluated. -/
lemma Graph.leads_of_asks {g : Graph} {i j : Item} (hi : i.isPlain) (h : g.Asks i j) :
    g.Leads i j := by
  cases i with
  | scripted s => cases hi
  | _ => exact h

/-- Whether an item asks for the opposite of another one: a condition does of the expressions that
it denies. -/
def Graph.denies (g : Graph) : Item → Item → Bool
  | .condition _, .expression e => (g.expression e).role == .deny
  | _, _ => false

/-- The pass in which an item has the first of others evaluated. A condition is held meanwhile. -/
def Pass.within (p : Pass) : Item → Pass
  | .condition c => (p.settleAccept none).hold c
  | _ => p

/-- The scene in which the opposite is asked for, if `invert` says so. -/
def Scene.turn (s : Scene) (invert : Bool) : Scene :=
  { s with pass := s.pass.ask (invert != s.pass.denying) }

namespace Scene

variable (s : Scene) (invert : Bool)

lemma turn_false : s.turn false = s := by simp [turn, Pass.ask]

@[simp] lemma turn_active : (s.turn invert).pass.active = s.pass.active := rfl

@[simp] lemma turn_denying : (s.turn invert).pass.denying = (invert != s.pass.denying) := rfl

@[simp] lemma turn_depth : (s.turn invert).pass.depth = s.pass.depth := rfl

end Scene

namespace Pass

variable (p : Pass) (i : Item)

@[simp] lemma within_active : (p.within i).active = p.active ++ i.condition?.toList := by
  cases i <;> simp [within, Item.condition?, hold, settleAccept]

@[simp] lemma within_denying : (p.within i).denying = p.denying := by cases i <;> rfl

@[simp] lemma within_depth : (p.within i).depth = p.depth := by cases i <;> rfl

@[simp] lemma within_records : (p.within i).records = p.records := by cases i <;> rfl

end Pass

/-- What combining a condition leaves on record is what counting its expressions does while it is
held. -/
lemma Rulebook.records_left_combine {r : Rulebook} {recur : Recursion} {c : ConditionRef}
    {s : Scene} (hc : c ∉ s.pass.active) :
    ((r.combine recur c).left s).pass.records =
      ((r.tallyFrom recur (r.graph.condition c).expressions {}).left
        { s with pass := s.pass.within (.condition c) }).pass.records := by
  have hheld := congrArg Pass.records (Run.left_holding c
    (r.tallyFrom recur (r.graph.condition c).expressions {})
    { s with pass := s.pass.settleAccept none })
  rw [Run.left] at hheld
  rw [Run.left, combine_of_not_mem hc]
  cases hres : Run.holding c (r.tallyFrom recur (r.graph.condition c).expressions {})
    { s with pass := s.pass.settleAccept none } with
  | ok o t =>
      rw [hres] at hheld
      cases o with
      | none => exact hheld
      | some tally => exact hheld
  | error f t =>
      rw [hres] at hheld
      exact hheld

/-! ### Computations that do the same -/

namespace Run

variable {α β : Type} {Rel : Pass → Pass → Prop} {p : Pass} {x y : Run α} {s : Scene}

/-- **Two computations that do the same** in every pass that a given one leads to. -/
def SameFrom (Rel : Pass → Pass → Prop) (p : Pass) (x y : Run α) : Prop :=
  ∀ s, Rel p s.pass → x s = y s

lemma SameFrom.refl (x : Run α) : SameFrom Rel p x x := fun _ _ => rfl

/-- What goes on alike, if the first part leads no further than it may. -/
lemma SameFrom.bind (h : Pass.AllowsUnnoted Rel) {f g : α → Run β} (hx : SameFrom Rel p x y)
    (hkeep : Effect Rel x) (hf : ∀ a, SameFrom Rel p (f a) (g a)) :
    SameFrom Rel p (x >>= f) (y >>= g) := by
  intro s hs
  have hkept := hkeep s
  cases hxs : x s with
  | ok a t =>
      rw [left_of_ok hxs] at hkept
      rw [bind_of_ok hxs, bind_of_ok ((hx s hs).symm.trans hxs)]
      exact hf a t (h.trans hs hkept)
  | error f' t => rw [bind_of_error hxs, bind_of_error ((hx s hs).symm.trans hxs)]

/-- Asking for the opposite is alike where the computations are, with the question turned round. -/
lemma asking_congr {invert : Bool} (hx : x (s.turn invert) = y (s.turn invert)) :
    asking invert x s = asking invert y s := by
  rw [Scene.turn] at hx
  rw [asking, asking, ensuring, ensuring, hx]

lemma holding_congr {c : ConditionRef}
    (hx : x { s with pass := s.pass.hold c } = y { s with pass := s.pass.hold c }) :
    holding c x s = holding c y s := by
  rw [holding, holding, hx]

end Run

namespace Rulebook

variable {r : Rulebook} {A : Item → Prop} {Rel : Pass → Pass → Prop} {recur recur' : Recursion}
  {p : Pass} {s : Scene} {i : Item}

/-- What calm items have evaluated is calm. -/
lemma Calm.asks (hA : r.Calm A) (hi : A i) {j : Item} (hij : r.graph.Asks i j) : A j := by
  cases i with
  | scripted s => exact (hA.acts hi _ hij).2 j rfl
  | _ => exact hA.leads hi hij

/-! ### Items evaluated alike -/

section Congruence

variable (h : Pass.AllowsUnnoted Rel)

include h

lemma tallyFrom_sameFrom {es : List ExpressionRef}
    (hkeep : ∀ e ∈ es, Run.Effect Rel (recur (some (.expression e))))
    (hsame : ∀ e ∈ es, ∀ t : Scene, Rel p t.pass →
      recur (some (.expression e)) (t.turn ((r.graph.expression e).role == .deny)) =
        recur' (some (.expression e)) (t.turn ((r.graph.expression e).role == .deny)))
    (tally : Tally) :
    Run.SameFrom Rel p (r.tallyFrom recur es tally) (r.tallyFrom recur' es tally) := by
  induction es generalizing tally with
  | nil => exact .refl _
  | cons e rest ih =>
      have hrest : ∀ tally, Run.SameFrom Rel p (r.tallyFrom recur rest tally)
          (r.tallyFrom recur' rest tally) :=
        ih (fun e' he' => hkeep e' (by simp [he'])) (fun e' he' => hsame e' (by simp [he']))
      have hfirst : Run.SameFrom Rel p
          (Run.asking ((r.graph.expression e).role == .deny) (recur (some (.expression e))))
          (Run.asking ((r.graph.expression e).role == .deny) (recur' (some (.expression e)))) :=
        fun t ht => Run.asking_congr (hsame e (by simp) t ht)
      refine hfirst.bind h (.asking h _ (hkeep e (by simp))) fun v => ?_
      cases v with
      | graded g => exact hrest _
      | error => exact .refl _
      | ignored => exact hrest tally
      | undefined => exact hrest tally

/-- Combining a condition. One that is being combined already has nothing evaluated. -/
lemma combine_congr {c : ConditionRef}
    (hkeep : ∀ e ∈ (r.graph.condition c).expressions,
      Run.Effect Rel (recur (some (.expression e))))
    (hsame : c ∉ s.pass.active → ∀ e ∈ (r.graph.condition c).expressions, ∀ t : Scene,
      Rel (s.pass.within (.condition c)) t.pass →
        recur (some (.expression e)) (t.turn ((r.graph.expression e).role == .deny)) =
          recur' (some (.expression e)) (t.turn ((r.graph.expression e).role == .deny))) :
    r.combine recur c s = r.combine recur' c s := by
  by_cases hc : c ∈ s.pass.active
  · rw [combine_of_mem hc, combine_of_mem hc]
  · have hcount := Run.holding_congr (s := { s with pass := s.pass.settleAccept none })
      (tallyFrom_sameFrom h hkeep (hsame hc) {}
        { s with pass := s.pass.within (.condition c) } (h.refl _))
    rw [combine_of_not_mem hc, combine_of_not_mem hc, hcount]

/-- Taking an action of a calm item of a consumer's own. -/
lemma act_sameFrom (hA : r.Calm A) {x : ScriptRef} (hx : A (.scripted x))
    (hkeep : RecursWith A Rel recur) (hnone : recur none = recur' none)
    (hsame : ∀ j, r.graph.Asks (.scripted x) j →
      Run.SameFrom Rel p (recur (some j)) (recur' (some j)))
    {y : Action} (hy : y ∈ (r.graph.script x).actions) (place : Nat) :
    Run.SameFrom Rel p (act recur x place y) (act recur' x place y) := by
  cases y with
  | evaluate i =>
      have hin : Run.SameFrom Rel p (recur i) (recur' i) := by
        cases i with
        | none => rw [hnone]; exact .refl _
        | some j => exact hsame j hy
      exact hin.bind h (hkeep i fun j hj => (hA.acts hx _ hy).2 j (by rw [hj])) fun v => .refl _
  | restart => exact .refl _
  | retarget target => exact .refl _
  | fail f => exact .refl _

lemma actions_sameFrom (hA : r.Calm A) {x : ScriptRef} (hx : A (.scripted x))
    (hkeep : RecursWith A Rel recur) (hnone : recur none = recur' none)
    (hsame : ∀ j, r.graph.Asks (.scripted x) j →
      Run.SameFrom Rel p (recur (some j)) (recur' (some j)))
    {ys : List Action} (hys : ∀ y ∈ ys, y ∈ (r.graph.script x).actions) (place : Nat) :
    Run.SameFrom Rel p (ys.forM (act recur x place)) (ys.forM (act recur' x place)) := by
  induction ys with
  | nil => exact .refl _
  | cons y rest ih =>
      have hy : y ∈ (r.graph.script x).actions := hys y (by simp)
      exact (act_sameFrom h hA hx hkeep hnone hsame hy place).bind h
        (effect_act h hA hkeep hx hy place) fun _ => ih fun z hz => hys z (by simp [hz])

lemma perform_congr (hA : r.Calm A) {x : ScriptRef} (hx : A (.scripted x))
    (hkeep : RecursWith A Rel recur) (hnone : recur none = recur' none)
    (hsame : ∀ j, r.graph.Asks (.scripted x) j →
      Run.SameFrom Rel s.pass (recur (some j)) (recur' (some j))) :
    r.perform recur x s = r.perform recur' x s := by
  have hactions := actions_sameFrom h hA hx hkeep hnone hsame (fun _ hy => hy)
    (s.journals.of x).size
  have hkept := effect_actions h hA hkeep hx (fun _ hy => hy) (s.journals.of x).size
  rw [perform_eq, perform_eq]
  exact hactions.bind h hkept (fun _ => .refl _) { s with journals := r.opened x s }
    (h.refl s.pass)

/-- **An item is evaluated alike** by recursions that do the same wherever it asks for another one:
in the passes that the one inside it leads to, and with the question turned round if it denies the
other one. Inside a condition that is held already nothing is evaluated. -/
lemma evaluateItem_congr (hA : r.Calm A) (hi : A i) (hkeep : RecursWith A Rel recur)
    (hnone : recur none = recur' none)
    (hsame : (∀ c, i = .condition c → c ∉ s.pass.active) → ∀ j, r.graph.Asks i j →
      ∀ t : Scene, Rel (s.pass.within i) t.pass →
        recur (some j) (t.turn (r.graph.denies i j)) =
          recur' (some j) (t.turn (r.graph.denies i j))) :
    r.evaluateItem recur i s = r.evaluateItem recur' i s := by
  cases i with
  | condition c =>
      refine combine_congr h
        (fun e he => hkeep.item (hA.leads hi (Graph.leads_expression he))) fun hc e he t ht => ?_
      refine hsame ?_ (.expression e) (Graph.leads_expression he) t ht
      rintro _ ⟨⟩
      exact hc
  | scripted x =>
      refine perform_congr h hA hi hkeep hnone fun j hj t ht => ?_
      simpa [Graph.denies, Scene.turn_false] using
        hsame (fun c hc => Item.noConfusion hc) j hj t ht
  | expression e =>
      -- at most one item is evaluated inside, in the pass as it is
      have hinside : ∀ j, r.graph.Leads (.expression e) j → recur (some j) s = recur' (some j) s :=
        fun j hj => by
          simpa [Graph.denies, Scene.turn_false] using
            hsame (fun c hc => Item.noConfusion hc) j hj s (h.refl s.pass)
      rw [evaluateItem, evaluateItem, evaluateExpression, evaluateExpression]
      rcases (r.graph.expression e).domain.cases_matched with hd | hd | hd | ⟨name, hd⟩
      · simp only [hd]
      · rcases hd with hd | hd <;> simp only [hd]
      · cases ht : (r.graph.expression e).target with
        | none => simp only [hd]
        | some j => simpa only [hd] using hinside j (Graph.leads_target hd ht)
      · simp only [hd]
  | artifact a =>
      rw [evaluateItem, evaluateItem, evaluateArtifact, evaluateArtifact]
      cases hg : (r.graph.artifact a).guard with
      | none => rfl
      | some j =>
          simpa [Graph.denies, Scene.turn_false] using
            hsame (fun c hc => Item.noConfusion hc) j (Graph.leads_guard hg) s (h.refl s.pass)

end Congruence

/-- One level is the same if the item itself is, in case the level is entered. -/
lemma visit_congr {body body' : Run Verdict}
    (h : s.pass.recordedGrade (i, s.pass.denying) = none → s.pass.depth < r.maxDepth →
      body { s with pass := s.pass.enter } = body' { s with pass := s.pass.enter }) :
    r.visit i body s = r.visit i body' s := by
  rw [visit, visit]
  split
  · rfl
  · next hrec =>
    split
    · rfl
    · next hdeep => rw [h hrec (not_le.mp hdeep)]

/-- There are always enough levels to open one. -/
lemma exists_evaluate_eq_visit (r : Rulebook) (i : Item) (s : Scene) :
    ∃ n, r.evaluate (some i) s = r.visit i (r.evaluateItem (r.evaluateWithin n) i) s := by
  refine ⟨(r.maxDepth - s.pass.depth).toNat + (if r.restarts then spareLevels else 0), ?_⟩
  have hlevels : r.levels s.pass =
      (r.maxDepth - s.pass.depth).toNat + (if r.restarts then spareLevels else 0) + 1 := by
    rw [levels]
    omega
  rw [evaluate, recursion, hlevels, evaluateWithin]

end Rulebook

end Applicability
