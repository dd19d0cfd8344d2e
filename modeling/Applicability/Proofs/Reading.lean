/-
Reading the rules: the verdict on an item, without records.

* `Rulebook.Reads`: the verdict on an item by the rules, from the verdicts on its successors;
* `Rulebook.assess`: an evaluation that remembers nothing. It is given the levels that are left and
  the conditions that are being combined, and comes to a verdict and a height, or meets an obstacle:
  the first one in the order of evaluation;
* `reads_of_assess`: what an assessment comes to is what the rules say, and its height is that of
  the item;
* `assess_of_reads`: the converse. Where the rules give a verdict, the levels that are left are all
  that can stand in the way. This is why a grade on record may be answered at any depth at which its
  height fits.
-/
import Mathlib.Data.List.Forall2
import Mathlib.Tactic.Choose
import Applicability.Evaluation
import Applicability.Proofs.Combination
import Applicability.Proofs.Nesting

namespace Applicability

open Applicability.Graph (highest)

/-! ### Sequences of answers -/

section Sequences

variable {α β ε : Type} {f : α → Except ε β} {items : List α}

/-- What goes on after an answer has an answer. -/
lemma exists_of_bind_eq_ok {x : Except ε α} {f : α → Except ε β} {b : β} (h : x >>= f = .ok b) :
    ∃ a, x = .ok a ∧ f a = .ok b := by
  cases x with
  | error e => cases h
  | ok a => exact ⟨a, rfl, h⟩

lemma map_eq_ok_iff {x : Except ε α} {f : α → β} {b : β} :
    x.map f = .ok b ↔ ∃ a, x = .ok a ∧ f a = b := by
  cases x <;> simp [Except.map]

/-- In lists that are related place by place, whatever is in the second has a counterpart in the
first. -/
lemma exists_left_of_forall₂ {R : α → β → Prop} {as : List α} {bs : List β}
    (h : List.Forall₂ R as bs) {b : β} (hb : b ∈ bs) : ∃ a ∈ as, R a b := by
  obtain ⟨i, hi, rfl⟩ := List.getElem_of_mem hb
  have hi' : i < as.length := h.length_eq ▸ hi
  exact ⟨as[i], List.getElem_mem hi', h.get hi' hi⟩

/-- And the other way round. -/
lemma exists_right_of_forall₂ {R : α → β → Prop} {as : List α} {bs : List β}
    (h : List.Forall₂ R as bs) {a : α} (ha : a ∈ as) : ∃ b ∈ bs, R a b :=
  exists_left_of_forall₂ (List.Forall₂.flip h) ha

/-- A search in lists that are related place by place comes to the same place. -/
lemma rel_find? {R : α → β → Prop} {as : List α} {bs : List β} {p : α → Bool} {q : β → Bool}
    (h : List.Forall₂ R as bs) (hpq : ∀ a b, R a b → p a = q b) :
    Option.Rel R (as.find? p) (bs.find? q) := by
  induction h with
  | nil => exact .none
  | @cons a b as bs hab _ ih =>
      rw [List.find?_cons, List.find?_cons, hpq a b hab]
      cases q b with
      | true => exact .some hab
      | false => exact ih

/-- All items of a list are answered for exactly if each of them is. -/
lemma mapM_eq_ok_iff {answers : List β} :
    items.mapM f = .ok answers ↔ List.Forall₂ (fun a b => f a = .ok b) items answers := by
  induction items generalizing answers with
  | nil => cases answers <;> simp [pure, Except.pure]
  | cons a rest ih =>
      rw [List.mapM_cons, List.forall₂_cons_left_iff]
      constructor
      · intro h
        obtain ⟨b, hb, h⟩ := exists_of_bind_eq_ok h
        obtain ⟨bs, hbs, h⟩ := exists_of_bind_eq_ok h
        cases h
        exact ⟨b, bs, hb, ih.mp hbs, rfl⟩
      · rintro ⟨b, bs, hb, hbs, rfl⟩
        rw [hb, ih.mpr hbs]
        rfl

lemma mapM_of_ok {g : α → β} (h : ∀ x ∈ items, f x = .ok (g x)) :
    items.mapM f = .ok (items.map g) :=
  mapM_eq_ok_iff.mpr (List.forall₂_map_right_iff.mpr (List.forall₂_same.mpr h))

/-- Where an answer is missing and those before it are there, or missing for the same reason, that
is the reason for the whole. -/
lemma mapM_append_of_error {o : ε} {before after : List α} {x : α} (hx : f x = .error o)
    (h : ∀ y ∈ before, (∃ b, f y = .ok b) ∨ f y = .error o) :
    (before ++ x :: after).mapM f = .error o := by
  induction before with
  | nil => rw [List.nil_append, List.mapM_cons, hx]; rfl
  | cons y rest ih =>
      rw [List.cons_append, List.mapM_cons]
      rcases h y (by simp) with ⟨b, hb⟩ | ho
      · rw [hb, ih fun z hz => h z (by simp [hz])]
        rfl
      · rw [ho]
        rfl

/-- If the answers that are missing are missing for one reason, that is the reason for the whole. -/
lemma mapM_of_error {o : ε} {x : α} (hx : x ∈ items) (hxo : f x = .error o)
    (h : ∀ y ∈ items, (∃ b, f y = .ok b) ∨ f y = .error o) : items.mapM f = .error o := by
  obtain ⟨before, after, rfl⟩ := List.append_of_mem hx
  exact mapM_append_of_error hxo fun y hy => h y (List.mem_append_left _ hy)

/-- What is answered alike as long as all answers before are there is answered alike as a whole. -/
lemma mapM_congr_of_answered {g : α → Except ε β}
    (h : ∀ before x after, items = before ++ x :: after → (∀ y ∈ before, ∃ b, f y = .ok b) →
      f x = g x) : items.mapM f = items.mapM g := by
  induction items with
  | nil => rfl
  | cons y rest ih =>
      rw [List.mapM_cons, List.mapM_cons, ← h [] y rest rfl (by simp)]
      cases hy : f y with
      | error o => rfl
      | ok b =>
          have hrest : rest.mapM f = rest.mapM g := by
            refine ih fun before x after hsplit hbefore => ?_
            refine h (y :: before) x after (by rw [hsplit, List.cons_append]) fun z hz => ?_
            rcases List.mem_cons.mp hz with rfl | hz
            · exact ⟨b, hy⟩
            · exact hbefore z hz
          rw [hrest]

/-- Lists that are answered alike place by place have the same answers. -/
lemma mapM_of_forall₂ {γ : Type} {g : γ → Except ε β} {others : List γ}
    (h : List.Forall₂ (fun a c => f a = g c) items others) : items.mapM f = others.mapM g := by
  induction h with
  | nil => rfl
  | cons hac _ ih => rw [List.mapM_cons, List.mapM_cons, hac, ih]

lemma filterM_of_ok {f : α → Except ε Bool} {p : α → Bool}
    (h : ∀ x ∈ items, f x = .ok (p x)) : items.filterM f = .ok (items.filter p) := by
  have haux : ∀ kept, items.filterAuxM f kept = .ok ((items.filter p).reverse ++ kept) := by
    induction items with
    | nil => exact fun kept => rfl
    | cons x rest ih =>
        intro kept
        rw [List.filterAuxM, h x (by simp)]
        show rest.filterAuxM f (bif p x then x :: kept else kept) = _
        rw [ih fun y hy => h y (by simp [hy])]
        cases hp : p x <;> simp [hp]
  rw [List.filterM, haux]
  simp [bind, Except.bind, pure, Except.pure]

lemma forall_ok_of_mapM {answers : List β} (h : items.mapM f = .ok answers) :
    ∀ x ∈ items, ∃ b, f x = .ok b := by
  intro x hx
  obtain ⟨b, -, hb⟩ := exists_right_of_forall₂ (mapM_eq_ok_iff.mp h) hx
  exact ⟨b, hb⟩

lemma exists_error_of_mapM {o : ε} (h : items.mapM f = .error o) :
    ∃ x ∈ items, f x = .error o := by
  induction items with
  | nil => cases h
  | cons x rest ih =>
      rw [List.mapM_cons] at h
      cases hx : f x with
      | error o' =>
          rw [hx] at h
          cases h
          exact ⟨x, by simp, hx⟩
      | ok b =>
          cases hrest : rest.mapM f with
          | error o' =>
              rw [hx, hrest] at h
              cases h
              obtain ⟨y, hy, ho⟩ := ih hrest
              exact ⟨y, by simp [hy], ho⟩
          | ok others => rw [hx, hrest] at h; cases h

end Sequences

/-- The domains, as far as they are treated alike. -/
lemma Domain.cases_matched (d : Domain) :
    d = .component ∨ (d = .device ∨ d = .toolchain) ∨ d = .reference ∨ ∃ name, d = .other name := by
  cases d <;> simp

/-- What keeps an evaluation from a verdict. -/
inductive Obstacle where
  /-- the rules cannot be followed, which a diagnostic of this kind reports -/
  | problem (kind : Problem.Kind)
  /-- a matcher gave up -/
  | fault (f : Fault)

/-- A verdict with the levels that it takes to come to it, or what stands in the way. -/
abbrev Assessment := Except Obstacle (Verdict × Nat)

namespace Rulebook

/-! ### The rules -/

/-- The role of an expression. -/
def roleOf (r : Rulebook) (e : ExpressionRef) : Role := (r.graph.expression e).role

/-- **The verdict on an item by the rules**: a device or toolchain expression is decided by the
matcher, a component expression is ignored, a reference has the verdict on what it is bound to, the
expressions of a condition are combined, and an artifact has the verdict on its guard, if any. -/
inductive Reads (r : Rulebook) (target : Attributes) : Item → Verdict → Prop where
  | component {e : ExpressionRef} : (r.graph.expression e).domain = .component →
      Reads r target (.expression e) .ignored
  | matched {e : ExpressionRef} {met : Bool} :
      (r.graph.expression e).domain = .device ∨ (r.graph.expression e).domain = .toolchain →
      r.matcher (r.graph.expression e).attributes target = .ok met →
      Reads r target (.expression e) (.graded (if met then .fulfilled else .failed))
  | reference {e : ExpressionRef} {j : Item} {v : Verdict} :
      (r.graph.expression e).domain = .reference → (r.graph.expression e).target = some j →
      Reads r target j v → Reads r target (.expression e) v
  | condition {c : ConditionRef} {v : Verdict} (verdict : ExpressionRef → Verdict) :
      (∀ e ∈ (r.graph.condition c).expressions, Reads r target (.expression e) (verdict e)) →
      Combines ((r.graph.condition c).expressions.map fun e => (r.roleOf e, verdict e)) v →
      Reads r target (.condition c) v
  | unguarded {a : ArtifactRef} : (r.graph.artifact a).guard = none →
      Reads r target (.artifact a) (.graded .fulfilled)
  | guarded {a : ArtifactRef} {j : Item} {v : Verdict} : (r.graph.artifact a).guard = some j →
      Reads r target j v → Reads r target (.artifact a) v

variable {r : Rulebook} {target : Attributes} {i : Item} {v : Verdict} {n : Nat}

lemma Reads.isFinal (h : r.Reads target i v) : v.IsFinal := by
  induction h with
  | component => exact .inr (.inr rfl)
  | @matched e met => cases met <;> simp [Verdict.IsFinal]
  | reference _ _ _ ih => exact ih
  | condition _ _ hc => exact hc.isFinal
  | unguarded => exact .inl rfl
  | guarded _ _ ih => exact ih

/-- The rules leave no choice. -/
lemma Reads.unique {w : Verdict} (hv : r.Reads target i v) (hw : r.Reads target i w) : v = w := by
  induction hv generalizing w with
  | component hd =>
      cases hw with
      | component => rfl
      | matched hd' => rw [hd] at hd'; simp at hd'
      | reference hd' => rw [hd] at hd'; cases hd'
  | matched hd hm =>
      cases hw with
      | component hd' => rw [hd'] at hd; simp at hd
      | matched _ hm' => rw [hm] at hm'; cases hm'; rfl
      | reference hd' => rw [hd'] at hd; simp at hd
  | reference hd ht _ ih =>
      cases hw with
      | component hd' => rw [hd] at hd'; cases hd'
      | matched hd' => rw [hd] at hd'; simp at hd'
      | reference _ ht' hj => rw [ht] at ht'; cases ht'; exact ih hj
  | condition verdict _ hc ih =>
      cases hw with
      | condition other hs hc' =>
          have hsame : ∀ e ∈ (r.graph.condition _).expressions,
              (r.roleOf e, verdict e) = (r.roleOf e, other e) :=
            fun e he => by rw [ih e he (hs e he)]
          rw [List.map_congr_left hsame] at hc
          exact hc.unique hc'
  | unguarded hg =>
      cases hw with
      | unguarded => rfl
      | guarded hg' => rw [hg] at hg'; cases hg'
  | guarded hg _ ih =>
      cases hw with
      | unguarded hg' => rw [hg] at hg'; cases hg'
      | guarded hg' hj => rw [hg] at hg'; cases hg'; exact ih hj

/-! ### Assessing without records -/

/-- Assesses some expressions one after the other and counts their verdicts. The height is that of
the highest. -/
def assessTally (r : Rulebook) (recur : Item → Assessment) (es : List ExpressionRef) (t : Tally) :
    Except Obstacle (Tally × Nat) := do
  let outcomes ← es.mapM fun e => recur (.expression e)
  return (t.countAll ((es.map r.roleOf).zip (outcomes.map Prod.fst)),
    highest (outcomes.map Prod.snd))

lemma assessTally_cons {recur : Item → Assessment} {e : ExpressionRef} {rest : List ExpressionRef}
    {t : Tally} :
    r.assessTally recur (e :: rest) t =
      match recur (.expression e) with
      | .ok o =>
        (r.assessTally recur rest (t.countVerdict (r.roleOf e) o.1)).map
          fun x => (x.1, max o.2 x.2)
      | .error o => .error o := by
  simp only [assessTally, List.mapM_cons]
  cases recur (.expression e) with
  | error o => rfl
  | ok o => cases rest.mapM fun e => recur (.expression e) <;> rfl

/-- Assesses an item by way of its successors. The height is that of the highest successor. -/
def assessItem (r : Rulebook) (target : Attributes)
    (recur : List ConditionRef → Item → Assessment) (held : List ConditionRef) :
    Item → Assessment
  | .expression e =>
    match (r.graph.expression e).domain with
    | .component => .ok (.ignored, 0)
    | .device | .toolchain =>
      match r.matcher (r.graph.expression e).attributes target with
      | .ok met => .ok (.graded (if met then .fulfilled else .failed), 0)
      | .error f => .error (.fault f)
    | .reference =>
      match (r.graph.expression e).target with
      | some j => recur held j
      | none => .error (.problem .unresolvedReference)
    | .other _ => .error (.problem .unknownDomain)
  | .condition c =>
    if c ∈ held then .error (.problem .cycle)
    else
      (r.assessTally (recur (held ++ [c])) (r.graph.condition c).expressions {}).map
        fun x => (x.1.verdict, x.2)
  | .artifact a =>
    match (r.graph.artifact a).guard with
    | some j => recur held j
    | none => .ok (.graded .fulfilled, 0)
  | .scripted _ => .error (.fault .noVerdict)

/-- **An evaluation that remembers nothing**, with the given number of levels left and while the
given conditions are being combined. Items of a consumer's own are left out. -/
def assess (r : Rulebook) (target : Attributes) : Nat → List ConditionRef → Item → Assessment
  | 0, _, _ => .error (.problem .tooDeep)
  | k + 1, held, i =>
    (r.assessItem target (r.assess target k) held i).map fun o => (o.1, o.2 + 1)

/-- The assessment of a condition whose expressions all come to a verdict. -/
lemma assessItem_condition {recur : List ConditionRef → Item → Assessment}
    {held : List ConditionRef} {c : ConditionRef} {outcome : ExpressionRef → Verdict × Nat}
    (hc : c ∉ held)
    (h : ∀ e ∈ (r.graph.condition c).expressions,
      recur (held ++ [c]) (.expression e) = .ok (outcome e)) :
    r.assessItem target recur held (.condition c) =
      .ok ((Tally.ofChildren
          ((r.graph.condition c).expressions.map fun e => (r.roleOf e, (outcome e).1))).verdict,
        highest ((r.graph.condition c).expressions.map fun e => (outcome e).2)) := by
  simp only [assessItem, assessTally, hc, if_false, mapM_of_ok h, bind, Except.bind, pure,
    Except.pure, List.map_map, List.zip_map']
  rfl

lemma assessItem_matched {recur : List ConditionRef → Item → Assessment}
    {held : List ConditionRef} {e : ExpressionRef}
    (hd : (r.graph.expression e).domain = .device ∨ (r.graph.expression e).domain = .toolchain) :
    r.assessItem target recur held (.expression e) =
      match r.matcher (r.graph.expression e).attributes target with
      | .ok met => .ok (.graded (if met then .fulfilled else .failed), 0)
      | .error f => .error (.fault f) := by
  rcases hd with hd | hd <;> simp only [assessItem, hd]

/-- What an assessment comes to is what the rules say, one level at a time. -/
lemma reads_of_assessItem {recur : List ConditionRef → Item → Assessment}
    {held : List ConditionRef} {k : Nat}
    (ih : ∀ {held i v n}, recur held i = .ok (v, n) →
      r.Reads target i v ∧ r.graph.Spans i n ∧ n ≤ k)
    (h : r.assessItem target recur held i = .ok (v, n)) :
    r.Reads target i v ∧ r.graph.Spans i (n + 1) ∧ n ≤ k := by
  cases i with
  | expression e =>
      rcases (r.graph.expression e).domain.cases_matched with hd | hd | hd | ⟨name, hd⟩
      · simp only [assessItem, hd] at h
        cases h
        exact ⟨.component hd, .leaf (Graph.successors_expression_of_ne (by simp [hd])), k.zero_le⟩
      · have hne : (r.graph.expression e).domain ≠ .reference := by
          rcases hd with hd | hd <;> simp [hd]
        rw [assessItem_matched hd] at h
        cases hm : r.matcher (r.graph.expression e).attributes target with
        | error f => rw [hm] at h; cases h
        | ok met =>
            rw [hm] at h
            cases h
            exact ⟨.matched hd hm, .leaf (Graph.successors_expression_of_ne hne), k.zero_le⟩
      · simp only [assessItem, hd] at h
        cases ht : (r.graph.expression e).target with
        | none => rw [ht] at h; cases h
        | some j =>
            rw [ht] at h
            obtain ⟨hr, hs, hle⟩ := ih h
            refine ⟨.reference hd ht hr, .over ?_ hs, hle⟩
            rw [Graph.successors_expression hd, ht]
            rfl
      · simp only [assessItem, hd] at h
        cases h
  | condition c =>
      by_cases hc : c ∈ held
      · simp only [assessItem, hc, if_true] at h
        cases h
      -- every expression came to an outcome of its own
      obtain ⟨outcomes, hall⟩ : ∃ outcomes, (r.graph.condition c).expressions.mapM
          (fun e => recur (held ++ [c]) (.expression e)) = .ok outcomes := by
        simp only [assessItem, assessTally, hc, if_false] at h
        cases hm : (r.graph.condition c).expressions.mapM
          (fun e => recur (held ++ [c]) (.expression e)) with
        | error o => rw [hm] at h; cases h
        | ok outcomes => exact ⟨outcomes, rfl⟩
      choose! outcome ho using forall_ok_of_mapM hall
      rw [assessItem_condition hc ho] at h
      cases h
      have hr : ∀ e ∈ (r.graph.condition c).expressions,
          r.Reads target (.expression e) (outcome e).1 ∧
            r.graph.Spans (.expression e) (outcome e).2 ∧ (outcome e).2 ≤ k :=
        fun e he => ih (ho e he)
      refine ⟨.condition (fun e => (outcome e).1) (fun e he => (hr e he).1) ?_,
        .condition fun e he => (hr e he).2.1, ?_⟩
      · refine combines_verdict fun x hx => ?_
        obtain ⟨e, he, rfl⟩ := List.mem_map.mp hx
        exact (hr e he).1.isFinal
      · refine Graph.highest_le fun m hm => ?_
        obtain ⟨e, he, rfl⟩ := List.mem_map.mp hm
        exact (hr e he).2.2
  | artifact a =>
      simp only [assessItem] at h
      cases hg : (r.graph.artifact a).guard with
      | none =>
          rw [hg] at h
          cases h
          refine ⟨.unguarded hg, .leaf ?_, k.zero_le⟩
          rw [Graph.successors, hg]
          rfl
      | some j =>
          rw [hg] at h
          obtain ⟨hr, hs, hle⟩ := ih h
          refine ⟨.guarded hg hr, .over ?_ hs, hle⟩
          rw [Graph.successors, hg]
          rfl
  | scripted s => cases h

/-- **Assessments follow the rules**: the verdict is that of the rules, the height that of the item,
and the levels that were left were enough. -/
theorem reads_of_assess {k : Nat} {held : List ConditionRef}
    (h : r.assess target k held i = .ok (v, n)) :
    r.Reads target i v ∧ r.graph.Spans i n ∧ n ≤ k := by
  induction k generalizing held i v n with
  | zero => cases h
  | succ k ih =>
      rw [assess] at h
      cases hm : r.assessItem target (r.assess target k) held i with
      | error o => rw [hm] at h; cases h
      | ok outcome =>
          rw [hm] at h
          cases h
          obtain ⟨hr, hs, hle⟩ := reads_of_assessItem ih hm
          exact ⟨hr, hs, by omega⟩

/-- The assessment of a condition on which the rules give a verdict, from those of its expressions:
if all of them fit, it has the verdict of the rules, and otherwise it is too deep. -/
lemma assessItem_condition_of_reads {k : Nat} {held : List ConditionRef} {c : ConditionRef}
    {verdict : ExpressionRef → Verdict} {height : ExpressionRef → Nat} (hc : c ∉ held)
    (hr : ∀ e ∈ (r.graph.condition c).expressions, r.Reads target (.expression e) (verdict e))
    (hv : Combines ((r.graph.condition c).expressions.map fun e => (r.roleOf e, verdict e)) v)
    (h : ∀ e ∈ (r.graph.condition c).expressions,
      r.assess target k (held ++ [c]) (.expression e) =
        if height e ≤ k then .ok (verdict e, height e) else .error (.problem .tooDeep)) :
    r.assessItem target (r.assess target k) held (.condition c) =
      if highest ((r.graph.condition c).expressions.map height) ≤ k then
        .ok (v, highest ((r.graph.condition c).expressions.map height))
      else .error (.problem .tooDeep) := by
  by_cases hfits : ∀ e ∈ (r.graph.condition c).expressions, height e ≤ k
  · have hle : highest ((r.graph.condition c).expressions.map height) ≤ k :=
      Graph.highest_le fun m hm => by
        obtain ⟨e, he, rfl⟩ := List.mem_map.mp hm
        exact hfits e he
    have hok : ∀ e ∈ (r.graph.condition c).expressions,
        r.assess target k (held ++ [c]) (.expression e) = .ok (verdict e, height e) :=
      fun e he => by rw [h e he, if_pos (hfits e he)]
    rw [if_pos hle, assessItem_condition hc hok]
    have hfinal : ∀ x ∈ (r.graph.condition c).expressions.map fun e => (r.roleOf e, verdict e),
        x.2.IsFinal := fun x hx => by
      obtain ⟨e, he, rfl⟩ := List.mem_map.mp hx
      exact (hr e he).isFinal
    rw [(combines_verdict hfinal).unique hv]
  · obtain ⟨e, he, hgt⟩ : ∃ e ∈ (r.graph.condition c).expressions, ¬ height e ≤ k := by
      simpa using hfits
    have hhigh : ¬ highest ((r.graph.condition c).expressions.map height) ≤ k := fun hle =>
      hgt ((Graph.le_highest (List.mem_map.mpr ⟨e, he, rfl⟩)).trans hle)
    have herror := mapM_of_error (f := fun e => r.assess target k (held ++ [c]) (.expression e))
      he (by rw [h e he, if_neg hgt]) fun e' he' => by
        rw [h e' he']
        split
        · exact .inl ⟨_, rfl⟩
        · exact .inr rfl
    rw [if_neg hhigh]
    simp only [assessItem, assessTally, hc, if_false, herror]
    rfl

/-- **Where the rules give a verdict, only the levels that are left can stand in the way**, provided
that no condition is met again that is being combined. -/
theorem assess_of_reads (hs : r.graph.Spans i n) (hr : r.Reads target i v) (k : Nat)
    {held : List ConditionRef} (hfree : ∀ c ∈ held, ¬ r.graph.Reaches i (.condition c)) :
    r.assess target k held i = if n ≤ k then .ok (v, n) else .error (.problem .tooDeep) := by
  induction hs generalizing v k held with
  | @above i height hs ih =>
      cases k with
      | zero => rfl
      | succ k =>
          suffices h : r.assessItem target (r.assess target k) held i =
              if highest ((r.graph.successors i).map height) ≤ k then
                .ok (v, highest ((r.graph.successors i).map height))
              else .error (.problem .tooDeep) by
            rw [assess, h]
            by_cases hk : highest ((r.graph.successors i).map height) ≤ k
            · rw [if_pos hk, if_pos (by omega)]
              rfl
            · rw [if_neg hk, if_neg (by omega)]
              rfl
          -- what a successor reaches, the item reaches too
          have hbelow : ∀ j ∈ r.graph.successors i, ∀ c ∈ held,
              ¬ r.graph.Reaches j (.condition c) :=
            fun j hj c hc hjc => hfree c hc (.head hj hjc)
          cases hr with
          | @component e hd =>
              rw [Graph.successors_expression_of_ne (by simp [hd])]
              simp [assessItem, hd]
          | @matched e met hd hm =>
              rw [assessItem_matched hd, hm]
              have hne : (r.graph.expression e).domain ≠ .reference := by
                rcases hd with hd | hd <;> simp [hd]
              rw [Graph.successors_expression_of_ne hne]
              simp
          | @reference e j _ hd ht hj =>
              have hmem := Graph.leads_target hd ht
              have := ih j hmem hj k (hbelow j hmem)
              rw [Graph.successors_expression hd, ht]
              simpa [assessItem, hd, ht] using this
          | @condition c _ verdict hv hw =>
              have hc : c ∉ held := fun hc => hfree c hc .refl
              rw [Graph.successors, List.map_map]
              refine assessItem_condition_of_reads hc hv hw fun e he => ?_
              refine ih (.expression e) (Graph.leads_expression he) (hv e he) k ?_
              intro c' hc' hreach
              rcases List.mem_append.mp hc' with hc' | hc'
              · exact hbelow _ (Graph.leads_expression he) c' hc' hreach
              · -- the expression would lead back to its own condition
                obtain rfl := List.mem_singleton.mp hc'
                exact (Graph.Spans.above height hs).not_onCycle
                  (.head' (Graph.leads_expression he) hreach)
          | @unguarded a hg =>
              rw [Graph.successors, hg]
              simp [assessItem, hg]
          | @guarded a j _ hg hj =>
              have hmem := Graph.leads_guard hg
              have := ih j hmem hj k (hbelow j hmem)
              rw [Graph.successors, hg]
              simpa [assessItem, hg] using this

end Rulebook

end Applicability
