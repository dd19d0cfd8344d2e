/-
Records: what is on record is what the rules say.

A pass answers from its records whatever it has a grade for, at other depths and under other
conditions than those under which the grade was noted. What can be relied on is stated here.

* `Kept`: the target, the conditions that are held, the question, the depth and the journals are the
  same after an evaluation as before it;
* `Rulebook.Sound`: every grade on record is the verdict of the rules, and its height is that of the
  item. A new pass is sound, and noting what the rules say keeps a pass sound (`Sound.record`), as
  does noting an error (`Sound.record_error`).
-/
import Applicability.Proofs.Reading

namespace Applicability

/-! ### What an evaluation leaves alone -/

/-- What every evaluation leaves as it was. -/
structure Kept (s t : Scene) : Prop where
  target : t.pass.target = s.pass.target
  active : t.pass.active = s.pass.active
  denying : t.pass.denying = s.pass.denying
  depth : t.pass.depth = s.pass.depth
  journals : t.journals = s.journals

lemma Kept.refl (s : Scene) : Kept s s := ⟨rfl, rfl, rfl, rfl, rfl⟩

lemma Kept.trans {s t u : Scene} (h : Kept s t) (h' : Kept t u) : Kept s u :=
  ⟨h'.target.trans h.target, h'.active.trans h.active, h'.denying.trans h.denying,
    h'.depth.trans h.depth, h'.journals.trans h.journals⟩

/-- Coming back from a level makes up for going down to it. -/
lemma Kept.leave {s t : Scene} (h : Kept { s with pass := s.pass.enter } t) (outer : Int) :
    Kept s { t with pass := t.pass.leave outer } := by
  refine ⟨h.target, h.active, h.denying, ?_, h.journals⟩
  have hdepth : t.pass.depth = s.pass.depth + 1 := h.depth
  show t.pass.depth - 1 = s.pass.depth
  omega

namespace Pass

/-- Passes with the same records that have come to the same point. -/
structure SameAccount (p q : Pass) : Prop where
  target : q.target = p.target
  records : q.records = p.records
  depth : q.depth = p.depth
  reached : q.reached = p.reached
  diagnostics : q.diagnostics = p.diagnostics

/-- What is answered from the records after a verdict was noted. -/
lemma recordedGrade_record (p : Pass) (key other : RecordKey) (v : Verdict) (height : Int) :
    (p.record key v height).recordedGrade other =
      if other = key ∧ v.isSilent = false then v.grade?.map (·, height)
      else p.recordedGrade other := by
  rw [recordedGrade, recordedGrade, lookUp_record]
  split
  · cases hv : v.grade? <;> simp [hv]
  · rfl

/-- Noting a verdict changes the records only. -/
lemma exists_record (p : Pass) (key : RecordKey) (v : Verdict) (height : Int) :
    ∃ records, p.record key v height = { p with records } := by
  rw [record]
  split
  · exact ⟨p.records, rfl⟩
  · exact ⟨_, rfl⟩

lemma recordedGrade_congr {p q : Pass} (h : q.records = p.records) (key : RecordKey) :
    q.recordedGrade key = p.recordedGrade key := by
  rw [recordedGrade, recordedGrade, lookUp, lookUp, h]

end Pass

namespace Rulebook

variable {r : Rulebook}

/-! ### Sound records -/

/-- **Sound records**: every grade on record is the verdict of the rules for the target of the pass,
whether or not the opposite was asked for, and its height is that of the item. -/
def Sound (r : Rulebook) (p : Pass) : Prop :=
  ∀ key g height, p.recordedGrade key = some (g, height) →
    r.Reads p.target key.1 (.graded g) ∧ ∃ n : Nat, height = n ∧ r.graph.Spans key.1 n

lemma sound_start (target : Attributes) : r.Sound (Pass.start target) := by
  intro key g height h
  cases h

lemma Sound.congr {p q : Pass} (h : r.Sound p) (ht : q.target = p.target)
    (hr : q.records = p.records) : r.Sound q := by
  intro key g height hk
  rw [Pass.recordedGrade_congr hr] at hk
  rw [ht]
  exact h key g height hk

/-- A verdict of the rules may be noted, with the height of the item. -/
lemma Sound.record {p : Pass} {i : Item} {denying : Bool} {v : Verdict} {n : Nat} (h : r.Sound p)
    (hv : r.Reads p.target i v) (hn : r.graph.Spans i n) :
    r.Sound (p.record (i, denying) v n) := by
  intro key g height hk
  obtain ⟨records, hp⟩ := p.exists_record (i, denying) v n
  rw [Pass.recordedGrade_record] at hk
  rw [hp]
  split at hk
  · next hkey =>
    obtain ⟨rfl, -⟩ := hkey
    cases v with
    | graded g' =>
        cases hk
        exact ⟨hv, n, rfl, hn⟩
    | _ => cases hk
  · exact h key g height hk

/-- An error may be noted too, since it is never answered from the records. -/
lemma Sound.record_error {p : Pass} {key : RecordKey} {height : Int} (h : r.Sound p) :
    r.Sound (p.record key .error height) := by
  intro other g height' hk
  obtain ⟨records, hp⟩ := p.exists_record key .error height
  rw [Pass.recordedGrade_record] at hk
  rw [hp]
  split at hk
  · cases hk
  · exact h other g height' hk

end Rulebook

end Applicability
