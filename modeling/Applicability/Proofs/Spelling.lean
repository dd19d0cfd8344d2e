/-
Spelling: patterns as they are written.

A pattern is a row of signs: a star, a question mark, the text of a set between two brackets, or a
character that stands for itself. The text of a set may begin with an exclamation mark; the
character after that may be any, and the next closing bracket ends it. An opening bracket that
begins no set stands for itself.

* `SetText`: what stands between two brackets; `splitSet_eq_some_iff`: it is found;
* `Spells`: the signs of a pattern, with `exists_spells` and `Spells.unique`: there is exactly one
  row of them;
* `ofPattern_eq`: the tokens of a pattern are those of its signs.
-/
import Applicability.Proofs.Brackets

namespace Applicability.Wildcard

/-! ### The text of a set -/

/-- **The text between two brackets**: after an exclamation mark, if it begins with one, there is a
character of any kind, and then no closing bracket. -/
inductive SetText : List Char → Prop where
  | plain {first : Char} {rest : List Char} : first ≠ '!' → ']' ∉ rest → SetText (first :: rest)
  | negated {first : Char} {rest : List Char} : ']' ∉ rest → SetText ('!' :: first :: rest)

namespace Token

variable {s body rest inner : List Char}

/-- A text before and after the first occurrence of a character. -/
lemma map_idxOf?_eq_some_iff {b : Char} :
    (s.idxOf? b).map (fun n => (s.take n, s.drop (n + 1))) = some (inner, rest) ↔
      s = inner ++ b :: rest ∧ b ∉ inner := by
  induction s generalizing inner with
  | nil => simp
  | cons c s ih =>
      by_cases hc : c = b
      · subst hc
        cases inner with
        | nil => simp [List.idxOf?_cons]
        | cons d inner =>
            simp only [List.idxOf?_cons, beq_self_eq_true, if_true, Option.map_some, List.take_zero]
            grind
      · have hstep : ((c :: s).idxOf? b).map (fun n => ((c :: s).take n, (c :: s).drop (n + 1))) =
            ((s.idxOf? b).map fun n => (s.take n, s.drop (n + 1))).map
              fun cut => (c :: cut.1, cut.2) := by
          simp [List.idxOf?_cons, hc, Option.map_map, Function.comp_def]
        rw [hstep, Option.map_eq_some_iff]
        constructor
        · rintro ⟨⟨before, after⟩, hcut, he⟩
          cases he
          obtain ⟨rfl, hbefore⟩ := ih.mp hcut
          exact ⟨rfl, List.not_mem_cons_of_ne_of_not_mem (Ne.symm hc) hbefore⟩
        · rintro ⟨he, hinner⟩
          cases inner with
          | nil => exact absurd (List.cons.inj he).1 hc
          | cons d inner =>
              obtain ⟨rfl, rfl⟩ := List.cons.inj he
              have hin := (List.ne_and_not_mem_of_not_mem_cons hinner).2
              exact ⟨(inner, rest), ih.mpr ⟨rfl, hin⟩, rfl⟩

/-- The text of a set without an exclamation mark: the first character is no end of it. -/
lemma splitSet_cons {c : Char} (hc : c ≠ '!') (t : List Char) :
    splitSet (c :: t) = ((t.idxOf? ']').map fun n => (t.take n, t.drop (n + 1))).map
      fun cut => (c :: cut.1, cut.2) := by
  by_cases hclose : c = ']'
  · subst hclose
    simp [splitSet, Option.map_map, Function.comp_def, Nat.add_comm 1]
  · simp [splitSet, hc, hclose, List.idxOf?_cons, Option.map_map, Function.comp_def]

/-- The text of a set with an exclamation mark: the character after it is no end either. -/
lemma splitSet_mark_cons (c : Char) (t : List Char) :
    splitSet ('!' :: c :: t) = ((t.idxOf? ']').map fun n => (t.take n, t.drop (n + 1))).map
      fun cut => ('!' :: c :: cut.1, cut.2) := by
  by_cases hclose : c = ']'
  · subst hclose
    simp [splitSet, Option.map_map, Function.comp_def, Nat.add_comm 2]
  · simp [splitSet, hclose, List.idxOf?_cons, Option.map_map, Function.comp_def, Nat.add_comm 1]

/-- **The text of a set is found**, and what follows it. -/
lemma splitSet_eq_some_iff :
    splitSet s = some (body, rest) ↔ s = body ++ ']' :: rest ∧ SetText body := by
  constructor
  · intro h
    cases s with
    | nil => cases h
    | cons c t =>
        by_cases hc : c = '!'
        · subst hc
          cases t with
          | nil => cases h
          | cons d t =>
              rw [splitSet_mark_cons] at h
              obtain ⟨⟨inner, after⟩, hcut, he⟩ := Option.map_eq_some_iff.mp h
              cases he
              obtain ⟨rfl, hinner⟩ := map_idxOf?_eq_some_iff.mp hcut
              exact ⟨rfl, .negated hinner⟩
        · rw [splitSet_cons hc] at h
          obtain ⟨⟨inner, after⟩, hcut, he⟩ := Option.map_eq_some_iff.mp h
          cases he
          obtain ⟨rfl, hinner⟩ := map_idxOf?_eq_some_iff.mp hcut
          exact ⟨rfl, .plain hc hinner⟩
  · rintro ⟨rfl, hbody⟩
    cases hbody with
    | plain hfirst hinner =>
        rw [List.cons_append, splitSet_cons hfirst,
          map_idxOf?_eq_some_iff.mpr ⟨rfl, hinner⟩]
        rfl
    | negated hinner =>
        rw [List.cons_append, List.cons_append, splitSet_mark_cons,
          map_idxOf?_eq_some_iff.mpr ⟨rfl, hinner⟩]
        rfl

end Token

/-! ### Signs -/

/-- One sign of a pattern. -/
inductive Sign where
  | star
  | question
  /-- a set, with the text between its brackets -/
  | set (body : List Char)
  /-- a character that stands for itself -/
  | char (c : Char)
deriving DecidableEq, Repr

/-- The token of a sign. -/
def Sign.token : Sign → Token
  | star => .anyRun
  | question => .anyOne
  | set body => .oneOf (CharSet.ofBody body)
  | char c => .one c

/-- **The signs of a pattern**, from left to right. -/
inductive Spells : List Sign → List Char → Prop where
  | nil : Spells [] []
  | star {signs : List Sign} {p : List Char} : Spells signs p → Spells (.star :: signs) ('*' :: p)
  | question {signs : List Sign} {p : List Char} :
      Spells signs p → Spells (.question :: signs) ('?' :: p)
  | set {signs : List Sign} {body p : List Char} :
      SetText body → Spells signs p → Spells (.set body :: signs) ('[' :: (body ++ ']' :: p))
  | unclosed {signs : List Sign} {p : List Char} :
      (∀ body rest, p = body ++ ']' :: rest → ¬ SetText body) → Spells signs p →
        Spells (.char '[' :: signs) ('[' :: p)
  | char {c : Char} {signs : List Sign} {p : List Char} :
      isSpecial c = false → Spells signs p → Spells (.char c :: signs) (c :: p)

namespace Token

variable {c : Char} {s body rest : List Char}

lemma ofPattern_bracket_of_some (h : splitSet s = some (body, rest)) :
    ofPattern ('[' :: s) = oneOf (CharSet.ofBody body) :: ofPattern rest := by
  rw [ofPattern]
  split <;> simp_all

lemma ofPattern_bracket_of_none (h : splitSet s = none) :
    ofPattern ('[' :: s) = one '[' :: ofPattern s := by
  rw [ofPattern]
  split <;> simp_all

lemma ofPattern_of_not_special (h : isSpecial c = false) :
    ofPattern (c :: s) = one c :: ofPattern s := by
  simp only [isSpecial, Bool.or_eq_false_iff, beq_eq_false_iff_ne] at h
  obtain ⟨⟨hstar, hquestion⟩, hbracket⟩ := h
  rw [ofPattern]
  · exact hstar
  · exact hquestion
  · exact hbracket

end Token

namespace Spells

variable {signs signs' : List Sign} {p : List Char}

/-- The tokens of a pattern are those of its signs. -/
lemma ofPattern_eq (h : Spells signs p) : Token.ofPattern p = signs.map Sign.token := by
  induction h with
  | nil => rw [Token.ofPattern]; rfl
  | star _ ih => rw [Token.ofPattern, ih]; rfl
  | question _ ih => rw [Token.ofPattern, ih]; rfl
  | set hbody _ ih =>
      rw [Token.ofPattern_bracket_of_some (Token.splitSet_eq_some_iff.mpr ⟨rfl, hbody⟩), ih]
      rfl
  | @unclosed _ p hopen _ ih =>
      have hnone : Token.splitSet p = none :=
        Option.eq_none_iff_forall_ne_some.mpr fun cut hsplit => by
          obtain ⟨hp, hbody⟩ := Token.splitSet_eq_some_iff.mp hsplit
          exact hopen cut.1 cut.2 hp hbody
      rw [Token.ofPattern_bracket_of_none hnone, ih]
      rfl
  | char hc _ ih =>
      rw [Token.ofPattern_of_not_special hc, ih]
      rfl

end Spells

/-- **Every text is a pattern.** -/
lemma exists_spells (p : List Char) : ∃ signs, Spells signs p := by
  cases p with
  | nil => exact ⟨[], .nil⟩
  | cons c p =>
      obtain ⟨signs, hsigns⟩ := exists_spells p
      by_cases hspecial : isSpecial c
      · have hc : (c = '*' ∨ c = '?') ∨ c = '[' := by simpa [isSpecial] using hspecial
        rcases hc with (rfl | rfl) | rfl
        · exact ⟨_, .star hsigns⟩
        · exact ⟨_, .question hsigns⟩
        · cases hsplit : Token.splitSet p with
          | none =>
              refine ⟨_, .unclosed (fun body rest hp hbody => ?_) hsigns⟩
              rw [Token.splitSet_eq_some_iff.mpr ⟨hp, hbody⟩] at hsplit
              cases hsplit
          | some split =>
              obtain ⟨body, rest⟩ := split
              obtain ⟨hp, hbody⟩ := Token.splitSet_eq_some_iff.mp hsplit
              have hshorter : rest.length < p.length := Token.splitSet_length hsplit
              obtain ⟨after, hafter⟩ := exists_spells rest
              rw [hp]
              exact ⟨_, .set hbody hafter⟩
      · exact ⟨_, .char (by simpa using hspecial) hsigns⟩
termination_by p.length

/-- **No text is a pattern in two ways.** -/
lemma Spells.unique {signs signs' : List Sign} {p : List Char} (h : Spells signs p)
    (h' : Spells signs' p) : signs = signs' := by
  induction h generalizing signs' with
  | nil => cases h'; rfl
  | star _ ih =>
      cases h' with
      | star h' => rw [ih h']
      | char hc => cases hc
  | question _ ih =>
      cases h' with
      | question h' => rw [ih h']
      | char hc => cases hc
  | @set _ body p hbody _ ih =>
      generalize hs : body ++ ']' :: p = s at h'
      cases h' with
      | @set signs' body' p' hbody' h' =>
          have hfound : Token.splitSet (body' ++ ']' :: p') = some (body', p') :=
            Token.splitSet_eq_some_iff.mpr ⟨rfl, hbody'⟩
          rw [Token.splitSet_eq_some_iff.mpr ⟨hs.symm, hbody⟩] at hfound
          cases hfound
          rw [ih h']
      | unclosed hopen => exact absurd hbody (hopen _ _ hs.symm)
      | char hc => cases hc
  | unclosed hopen _ ih =>
      cases h' with
      | set hbody => exact absurd hbody (hopen _ _ rfl)
      | unclosed _ h' => rw [ih h']
      | char hc => cases hc
  | char hc _ ih =>
      cases h' with
      | char _ h' => rw [ih h']
      | _ => cases hc

end Applicability.Wildcard
