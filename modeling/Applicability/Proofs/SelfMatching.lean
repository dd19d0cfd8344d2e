/-
Self-matching: a value against itself.

When two values are compared, each is read as a pattern and as a text. A value that is compared with
itself need not match: a set between brackets stands for one character, and its own text has three
at least. It matches if it splits as it asks itself.

* `Sign.Accepts`: the characters that a sign stands for, with or without regard to case;
* `matchEither_self_iff`: a value matches itself if it splits as its own signs ask;
* `splits_self`: so it does if none of its signs is a set;
* `not_splits_self`: but not if one is, and none is a star;
* `agree_self`: attributes meet themselves as a predicate if all their values match themselves;
* `self_matching`: what becomes of an expression for a target that has the same attributes.
-/
import Mathlib.Algebra.Order.BigOperators.Group.List
import Mathlib.Algebra.Order.Group.Nat
import Applicability.Proofs.CommonNames
import Applicability.Proofs.Effects
import Applicability.Proofs.Lockstep
import Applicability.Proofs.Questions
import Applicability.Proofs.Shortcut

namespace Applicability

namespace Wildcard

/-- The characters that a sign stands for, with or without regard to case. A star stands for none as
such. -/
def Sign.Accepts (observeCase : Bool) (sign : Sign) (c : Char) : Prop :=
  sign.token.accepts (.read observeCase c) = true

variable {observeCase : Bool} {signs : List Sign} {p : List Char}

lemma Sign.accepts_char {c d : Char} :
    (Sign.char c).Accepts observeCase d ↔ Alike observeCase c d := contains_forms_read

/-- **A value matches itself** if it splits as its own signs ask, also if it has no wildcard
characters. -/
lemma matchEither_self_iff (v : String) :
    matchEither observeCase v v = true ↔ Splits (Sign.Accepts observeCase) v.toList v.toList := by
  have htokens : matchByTokens observeCase v v = true ↔
      Splits (Sign.Accepts observeCase) v.toList v.toList := by
    rw [matchByTokens, matchTokens_iff]
    exact matches_iff_splits
  rw [matchEither, Bool.or_self, ← htokens]
  cases h : v.toList.any isSpecial with
  | true => rw [matchText_of_special h]
  | false =>
      have halike : List.Forall₂ (Alike observeCase) v.toList v.toList :=
        List.forall₂_same.mpr fun c _ => alike_refl c
      have hwhole : matchText observeCase v v = true := by
        cases observeCase with
        | true => exact (matchText_plain_true h).mpr rfl
        | false => exact (matchText_plain_false h).mpr rfl
      exact ⟨fun _ => (matchByTokens_plain_iff h).mpr halike, fun _ => hwhole⟩

/-- How a sign is written. -/
def Sign.text : Sign → List Char
  | star => ['*']
  | question => ['?']
  | set body => '[' :: (body ++ [']'])
  | char c => [c]

lemma Spells.flatten_text (h : Spells signs p) : (signs.map Sign.text).flatten = p := by
  induction h with
  | set _ _ ih => simp [Sign.text, ih]
  | _ => simp_all [Sign.text]

/-- Every sign but a set stands for itself as it is written. -/
lemma Sign.takes_text {sign : Sign} (h : ∀ body, sign ≠ .set body) :
    Sign.Takes (Sign.Accepts observeCase) sign sign.text := by
  cases sign with
  | star => exact .run _
  | question => exact .single rfl
  | set body => exact absurd rfl (h body)
  | char c => exact .single (Sign.accepts_char.mpr (alike_refl c))

/-- **A value without sets splits as it asks itself.** -/
lemma splits_self (h : Spells signs p) (hset : ∀ body, .set body ∉ signs) :
    Splits (Sign.Accepts observeCase) p p := by
  refine ⟨signs, signs.map Sign.text, h, ?_, h.flatten_text⟩
  refine List.forall₂_map_right_iff.mpr (List.forall₂_same.mpr fun sign hmem => ?_)
  exact Sign.takes_text fun body he => hset body (he ▸ hmem)

/-- A pattern with a set has more characters than signs. -/
lemma Spells.length_lt (h : Spells signs p) (hset : ∃ body, .set body ∈ signs) :
    signs.length < p.length := by
  obtain ⟨body, hbody⟩ := hset
  calc signs.length = (signs.map fun _ => 1).sum := by simp
    _ < (signs.map fun sign => sign.text.length).sum :=
      List.sum_lt_sum _ _ (fun sign _ => by cases sign <;> simp [Sign.text])
        ⟨_, hbody, by simp [Sign.text]⟩
    _ = p.length := by
      rw [← h.flatten_text, List.length_flatten, List.map_map]
      rfl

lemma length_flatten_of_takes {accepts : Sign → Char → Prop} {pieces : List (List Char)}
    (h : List.Forall₂ (Sign.Takes accepts) signs pieces) (hstar : .star ∉ signs) :
    pieces.flatten.length = signs.length := by
  induction h with
  | nil => rfl
  | @cons sign piece signs pieces hpiece _ ih =>
      obtain ⟨hsign, hrest⟩ := List.ne_and_not_mem_of_not_mem_cons hstar
      cases hpiece with
      | run => exact absurd rfl hsign
      | single =>
          rw [List.flatten_cons, List.length_append, ih hrest, List.length_singleton,
            List.length_cons, Nat.add_comm]

/-- **A value with a set, but without a star, does not split as it asks itself.** -/
lemma not_splits_self (h : Spells signs p) (hstar : .star ∉ signs)
    (hset : ∃ body, .set body ∈ signs) : ¬ Splits (Sign.Accepts observeCase) p p := by
  rintro ⟨signs', pieces, h', htakes, hp⟩
  obtain rfl := h'.unique h
  -- each sign takes one character, but a closed set is written with at least three
  have hlength := length_flatten_of_takes htakes hstar
  rw [hp] at hlength
  exact absurd hlength (Nat.ne_of_gt (h.length_lt hset))

end Wildcard

/-! ### Attributes -/

variable {observeCase : Bool} {r : Rulebook} {e : ExpressionRef} {a target : Attributes} {s : Scene}

/-- Whether all values of attributes match themselves. -/
def Attributes.matchThemselves (observeCase : Bool) (a : Attributes) : Bool :=
  a.entries.all fun e => Wildcard.matchEither observeCase e.2 e.2

/-- **Attributes meet themselves** as a predicate if all their values match themselves. -/
lemma agree_self (a : Attributes) : agree observeCase a a = a.matchThemselves observeCase := by
  rw [Bool.eq_iff_iff, agree, Attributes.matchThemselves, List.all_eq_true, List.all_eq_true]
  refine forall₂_congr fun e he => ?_
  rw [(a.get?_eq_some_iff e.1 e.2).mpr he]

lemma agree_of_same (h : a.same target = true) :
    agree observeCase a target = target.matchThemselves observeCase := by
  rw [← agree_self]
  exact agree_congr (Attributes.get?_of_same h) fun _ => rfl

namespace Rulebook

/-- An expression that the matcher decides, as an expression, in any pass. -/
lemma answer_evaluateAsExpression {met : Bool}
    (hd : (r.graph.expression e).domain = .device ∨ (r.graph.expression e).domain = .toolchain)
    (hmet : r.matcher (r.graph.expression e).attributes s.pass.target = .ok met) :
    (r.evaluateAsExpression (some (.expression e))).answer s =
      .ok (.graded (if met then .fulfilled else .failed)) := by
  rw [Run.answer, evaluateAsExpression, evaluateExpression_of_matched hd, hmet]

lemma answer_evaluate_of_matched {met : Bool} {journals : Journals}
    (hd : (r.graph.expression e).domain = .device ∨ (r.graph.expression e).domain = .toolchain)
    (hmet : r.matcher (r.graph.expression e).attributes target = .ok met)
    (hdepth : 1 ≤ r.maxDepth) :
    (r.evaluate (some (.expression e))).answer (fresh target journals) =
      .ok (.graded (if met then .fulfilled else .failed)) := by
  obtain ⟨n, hvisit⟩ := r.exists_evaluate_eq_visit (.expression e) (fresh target journals)
  have henter : (fresh target journals).pass.depth < r.maxDepth := by
    show (0 : Int) < r.maxDepth
    omega
  rw [Run.answer, hvisit, visit_of_enter rfl henter, evaluateItem,
    evaluateExpression_of_matched hd]
  simp only [fresh, Pass.start, Pass.enter, hmet]
  rfl

/-- **Self-matching.** A value matches itself if it splits into consecutive pieces as its own signs
ask. So every value does in which no set is closed, whatever stars, question marks and opening
brackets it has, and none does that has a set and no star. Attributes meet themselves as a predicate
if all their values match themselves. And for a target that has the same attributes as the predicate
of a device or toolchain expression, the expression is fulfilled in this case and has failed in
every other one. -/
theorem self_matching (observeCase : Bool) :
    (∀ v : String, Wildcard.matchEither observeCase v v = true ↔
      Wildcard.Splits (Wildcard.Sign.Accepts observeCase) v.toList v.toList) ∧
    (∀ (v : String) (signs : List Wildcard.Sign), Wildcard.Spells signs v.toList →
      ((∀ body, .set body ∉ signs) → Wildcard.matchEither observeCase v v = true) ∧
      (.star ∉ signs → (∃ body, .set body ∈ signs) →
        Wildcard.matchEither observeCase v v = false)) ∧
    (∀ a : Attributes, agree observeCase a a = a.matchThemselves observeCase) ∧
    ∀ (g : Graph) (maxDepth : Nat) (e : ExpressionRef) (target : Attributes),
      (g.expression e).domain = .device ∨ (g.expression e).domain = .toolchain →
      (g.expression e).attributes.same target = true →
      let r : Rulebook := ⟨g, .wildcard observeCase, maxDepth⟩
      let verdict : Verdict :=
        .graded (if target.matchThemselves observeCase then .fulfilled else .failed)
      (∀ s : Scene, s.pass.target = target →
        (r.evaluateAsExpression (some (.expression e))).answer s = .ok verdict) ∧
      (1 ≤ maxDepth → ∀ journals,
        (r.evaluate (some (.expression e))).answer (fresh target journals) = .ok verdict) := by
  refine ⟨Wildcard.matchEither_self_iff, fun v signs h => ⟨fun hset => ?_, fun hstar hset => ?_⟩,
    agree_self, fun g maxDepth e target hd hsame => ⟨fun s hs => ?_, fun hdepth journals => ?_⟩⟩
  · exact (Wildcard.matchEither_self_iff v).mpr (Wildcard.splits_self h hset)
  · rw [← Bool.not_eq_true, Wildcard.matchEither_self_iff]
    exact Wildcard.not_splits_self h hstar hset
  · subst hs
    exact answer_evaluateAsExpression hd (congrArg Except.ok (agree_of_same hsame))
  · exact answer_evaluate_of_matched hd (congrArg Except.ok (agree_of_same hsame)) hdepth

/-- A name with a star, a question mark and an opening bracket matches itself, a name with a set
does not, and an expression for a target with both has failed. -/
theorem self_matching_sample :
    let a := Attributes.ofList [("Dname", "STM32*[?"), ("Dcore", "M[47]")]
    let g : Graph := { expressions := #[{ domain := .device, attributes := a }] }
    let r : Rulebook := ⟨g, .wildcard false, 4⟩
    let signs : List Wildcard.Sign :=
      [.char 'S', .char 'T', .char 'M', .char '3', .char '2', .star, .char '[', .question]
    Wildcard.Spells signs "STM32*[?".toList ∧ (∀ body, .set body ∉ signs) ∧
      Wildcard.matchEither false "STM32*[?" "STM32*[?" = true ∧
      Wildcard.Spells [.char 'M', .set ['4', '7']] "M[47]".toList ∧
      Wildcard.matchEither false "M[47]" "M[47]" = false ∧
      (g.expression ⟨0⟩).domain = .device ∧ (g.expression ⟨0⟩).attributes.same a = true ∧
      (fresh a {}).pass.target = a ∧
      (r.evaluateAsExpression (some (.expression ⟨0⟩))).answer (fresh a {}) =
        .ok (.graded .failed) ∧
      (r.evaluate (some (.expression ⟨0⟩))).answer (fresh a {}) = .ok (.graded .failed) := by
  intro a g r signs
  obtain ⟨-, hvalues, -, hexpression⟩ := self_matching false
  have hno : ∀ body, Wildcard.Sign.set body ∉ signs := by simp [signs]
  have hunclosed : ∀ body rest, ['?'] = body ++ ']' :: rest → ¬ Wildcard.SetText body := by
    intro body rest hsplit
    have hclose : ']' ∈ ['?'] := hsplit ▸ List.mem_append_right body List.mem_cons_self
    exact absurd hclose (by decide)
  have hopen : Wildcard.Spells signs "STM32*[?".toList :=
    .char rfl (.char rfl (.char rfl (.char rfl (.char rfl (.star (.unclosed hunclosed
      (.question .nil)))))))
  have hclosed : Wildcard.Spells [.char 'M', .set ['4', '7']] "M[47]".toList :=
    .char rfl (.set (.plain (by decide) (by decide)) .nil)
  have hyes := (hvalues _ _ hopen).1 hno
  have hnot := (hvalues _ _ hclosed).2 (by decide) ⟨['4', '7'], by decide⟩
  have hall : a.matchThemselves false = false :=
    List.all_eq_false.mpr ⟨("Dcore", "M[47]"), by decide, by simp [hnot]⟩
  obtain ⟨hany, hnew⟩ := hexpression g 4 ⟨0⟩ a (.inl rfl) (by decide)
  rw [hall] at hany hnew
  exact ⟨hopen, hno, hyes, hclosed, hnot, rfl, by decide, rfl, hany _ rfl, hnew (by decide) {}⟩

/-- **A value that does not match itself**: a set with one member stands for this member, and not
for its own text. -/
theorem set_does_not_match_itself : Wildcard.matchEither true "[a]" "[a]" = false := by
  have hsigns : Wildcard.Spells [.set ['a']] "[a]".toList :=
    .set (.plain (by decide) (by decide)) .nil
  rw [← Bool.not_eq_true, Wildcard.matchEither_self_iff]
  exact Wildcard.not_splits_self hsigns (by decide) ⟨_, List.mem_cons_self⟩

end Rulebook

end Applicability
