/-
The shortcut for patterns without wildcard characters.

A pattern without wildcard characters is compared with the value as a whole, and not matched by its
tokens. When case is observed this makes no difference. When it is ignored, the comparison goes by
what the texts fold to and the tokens by the same letters, which is not the same: a sharp s folds to
two letters, and an i without a dot is one letter with the other i but folds to itself.

* `matchByTokens_plain_iff`: the tokens of a pattern without wildcard characters match what is
  alike;
* `foldCase_eq_of_alike`, `alike_of_foldCase_eq`: texts that are alike and texts that fold alike;
* `matchText_plain`: how far the shortcut agrees with the tokens, and with the pattern that has a
  star behind it.
-/
import Applicability.Proofs.Casing
import Applicability.Proofs.Splitting

namespace Applicability.Wildcard

variable {observeCase : Bool} {pattern value : String}

lemma matchByTokens_plain_iff (h : pattern.toList.any isSpecial = false) :
    matchByTokens observeCase pattern value = true ↔
      List.Forall₂ (Alike observeCase) pattern.toList value.toList := by
  rw [matchByTokens, matchTokens_iff, matches_plain_iff h]

lemma matchText_plain_true (h : pattern.toList.any isSpecial = false) :
    matchText true pattern value = true ↔ pattern = value := by
  rw [matchText, h]
  simp

lemma matchText_plain_false (h : pattern.toList.any isSpecial = false) :
    matchText false pattern value = true ↔
      Text.foldCase pattern.toList = Text.foldCase value.toList := by
  rw [matchText, h]
  simp

/-! ### Texts without regard to case -/

variable {s t : List Char}

/-- **Texts that are alike fold alike** if there is no i without a dot and no capital I with one. -/
lemma foldCase_eq_of_alike (h : List.Forall₂ (Alike false) s t)
    (hi : ∀ c ∈ s ++ t, c ≠ 'ı' ∧ c ≠ 'İ') : Text.foldCase s = Text.foldCase t := by
  induction h with
  | nil => rfl
  | @cons c d s t hcd _ ih =>
      -- of the characters that are alike, only these two letters fold differently
      have hhead : Text.foldCharacter c = Text.foldCharacter d :=
        Text.foldCharacter_eq_of_sameLetter hcd (hi c (by simp)) (hi d (by simp))
      have htail : Text.foldCase s = Text.foldCase t := ih fun e he => hi e (by
        rcases List.mem_append.mp he with he | he <;> simp [he])
      simp only [Text.foldCase, List.flatMap_cons] at htail ⊢
      rw [hhead, htail]

/-- **Texts that fold alike are alike** if each of their characters folds to one. -/
lemma alike_of_foldCase_eq (h : Text.foldCase s = Text.foldCase t)
    (hone : ∀ c ∈ s ++ t, (Text.foldCharacter c).length = 1) :
    List.Forall₂ (Alike false) s t := by
  have hmap : ∀ u : List Char, (∀ c ∈ u, (Text.foldCharacter c).length = 1) →
      Text.foldCase u = u.map Text.simpleFold := fun u hu => by
    rw [Text.foldCase, List.map_eq_flatMap]
    exact List.flatMap_congr fun c hc => Text.foldCharacter_of_length (hu c hc)
  rw [hmap s fun c hc => hone c (List.mem_append_left _ hc),
    hmap t fun c hc => hone c (List.mem_append_right _ hc), ← List.forall₂_eq_eq_eq,
    List.forall₂_map_left_iff, List.forall₂_map_right_iff] at h
  exact h.imp fun c d hcd => Text.sameLetter_of_simpleFold_eq hcd

/-! ### The shortcut -/

/-- What the tokens of a pattern without wildcard characters match, also matches with a star. -/
lemma matchText_append_star_of_matchByTokens (h : pattern.toList.any isSpecial = false)
    (hmatch : matchByTokens observeCase pattern value = true) :
    matchText observeCase (pattern ++ "*") value = true :=
  (matchText_append_star h).mpr ⟨_, List.prefix_rfl, (matchByTokens_plain_iff h).mp hmatch⟩

lemma matchByTokens_of_matchText (h : pattern.toList.any isSpecial = false)
    (hone : observeCase = true ∨
      ∀ c ∈ pattern.toList ++ value.toList, (Text.foldCharacter c).length = 1)
    (hmatch : matchText observeCase pattern value = true) :
    matchByTokens observeCase pattern value = true := by
  rw [matchByTokens_plain_iff h]
  cases observeCase with
  | true =>
      rw [forall₂_alike_true, (matchText_plain_true h).mp hmatch]
  | false =>
      exact alike_of_foldCase_eq ((matchText_plain_false h).mp hmatch)
        (hone.resolve_left Bool.false_ne_true)

lemma matchText_of_matchByTokens (h : pattern.toList.any isSpecial = false)
    (hi : observeCase = true ∨ ∀ c ∈ pattern.toList ++ value.toList, c ≠ 'ı' ∧ c ≠ 'İ')
    (hmatch : matchByTokens observeCase pattern value = true) :
    matchText observeCase pattern value = true := by
  rw [matchByTokens_plain_iff h] at hmatch
  cases observeCase with
  | true =>
      rw [matchText_plain_true h, ← String.toList_inj]
      exact forall₂_alike_true.mp hmatch
  | false =>
      exact (matchText_plain_false h).mpr
        (foldCase_eq_of_alike hmatch (hi.resolve_left Bool.false_ne_true))

/-- **The shortcut.** A pattern without wildcard characters matches by its tokens what is as long
and alike, character by character, and what it matches so, it also matches with a star behind it. A
value that the pattern matches as a whole also matches by its tokens if case is observed or each
character of both texts folds to one, and the other way round if case is observed or neither text
has an i without a dot or a capital I with one. So both answers are the same if case is observed,
and for texts of ASCII characters. -/
theorem matchText_plain (observeCase : Bool) (pattern value : String)
    (h : pattern.toList.any isSpecial = false) :
    (matchByTokens observeCase pattern value = true ↔
      List.Forall₂ (Alike observeCase) pattern.toList value.toList) ∧
    (matchByTokens observeCase pattern value = true →
      matchText observeCase (pattern ++ "*") value = true) ∧
    ((observeCase = true ∨
        ∀ c ∈ pattern.toList ++ value.toList, (Text.foldCharacter c).length = 1) →
      matchText observeCase pattern value = true →
        matchByTokens observeCase pattern value = true) ∧
    ((observeCase = true ∨ ∀ c ∈ pattern.toList ++ value.toList, c ≠ 'ı' ∧ c ≠ 'İ') →
      matchByTokens observeCase pattern value = true →
        matchText observeCase pattern value = true) ∧
    ((observeCase = true ∨ ∀ c ∈ pattern.toList ++ value.toList, c.toNat < 0x80) →
      matchText observeCase pattern value = matchByTokens observeCase pattern value) := by
  refine ⟨matchByTokens_plain_iff h, matchText_append_star_of_matchByTokens h,
    matchByTokens_of_matchText h, matchText_of_matchByTokens h, fun hascii => ?_⟩
  rw [Bool.eq_iff_iff]
  constructor
  · exact matchByTokens_of_matchText h (hascii.imp_right fun hc c hmem =>
      Text.foldCharacter_length_of_ascii (hc c hmem))
  · refine matchText_of_matchByTokens h (hascii.imp_right fun hc c hmem => ⟨?_, ?_⟩)
    · rintro rfl
      exact absurd (hc _ hmem) (by decide)
    · rintro rfl
      exact absurd (hc _ hmem) (by decide)

/-- A name in small letters, without regard to case. -/
theorem matchText_plain_sample :
    "gcc".toList.any isSpecial = false ∧
      (∀ c ∈ "gcc".toList ++ "GCC".toList, c.toNat < 0x80) ∧
      matchText false "gcc" "GCC" = true ∧ matchByTokens false "gcc" "GCC" = true ∧
      matchText false ("gcc" ++ "*") "GCC" = true := by
  have hplain : "gcc".toList.any isSpecial = false := by decide
  have hascii : ∀ c ∈ "gcc".toList ++ "GCC".toList, c.toNat < 0x80 := by simp
  obtain ⟨-, hstar, -, -, hsame⟩ := matchText_plain false "gcc" "GCC" hplain
  have hmatch : matchText false "gcc" "GCC" = true := by decide +kernel
  have htokens : matchByTokens false "gcc" "GCC" = true := hsame (.inr hascii) ▸ hmatch
  exact ⟨hplain, hascii, hmatch, htokens, hstar htokens⟩

/-- **Two letters for one.** Without regard to case, a sharp s as a whole matches two letters, but
by its tokens it does not, and with a star behind it neither. An i without a dot is the other way
round: by its tokens it matches the other i. -/
theorem sharp_s_matches_as_whole_only :
    matchText false "ß" "ss" = true ∧ matchByTokens false "ß" "ss" = false ∧
      matchText false ("ß" ++ "*") "ss" = false ∧
      matchText false "ı" "i" = false ∧ matchByTokens false "ı" "i" = true := by
  have hsharp : "ß".toList.any isSpecial = false := by decide
  have hdotless : "ı".toList.any isSpecial = false := by decide
  refine ⟨by decide +kernel, ?_, ?_, by decide +kernel, ?_⟩
  · rw [← Bool.not_eq_true, matchByTokens_plain_iff hsharp]
    exact fun halike => absurd halike.length_eq (by decide)
  · rw [← Bool.not_eq_true, matchText_append_star hsharp]
    rintro ⟨front, ⟨rest, hfront⟩, halike⟩
    cases halike with
    | @cons _ c _ front hc htail =>
        obtain rfl : c = 's' := (List.cons.inj hfront).1
        exact absurd (show Text.sameLetter 'ß' 's' = true from hc) (by decide +kernel)
  · rw [matchByTokens_plain_iff hdotless]
    exact .cons (show Text.sameLetter 'ı' 'i' = true by decide +kernel) .nil

end Applicability.Wildcard
