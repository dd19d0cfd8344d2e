/-
Splitting: what it means that a value matches a pattern.

A value matches a pattern if it splits into pieces, one for each sign of the pattern, in order: any
run of characters for a star, one character for every other sign. When case is observed, a question
mark stands for any character, a set for those that it has, and every other sign for itself.

* `Sign.Takes`, `Splits`: the pieces, for any meaning of the signs that stand for one character;
* `matches_iff_splits`: the tokens of a pattern match what splits;
* `Sign.StandsFor`: the meaning of the signs when case is observed;
* `Alike`, `matches_map_one_append_read`: a text that stands for itself in front of tokens;
* `matchByTokens`: matching by the tokens of a pattern, whatever it is;
* `matches_plain_iff`, `matchText_append_star`: a text without wildcard characters alone and in
  front of a star;
* `matchText_iff_splits`: matching with regard to case is splitting, also for patterns that are
  compared as a whole.
-/
import Mathlib.Data.List.Forall2
import Applicability.Proofs.Spelling
import Applicability.Wildcard.Matching

namespace Applicability.Wildcard

/-! ### Pieces -/

/-- The pieces of a value that a sign stands for, when `accepts` tells for which characters the
signs for one character stand. -/
inductive Sign.Takes (accepts : Sign → Char → Prop) : Sign → List Char → Prop where
  | run (piece : List Char) : Takes accepts .star piece
  | single {sign : Sign} {c : Char} : accepts sign c → Takes accepts sign [c]

/-- **A value that splits as a pattern asks**: into consecutive pieces, one for each sign of the
pattern, in order. -/
def Splits (accepts : Sign → Char → Prop) (pattern value : List Char) : Prop :=
  ∃ signs pieces, Spells signs pattern ∧ List.Forall₂ (Sign.Takes accepts) signs pieces ∧
    pieces.flatten = value

variable {observeCase : Bool} {signs : List Sign} {pattern value : List Char} {ts : List Token}
  {ls : List Text.Letter}

lemma matches_map_token_iff :
    Matches (signs.map Sign.token) (value.map (Text.Letter.read observeCase)) ↔
      ∃ pieces, List.Forall₂
        (Sign.Takes fun sign c => sign.token.accepts (.read observeCase c) = true) signs pieces ∧
          pieces.flatten = value := by
  induction signs generalizing value with
  | nil =>
      constructor
      · intro h
        generalize hls : value.map (Text.Letter.read observeCase) = ls at h
        cases h
        exact ⟨[], .nil, (List.map_eq_nil_iff.mp hls).symm⟩
      · rintro ⟨pieces, hpieces, rfl⟩
        cases hpieces
        exact .nil
  | cons sign signs ih =>
      rw [List.map_cons]
      -- a star takes any piece, every other sign takes a single character
      by_cases hsign : sign.token = .anyRun
      · rw [hsign, matches_run_iff]
        obtain rfl : sign = .star := by cases sign <;> first | rfl | cases hsign
        constructor
        · rintro ⟨e, ⟨before, hsplit⟩, h⟩
          obtain ⟨piece, rest, rfl, rfl, rfl⟩ := List.map_eq_append_iff.mp hsplit.symm
          obtain ⟨pieces, hpieces, rfl⟩ := ih.mp h
          exact ⟨piece :: pieces, .cons (.run piece) hpieces, rfl⟩
        · rintro ⟨pieces, hpieces, rfl⟩
          cases hpieces with
          | @cons _ piece _ pieces _ hpieces =>
              refine ⟨_, ?_, ih.mpr ⟨pieces, hpieces, rfl⟩⟩
              rw [List.flatten_cons, List.map_append]
              exact List.suffix_append _ _
      · rw [matches_one_iff hsign]
        constructor
        · rintro ⟨l, rest, hvalue, hl, h⟩
          obtain ⟨c, value, rfl, rfl, rfl⟩ := List.map_eq_cons_iff.mp hvalue
          obtain ⟨pieces, hpieces, rfl⟩ := ih.mp h
          exact ⟨[c] :: pieces, .cons (.single hl) hpieces, rfl⟩
        · rintro ⟨pieces, hpieces, rfl⟩
          cases hpieces with
          | @cons _ piece _ pieces hpiece hpieces =>
              cases hpiece with
              | run => exact absurd rfl hsign
              | single hc => exact ⟨_, _, rfl, hc, ih.mpr ⟨pieces, hpieces, rfl⟩⟩

/-- **The tokens of a pattern match what splits** as its signs ask. -/
lemma matches_iff_splits :
    Matches (Token.ofPattern pattern) (value.map (Text.Letter.read observeCase)) ↔
      Splits (fun sign c => sign.token.accepts (.read observeCase c) = true) pattern value := by
  constructor
  · intro h
    obtain ⟨signs, hsigns⟩ := exists_spells pattern
    rw [hsigns.ofPattern_eq, matches_map_token_iff] at h
    obtain ⟨pieces, hpieces, hvalue⟩ := h
    exact ⟨signs, pieces, hsigns, hpieces, hvalue⟩
  · rintro ⟨signs, pieces, hsigns, hpieces, hvalue⟩
    rw [hsigns.ofPattern_eq, matches_map_token_iff]
    exact ⟨pieces, hpieces, hvalue⟩

/-! ### With regard to case -/

/-- **The characters that a sign stands for** when case is observed, if `set` tells which set a text
between brackets is. A star stands for none as such. -/
def Sign.StandsFor (set : List Char → CharSet) : Sign → Char → Prop
  | .star, _ => False
  | .question, _ => True
  | .set body, c => (set body).Has c
  | .char d, c => c = d

lemma Member.covers_exact {m : Member} {c : Char} : m.covers (.exact c) = true ↔ m.Has c := by
  cases m with
  | one d =>
      by_cases hd : isBasic d
      · rw [Member.covers, if_pos hd, List.contains_iff_mem, Text.Letter.exact,
          List.mem_singleton]
        exact eq_comm
      · rw [Member.covers, if_neg hd, beq_iff_eq]
        rfl
  | range first last => simp [Member.covers, Text.Letter.exact, Has]

lemma CharSet.eq_one_of_sole? {set : CharSet} {d : Char} (h : set.sole? = some d) :
    (∀ m ∈ set.members, m = .one d) ∧ .one d ∈ set.members := by
  unfold sole? at h
  split at h
  · next c rest hmembers =>
    obtain ⟨hrest, he⟩ := Option.ite_none_right_eq_some.mp h
    cases he
    rw [hmembers]
    exact ⟨by simpa using hrest, List.mem_cons_self⟩
  · cases h

lemma CharSet.covers_exact {set : CharSet} {c : Char} :
    set.covers (.exact c) = true ↔ ∃ m ∈ set.members, m.Has c := by
  cases h : set.sole? with
  | some d =>
      obtain ⟨hall, hmem⟩ := eq_one_of_sole? h
      have hc : set.covers (.exact c) = true ↔ c = d := by
        simp [covers, h, Text.Letter.exact, eq_comm]
      rw [hc]
      constructor
      · rintro rfl
        exact ⟨_, hmem, rfl⟩
      · rintro ⟨m, hm, hhas⟩
        obtain rfl := hall m hm
        exact hhas
  | none => simp only [covers, h, List.any_eq_true, Member.covers_exact]

/-- When case is observed, the token of a sign accepts what the sign stands for. -/
lemma Sign.accepts_token {sign : Sign} {c : Char} :
    sign.token.accepts (.read true c) = true ↔ sign.StandsFor CharSet.spelled c := by
  cases sign with
  | star => simp [token, Token.accepts, StandsFor]
  | question => simp [token, Token.accepts, StandsFor]
  | char d => simp [token, Token.accepts, StandsFor, Text.Letter.read, Text.Letter.exact, eq_comm]
  | set body =>
      have hcovers : (CharSet.spelled body).covers (.exact c) = true ↔
          ∃ m ∈ (CharSet.spelled body).members, m.Has c := CharSet.covers_exact
      simp only [token, Token.accepts, StandsFor, Text.Letter.read, CharSet.ofBody_eq_spelled,
        CharSet.Has, if_true]
      cases (CharSet.spelled body).negated with
      | true =>
          rw [Bool.bne_true, Bool.not_eq_true', ← Bool.not_eq_true, hcovers]
          simp
      | false =>
          rw [Bool.bne_false, hcovers]
          simp

/-! ### A text in front -/

/-- Tokens behind a text that stands for itself match what follows one that looks like it. -/
lemma matches_map_one_append {p : List Char} :
    Matches (p.map .one ++ ts) ls ↔ ∃ before after, ls = before ++ after ∧
      List.Forall₂ (fun c l => l.forms.contains c = true) p before ∧ Matches ts after := by
  induction p generalizing ls with
  | nil => simp
  | cons c p ih =>
      rw [List.map_cons, List.cons_append, matches_one_iff (by simp)]
      constructor
      · rintro ⟨l, rest, rfl, hl, h⟩
        obtain ⟨before, after, rfl, hbefore, hafter⟩ := ih.mp h
        exact ⟨l :: before, after, rfl, .cons hl hbefore, hafter⟩
      · rintro ⟨before, after, rfl, hbefore, hafter⟩
        cases hbefore with
        | @cons _ l _ before hl hbefore =>
            exact ⟨l, before ++ after, rfl, hl, ih.mpr ⟨before, after, rfl, hbefore, hafter⟩⟩

/-- Characters that stand for each other, with or without regard to case. -/
def Alike (observeCase : Bool) (c d : Char) : Prop :=
  if observeCase then c = d else Text.sameLetter c d = true

lemma alike_refl (c : Char) : Alike observeCase c c := by
  cases observeCase with
  | true => rfl
  | false => exact Text.sameLetter_refl c

lemma contains_forms_read {c d : Char} :
    (Text.Letter.read observeCase d).forms.contains c = true ↔ Alike observeCase c d := by
  cases observeCase with
  | true => simp [Text.Letter.read, Text.Letter.exact, Alike]
  | false =>
      rw [List.contains_iff_mem, Alike, Text.sameLetter_comm]
      exact Text.mem_variants_iff

lemma forall₂_alike_true {p q : List Char} : List.Forall₂ (Alike true) p q ↔ p = q := by
  rw [show Alike true = Eq from rfl, List.forall₂_eq_eq_eq]

/-- Tokens behind a text that stands for itself match what follows one that is alike. -/
lemma matches_map_one_append_read {p : List Char} :
    Matches (p.map .one ++ ts) (value.map (.read observeCase)) ↔ ∃ front rest,
      value = front ++ rest ∧ List.Forall₂ (Alike observeCase) p front ∧
        Matches ts (rest.map (.read observeCase)) := by
  rw [matches_map_one_append]
  constructor
  · rintro ⟨before, after, hvalue, hbefore, hafter⟩
    obtain ⟨front, rest, rfl, rfl, rfl⟩ := List.map_eq_append_iff.mp hvalue
    exact ⟨front, rest, rfl, (List.forall₂_map_right_iff.mp hbefore).imp fun _ _ h =>
      contains_forms_read.mp h, hafter⟩
  · rintro ⟨front, rest, rfl, hfront, hrest⟩
    exact ⟨_, _, List.map_append, List.forall₂_map_right_iff.mpr (hfront.imp fun _ _ h =>
      contains_forms_read.mpr h), hrest⟩

namespace Token

lemma ofPattern_append_of_plain {p : List Char} (h : p.any isSpecial = false) (s : List Char) :
    ofPattern (p ++ s) = p.map one ++ ofPattern s := by
  induction p with
  | nil => rfl
  | cons c p ih =>
      rw [List.any_cons, Bool.or_eq_false_iff] at h
      rw [List.cons_append, ofPattern_of_not_special h.1, ih h.2]
      rfl

end Token

/-! ### Texts without wildcard characters -/

/-- Matching by the tokens of a pattern, as is done if it has wildcard characters. -/
def matchByTokens (observeCase : Bool) (pattern value : String) : Bool :=
  matchTokens (Token.ofPattern pattern.toList) (value.toList.map (Text.Letter.read observeCase))

lemma matchText_of_special {pattern value : String} (h : pattern.toList.any isSpecial = true) :
    matchText observeCase pattern value = matchByTokens observeCase pattern value := if_pos h

/-- The tokens of a text without wildcard characters match what is alike. -/
lemma matches_plain_iff {p : List Char} (h : p.any isSpecial = false) :
    Matches (Token.ofPattern p) (value.map (.read observeCase)) ↔
      List.Forall₂ (Alike observeCase) p value := by
  have htokens : Token.ofPattern p = p.map .one ++ [] := by
    rw [Token.ofPattern_of_plain h, List.append_nil]
  rw [htokens, matches_map_one_append_read]
  constructor
  · rintro ⟨front, rest, rfl, hfront, hrest⟩
    cases rest with
    | nil => rwa [List.append_nil]
    | cons c rest => cases hrest
  · exact fun h => ⟨value, [], by rw [List.append_nil], h, .nil⟩

/-- In front of a star, they match what begins with something alike. -/
lemma matchText_append_star {text value : String} (h : text.toList.any isSpecial = false) :
    matchText observeCase (text ++ "*") value = true ↔
      ∃ front, front <+: value.toList ∧ List.Forall₂ (Alike observeCase) text.toList front := by
  have hstar : Token.ofPattern "*".toList = [.anyRun] := by
    show Token.ofPattern ['*'] = _
    rw [Token.ofPattern, Token.ofPattern]
  have hspecial : (text ++ "*").toList.any isSpecial = true := by
    rw [String.toList_append, List.any_append, h]
    rfl
  rw [matchText_of_special hspecial, matchByTokens, matchTokens_iff, String.toList_append,
    Token.ofPattern_append_of_plain h, hstar, matches_map_one_append_read]
  constructor
  · rintro ⟨front, rest, hvalue, hfront, -⟩
    exact ⟨front, ⟨rest, hvalue.symm⟩, hfront⟩
  · rintro ⟨front, ⟨rest, hvalue⟩, hfront⟩
    exact ⟨front, rest, hvalue.symm, hfront, matches_run_iff.mpr ⟨[], List.nil_suffix, .nil⟩⟩

/-! ### Matching with regard to case -/

/-- **When case is observed**, the tokens of a pattern decide, also if it has no wildcard
characters. -/
lemma matchText_true_iff (pattern value : String) :
    matchText true pattern value = true ↔
      Matches (Token.ofPattern pattern.toList) (value.toList.map (.read true)) := by
  cases h : pattern.toList.any isSpecial with
  | true => rw [matchText_of_special h, matchByTokens, matchTokens_iff]
  | false =>
      rw [matchText, h, matches_plain_iff h, forall₂_alike_true, String.toList_inj]
      simp

/-- A text without wildcard characters behind a star. -/
lemma matchText_star_append {text value : String} (h : text.toList.any isSpecial = false) :
    matchText true ("*" ++ text) value = true ↔ text.toList <:+ value.toList := by
  have hstar : Token.ofPattern ("*" ++ text).toList = .anyRun :: Token.ofPattern text.toList := by
    rw [String.toList_append]
    show Token.ofPattern ('*' :: text.toList) = _
    rw [Token.ofPattern]
  rw [matchText_true_iff, hstar, matches_run_iff]
  constructor
  · rintro ⟨e, ⟨before, hsplit⟩, he⟩
    obtain ⟨front, rest, hvalue, rfl, rfl⟩ := List.map_eq_append_iff.mp hsplit.symm
    rw [matches_plain_iff h, forall₂_alike_true] at he
    exact ⟨front, by rw [he, hvalue]⟩
  · rintro ⟨front, hvalue⟩
    exact ⟨_, List.IsSuffix.map _ ⟨front, hvalue⟩,
      (matches_plain_iff h).mpr (forall₂_alike_true.mpr rfl)⟩

/-- **Matching with regard to case is splitting.** A value matches a pattern if it splits into
consecutive pieces, one for each sign, in order: any run for a star, any one character for a
question mark, one character that it has for a set, and itself for every other sign. The signs of a
pattern are determined. A set that stands between two brackets is the one that is there at first
sight, unless its text begins with a range that runs backwards. In particular a text without
wildcard characters in front of a star stands for what begins with it, and behind a star for what
ends with it. -/
theorem matchText_iff_splits (pattern value : String) :
    (matchText true pattern value = true ↔
      Splits (Sign.StandsFor CharSet.spelled) pattern.toList value.toList) ∧
    (∃! signs, Spells signs pattern.toList) ∧
    (∀ body, (∀ m ∈ (Member.spelled body).head?, !m.isBackward) →
      ∀ c, (CharSet.spelled body).Has c ↔ (CharSet.atSight body).Has c) ∧
    ∀ text : String, text.toList.any isSpecial = false →
      (matchText true (text ++ "*") value = true ↔ text.toList <+: value.toList) ∧
      (matchText true ("*" ++ text) value = true ↔ text.toList <:+ value.toList) := by
  refine ⟨?_, ?_, fun body hbody c => CharSet.has_spelled_iff hbody c,
    fun text htext => ⟨?_, matchText_star_append htext⟩⟩
  · have hmeaning : (fun (sign : Sign) c => sign.token.accepts (.read true c) = true) =
        Sign.StandsFor CharSet.spelled := by
      funext sign c
      exact propext Sign.accepts_token
    rw [matchText_true_iff, matches_iff_splits, hmeaning]
  · obtain ⟨signs, hsigns⟩ := exists_spells pattern.toList
    exact ⟨signs, hsigns, fun signs' h => h.unique hsigns⟩
  · rw [matchText_append_star htext]
    simp only [forall₂_alike_true]
    constructor
    · rintro ⟨_, hfront, rfl⟩
      exact hfront
    · exact fun hfront => ⟨_, hfront, rfl⟩

/-- A value for a set with a range and an exclamation mark that is not in front, and what begins and
ends with a given text. -/
theorem matchText_iff_splits_sample :
    matchText true "M[0-4!]*" "M33" = true ∧
      (∀ m ∈ (Member.spelled ['0', '-', '4', '!']).head?, !m.isBackward) ∧
      (CharSet.spelled ['0', '-', '4', '!']).Has '!' ∧
      "STM32F4".toList.any isSpecial = false ∧
      matchText true ("STM32F4" ++ "*") "STM32F407VG" = true ∧
      "07VG".toList.any isSpecial = false ∧
      matchText true ("*" ++ "07VG") "STM32F407VG" = true := by
  obtain ⟨hsplits, -, hsight, -⟩ := matchText_iff_splits "M[0-4!]*" "M33"
  obtain ⟨-, -, -, hends⟩ := matchText_iff_splits "" "STM32F407VG"
  have hsigns : Spells [.char 'M', .set ['0', '-', '4', '!'], .star] "M[0-4!]*".toList :=
    .char rfl (.set (.plain (by decide) (by decide)) (.star .nil))
  have hdigit : (CharSet.spelled ['0', '-', '4', '!']).Has '3' := by decide
  have hahead : ∀ m ∈ (Member.spelled ['0', '-', '4', '!']).head?, !m.isBackward := by decide
  refine ⟨hsplits.mpr ⟨_, [['M'], ['3'], ['3']], hsigns, ?_, rfl⟩, hahead,
    (hsight _ hahead '!').mpr (by decide), by decide, (hends "STM32F4" (by decide)).1.mpr ?_,
    by decide, (hends "07VG" (by decide)).2.mpr ?_⟩
  · exact .cons (.single rfl) (.cons (.single hdigit) (.cons (.run _) .nil))
  · decide
  · decide

/-- **An exclamation mark that counts late**: the set begins with a range that runs backwards, and
without it with an exclamation mark. At first sight it has this character only, but it stands for
every character. -/
theorem late_exclamation_mark :
    matchText true "[b-a!]" "x" = true ∧
      ¬ Splits (Sign.StandsFor CharSet.atSight) "[b-a!]".toList "x".toList := by
  have hsigns : Spells [.set ['b', '-', 'a', '!']] "[b-a!]".toList :=
    .set (.plain (by decide) (by decide)) .nil
  constructor
  · rw [matchText_true_iff, hsigns.ofPattern_eq]
    have hany : (CharSet.spelled ['b', '-', 'a', '!']).Has 'x' := by decide
    exact .step (Sign.accepts_token.mpr hany) .nil
  · rintro ⟨signs, pieces, hsigns', hpieces, hvalue⟩
    obtain rfl := hsigns'.unique hsigns
    cases hpieces with
    | cons hpiece hrest =>
        cases hrest
        cases hpiece with
        | single hc =>
            have hx : (CharSet.atSight ['b', '-', 'a', '!']).Has 'x' := by
              obtain rfl : _ = 'x' := (List.cons.inj hvalue).1
              exact hc
            exact absurd hx (by decide)

end Applicability.Wildcard
