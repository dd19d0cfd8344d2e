/-
Ignoring case: what matches with regard to case also matches without.

Every sign of a pattern that stands for a character stands for all forms of its letter when case is
ignored, with one exception. A letter beyond the basic plane that a set names beside other members
is compared with the lower-case form only, so that a capital may be lost.

* `CharSet.Loses`, `CharSet.covers_anyCase_iff`: the characters that a set loses;
* `Sign.accepts_ignoring`, `takes_mono`: a sign, and the pieces of a value;
* `Keeps`, `matchText_ignoring`: patterns with no negated set and no set that loses a character of
  the value;
* `exists_takes_chosen_iff`: a value that is made for a pattern, with one character for each sign
  but the stars;
* `ignoring_case_widens`: the theorem, for patterns and for attributes, and that nothing less is
  enough for all values of a pattern;
* `capital_beyond_basic_plane_is_lost`: a letter that is lost.
-/
import Applicability.Proofs.SelfMatching

namespace Applicability.Wildcard

/-! ### Sets -/

/-- **A character that a set loses** when case is ignored: it lies beyond the basic plane, the set
names it beside other members, and no member stands for it then. -/
def CharSet.Loses (set : CharSet) (c : Char) : Prop :=
  .one c ∈ set.members ∧ (∃ m ∈ set.members, m ≠ .one c) ∧ isBasic c = false ∧
    ∀ m ∈ set.members, m.covers (.anyCase c) = false

/-- A member stands for the characters that it has, except for one beyond the basic plane. -/
lemma Member.covers_anyCase {m : Member} {c : Char} (h : m.covers (.exact c) = true) :
    m.covers (.anyCase c) = true ∨ m = .one c ∧ isBasic c = false := by
  cases m with
  | one d =>
      obtain rfl : c = d := Member.covers_exact.mp h
      by_cases hc : isBasic c
      · left
        rw [Member.covers, if_pos hc, List.contains_iff_mem]
        exact Text.self_mem_variants c
      · exact .inr ⟨rfl, by simpa using hc⟩
  | range first last =>
      left
      have hin : first ≤ c ∧ c ≤ last := Member.covers_exact.mp h
      rw [Member.covers, Bool.or_eq_true, List.any_eq_true]
      exact .inl ⟨c, Text.self_mem_variants c, by simpa using hin⟩

lemma CharSet.sole?_eq_some_iff {set : CharSet} {c : Char} :
    set.sole? = some c ↔ (∀ m ∈ set.members, m = .one c) ∧ .one c ∈ set.members := by
  refine ⟨eq_one_of_sole?, ?_⟩
  rintro ⟨hall, hmem⟩
  rw [sole?]
  cases hms : set.members with
  | nil => rw [hms] at hmem; cases hmem
  | cons m rest =>
      rw [hms] at hall
      obtain rfl := hall m List.mem_cons_self
      have hrest : rest.all (· == .one c) = true :=
        List.all_eq_true.mpr fun m hm => by simp [hall m (List.mem_cons_of_mem _ hm)]
      simp [hrest]

/-- **A set still stands for a character when case is ignored** exactly if it does not lose it. -/
lemma CharSet.covers_anyCase_iff {set : CharSet} {c : Char} (h : set.covers (.exact c) = true) :
    set.covers (.anyCase c) = true ↔ ¬ set.Loses c := by
  -- one character stands for all its variants, whatever the case;
  -- other sets for what their members cover
  cases hsole : set.sole? with
  | some d =>
      obtain ⟨hall, hmem⟩ := eq_one_of_sole? hsole
      obtain ⟨m, hm, hhas⟩ := covers_exact.mp h
      obtain rfl := hall m hm
      obtain rfl : c = d := hhas
      have hcovers : set.covers (.anyCase c) = true := by
        rw [covers, hsole]
        exact List.contains_iff_mem.mpr (Text.self_mem_variants c)
      refine iff_of_true hcovers ?_
      rintro ⟨-, ⟨m, hm, hne⟩, -⟩
      exact hne (hall m hm)
  | none =>
      have hcovers : set.covers (.anyCase c) = true ↔
          ∃ m ∈ set.members, m.covers (.anyCase c) = true := by
        rw [covers, hsole, List.any_eq_true]
      rw [hcovers]
      constructor
      · rintro ⟨m, hm, hm'⟩ ⟨-, -, -, hnone⟩
        rw [hnone m hm] at hm'
        cases hm'
      · intro hkept
        by_contra hnone
        have hnone : ∀ m ∈ set.members, m.covers (.anyCase c) = false := fun m hm =>
          Bool.eq_false_iff.mpr fun hm' => hnone ⟨m, hm, hm'⟩
        obtain ⟨m, hm, hhas⟩ := covers_exact.mp h
        rcases Member.covers_anyCase (Member.covers_exact.mpr hhas) with hm' | ⟨rfl, hbeyond⟩
        · rw [hnone m hm] at hm'
          cases hm'
        · refine hkept ⟨hm, ?_, hbeyond, hnone⟩
          by_contra hother
          have hsole' : set.sole? = some c := sole?_eq_some_iff.mpr
            ⟨fun m hm => by_contra fun hne => hother ⟨m, hm, hne⟩, hm⟩
          rw [hsole] at hsole'
          cases hsole'

/-! ### Signs and pieces -/

variable {signs : List Sign} {pieces : List (List Char)} {pattern value : String}

/-- A set that is not negated accepts a character that it has, also when case is ignored, exactly if
it does not lose it. -/
lemma Sign.accepts_set_iff {body : List Char} {c : Char}
    (hpos : (CharSet.spelled body).negated = false) (h : (Sign.set body).Accepts true c) :
    (Sign.set body).Accepts false c ↔ ¬ (CharSet.spelled body).Loses c := by
  have haccepts : ∀ l, (Sign.set body).token.accepts l = (CharSet.spelled body).covers l := by
    intro l
    rw [token, CharSet.ofBody_eq_spelled, Token.accepts, hpos, Bool.bne_false]
  rw [Accepts, haccepts] at h ⊢
  exact CharSet.covers_anyCase_iff h

/-- **A sign that accepts a character** with regard to case accepts it without, unless it is a
negated set or one that loses the character. -/
lemma Sign.accepts_ignoring {sign : Sign} {c : Char}
    (hset : ∀ body, sign = .set body →
      (CharSet.spelled body).negated = false ∧ ¬ (CharSet.spelled body).Loses c)
    (h : sign.Accepts true c) : sign.Accepts false c := by
  cases sign with
  | star => cases h
  | question => rfl
  | char d =>
      obtain rfl : d = c := Sign.accepts_char.mp h
      exact Sign.accepts_char.mpr (alike_refl d)
  | set body =>
      obtain ⟨hpos, hkept⟩ := hset body rfl
      exact (accepts_set_iff hpos h).mpr hkept

lemma takes_mono {accepts accepts' : Sign → Char → Prop}
    (h : List.Forall₂ (Sign.Takes accepts) signs pieces)
    (himp : ∀ sign ∈ signs, ∀ c ∈ pieces.flatten, accepts sign c → accepts' sign c) :
    List.Forall₂ (Sign.Takes accepts') signs pieces := by
  induction h with
  | nil => exact .nil
  | @cons sign piece signs pieces hpiece _ ih =>
      refine .cons ?_ (ih fun sign' hsign c hc => himp sign' (by simp [hsign]) c (by simp_all))
      cases hpiece with
      | run => exact .run _
      | single hc => exact .single (himp sign (by simp) _ (by simp) hc)

/-- **A pattern that keeps a value**: none of its sets is negated, and none of them loses a
character of the value. -/
def Keeps (pattern value : String) : Prop :=
  ∀ signs, Spells signs pattern.toList → ∀ body, .set body ∈ signs →
    (CharSet.spelled body).negated = false ∧
      ∀ c ∈ value.toList, ¬ (CharSet.spelled body).Loses c

/-- When case is ignored, the tokens of a pattern with a wildcard character match what splits. -/
lemma matchText_special_iff {observeCase : Bool} (hsigns : Spells signs pattern.toList)
    (h : pattern.toList.any isSpecial = true) :
    matchText observeCase pattern value = true ↔ ∃ pieces,
      List.Forall₂ (Sign.Takes (Sign.Accepts observeCase)) signs pieces ∧
        pieces.flatten = value.toList := by
  rw [matchText_of_special h, matchByTokens, matchTokens_iff, hsigns.ofPattern_eq]
  exact matches_map_token_iff

/-- **Ignoring case only widens matching** for a pattern that keeps the value. -/
lemma matchText_ignoring (hkeeps : Keeps pattern value)
    (h : matchText true pattern value = true) : matchText false pattern value = true := by
  cases hspecial : pattern.toList.any isSpecial with
  | false =>
      rw [matchText_plain_true hspecial] at h
      exact (matchText_plain_false hspecial).mpr (h ▸ rfl)
  | true =>
      obtain ⟨signs, hsigns⟩ := exists_spells pattern.toList
      rw [matchText_special_iff hsigns hspecial] at h ⊢
      obtain ⟨pieces, htakes, hvalue⟩ := h
      refine ⟨pieces, takes_mono htakes fun sign hsign c hc => ?_, hvalue⟩
      refine Sign.accepts_ignoring fun body hbody => ?_
      obtain ⟨hpos, hkept⟩ := hkeeps signs hsigns body (hbody ▸ hsign)
      exact ⟨hpos, hkept c (hvalue ▸ hc)⟩

/-! ### A value made for a pattern -/

lemma length_le_of_takes {accepts : Sign → Char → Prop}
    (h : List.Forall₂ (Sign.Takes accepts) signs pieces) :
    (signs.filter (· ≠ .star)).length ≤ pieces.flatten.length := by
  induction h with
  | nil => exact le_rfl
  | @cons sign piece signs pieces hpiece _ ih =>
      rw [List.flatten_cons, List.length_append]
      cases hpiece with
      | run => exact Nat.le_add_left_of_le ih
      | single =>
          rw [List.filter_cons]
          split
          · rw [List.length_cons, List.length_singleton]
            omega
          · exact Nat.le_add_left_of_le ih

/-- **A value with one character for each sign but the stars** splits if each of these signs accepts
its own: the stars are left with nothing. -/
lemma exists_takes_chosen_iff {accepts : Sign → Char → Prop} (choice : Sign → Char) :
    (∃ pieces, List.Forall₂ (Sign.Takes accepts) signs pieces ∧
      pieces.flatten = (signs.filter (· ≠ .star)).map choice) ↔
        ∀ sign ∈ signs, sign ≠ .star → accepts sign (choice sign) := by
  induction signs with
  | nil => exact ⟨by simp, fun _ => ⟨[], .nil, rfl⟩⟩
  | cons sign signs ih =>
      by_cases hsign : sign = .star
      · subst hsign
        rw [List.filter_cons_of_neg (by simp)]
        constructor
        · rintro ⟨_, htakes, hvalue⟩
          cases htakes with
          | @cons _ piece _ pieces hpiece hrest =>
              -- the other signs need all characters, so that none is left for the star
              have hlength := congrArg List.length hvalue
              have hle := length_le_of_takes hrest
              rw [List.flatten_cons, List.length_append, List.length_map] at hlength
              obtain rfl : piece = [] := List.eq_nil_of_length_eq_zero (by omega)
              intro sign' hsign' hne
              exact ih.mp ⟨pieces, hrest, hvalue⟩ sign'
                ((List.mem_cons.mp hsign').resolve_left hne) hne
        · intro hall
          obtain ⟨pieces, hpieces, hvalue⟩ := ih.mpr fun sign' h hne =>
            hall sign' (List.mem_cons_of_mem _ h) hne
          exact ⟨[] :: pieces, .cons (.run []) hpieces, hvalue⟩
      · rw [List.filter_cons_of_pos (by simpa using hsign), List.map_cons]
        constructor
        · rintro ⟨_, htakes, hvalue⟩
          cases htakes with
          | @cons _ piece _ pieces hpiece hrest =>
              cases hpiece with
              | run => exact absurd rfl hsign
              | single hc =>
                  obtain ⟨hfirst, hothers⟩ := List.cons.inj hvalue
                  intro sign' hsign' hne
                  rcases List.mem_cons.mp hsign' with rfl | hsign'
                  · exact hfirst ▸ hc
                  · exact ih.mp ⟨pieces, hrest, hothers⟩ sign' hsign' hne
        · intro hall
          obtain ⟨pieces, hpieces, hvalue⟩ := ih.mpr fun sign' h hne =>
            hall sign' (List.mem_cons_of_mem _ h) hne
          refine ⟨[choice sign] :: pieces, .cons (.single (hall sign List.mem_cons_self hsign))
            hpieces, ?_⟩
          rw [List.flatten_cons, hvalue]
          rfl

lemma Spells.any_isSpecial {p : List Char} {body : List Char} (h : Spells signs p)
    (hbody : .set body ∈ signs) : p.any isSpecial = true := by
  rw [← h.flatten_text]
  refine List.any_eq_true.mpr ⟨'[', List.mem_flatten.mpr ⟨_, List.mem_map_of_mem hbody, ?_⟩, rfl⟩
  exact List.mem_cons_self

/-- Every sign of a pattern without empty sets accepts some character, and one of them can be given
any character that it accepts. -/
lemma exists_choice (hsets : ∀ body, .set body ∈ signs → ∃ c, (CharSet.spelled body).Has c)
    {sign : Sign} {c : Char} (hc : sign.Accepts true c) :
    ∃ choice : Sign → Char, choice sign = c ∧
      ∀ sign' ∈ signs, sign' ≠ .star → sign'.Accepts true (choice sign') := by
  have hex : ∀ sign' ∈ signs, sign' ≠ .star → ∃ d, sign'.Accepts true d := by
    intro sign' hsign' hne
    cases sign' with
    | star => exact absurd rfl hne
    | question => exact ⟨'a', rfl⟩
    | char d => exact ⟨d, Sign.accepts_char.mpr (alike_refl d)⟩
    | set body => exact (hsets body hsign').imp fun d hd => Sign.accepts_token.mpr hd
  choose! choice hchoice using hex
  refine ⟨Function.update choice sign c, Function.update_self .., fun sign' hsign' hne => ?_⟩
  by_cases he : sign' = sign
  · subst he
    rwa [Function.update_self]
  · rw [Function.update_of_ne he]
    exact hchoice sign' hsign' hne

/-- **A pattern that widens for every value loses no character**, if each of its sets has one. The
value that shows this has the lost character for the set, and for every other sign one that it
accepts. -/
lemma not_loses_of_widens (hsigns : Spells signs pattern.toList)
    (hsets : ∀ body, .set body ∈ signs → (CharSet.spelled body).negated = false ∧
      ∃ c, (CharSet.spelled body).Has c)
    (hwidens : ∀ value, matchText true pattern value = true → matchText false pattern value = true)
    {body : List Char} (hbody : .set body ∈ signs) (c : Char) :
    ¬ (CharSet.spelled body).Loses c := by
  intro hlost
  have hspecial := hsigns.any_isSpecial hbody
  have haccepts : (Sign.set body).Accepts true c := by
    refine Sign.accepts_token.mpr ?_
    rw [Sign.StandsFor, CharSet.Has, (hsets body hbody).1]
    exact ⟨_, hlost.1, rfl⟩
  obtain ⟨choice, rfl, hchoice⟩ := exists_choice (fun body h => (hsets body h).2) haccepts
  have hvalue : (String.ofList ((signs.filter (· ≠ .star)).map choice)).toList =
      (signs.filter (· ≠ .star)).map choice := String.toList_ofList
  have hmatch := (matchText_special_iff hsigns hspecial).mpr
    (hvalue ▸ (exists_takes_chosen_iff choice).mpr hchoice)
  have hignored := (matchText_special_iff hsigns hspecial).mp (hwidens _ hmatch)
  rw [hvalue, exists_takes_chosen_iff] at hignored
  exact (Sign.accepts_set_iff (hsets body hbody).1 haccepts).mp (hignored _ hbody (by simp)) hlost

/-- **Ignoring case only widens matching**, for patterns and for attributes, as far as no set is
negated and no set loses a character. If each set of a pattern has some character, then nothing less
is enough for the pattern to match without regard to case every value that it matches with regard to
case. -/
theorem ignoring_case_widens :
    (∀ pattern value, Keeps pattern value →
      matchText true pattern value = true → matchText false pattern value = true) ∧
    (∀ predicate target : Attributes,
      (∀ name expected actual, predicate.get? name = some expected →
        target.get? name = some actual → Keeps expected actual ∧ Keeps actual expected) →
      Matcher.wildcard true predicate target = .ok true →
        Matcher.wildcard false predicate target = .ok true) ∧
    ∀ (pattern : String) (signs : List Sign), Spells signs pattern.toList →
      (∀ body, .set body ∈ signs → (CharSet.spelled body).negated = false ∧
        ∃ c, (CharSet.spelled body).Has c) →
      ((∀ value, matchText true pattern value = true → matchText false pattern value = true) ↔
        ∀ body, .set body ∈ signs → ∀ c, ¬ (CharSet.spelled body).Loses c) := by
  refine ⟨fun pattern value => matchText_ignoring, fun predicate target hkeeps hagree => ?_,
    fun pattern signs hsigns hsets => ⟨fun hwidens body hbody c =>
      not_loses_of_widens hsigns hsets hwidens hbody c, fun hkept value => ?_⟩⟩
  · have hagree : agree true predicate target = true := Except.ok.inj hagree
    refine congrArg Except.ok (agree_iff.mpr fun name expected actual hp ht => ?_)
    obtain ⟨hforth, hback⟩ := hkeeps name expected actual hp ht
    have heither := agree_iff.mp hagree name expected actual hp ht
    rw [matchEither, Bool.or_eq_true] at heither ⊢
    exact heither.imp (matchText_ignoring hforth) (matchText_ignoring hback)
  · refine matchText_ignoring fun signs' hsigns' body hbody => ?_
    obtain rfl := hsigns'.unique hsigns
    exact ⟨(hsets body hbody).1, fun c _ => hkept body hbody c⟩

/-- A compiler with a version, for a pattern with a set of capitals. -/
theorem ignoring_case_widens_sample :
    let predicate := Attributes.ofList [("compiler", "[A-Z]CC*")]
    let target := Attributes.ofList [("compiler", "GCC9")]
    let signs : List Sign := [.set ['A', '-', 'Z'], .char 'C', .char 'C', .star]
    Spells signs "[A-Z]CC*".toList ∧ Keeps "[A-Z]CC*" "GCC9" ∧ Keeps "GCC9" "[A-Z]CC*" ∧
      matchText true "[A-Z]CC*" "GCC9" = true ∧ matchText false "[A-Z]CC*" "GCC9" = true ∧
      Matcher.wildcard true predicate target = .ok true ∧
      Matcher.wildcard false predicate target = .ok true ∧
      ∀ value, matchText true "[A-Z]CC*" value = true →
        matchText false "[A-Z]CC*" value = true := by
  intro predicate target signs
  obtain ⟨hpattern, hattributes, hexact⟩ := ignoring_case_widens
  have hsigns : Spells signs "[A-Z]CC*".toList :=
    .set (.plain (by decide) (by decide)) (.char rfl (.char rfl (.star .nil)))
  have hplain : Spells [.char 'G', .char 'C', .char 'C', .char '9'] "GCC9".toList :=
    .char rfl (.char rfl (.char rfl (.char rfl .nil)))
  have hsets : ∀ body, Sign.set body ∈ signs → body = ['A', '-', 'Z'] := by simp [signs]
  have hkept : ∀ body, Sign.set body ∈ signs → ∀ c, ¬ (CharSet.spelled body).Loses c := by
    intro body hbody c hlost
    obtain rfl := hsets body hbody
    cases List.mem_singleton.mp hlost.1
  have hforth : Keeps "[A-Z]CC*" "GCC9" := by
    intro signs' hsigns' body hbody
    obtain rfl := hsigns'.unique hsigns
    exact ⟨hsets body hbody ▸ rfl, fun c _ => hkept body hbody c⟩
  have hback : Keeps "GCC9" "[A-Z]CC*" := by
    intro signs' hsigns' body hbody
    obtain rfl := hsigns'.unique hplain
    simp at hbody
  have hcapital : (Sign.set ['A', '-', 'Z']).Accepts true 'G' :=
    Sign.accepts_token.mpr (show (CharSet.spelled ['A', '-', 'Z']).Has 'G' by decide)
  have hmatch : matchText true "[A-Z]CC*" "GCC9" = true :=
    (matchText_special_iff hsigns (by decide)).mpr ⟨[['G'], ['C'], ['C'], ['9']],
      .cons (.single hcapital) (.cons (.single rfl) (.cons (.single rfl) (.cons (.run _) .nil))),
      rfl⟩
  have hcommon : ∀ name expected actual, predicate.get? name = some expected →
      target.get? name = some actual → expected = "[A-Z]CC*" ∧ actual = "GCC9" := by
    intro name expected actual hp ht
    have hp : (name, expected) ∈ [("compiler", "[A-Z]CC*")] :=
      (predicate.get?_eq_some_iff name expected).mp hp
    have ht : (name, actual) ∈ [("compiler", "GCC9")] :=
      (target.get?_eq_some_iff name actual).mp ht
    cases List.mem_singleton.mp hp
    cases List.mem_singleton.mp ht
    exact ⟨rfl, rfl⟩
  have hmet : Matcher.wildcard true predicate target = .ok true := by
    refine congrArg Except.ok (agree_iff.mpr fun name expected actual hp ht => ?_)
    obtain ⟨rfl, rfl⟩ := hcommon name expected actual hp ht
    rw [matchEither, hmatch, Bool.true_or]
  refine ⟨hsigns, hforth, hback, hmatch, hpattern _ _ hforth hmatch, hmet,
    hattributes _ _ (fun name expected actual hp ht => ?_) hmet,
    (hexact _ _ hsigns fun body hbody => ?_).mpr hkept⟩
  · obtain ⟨rfl, rfl⟩ := hcommon name expected actual hp ht
    exact ⟨hforth, hback⟩
  · obtain rfl := hsets body hbody
    exact ⟨rfl, 'A', by decide⟩

/-- **A letter that is lost**: a capital beyond the basic plane, in a set with another letter. The
set is not negated, and the capital matches it with regard to case, but not without. -/
theorem capital_beyond_basic_plane_is_lost :
    Spells [.set ['𐐀', 'a']] "[𐐀a]".toList ∧ (CharSet.spelled ['𐐀', 'a']).negated = false ∧
      matchText true "[𐐀a]" "𐐀" = true ∧ matchText false "[𐐀a]" "𐐀" = false := by
  have hsigns : Spells [.set ['𐐀', 'a']] "[𐐀a]".toList :=
    .set (.plain (by decide) (by decide)) .nil
  have haccepts : (Sign.set ['𐐀', 'a']).Accepts true '𐐀' := Sign.accepts_token.mpr
    (show (CharSet.spelled ['𐐀', 'a']).Has '𐐀' by decide)
  have hlost : (CharSet.spelled ['𐐀', 'a']).Loses '𐐀' :=
    ⟨by decide, ⟨.one 'a', by decide, by decide⟩, by decide, by decide +kernel⟩
  have hchosen : ∀ {observeCase}, matchText observeCase "[𐐀a]" "𐐀" = true ↔
      (Sign.set ['𐐀', 'a']).Accepts observeCase '𐐀' := by
    intro observeCase
    rw [matchText_special_iff hsigns (by decide)]
    refine (exists_takes_chosen_iff fun _ => '𐐀').trans ?_
    simp
  refine ⟨hsigns, rfl, hchosen.mpr haccepts, ?_⟩
  rw [← Bool.not_eq_true, hchosen, Sign.accepts_set_iff rfl haccepts]
  exact not_not.mpr hlost

end Applicability.Wildcard
