/-
Brackets: what the text of a set spells.

The text between two brackets is cut at its hyphens, and the pieces are put together again. Read
from left to right it is simpler: a character, a hyphen and another character are a range, and every
other character is a member by itself.

* `Member.spelled`: the members that a text spells, and `CharSet.spelled`: the set;
* `WellCut`: how pieces are cut. Behind the character that ends a range there is another one, unless
  the text is over, so that no character ends one range and begins the next;
* `plainPieces_spec`: the pieces of a text have the members that it spells;
* `forward_spec`: dropping the ranges that run backwards drops them from the members;
* `ofBody_eq_spelled`: the set of a text is the one that it spells.
-/
import Mathlib.Data.Char
import Mathlib.Data.List.Basic
import Mathlib.Tactic.Common
import Applicability.Wildcard.Token

namespace Applicability.Wildcard

namespace Member

/-- The members that a text spells, from left to right: a hyphen between two characters makes a
range of them. -/
def spelled : List Char → List Member
  | first :: '-' :: last :: rest => .range first last :: spelled rest
  | c :: rest => .one c :: spelled rest
  | [] => []

/-- A range that runs backwards. -/
def isBackward : Member → Bool
  | .one _ => false
  | .range first last => last < first

@[simp] lemma isBackward_range (first last : Char) :
    (range first last).isBackward = decide (last < first) := rfl

lemma filter_map_one (s : List Char) :
    (s.map Member.one).filter (!·.isBackward) = s.map Member.one :=
  List.filter_eq_self.mpr fun m hm => by
    obtain ⟨c, -, rfl⟩ := List.mem_map.mp hm
    rfl

/-- A character that a member stands for. -/
def Has (c : Char) : Member → Prop
  | .one d => c = d
  | .range first last => first ≤ c ∧ c ≤ last

instance decidableHas (c : Char) : (m : Member) → Decidable (m.Has c)
  | .one d => inferInstanceAs (Decidable (c = d))
  | .range first last => inferInstanceAs (Decidable (first ≤ c ∧ c ≤ last))

lemma not_has_of_isBackward {m : Member} {c : Char} (h : m.isBackward) : ¬ m.Has c := by
  cases m with
  | one d => cases h
  | range first last =>
      rintro ⟨hfirst, hlast⟩
      exact absurd (le_trans hfirst hlast) (not_le.mpr (by simpa [isBackward] using h))

/-! ### Reading from left to right -/

variable {c last : Char} {s rest before : List Char}

/-- A character that no hyphen follows is a member by itself. -/
lemma spelled_cons (h : rest.head? ≠ some '-') : spelled (c :: rest) = .one c :: spelled rest := by
  rw [spelled]
  rintro d tail rfl
  exact h rfl

lemma spelled_of_not_mem (h : '-' ∉ s) (c : Char) : spelled (c :: s) = (c :: s).map .one := by
  induction s generalizing c with
  | nil => rfl
  | cons d rest ih =>
      obtain ⟨hd, hrest⟩ := List.ne_and_not_mem_of_not_mem_cons h
      rw [spelled_cons (by simpa using Ne.symm hd), ih hrest]
      rfl

/-- The first member is the first character or a range that this begins. -/
lemma spelled_cases (c : Char) (rest : List Char) :
    (∃ ms, spelled (c :: rest) = .one c :: ms) ∨
      ∃ last ms, spelled (c :: rest) = .range c last :: ms := by
  rw [spelled.eq_def]
  split
  · next heq =>
    cases heq
    exact .inr ⟨_, _, rfl⟩
  · next heq =>
    cases heq
    exact .inl ⟨_, rfl⟩
  · next heq => cases heq

/-- So they are before a first hyphen, all but the one that begins a range. -/
lemma spelled_append_range (h : '-' ∉ before) (c : Char) :
    spelled (c :: before ++ '-' :: last :: rest) =
      (c :: before).dropLast.map .one ++
        .range ((c :: before).getLast (by simp)) last :: spelled rest := by
  induction before generalizing c with
  | nil => rw [List.singleton_append, spelled]; rfl
  | cons d before ih =>
      obtain ⟨hd, hbefore⟩ := List.ne_and_not_mem_of_not_mem_cons h
      have hnext : (d :: before ++ '-' :: last :: rest).head? ≠ some '-' := by
        simpa using Ne.symm hd
      rw [List.cons_append, spelled_cons hnext, ih hbefore]
      rfl

/-- A hyphen at the end is a member by itself. -/
lemma spelled_append_hyphen (h : '-' ∉ before) (c : Char) :
    spelled (c :: before ++ ['-']) = (c :: before).map .one ++ [.one '-'] := by
  induction before generalizing c with
  | nil => rfl
  | cons d before ih =>
      obtain ⟨hd, hbefore⟩ := List.ne_and_not_mem_of_not_mem_cons h
      have hnext : (d :: before ++ ['-']).head? ≠ some '-' := by simpa using Ne.symm hd
      rw [List.cons_append, spelled_cons hnext, ih hbefore]
      rfl

end Member

namespace CharSet

/-- The set of the members that are left when the ranges that run backwards are dropped. An
exclamation mark in front stands for the characters outside. One that began a range leaves the
hyphen and the end of the range behind, which stand for themselves. -/
def ofLeft : List Member → CharSet
  | .one '!' :: ms => ⟨true, ms⟩
  | .range '!' last :: ms => ⟨true, .one '-' :: .one last :: ms⟩
  | ms => ⟨false, ms⟩

/-- **The set that a text spells.** -/
def spelled : List Char → CharSet
  | '!' :: rest => ⟨true, (Member.spelled rest).filter (!·.isBackward)⟩
  | body => ofLeft ((Member.spelled body).filter (!·.isBackward))

/-- The set of a text at first sight: an exclamation mark counts only if the text begins with it. -/
def atSight : List Char → CharSet
  | '!' :: rest => ⟨true, Member.spelled rest⟩
  | body => ⟨false, Member.spelled body⟩

/-- A character in a set: one that a member stands for, or, in a negated set, one for which no
member stands. -/
def Has (set : CharSet) (c : Char) : Prop :=
  if set.negated then ∀ m ∈ set.members, ¬ m.Has c else ∃ m ∈ set.members, m.Has c

instance decidableHas (set : CharSet) (c : Char) : Decidable (set.Has c) :=
  inferInstanceAs (Decidable (if set.negated then ∀ m ∈ set.members, ¬ m.Has c
    else ∃ m ∈ set.members, m.Has c))

/-- Ranges that run backwards do not matter. -/
lemma has_filter (negated : Bool) (ms : List Member) (c : Char) :
    Has ⟨negated, ms.filter (!·.isBackward)⟩ c ↔ Has ⟨negated, ms⟩ c := by
  have hmem : ∀ m, m.Has c → m ∈ ms → m ∈ ms.filter (!·.isBackward) := fun m hm hin =>
    List.mem_filter.mpr ⟨hin, by simpa using fun h => Member.not_has_of_isBackward h hm⟩
  cases negated with
  | true => exact ⟨fun h m hin hm => h m (hmem m hm hin) hm, fun h m hin => h m
      (List.mem_of_mem_filter hin)⟩
  | false => exact ⟨fun ⟨m, hin, hm⟩ => ⟨m, List.mem_of_mem_filter hin, hm⟩,
      fun ⟨m, hin, hm⟩ => ⟨m, hmem m hm hin, hm⟩⟩

/-- **Only an empty range in front makes a difference**: other texts spell the set that they are at
first sight. -/
lemma has_spelled_iff {body : List Char} (h : ∀ m ∈ (Member.spelled body).head?, !m.isBackward)
    (c : Char) : (spelled body).Has c ↔ (atSight body).Has c := by
  match body with
  | [] => exact Iff.rfl
  | d :: rest =>
      by_cases hd : d = '!'
      · subst hd
        exact has_filter _ _ _
      · have hsight : atSight (d :: rest) = ⟨false, Member.spelled (d :: rest)⟩ := by
          simp [atSight, hd]
        have hspelled : spelled (d :: rest) =
            ⟨false, (Member.spelled (d :: rest)).filter (!·.isBackward)⟩ := by
          rw [spelled.eq_2 _ (by simpa using hd)]
          -- the first member stays, so that no other one comes to stand in front
          rcases Member.spelled_cases d rest with ⟨ms, hms⟩ | ⟨last, ms, hms⟩
          · rw [hms, List.filter_cons_of_pos (by rfl)]
            simp [ofLeft, hd]
          · rw [hms] at h ⊢
            have hfirst : (!(Member.range d last).isBackward) = true := h _ rfl
            rw [List.filter_cons, if_pos hfirst]
            simp [ofLeft, hd]
        rw [hspelled, hsight]
        exact has_filter _ _ _

/-! ### The members of pieces -/

/-- **Pieces as they are cut.** Before a cut there is a character, which begins a range; behind it
there is one that ends the range, and what comes after that is cut in the same way. -/
inductive WellCut : List (List Char) → Prop where
  | single (p : List Char) : WellCut [p]
  | cons {c x : Char} {p q : List Char} {ps : List (List Char)} :
      WellCut (q :: ps) → WellCut ((c :: p) :: (x :: q) :: ps)

variable {c x : Char} {p q s body before after : List Char} {ps : List (List Char)}
  {ms : List Member}

lemma WellCut.append (h : WellCut (q :: ps)) (p : List Char) : WellCut ((p ++ q) :: ps) := by
  cases h with
  | single => exact .single _
  | @cons c x q' q ps h =>
      cases p with
      | nil => exact .cons h
      | cons d p => exact .cons h

lemma membersFrom_cons (hp : p ≠ []) :
    membersFrom p ((x :: q) :: ps) =
      p.dropLast.map .one ++ .range (p.getLast hp) x :: membersFrom q ps := by
  rw [membersFrom, List.getLast?_eq_some_getLast hp]

lemma membersFrom_append (h : WellCut (q :: ps)) (p : List Char) :
    membersFrom (p ++ q) ps = p.map .one ++ membersFrom q ps := by
  cases h with
  | single => simp [membersFrom]
  | @cons c x q' q ps h =>
      have hne : c :: q' ≠ [] := List.cons_ne_nil c q'
      rw [membersFrom_cons (List.append_ne_nil_of_right_ne_nil p hne), membersFrom_cons hne,
        List.dropLast_append_of_ne_nil hne, List.getLast_append_of_ne_nil _ hne]
      simp

/-! ### Cutting -/

lemma not_mem_of_cutAtHyphen (h : cutAtHyphen s = none) : '-' ∉ s := by
  induction s with
  | nil => simp
  | cons c rest ih =>
      unfold cutAtHyphen at h
      split at h
      · cases ‹_ = []›
      · cases h
      · next hc heq =>
        cases heq
        have hrest := ih (Option.map_eq_none_iff.mp h)
        exact List.not_mem_cons_of_ne_of_not_mem (fun he => hc he.symm) hrest

/-- A text is cut at its first hyphen. -/
lemma eq_of_cutAtHyphen (h : cutAtHyphen s = some (before, after)) :
    s = before ++ '-' :: after ∧ '-' ∉ before := by
  induction s generalizing before with
  | nil => cases h
  | cons c rest ih =>
      unfold cutAtHyphen at h
      split at h
      · cases h
      · next heq =>
        cases heq
        cases h
        simp
      · next hc heq =>
        cases heq
        obtain ⟨⟨b, a⟩, hcut, he⟩ := Option.map_eq_some_iff.mp h
        cases he
        obtain ⟨rfl, hb⟩ := ih hcut
        exact ⟨rfl, List.not_mem_cons_of_ne_of_not_mem (fun he => hc he.symm) hb⟩

lemma piecesAfter_of_none (h : cutAtHyphen (s.drop 2) = none) :
    piecesAfter p s = if s.isEmpty then [p ++ ['-']] else [p, s] := by
  rw [piecesAfter]
  split
  · rfl
  · simp_all

lemma piecesAfter_of_some (h : cutAtHyphen (s.drop 2) = some (before, after)) :
    piecesAfter p s = p :: piecesAfter (s.take 2 ++ before) after := by
  rw [piecesAfter]
  split
  · simp_all
  · simp_all

/-- The piece before a cut is the first one. -/
lemma piecesAfter_cons (c : Char) (p s : List Char) :
    piecesAfter (c :: p) s = (piecesAfter p s).modifyHead (c :: ·) := by
  cases h : cutAtHyphen (s.drop 2) with
  | none =>
      rw [piecesAfter_of_none h, piecesAfter_of_none h]
      split <;> rfl
  | some cut => rw [piecesAfter_of_some h, piecesAfter_of_some h]; rfl

/-- **The pieces after a cut** are cut well, and have the members that the text spells. The
induction is on what follows the cut; the character that ends a range is no part of the text that is
left. -/
lemma piecesAfter_spec {before : List Char} (hbefore : '-' ∉ before) (c : Char) (s : List Char) :
    WellCut (piecesAfter (c :: before) s) ∧
      membersOf (piecesAfter (c :: before) s) = Member.spelled (c :: before ++ '-' :: s) := by
  cases s with
  | nil =>
      rw [piecesAfter_of_none rfl, Member.spelled_append_hyphen hbefore]
      exact ⟨.single _, by simp [membersOf, membersFrom]⟩
  | cons last rest =>
      rw [Member.spelled_append_range hbefore]
      -- the next cut is looked for behind the end of the range and the character after it
      cases hcut : cutAtHyphen ((last :: rest).drop 2) with
      | none =>
          have hrest : Member.spelled rest = rest.map .one := by
            cases rest with
            | nil => rfl
            | cons d tail => exact Member.spelled_of_not_mem (not_mem_of_cutAtHyphen hcut) d
          rw [piecesAfter_of_none hcut, hrest]
          exact ⟨.cons (.single rest), membersFrom_cons (List.cons_ne_nil c before)⟩
      | some cut =>
          obtain ⟨before', after⟩ := cut
          cases rest with
          | nil => cases hcut
          | cons d tail =>
              obtain ⟨htail, hbefore'⟩ := eq_of_cutAtHyphen hcut
              obtain rfl : tail = before' ++ '-' :: after := htail
              have hshorter : after.length < (last :: d :: (before' ++ '-' :: after)).length := by
                simp only [List.length_cons, List.length_append]
                omega
              obtain ⟨hwell, hmembers⟩ := piecesAfter_spec hbefore' d after
              have hpieces : piecesAfter (c :: before) (last :: d :: (before' ++ '-' :: after)) =
                  (c :: before) :: (piecesAfter (d :: before') after).modifyHead (last :: ·) := by
                rw [piecesAfter_of_some hcut, ← piecesAfter_cons]
                rfl
              rw [hpieces]
              generalize piecesAfter (d :: before') after = ps at hwell hmembers
              cases ps with
              | nil => cases hwell
              | cons q ps =>
                  refine ⟨.cons hwell, (membersFrom_cons (List.cons_ne_nil c before)).trans ?_⟩
                  rw [← List.cons_append, ← hmembers]
                  rfl
termination_by s.length

/-- The pieces of a text that no exclamation mark begins. -/
def plainPieces (s : List Char) : List (List Char) :=
  match cutAtHyphen (s.drop 1) with
  | none => [s]
  | some (before, after) => piecesAfter (s.take 1 ++ before) after

lemma pieces_of_ne (h : body.head? ≠ some '!') : pieces body = plainPieces body := by
  simp only [pieces, if_neg h]
  rfl

lemma pieces_cons (s : List Char) :
    pieces ('!' :: s) = (plainPieces s).modifyHead ('!' :: ·) := by
  rw [plainPieces]
  cases h : cutAtHyphen (s.drop 1) with
  | none =>
      simp only [pieces, List.head?_cons, if_true, List.drop_succ_cons, h]
      rfl
  | some cut =>
      simp only [pieces, List.head?_cons, if_true, List.drop_succ_cons, List.take_succ_cons, h]
      exact piecesAfter_cons '!' _ _

/-- **The pieces of a text** are cut well, and have the members that it spells. -/
lemma plainPieces_spec (s : List Char) :
    WellCut (plainPieces s) ∧ membersOf (plainPieces s) = Member.spelled s := by
  cases h : cutAtHyphen (s.drop 1) with
  | none =>
      have hs : plainPieces s = [s] := by rw [plainPieces, h]
      rw [hs]
      refine ⟨.single s, ?_⟩
      cases s with
      | nil => rfl
      | cons c rest => exact (Member.spelled_of_not_mem (not_mem_of_cutAtHyphen h) c).symm
  | some cut =>
      obtain ⟨before, after⟩ := cut
      cases s with
      | nil => cases h
      | cons c rest =>
          have hs : plainPieces (c :: rest) = piecesAfter (c :: before) after := by
            rw [plainPieces, h]
            rfl
          obtain ⟨hrest, hbefore⟩ := eq_of_cutAtHyphen h
          obtain rfl : rest = before ++ '-' :: after := hrest
          rw [hs]
          exact piecesAfter_spec hbefore c after

/-! ### Dropping the ranges that run backwards -/

/-- A piece and the next one, which begins with the end of the range between them. -/
lemma joinPiece_cons_cons (hp : p ≠ []) :
    joinPiece p ((x :: q) :: ps) =
      if x < p.getLast hp then (p.dropLast ++ q) :: ps else p :: (x :: q) :: ps := by
  simp only [joinPiece, List.getLast?_eq_some_getLast hp]

lemma joinPiece_cons (hp : p ≠ []) (c : Char) (ps : List (List Char)) :
    joinPiece (c :: p) ps = (joinPiece p ps).modifyHead (c :: ·) := by
  match ps with
  | [] => rfl
  | [] :: rest => simp [joinPiece, List.getLast?_eq_some_getLast hp]
  | (x :: q) :: rest =>
      rw [joinPiece_cons_cons hp, joinPiece_cons_cons (List.cons_ne_nil c p),
        List.getLast_cons hp, List.dropLast_cons_of_ne_nil hp]
      split <;> rfl

lemma forward_cons (h : WellCut (p :: ps)) (c : Char) :
    forward ((c :: p) :: ps) = (forward (p :: ps)).modifyHead (c :: ·) := by
  cases h with
  | single => rfl
  | cons => exact joinPiece_cons (List.cons_ne_nil _ _) c _

/-- **Dropping the ranges that run backwards** drops them from the members. What is left is cut well
again. -/
lemma forward_spec (h : WellCut ps) :
    WellCut (forward ps) ∧ membersOf (forward ps) = (membersOf ps).filter (!·.isBackward) := by
  induction h with
  | single p =>
      have hmembers : membersOf [p] = p.map .one := membersFrom.eq_1 p
      exact ⟨.single p, by rw [hmembers, Member.filter_map_one]; exact hmembers⟩
  | @cons c x p q ps hwell ih =>
      obtain ⟨hforward, hmembers⟩ := ih
      have hnext := forward_cons hwell x
      generalize forward (q :: ps) = left at hforward hmembers hnext
      cases left with
      | nil => cases hforward
      | cons next rest =>
          have hp : c :: p ≠ [] := List.cons_ne_nil c p
          have hjoin : forward ((c :: p) :: (x :: q) :: ps) =
              joinPiece (c :: p) ((x :: next) :: rest) := congrArg (joinPiece (c :: p)) hnext
          have hrest : membersFrom next rest = (membersFrom q ps).filter (!·.isBackward) := hmembers
          have hall : (membersOf ((c :: p) :: (x :: q) :: ps)).filter (!·.isBackward) =
              (c :: p).dropLast.map .one ++ (.range ((c :: p).getLast hp) x ::
                membersFrom q ps).filter (!·.isBackward) := by
            rw [membersOf, membersFrom_cons hp, List.filter_append, Member.filter_map_one]
          rw [hjoin, joinPiece_cons_cons hp, hall]
          -- the range between the two pieces runs backwards and is
          -- dropped with the cut, or it stays
          split
          · next hback =>
            refine ⟨hforward.append _, (membersFrom_append hforward _).trans ?_⟩
            rw [hrest, List.filter_cons_of_neg (by simpa using hback)]
          · next hahead =>
            refine ⟨.cons hforward, (membersFrom_cons hp).trans ?_⟩
            rw [hrest, List.filter_cons_of_pos (by simpa using hahead)]

/-! ### The set -/

/-- The first member of a piece is its first character or a range that this begins. -/
lemma membersFrom_cases (h : WellCut ((c :: p) :: ps)) :
    (∃ ms, membersFrom (c :: p) ps = .one c :: ms) ∨
      ∃ last ms, membersFrom (c :: p) ps = .range c last :: ms := by
  cases h with
  | single => exact .inl ⟨p.map .one, by rw [membersFrom, List.map_cons]⟩
  | @cons c x p q ps h =>
      rw [membersFrom_cons (List.cons_ne_nil c p)]
      cases p with
      | nil => exact .inr ⟨x, _, rfl⟩
      | cons d p => exact .inl ⟨_, rfl⟩

/-- An exclamation mark in front of pieces that are cut well. -/
lemma ofLeft_membersFrom (h : WellCut (('!' :: p) :: ps)) :
    ofLeft (membersFrom ('!' :: p) ps) = ⟨true, membersFrom p ps⟩ := by
  cases h with
  | single => exact congrArg ofLeft (membersFrom_append (.single p) ['!'])
  | @cons c x p q ps h =>
      cases p with
      | cons d p => exact congrArg ofLeft (membersFrom_append (.cons h) ['!'])
      | nil =>
          have hlast : membersFrom [] ((x :: q) :: ps) = .one '-' :: .one x :: membersFrom q ps :=
            congrArg (Member.one '-' :: ·) (membersFrom_append h [x])
          rw [hlast, membersFrom_cons (List.cons_ne_nil '!' [])]
          rfl

/-- The set of pieces that are cut well is that of their members. -/
lemma ofPieces_eq_ofLeft (h : WellCut ps) : ofPieces ps = ofLeft (membersOf ps) := by
  match ps with
  | [] => cases h
  | [] :: ps => cases h; rfl
  | (c :: p) :: ps =>
      show _ = ofLeft (membersFrom (c :: p) ps)
      by_cases hc : c = '!'
      · subst hc
        rw [ofLeft_membersFrom h, ofPieces]
      · have hplain : ofPieces ((c :: p) :: ps) = ⟨false, membersFrom (c :: p) ps⟩ := by
          simp [ofPieces, membersOf, hc]
        rcases membersFrom_cases h with ⟨ms, hms⟩ | ⟨last, ms, hms⟩ <;>
          simp [hplain, hms, ofLeft, hc]

/-- **The set of a text is the one that it spells.** -/
lemma ofBody_eq_spelled (body : List Char) : ofBody body = spelled body := by
  by_cases hmark : body.head? = some '!'
  · obtain ⟨rest, rfl⟩ := List.head?_eq_some_iff.mp hmark
    obtain ⟨hwell, hmembers⟩ := plainPieces_spec rest
    obtain ⟨hforward, hleft⟩ := forward_spec hwell
    rw [ofBody, pieces_cons, spelled, ← hmembers, ← hleft]
    generalize plainPieces rest = ps at hwell hforward
    cases ps with
    | nil => cases hwell
    | cons p ps =>
        show ofPieces (forward (('!' :: p) :: ps)) = _
        rw [forward_cons hwell]
        generalize forward (p :: ps) = left at hforward
        cases left with
        | nil => cases hforward
        | cons q qs => rfl
  · obtain ⟨hwell, hmembers⟩ := plainPieces_spec body
    obtain ⟨hforward, hleft⟩ := forward_spec hwell
    rw [ofBody, pieces_of_ne hmark, ofPieces_eq_ofLeft hforward, hleft, hmembers, spelled]
    rintro rest rfl
    exact hmark rfl

end CharSet

end Applicability.Wildcard
