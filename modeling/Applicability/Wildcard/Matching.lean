/-
Matching a value against a wildcard pattern.

The whole value has to match. Case is either observed or ignored, and ignoring it means two
different things: a pattern without wildcard characters is compared after full case folding, any
other one character by character.

* `Matches`: what it means that tokens match a value, by pieces of the value;
* `matchTokens`, with `matchTokens_iff`: the matcher decides `Matches` in one pass over the tokens;
  it keeps the end pieces of the value that are left to be matched;
* `matchText`: matching two texts;
* `matchEither`: the same with either text as the pattern.
-/
import Applicability.Text.CaseFolding
import Applicability.Text.Letter
import Applicability.Wildcard.Token

namespace Applicability.Wildcard

/-! ### One character -/

/-- A character of the basic plane, which holds the first 65536. -/
def isBasic (c : Char) : Bool := c.toNat < 0x10000

/-- Whether a member of a set stands for a letter of the value. In the basic plane it stands for all
forms of its letters. Beyond it a single character stands for the letter with that lower-case form
only, and a range that leads there also for a letter whose form in capitals begins in the range. -/
def Member.covers (l : Text.Letter) : Member → Bool
  | .one c => if isBasic c then l.forms.contains c else l.lower == c
  | .range first last =>
    l.forms.any (fun c => first ≤ c && c ≤ last) ||
      !isBasic last && l.initial?.any (fun c => first ≤ c && c ≤ last)

/-- The only member of a set, given once or several times, if this is a single character. -/
def CharSet.sole? (set : CharSet) : Option Char :=
  match set.members with
  | .one c :: rest => if rest.all (· == .one c) then some c else none
  | _ => none

/-- Whether a set, negated or not, is about a letter of the value. A set of one character is about
all forms of its letter, whatever its plane. -/
def CharSet.covers (set : CharSet) (l : Text.Letter) : Bool :=
  match set.sole? with
  | some c => l.forms.contains c
  | none => set.members.any (·.covers l)

/-- A letter that a token for one character accepts. A run accepts none as such. -/
def Token.accepts (l : Text.Letter) : Token → Bool
  | .anyRun => false
  | .anyOne => true
  | .one c => l.forms.contains c
  | .oneOf set => set.covers l != set.negated

/-! ### The meaning -/

/-- Tokens match a value that splits into pieces, one for each token in order. -/
inductive Matches : List Token → List Text.Letter → Prop where
  | nil : Matches [] []
  | run {ts : List Token} {rest : List Text.Letter} (piece : List Text.Letter)
      (tail : Matches ts rest) : Matches (.anyRun :: ts) (piece ++ rest)
  | step {t : Token} {ts : List Token} {l : Text.Letter} {rest : List Text.Letter}
      (head : t.accepts l = true) (tail : Matches ts rest) : Matches (t :: ts) (l :: rest)

/-! ### The matcher -/

/-- The end pieces of a value, from the value itself to the empty one. -/
def endings : List Text.Letter → List (List Text.Letter)
  | [] => [[]]
  | l :: rest => (l :: rest) :: endings rest

/-- What a token for one character leaves of a value that begins with such a one. -/
def behind (t : Token) : List Text.Letter → Option (List Text.Letter)
  | [] => none
  | l :: rest => if t.accepts l then some rest else none

/-- What a token leaves of the given end pieces of a value, the longest first. -/
def advance (ends : List (List Text.Letter)) (t : Token) : List (List Text.Letter) :=
  if t = .anyRun then ends.head?.elim [] endings else ends.filterMap (behind t)

/-- Whether tokens match a value: whether, token by token, they can leave nothing of it. -/
def matchTokens (ts : List Token) (value : List Text.Letter) : Bool :=
  (ts.foldl advance [value]).any List.isEmpty

/-- Whether a value matches a pattern. -/
def matchText (observeCase : Bool) (pattern value : String) : Bool :=
  if pattern.toList.any isSpecial then
    matchTokens (Token.ofPattern pattern.toList) (value.toList.map (Text.Letter.read observeCase))
  else if observeCase then pattern == value
  else Text.foldCase pattern.toList == Text.foldCase value.toList

/-- Whether one of two values matches the other, read as a pattern. -/
def matchEither (observeCase : Bool) (a b : String) : Bool :=
  matchText observeCase a b || matchText observeCase b a

/-! ### The matcher decides the meaning -/

/-- The end pieces of a value are those that are left of it when its beginning is cut off. -/
theorem mem_endings_iff {e value : List Text.Letter} : e ∈ endings value ↔ e <:+ value := by
  induction value with
  | nil => simp [endings]
  | cons l rest ih => rw [endings, List.mem_cons, ih, List.suffix_cons_iff]

/-- Of the end pieces of a value, each one holds those after it. -/
theorem endings_pairwise (value : List Text.Letter) :
    (endings value).Pairwise fun longer shorter => shorter <:+ longer := by
  induction value with
  | nil => simp [endings]
  | cons l rest ih =>
    rw [endings, List.pairwise_cons]
    exact ⟨fun e he => (mem_endings_iff.mp he).trans (List.suffix_cons l rest), ih⟩

/-- A run matches a value if the tokens after it match an end piece. -/
theorem matches_run_iff {ts : List Token} {value : List Text.Letter} :
    Matches (.anyRun :: ts) value ↔ ∃ e, e <:+ value ∧ Matches ts e := by
  constructor
  · intro h
    cases h with
    | run piece tail => exact ⟨_, List.suffix_append piece _, tail⟩
    | step head _ => cases head
  · rintro ⟨e, ⟨piece, rfl⟩, h⟩
    exact .run piece h

/-- A token for one character takes the first one. -/
theorem matches_one_iff {t : Token} {ts : List Token} {value : List Text.Letter}
    (ht : t ≠ .anyRun) :
    Matches (t :: ts) value ↔
      ∃ l rest, value = l :: rest ∧ t.accepts l = true ∧ Matches ts rest := by
  constructor
  · intro h
    cases h with
    | run => exact absurd rfl ht
    | step head tail => exact ⟨_, _, rfl, head, tail⟩
  · rintro ⟨l, rest, rfl, head, tail⟩
    exact .step head tail

/-- What is left has been behind an accepted character. -/
theorem behind_eq_some_iff {t : Token} {value e : List Text.Letter} :
    behind t value = some e ↔ ∃ l, t.accepts l = true ∧ value = l :: e := by
  cases value with
  | nil => simp [behind]
  | cons l rest =>
    rw [behind, Option.ite_none_right_eq_some, Option.some.injEq]
    constructor
    · rintro ⟨hl, rfl⟩
      exact ⟨l, hl, rfl⟩
    · rintro ⟨m, hm, heq⟩
      obtain ⟨rfl, rfl⟩ := List.cons.inj heq
      exact ⟨hm, rfl⟩

/-- What a token leaves is in order again. -/
theorem advance_pairwise {ends : List (List Text.Letter)} (t : Token)
    (h : ends.Pairwise fun longer shorter => shorter <:+ longer) :
    (advance ends t).Pairwise fun longer shorter => shorter <:+ longer := by
  by_cases ht : t = .anyRun
  · subst ht
    cases ends with
    | nil => exact List.Pairwise.nil
    | cons e rest => exact endings_pairwise e
  · rw [advance, if_neg ht]
    refine h.filterMap _ fun _ _ hab c hc d hd => ?_
    obtain ⟨l, _, rfl⟩ := behind_eq_some_iff.mp hc
    obtain ⟨m, _, rfl⟩ := behind_eq_some_iff.mp hd
    rcases List.suffix_cons_iff.mp hab with heq | hsuf
    · exact (List.cons.inj heq).2 ▸ List.suffix_refl _
    · exact (List.suffix_cons m d).trans hsuf

/-- The tokens after one match a piece that it leaves if, with it, they match a piece given. -/
theorem exists_matches_advance {t : Token} {ts : List Token} {ends : List (List Text.Letter)}
    (h : ends.Pairwise fun longer shorter => shorter <:+ longer) :
    (∃ e ∈ advance ends t, Matches ts e) ↔ ∃ e ∈ ends, Matches (t :: ts) e := by
  by_cases ht : t = .anyRun
  · subst ht
    cases ends with
    | nil => simp [advance]
    | cons longest others =>
      have hlongest := (List.pairwise_cons.mp h).1
      simp only [advance, if_true, List.head?_cons, Option.elim_some, mem_endings_iff,
        matches_run_iff]
      constructor
      · exact fun hex => ⟨longest, List.mem_cons_self, hex⟩
      · rintro ⟨e, he, f, hf, hm⟩
        rcases List.mem_cons.mp he with rfl | he
        · exact ⟨f, hf, hm⟩
        · exact ⟨f, hf.trans (hlongest e he), hm⟩
  · simp only [advance, if_neg ht, List.mem_filterMap, behind_eq_some_iff, matches_one_iff ht]
    constructor
    · rintro ⟨e, ⟨_, hmem, l, hl, rfl⟩, hm⟩
      exact ⟨l :: e, hmem, l, e, rfl, hl, hm⟩
    · rintro ⟨_, hmem, l, e, rfl, hl, hm⟩
      exact ⟨e, ⟨_, hmem, l, hl, rfl⟩, hm⟩

/-- Tokens can leave nothing of some end piece if they match one. -/
theorem any_isEmpty_foldl_advance {ts : List Token} {ends : List (List Text.Letter)}
    (h : ends.Pairwise fun longer shorter => shorter <:+ longer) :
    (ts.foldl advance ends).any List.isEmpty = true ↔ ∃ e ∈ ends, Matches ts e := by
  induction ts generalizing ends with
  | nil =>
    simp only [List.foldl_nil, List.any_eq_true, List.isEmpty_iff]
    constructor
    · rintro ⟨e, he, rfl⟩
      exact ⟨[], he, .nil⟩
    · rintro ⟨_, he, _ | _ | _⟩
      exact ⟨[], he, rfl⟩
  | cons t ts ih => rw [List.foldl_cons, ih (advance_pairwise t h), exists_matches_advance h]

/-- The matcher decides whether tokens match a value. -/
theorem matchTokens_iff {ts : List Token} {value : List Text.Letter} :
    matchTokens ts value = true ↔ Matches ts value := by
  rw [matchTokens, any_isEmpty_foldl_advance (List.pairwise_singleton _ _)]
  simp

end Applicability.Wildcard
