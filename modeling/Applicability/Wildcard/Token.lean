/-
Wildcard patterns as tokens.

* `Token`: any run of characters, any one character, one given character, or one of a set;
* `CharSet.ofBody`: the set between two brackets, with its members;
* `Token.ofPattern`: every text is a pattern. A bracket that is never closed stands for itself;
* `Token.ofPattern_of_plain`: a pattern without wildcard characters asks for its own characters.
-/

namespace Applicability.Wildcard

/-- A character that may begin a wildcard. -/
def isSpecial (c : Char) : Bool := c == '*' || c == '?' || c == '['

/-- What a set of characters is made of. -/
inductive Member where
  | one (c : Char)
  | range (first last : Char)
deriving DecidableEq, Repr

/-- A set of characters: those that one of the members stands for, or all others. -/
structure CharSet where
  negated : Bool
  members : List Member
deriving DecidableEq, Repr

/-- One piece of a pattern. -/
inductive Token where
  /-- any run of characters, also an empty one -/
  | anyRun
  /-- any one character -/
  | anyOne
  /-- the given character -/
  | one (c : Char)
  /-- one character of a set -/
  | oneOf (set : CharSet)
deriving DecidableEq, Repr

namespace CharSet

/-! ### Pieces between hyphens

A hyphen makes a range of the characters beside it. The text of a set is cut at the hyphens that do
so. Neither the character right after such a hyphen nor the one after that is a cut: the first ends
the range, and a hyphen that follows it stands for itself. -/

/-- Cuts a text before and after its first hyphen. -/
def cutAtHyphen : List Char → Option (List Char × List Char)
  | [] => none
  | '-' :: rest => some ([], rest)
  | c :: rest => (cutAtHyphen rest).map fun (before, after) => (c :: before, after)

/-- What follows the cut is shorter. -/
theorem cutAtHyphen_length {s before after : List Char}
    (h : cutAtHyphen s = some (before, after)) : after.length < s.length := by
  induction s generalizing before with
  | nil => cases h
  | cons c rest ih =>
    unfold cutAtHyphen at h
    split at h
    · cases h
    · rename_i heq; cases heq; cases h; simp
    · rename_i heq; cases heq
      obtain ⟨⟨b, a⟩, hc, he⟩ := Option.map_eq_some_iff.mp h
      cases he
      exact Nat.lt_succ_of_lt (ih hc)

/-- The pieces of a text that follows a cut; its first two characters hold no cut. A last piece
that would be empty gives its hyphen back to the piece before the cut, which is the given one. -/
def piecesAfter (previous : List Char) (s : List Char) : List (List Char) :=
  match h : cutAtHyphen (s.drop 2) with
  | none => if s.isEmpty then [previous ++ ['-']] else [previous, s]
  | some (before, after) =>
    have : after.length < s.length := by
      have := cutAtHyphen_length h
      simp only [List.length_drop] at this
      omega
    previous :: piecesAfter (s.take 2 ++ before) after
termination_by s.length

/-- The pieces of the text of a set. A leading exclamation mark and the character after it hold
no cut. -/
def pieces (body : List Char) : List (List Char) :=
  let skip := if body.head? = some '!' then 2 else 1
  match cutAtHyphen (body.drop skip) with
  | none => [body]
  | some (before, after) => piecesAfter (body.take skip ++ before) after

/-- Joins a piece to the pieces after it. A range that would run backwards is dropped with both
its ends. -/
def joinPiece (piece : List Char) : List (List Char) → List (List Char)
  | [] => [piece]
  | next :: rest =>
    match piece.getLast?, next with
    | some last, first :: others =>
      if first < last then (piece.dropLast ++ others) :: rest else piece :: next :: rest
    | _, _ => piece :: next :: rest

/-- The pieces between which only ranges that run forwards are left. -/
def forward (ps : List (List Char)) : List (List Char) := ps.foldr joinPiece []

/-- The members of a piece and the pieces after it: the last character of a piece and the first of
the next are the ends of a range, and every other character is a member by itself. A hyphen with
nothing before it stands for itself. -/
def membersFrom (piece : List Char) : List (List Char) → List Member
  | [] => piece.map .one
  | [] :: rest => piece.map .one ++ membersFrom [] rest
  | (first :: others) :: rest =>
    match piece.getLast? with
    | some last => piece.dropLast.map .one ++ .range last first :: membersFrom others rest
    | none => .one '-' :: membersFrom (first :: others) rest

/-- The members of pieces. -/
def membersOf : List (List Char) → List Member
  | [] => []
  | piece :: rest => membersFrom piece rest

/-- The set of pieces. A leading exclamation mark stands for the characters outside. -/
def ofPieces : List (List Char) → CharSet
  | ('!' :: piece) :: rest => ⟨true, membersFrom piece rest⟩
  | ps => ⟨false, membersOf ps⟩

/-- The set of the text between two brackets. -/
def ofBody (body : List Char) : CharSet := ofPieces (forward (pieces body))

end CharSet

namespace Token

/-- The text of a set and what follows its closing bracket. An exclamation mark, a closing bracket,
or both in this order may begin the text. -/
def splitSet (s : List Char) : Option (List Char × List Char) :=
  let mark := if s.head? = some '!' then 1 else 0
  let start := if (s.drop mark).head? = some ']' then mark + 1 else mark
  ((s.drop start).idxOf? ']').map fun n => (s.take (start + n), s.drop (start + n + 1))

/-- What follows a set is shorter than the text. -/
theorem splitSet_length {s body rest : List Char} (h : splitSet s = some (body, rest)) :
    rest.length < s.length := by
  obtain ⟨n, hn, he⟩ := Option.map_eq_some_iff.mp h
  obtain ⟨hlt, -⟩ := List.idxOf?_eq_some_iff.mp hn
  cases he
  simp only [List.length_drop] at hlt ⊢
  omega

/-- The tokens of a pattern. -/
def ofPattern (s : List Char) : List Token :=
  match s with
  | [] => []
  | '*' :: rest => anyRun :: ofPattern rest
  | '?' :: rest => anyOne :: ofPattern rest
  | '[' :: rest =>
    match h : splitSet rest with
    | none => one '[' :: ofPattern rest
    | some (body, after) =>
      have := splitSet_length h
      oneOf (CharSet.ofBody body) :: ofPattern after
  | c :: rest => one c :: ofPattern rest
termination_by s.length

/-- A pattern without wildcard characters asks for its own characters. -/
theorem ofPattern_of_plain {s : List Char} (h : s.any isSpecial = false) :
    ofPattern s = s.map one := by
  induction s with
  | nil => rw [ofPattern, List.map_nil]
  | cons c rest ih =>
    simp only [List.any_cons, Bool.or_eq_false_iff, isSpecial, beq_eq_false_iff_ne] at h
    obtain ⟨⟨⟨h1, h2⟩, h3⟩, h4⟩ := h
    rw [ofPattern, ih h4, List.map_cons]
    · exact h1
    · exact h2
    · exact h3

end Token

end Applicability.Wildcard
