/-
Journals of scripted items.

* `JournalEntry`: what a scripted item found when it was evaluated, and the verdicts on the items
  that it evaluated itself;
* `Journals`: the entries of every scripted item, in the order of its evaluations.
-/
import Applicability.Graph

namespace Applicability

/-- One evaluation of a scripted item. -/
structure JournalEntry where
  /-- whether the opposite was asked for -/
  denying : Bool
  /-- the alternative that counted in the condition combined last -/
  accept : Verdict
  /-- the ids of the conditions being combined, the outermost first -/
  active : List String
  /-- the verdicts on the items that it evaluated -/
  inner : List Verdict := []
deriving DecidableEq, Repr, Inhabited

/-- The entries of every scripted item. -/
structure Journals where
  entries : Array (Array JournalEntry) := #[]
deriving DecidableEq, Repr, Inhabited

namespace Journals

/-- The entries of one scripted item. -/
def of (j : Journals) (s : ScriptRef) : Array JournalEntry := j.entries.getD s.index #[]

/-- The journals with a new empty one. -/
def addJournal (j : Journals) : Journals := ⟨j.entries.push #[]⟩

/-- Opens an entry. -/
def openEntry (j : Journals) (s : ScriptRef) (e : JournalEntry) : Journals :=
  ⟨j.entries.modify s.index (·.push e)⟩

/-- Adds an inner verdict to the entry at the given place. -/
def note (j : Journals) (s : ScriptRef) (place : Nat) (v : Verdict) : Journals :=
  ⟨j.entries.modify s.index (·.modify place fun e => { e with inner := e.inner ++ [v] })⟩

end Journals

end Applicability
