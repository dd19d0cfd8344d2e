/-
Why an operation gives no answer.

* `Fault`: the causes;
* `Fault.message?`: the one place where their wording is decided. Three causes have none: a list of
  issues speaks for itself, and an entry that is missed under a name other than a text, or a
  condition that is no longer held, is reported without words.
-/
import Applicability.Problem
import Applicability.Tag
import Applicability.Verdict

namespace Applicability

/-- The closed vocabularies whose members are exchanged as texts. -/
inductive Vocabulary where
  | verdict
  | role
  | domain
deriving DecidableEq, Repr

/-- The name of a vocabulary. -/
def Vocabulary.title : Vocabulary → String
  | verdict => "EvaluationResult"
  | role => "ExpressionRole"
  | domain => "ExpressionDomain"

/-- The questions that can be asked about the order of two values. -/
inductive Comparison where
  | less
  | atMost
  | greater
  | atLeast
deriving DecidableEq, Repr

namespace Comparison

/-- The sign by which a question is asked. -/
def sign : Comparison → String
  | less => "<"
  | atMost => "<="
  | greater => ">"
  | atLeast => ">="

/-- The answer to a question, from the order of the two values. -/
def answer : Comparison → Ordering → Bool
  | less, o => o == .lt
  | atMost, o => o != .gt
  | greater, o => o == .gt
  | atLeast, o => o != .lt

end Comparison

/-- Why an operation gives no answer. -/
inductive Fault where
  /-- a coded problem -/
  | problem (p : Problem)
  /-- the data do not have the form asked for -/
  | invalid (issues : List Issue)
  /-- data that are no member of a vocabulary -/
  | unknownWord (vocabulary : Vocabulary) (given : Datum)
  /-- an entry that a set of attributes or a list of codes does not have -/
  | noEntry (name : Datum)
  /-- a condition that is released although it is no longer held -/
  | notHeld
  /-- data of this kind have no entries -/
  | noEntries (kind : String)
  /-- items of this kind, or no item at all, lack the part asked for -/
  | lacks (kind part : String)
  /-- data of this kind have no first character -/
  | noCharacters (kind : String)
  /-- data of this kind cannot be searched -/
  | notSearchable (kind : String)
  /-- the items of a list are not found by a name -/
  | notByName
  /-- data of this kind cannot name an entry -/
  | notAName (kind : String)
  /-- values of these kinds have no order -/
  | notComparable (question : Comparison) (left right : String)
  /-- a field is named by something other than a text -/
  | fieldNotNamed
  /-- an attribute is given under a name that is taken by the operation itself -/
  | nameTaken (name : String)
  /-- nothing was given to choose from -/
  | nothingToFold (operation : String)
  /-- a verdict outside the scale has no position on it -/
  | noRank (v : Verdict)
  /-- an expression that is to be removed is not there -/
  | notPresent
  /-- the store takes no definitions -/
  | readOnlyStore
  /-- a consumer's own matcher or item gave up -/
  | raised (text : String)
  /-- a scripted item has no verdict to give -/
  | noVerdict
  /-- nothing is known under this name -/
  | unknownItem (name : String)
  /-- the evaluation nests without end -/
  | endless
deriving Repr

/-- Reads a word of a vocabulary. -/
def Vocabulary.read {α : Type} (vocabulary : Vocabulary) (ofText? : String → Option α) :
    Datum → Except Fault α
  | .text t => (ofText? t).elim (.error (.unknownWord vocabulary (.text t))) .ok
  | d => .error (.unknownWord vocabulary d)

/-- Reads a verdict. -/
def Verdict.read : Datum → Except Fault Verdict := Vocabulary.verdict.read Verdict.ofText?

/-- Reads a role. -/
def Role.read : Datum → Except Fault Role := Vocabulary.role.read Role.ofText?

/-- Reads a known domain. -/
def Domain.read : Datum → Except Fault Domain := Vocabulary.domain.read Domain.ofText?

namespace Fault

/-- The wording of a fault. -/
def message? : Fault → Option String
  | problem p => some p.message
  | invalid _ => none
  | unknownWord vocabulary given =>
    some (given.literal ++ " is not a valid " ++ vocabulary.title)
  | noEntry (.text name) => some (Text.quoted name)
  | noEntry _ => none
  | notHeld => none
  | noEntries kind => some s!"'{kind}' object has no attribute 'items'"
  | lacks kind part => some s!"'{kind}' object has no attribute '{part}'"
  | noCharacters kind => some s!"'{kind}' object is not subscriptable"
  | notSearchable kind => some s!"argument of type '{kind}' is not iterable"
  | notByName => some "list indices must be integers or slices, not str"
  | notAName kind => some s!"unhashable type: '{kind}'"
  | notComparable question left right =>
    some (Text.quoted question.sign ++
      s!" not supported between instances of '{left}' and '{right}'")
  | fieldNotNamed => some "keywords must be strings"
  | nameTaken name => some s!"AttributeSet.__init__() got multiple values for argument '{name}'"
  | nothingToFold operation => some s!"{operation}() arg is an empty sequence"
  | noRank v => some s!"{v.title} is a sentinel and has no rank"
  | notPresent => some "list.remove(x): x not in list"
  | readOnlyStore =>
    some "Cannot load into ReadOnlyStore; an InMemoryConditionStore is required"
  | raised text => some text
  | noVerdict => some "list index out of range"
  | unknownItem name => some name
  | endless => some "maximum recursion depth exceeded"

end Fault

end Applicability
