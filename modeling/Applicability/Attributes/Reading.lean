/-
Attributes from loosely typed data, and questions about them in terms of such data.

Names and values that are no texts are written out. Data that stand for "nothing given" are no
attributes; other data than tables are refused.

* `Attributes.ofDatum`: the reading itself;
* `Attributes.ofDatumWith`: the same with named fields laid over it;
* `Attributes.merged`: attributes with others laid over them;
* `Attributes.overlay_append`: laying two lists one after the other lays their concatenation.
-/
import Applicability.Attributes
import Applicability.Datum.Search

namespace Applicability.Attributes

/-- The attributes as loosely typed data. -/
def toDatum (a : Attributes) : Datum :=
  .table (a.entries.map fun e => (.text e.1, .text e.2))

/-- The attributes as a developer sees them. -/
def literal (a : Attributes) : String := "AttributeSet(" ++ a.toDatum.literal ++ ")"

/-- The entries of a table, written out. -/
def writtenEntries (entries : List (Datum × Datum)) : List (String × String) :=
  entries.map fun e => (e.1.written, e.2.written)

/-- Reads attributes. -/
def ofDatum : Datum → Except Fault Attributes
  | .table entries => .ok (ofList (writtenEntries entries))
  | d => if d.isVoid then .ok empty else .error (.noEntries d.kind)

/-- Named fields may not use the two names that the reading itself needs. -/
def refuseTaken (fields : List (String × String)) : Except Fault Unit :=
  match fields.find? (fun e => e.1 == "data" || e.1 == "self") with
  | some e => .error (.nameTaken e.1)
  | none => .ok ()

/-- Reads attributes and lays named fields over them. The fields are looked at first. -/
def ofDatumWith (d : Datum) (fields : List (Datum × Datum)) : Except Fault Attributes := do
  if !fields.all (fun e => e.1 matches .text _) then throw .fieldNotNamed
  refuseTaken (writtenEntries fields)
  return (← ofDatum d).overlay (writtenEntries fields)

/-- The attributes with those of a table laid over them as named fields. -/
def merged (a : Attributes) : Datum → Except Fault Attributes
  | .table entries => do
    refuseTaken (writtenEntries entries)
    return a.overlay (writtenEntries entries)
  | d => .error (.noEntries d.kind)

/-- The value of a name that may be any datum; only texts name attributes. -/
def lookUp (a : Attributes) (name : Datum) : Except Fault (Option String) :=
  match name with
  | .text t => .ok (a.get? t)
  | d => if d.isName then .ok none else .error (.notAName d.kind)

/-- The names that the given data hold too. Attributes without a name ask nothing of the data. -/
def commonNames (a : Attributes) (d : Datum) : Except Fault (List String) :=
  a.names.filterM d.holds

/-- Equality with loosely typed data: a table with the same names and, as texts, the same
values. -/
def sameAsDatum (a : Attributes) : Datum → Bool
  | .table entries => a.toDatum.same (.table entries)
  | _ => false

/-- Laying two lists over attributes one after the other lays their concatenation. -/
theorem overlay_append (a : Attributes) (es fs : List (String × String)) :
    a.overlay (es ++ fs) = (a.overlay es).overlay fs := by
  simp [overlay]

end Applicability.Attributes
