/-
What is wrong with data that do not have the form asked for.

* `Issue`: a broken rule and where it was broken;
* `Breach.text`: the name by which a broken rule is reported;
* `Location.ofName`: how the name of an entry is given in a location.
-/
import Applicability.Datum.Written

namespace Applicability

/-- The rules about the form of data. -/
inductive Breach where
  | missing
  | unknownField
  | invalidName
  | notARecord
  | notText
  | tooShort
  | notAList
  | notATable
  | notListed
  | contradiction
  | notWhole
  | tooSmall
  | notBoolean
deriving DecidableEq, Repr

/-- The name by which a broken rule is reported. -/
def Breach.text : Breach → String
  | missing => "missing"
  | unknownField => "extra_forbidden"
  | invalidName => "invalid_key"
  | notARecord => "model_type"
  | notText => "string_type"
  | tooShort => "string_too_short"
  | notAList => "list_type"
  | notATable => "dict_type"
  | notListed => "enum"
  | contradiction => "value_error"
  | notWhole => "int_type"
  | tooSmall => "greater_than_equal"
  | notBoolean => "bool_type"

/-- One step from data to a part of them. -/
inductive Location where
  | field (name : String)
  | position (n : Int)
deriving DecidableEq, Repr

/-- The step to the entry of the given name. Names that are whole numbers of 64 bits, truth values
among them, stay numbers; every other name is written out. -/
def Location.ofName : Datum → Location
  | .text t => field t
  | .boolean b => position (if b then 1 else 0)
  | .whole n =>
    if Int64.minValue.toInt ≤ n ∧ n ≤ Int64.maxValue.toInt then position n else field (toString n)
  | d => field d.literal

/-- A broken rule and the way to where it was broken. -/
structure Issue where
  breach : Breach
  path : List Location
deriving DecidableEq, Repr

end Applicability
