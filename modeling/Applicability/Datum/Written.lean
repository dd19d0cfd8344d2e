/-
How data are written in messages and as attribute values.

* `Datum.literal`: the written form with texts in quotes;
* `Datum.written`: the same, except that a text stands for itself;
* `Datum.written_text`: writing a text changes nothing.
-/
import Applicability.Datum
import Applicability.Text.Quoted

namespace Applicability.Datum

mutual

/-- The written form of a datum, texts in quotes. -/
def literal : Datum → String
  | null => "None"
  | boolean true => "True"
  | boolean false => "False"
  | whole n => toString n
  | decimal t => t
  | text t => Text.quoted t
  | list items => "[" ++ ", ".intercalate (itemLiterals items) ++ "]"
  | table entries => "\x7b" ++ ", ".intercalate (entryLiterals entries) ++ "\x7d"

/-- The written forms of the items of a list. -/
def itemLiterals : List Datum → List String
  | [] => []
  | d :: rest => literal d :: itemLiterals rest

/-- The written forms of the entries of a table. -/
def entryLiterals : List (Datum × Datum) → List String
  | [] => []
  | (name, value) :: rest => (literal name ++ ": " ++ literal value) :: entryLiterals rest

end

/-- The written form of a datum, a text as it is. -/
def written : Datum → String
  | text t => t
  | d => d.literal

/-- Writing a text changes nothing. -/
@[simp] theorem written_text (t : String) : (text t).written = t := rfl

end Applicability.Datum
