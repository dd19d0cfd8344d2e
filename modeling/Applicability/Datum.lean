/-
Loosely typed data, as consumers hand it in: definitions, target attributes, settings.

* `Datum`: null, truth values, whole and decimal numbers, texts, lists, and tables whose entries
  keep their order;
* `Datum.same`: equality, in which numbers compare by value (true is 1) and tables without regard
  to the order of their entries;
* `Datum.put`: writing an entry of a table, where a known name keeps its place;
* `Datum.isVoid`: the data that stand for "nothing given";
* `Datum.put_length`: an entry is either new or replaces one.
-/
import Applicability.Number

namespace Applicability

/-- Loosely typed data. -/
inductive Datum where
  | null
  | boolean (b : Bool)
  | whole (n : Int)
  /-- a decimal number, held as the text in which it is exchanged -/
  | decimal (t : String)
  | text (t : String)
  | list (items : List Datum)
  /-- names with values, in their order -/
  | table (entries : List (Datum × Datum))
deriving Repr, Inhabited

namespace Datum

/-- The kind of a datum, as messages call it. -/
def kind : Datum → String
  | null => "NoneType"
  | boolean _ => "bool"
  | whole _ => "int"
  | decimal _ => "float"
  | text _ => "str"
  | list _ => "list"
  | table _ => "dict"

/-- The value of a datum that counts as a number. -/
def number? : Datum → Option Number
  | boolean b => some (.ofInt (if b then 1 else 0))
  | whole n => some (.ofInt n)
  | decimal t => some (.ofText t)
  | _ => none

mutual

/-- Equality of data: numbers by value, tables without regard to order. -/
def same : Datum → Datum → Bool
  | null, null => true
  | text a, text b => a == b
  | list as, list bs => sameItems as bs
  | table as, table bs => as.length == bs.length && within as bs
  | boolean a, b => sameNumber (boolean a).number? b.number?
  | whole a, whole b => a == b
  | whole a, b => sameNumber (whole a).number? b.number?
  | decimal a, b => sameNumber (decimal a).number? b.number?
  | _, _ => false

/-- Equality item by item. -/
def sameItems : List Datum → List Datum → Bool
  | [], [] => true
  | a :: as, b :: bs => same a b && sameItems as bs
  | _, _ => false

/-- Every entry of the first table is one of the second. -/
def within : List (Datum × Datum) → List (Datum × Datum) → Bool
  | [], _ => true
  | (k, v) :: rest, bs => bs.any (fun e => same k e.1 && same v e.2) && within rest bs

/-- Equality of two readings as numbers, which a value without one never has. -/
def sameNumber : Option Number → Option Number → Bool
  | some a, some b => a.same b
  | _, _ => false

end

/-- Data that stand for "nothing given": null, false, zero, and whatever is empty. -/
def isVoid : Datum → Bool
  | null => true
  | text t => t.isEmpty
  | list items => items.isEmpty
  | table entries => entries.isEmpty
  | d => d.number?.any Number.isZero

/-- Data that may name an entry of a table: all but lists and tables. -/
def isName : Datum → Bool
  | list _ => false
  | table _ => false
  | _ => true

/-- Writes an entry. A known name keeps its place and takes the new value; a new one comes last. -/
def put (name value : Datum) : List (Datum × Datum) → List (Datum × Datum)
  | [] => [(name, value)]
  | (k, v) :: rest => if same k name then (k, value) :: rest else (k, v) :: put name value rest

/-- The value of the entry whose name is the given text. -/
def field? (entries : List (Datum × Datum)) (name : String) : Option Datum :=
  (entries.find? fun e => same e.1 (text name)).map (·.2)

/-- An entry is either new or replaces one. -/
theorem put_length (name value : Datum) (entries : List (Datum × Datum)) :
    (put name value entries).length =
      if entries.any (fun e => same e.1 name) then entries.length else entries.length + 1 := by
  induction entries with
  | nil => rfl
  | cons e rest ih =>
    obtain ⟨k, v⟩ := e
    by_cases h : same k name
    · simp [put, h]
    · have hput : put name value ((k, v) :: rest) = (k, v) :: put name value rest := by
        simp [put, h]
      rw [hput, List.length_cons, ih]
      by_cases hr : rest.any (fun e => same e.1 name) <;> simp [h, hr]

end Datum

end Applicability
