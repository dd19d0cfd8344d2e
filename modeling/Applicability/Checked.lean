/-
Reading loosely typed data into types, with every issue found.

A reading either succeeds or lists issues. Readings that stand side by side are all carried out, and
their issues are listed one reading after the other.

* `Checked`: the outcome of a reading;
* `Checked.both`, `Checked.all`: readings side by side, with `all_eq_ok_iff`: they succeed together
  exactly if each does;
* `Checked.field`, `Checked.unknownFields`: the entries of a record.
-/
import Applicability.Issue

namespace Applicability

/-- The outcome of a reading. -/
abbrev Checked (α : Type) := Except (List Issue) α

namespace Checked

variable {α β : Type}

/-- A reading that fails for one reason, at the data themselves. -/
def fail (breach : Breach) : Checked α := .error [⟨breach, []⟩]

/-- A reading of a part of the data: its issues are located through the part. -/
def under (step : Location) : Checked α → Checked α
  | .ok a => .ok a
  | .error found => .error (found.map fun i => { i with path := step :: i.path })

/-- Two readings side by side. -/
def both : Checked α → Checked β → Checked (α × β)
  | .ok a, .ok b => .ok (a, b)
  | .ok _, .error found => .error found
  | .error found, .ok _ => .error found
  | .error found, .error more => .error (found ++ more)

/-- Any number of readings side by side. -/
def all : List (Checked α) → Checked (List α)
  | [] => .ok []
  | c :: rest => (both c (all rest)).map fun (a, as) => a :: as

/-! ### Plain data -/

/-- Reads a text. -/
def text : Datum → Checked String
  | .text t => .ok t
  | _ => fail .notText

/-- Reads a text that is not empty. -/
def nonEmptyText (d : Datum) : Checked String := do
  let t ← text d
  if t.isEmpty then fail .tooShort else return t

/-- Reads a text, or null for none. -/
def textOrNull : Datum → Checked (Option String)
  | .null => .ok none
  | d => (text d).map some

/-- Reads a text that must be a word of a vocabulary. -/
def word (ofText? : String → Option α) : Datum → Checked α
  | .text t =>
    match ofText? t with
    | some a => .ok a
    | none => fail .notListed
  | _ => fail .notListed

/-- Reads a truth value. -/
def truth : Datum → Checked Bool
  | .boolean b => .ok b
  | _ => fail .notBoolean

/-- Reads a list of data that are read alike. -/
def list (read : Datum → Checked α) : Datum → Checked (List α)
  | .list items =>
    all (items.mapIdx fun i d => under (.position i) (read d))
  | _ => fail .notAList

/-- Reads one entry of a table of texts. The location of a bad name is marked as one of a name. -/
def textEntry (e : Datum × Datum) : Checked (String × String) :=
  under (.ofName e.1) (both (under (.field "[key]") (text e.1)) (text e.2))

/-- Reads a table of texts. -/
def textTable : Datum → Checked (List (String × String))
  | .table entries => all (entries.map textEntry)
  | _ => fail .notATable

/-! ### Records -/

/-- Reads a field of a record, which may have a value for records that lack it. -/
def field (entries : List (Datum × Datum)) (name : String) (read : Datum → Checked α)
    (missing : Option α) : Checked α :=
  under (.field name) <|
    match Datum.field? entries name, missing with
    | some d, _ => read d
    | none, some a => .ok a
    | none, none => fail .missing

/-- Refuses the entries of a record that are none of its fields. -/
def unknownFields (fields : List String) (entries : List (Datum × Datum)) : Checked Unit :=
  (all (entries.map fun e =>
    match e.1 with
    | .text t => if fields.contains t then .ok () else under (.field t) (fail .unknownField)
    | name => under (.ofName name) (fail .invalidName))).map fun _ => ()

/-! ### Success -/

/-- Two readings succeed together exactly if each does. -/
theorem both_eq_ok_iff {x : Checked α} {y : Checked β} {a : α} {b : β} :
    both x y = .ok (a, b) ↔ x = .ok a ∧ y = .ok b := by
  cases x <;> cases y <;> simp [both]

/-- Any number of readings succeed together exactly if each does. -/
theorem all_eq_ok_iff {cs : List (Checked α)} {as : List α} :
    all cs = .ok as ↔ cs = as.map .ok := by
  induction cs generalizing as with
  | nil => cases as <;> simp [all]
  | cons c rest ih =>
    cases as with
    | nil =>
      cases h : both c (all rest) <;> simp [all, h, Except.map]
    | cons a as =>
      rw [List.map_cons, List.cons.injEq, ← ih, ← both_eq_ok_iff, all]
      cases both c (all rest) <;> simp [Except.map, Prod.ext_iff]

end Checked

end Applicability
