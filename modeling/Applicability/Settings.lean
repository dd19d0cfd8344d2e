/-
The settings of an evaluation.

* `Settings`: how deep rules may nest, whether case matters when values are matched, and whether
  every reference must be resolved;
* `Settings.ofFields`: reads them from named fields.
-/
import Applicability.Checked
import Applicability.Fault

namespace Applicability

/-- The settings of an evaluation. -/
structure Settings where
  /-- how many items may be evaluated inside each other -/
  maxDepth : Nat := 128
  observeCase : Bool := true
  /-- references to unknown conditions are refused when a store is linked -/
  strictLinks : Bool := true
  one_le_maxDepth : 1 ≤ maxDepth := by decide
deriving DecidableEq, Repr

namespace Settings

instance : Inhabited Settings := ⟨{}⟩

/-- A depth limit: a whole number of at least one. -/
def depthLimit : Datum → Checked { n : Nat // 1 ≤ n }
  | .whole n => if h : 1 ≤ n.toNat then .ok ⟨n.toNat, h⟩ else Checked.fail .tooSmall
  | _ => Checked.fail .notWhole

/-- Reads settings; entries that are no settings are passed over. -/
def ofEntries (entries : List (Datum × Datum)) : Checked Settings :=
  (Checked.both (Checked.field entries "max_depth" depthLimit (some ⟨128, by decide⟩))
    (Checked.both (Checked.field entries "case_sensitive" Checked.truth (some true))
      (Checked.field entries "strict_links" Checked.truth (some true)))).map
    fun (limit, observeCase, strictLinks) =>
      { maxDepth := limit.1, observeCase, strictLinks, one_le_maxDepth := limit.2 }

/-- Named fields must be named by texts. -/
def named (entries : List (Datum × Datum)) : Except Fault Unit :=
  if entries.all (fun e => e.1 matches .text _) then .ok () else .error .fieldNotNamed

/-- Reads settings from named fields. -/
def ofFields (entries : List (Datum × Datum)) : Except Fault Settings := do
  named entries
  (ofEntries entries).mapError .invalid

end Settings

end Applicability
