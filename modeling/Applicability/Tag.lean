/-
The two tags of an expression: its role in its condition and the domain it talks about.

* `Role`, with `Role.ofText?_text`: a role is read back from its text;
* `Domain`: the four known domains and any other name, which definitions of newer formats may use;
* `Domain.text_ofText`: every text names one domain, which has that text.
-/

namespace Applicability

/-- How the verdict on an expression enters that on its condition. -/
inductive Role where
  /-- an alternative: the best of them counts -/
  | accept
  /-- a constraint: the weakest of them counts -/
  | require
  /-- a constraint that asks for the opposite -/
  | deny
deriving DecidableEq, Repr, Inhabited

namespace Role

/-- Every role. -/
def all : List Role := [accept, require, deny]

/-- The text by which a role is exchanged. -/
def text : Role → String
  | accept => "accept"
  | require => "require"
  | deny => "deny"

/-- The role of a text, which must be spelled exactly. -/
def ofText? (t : String) : Option Role := all.find? (fun r => r.text == t)

/-- A role is read back from its text. -/
theorem ofText?_text (r : Role) : ofText? r.text = some r := by
  cases r <;> decide +kernel

end Role

/-- What an expression talks about. -/
inductive Domain where
  /-- other components: settled elsewhere, so that conditions pass over them -/
  | component
  /-- the device and its processor -/
  | device
  /-- the compiler and its options -/
  | toolchain
  /-- another condition -/
  | reference
  /-- a domain that is not known here -/
  | other (name : String)
deriving DecidableEq, Repr, Inhabited

namespace Domain

/-- The known domains. -/
def known : List Domain := [component, device, toolchain, reference]

/-- The text by which a domain is exchanged. -/
def text : Domain → String
  | component => "component"
  | device => "device"
  | toolchain => "toolchain"
  | reference => "reference"
  | other name => name

/-- The known domain of a text, which must be spelled exactly. -/
def ofText? (t : String) : Option Domain := known.find? (fun d => d.text == t)

/-- The domain of a text, known or not. -/
def ofText (t : String) : Domain := (ofText? t).getD (other t)

/-- A known domain is read back from its text. -/
theorem ofText?_text {d : Domain} (h : d ∈ known) : ofText? d.text = some d := by
  simp only [known, List.mem_cons, List.not_mem_nil, or_false] at h
  rcases h with rfl | rfl | rfl | rfl <;> decide +kernel

/-- The domain of a text has that text. -/
theorem text_ofText (t : String) : (ofText t).text = t := by
  unfold ofText
  cases h : ofText? t with
  | none => rfl
  | some d => simpa [ofText?] using List.find?_some h

end Domain

end Applicability
