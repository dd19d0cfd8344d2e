/-
Numbers as loosely typed data hold them, and their order by value.

A number is whole, of any size, or it is a binary number of 64 bits, which is exchanged in decimal
notation. Both are whole multiples of the smallest binary number, so that they compare exactly: the
binary number written `1e+23` is not the whole number 10 ^ 23, but one a little below it.

* `Number.ofText`: the binary number that a decimal notation stands for, the nearest one;
* `Number.nearest`, with `Number.nearest_near`: rounding is off by half a step at most;
* `Number.compare?`, with `Number.compare?_eq_none_iff`: every two numbers are ordered by value
  unless one of them is undetermined.
-/

namespace Applicability

/-- A number, or one of the three results of a computation that has no finite one. -/
inductive Number where
  /-- that many times the smallest binary number -/
  | finite (grains : Int)
  | infinite (negative : Bool)
  /-- the result of a computation that has none, equal to no number, itself included -/
  | undetermined
deriving DecidableEq, Repr

namespace Number

/-- How many of the smallest binary number make up one. -/
def one : Nat := Nat.pow 2 1074

/-- A whole number. -/
def ofInt (n : Int) : Number := finite (n * one)

/-- The whole number nearest to a quotient; of two that are equally near, the even one. -/
def nearest (n d : Nat) : Nat :=
  if 2 * (n % d) < d ∨ 2 * (n % d) = d ∧ n / d % 2 = 0 then n / d else n / d + 1

/-- The binary number nearest to `digits · 10 ^ power`. It has 53 significant digits at most. -/
def ofDecimal (digits : Nat) (power : Int) : Nat :=
  let n := digits * Nat.pow 10 power.toNat * one
  let d := Nat.pow 10 (-power).toNat
  let step := Nat.pow 2 ((n / d).log2 - 52)
  nearest n (d * step) * step

/-- The digits of a decimal notation such as `0.5` or `1e+16`, and the power of ten by which they
are to be multiplied. -/
def decimal? (t : List Char) : Option (Nat × Int) := do
  let mantissa := t.takeWhile (· != 'e')
  let whole := mantissa.takeWhile (· != '.')
  let fraction := mantissa.drop (whole.length + 1)
  let digits ← (String.ofList (whole ++ fraction)).toNat?
  let power ← match t.drop (mantissa.length + 1) with
    | [] => some 0
    | '+' :: e => (String.ofList e).toNat?.map Int.ofNat
    | e => (String.ofList e).toInt?
  return (digits, power - fraction.length)

/-- The number that a decimal notation stands for. -/
def ofText (t : String) : Number :=
  let (negative, rest) := match t.toList with
    | '-' :: rest => (true, rest)
    | rest => (false, rest)
  match decimal? rest with
  | some (digits, power) =>
    let grains := ofDecimal digits power
    finite (if negative then -grains else grains)
  | none => if rest = ['i', 'n', 'f'] then infinite negative else undetermined

/-- The number zero. -/
def isZero (a : Number) : Bool := a == finite 0

/-- The order of two numbers by value; an undetermined number has no place in it. -/
def compare? : Number → Number → Option Ordering
  | undetermined, _ => none
  | _, undetermined => none
  | finite a, finite b => some (compare a b)
  | infinite a, infinite b => some (compare (!a) (!b))
  | infinite negative, finite _ => some (if negative then .lt else .gt)
  | finite _, infinite negative => some (if negative then .gt else .lt)

/-- Two numbers of the same value. -/
def same (a b : Number) : Bool := a.compare? b == some .eq

/-- Rounding is off by half a step at most. -/
theorem nearest_near (n : Nat) {d : Nat} (h : 0 < d) :
    2 * (nearest n d * d) ≤ 2 * n + d ∧ 2 * n ≤ 2 * (nearest n d * d) + d := by
  have hn : n / d * d + n % d = n := Nat.div_add_mod' n d
  have hr : n % d < d := Nat.mod_lt n h
  unfold nearest
  split
  · omega
  · have hs : (n / d + 1) * d = n / d * d + d := Nat.succ_mul _ _
    omega

/-- Only an undetermined number is out of order. -/
theorem compare?_eq_none_iff {a b : Number} :
    a.compare? b = none ↔ a = undetermined ∨ b = undetermined := by
  cases a <;> cases b <;> simp [compare?]

end Number

end Applicability
