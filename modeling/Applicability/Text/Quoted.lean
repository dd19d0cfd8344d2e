/-
Texts in quotes, as they stand in messages.

A text is put in single quotes, or in double quotes if it holds a single and no double one. The
quote and the backslash get a backslash; line feed, carriage return and tab have letters of their
own; every other character that is not printable is written by its code point in two, four or
eight hexadecimal digits, the fewest that hold it.

* `quoted`: the text in quotes;
* `hexDigits_length`: an escape has the announced number of digits;
* `escaped_of_printable`: any other printable character stands for itself.
-/
import Applicability.Text.Printable

namespace Applicability.Text

/-- The last `width` hexadecimal digits of `n`, leading zeros included. -/
def hexDigits (width n : Nat) : List Char :=
  match width with
  | 0 => []
  | w + 1 => hexDigits w (n / 16) ++ [Nat.digitChar (n % 16)]

/-- An escape has the announced number of digits. -/
theorem hexDigits_length (width n : Nat) : (hexDigits width n).length = width := by
  induction width generalizing n with
  | zero => rfl
  | succ w ih => simp [hexDigits, ih]

/-- The escape of a code point in the fewest digits that hold it. -/
def codePointEscape (n : Nat) : List Char :=
  if n < 0x100 then '\\' :: 'x' :: hexDigits 2 n
  else if n < 0x10000 then '\\' :: 'u' :: hexDigits 4 n
  else '\\' :: 'U' :: hexDigits 8 n

/-- How a character is written between the given quotes. -/
def escaped (mark c : Char) : List Char :=
  if c == mark || c == '\\' then ['\\', c]
  else if c == '\n' then ['\\', 'n']
  else if c == '\r' then ['\\', 'r']
  else if c == '\t' then ['\\', 't']
  else if isPrintable c then [c]
  else codePointEscape c.toNat

/-- The quotes around a text: double ones only where they spare an escape. -/
def quoteMark (s : List Char) : Char :=
  if s.contains '\'' && !s.contains '"' then '"' else '\''

/-- A text in quotes. -/
def quoted (s : String) : String :=
  let mark := quoteMark s.toList
  String.ofList (mark :: s.toList.flatMap (escaped mark) ++ [mark])

/-- A printable character other than quote and backslash stands for itself. -/
theorem escaped_of_printable {mark c : Char} (hm : c ≠ mark) (hb : c ≠ '\\')
    (hp : isPrintable c = true) : escaped mark c = [c] := by
  have control : ∀ d : Char, isPrintable d = false → c ≠ d := fun d hd h => by
    rw [h, hd] at hp; cases hp
  have hn := control '\n' (by decide +kernel)
  have hr := control '\r' (by decide +kernel)
  have ht := control '\t' (by decide +kernel)
  simp [escaped, hm, hb, hn, hr, ht, hp]

end Applicability.Text
