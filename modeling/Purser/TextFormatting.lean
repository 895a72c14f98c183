import Mathlib.Data.Rat.Floor
import Mathlib.Algebra.Order.Field.Rat

/-!
# Formatting verbs of the source's messages

The messages of the source are built with a small set of formatting verbs:
quoted strings and fixed-point decimals.  Non-ASCII characters are taken to be
printable.
-/

namespace Purser.TextFormatting

def hexDigit (value : ℕ) : Char := (Nat.digitChar value).toLower

def quotedChar (c : Char) : List Char :=
  if c = '"' then ['\\', '"']
  else if c = '\\' then ['\\', '\\']
  else if c.toNat = 7 then ['\\', 'a']
  else if c.toNat = 8 then ['\\', 'b']
  else if c.toNat = 9 then ['\\', 't']
  else if c.toNat = 10 then ['\\', 'n']
  else if c.toNat = 11 then ['\\', 'v']
  else if c.toNat = 12 then ['\\', 'f']
  else if c.toNat = 13 then ['\\', 'r']
  else if c.toNat < 32 ∨ c.toNat = 127 then
    ['\\', 'x', hexDigit (c.toNat / 16), hexDigit (c.toNat % 16)]
  else [c]

/-- The verb `%q`. -/
def quoted (text : String) : String :=
  String.ofList ('"' :: text.toList.flatMap quotedChar ++ ['"'])

def debugChar (c : Char) : List Char :=
  if c = '"' then ['\\', '"']
  else if c = '\\' then ['\\', '\\']
  else if c.toNat = 0 then ['\\', '0']
  else if c.toNat = 9 then ['\\', 't']
  else if c.toNat = 10 then ['\\', 'n']
  else if c.toNat = 13 then ['\\', 'r']
  else if c.toNat < 32 ∨ c.toNat = 127 then
    ['\\', 'u', '\x7b'] ++ Nat.toDigits 16 c.toNat ++ ['\x7d']
  else [c]

/-- A string in the debug format of the agent's language. -/
def debugQuoted (text : String) : String :=
  String.ofList ('"' :: text.toList.flatMap debugChar ++ ['"'])

/-- Round a non-negative rational to an integer, ties to even. -/
def roundHalfEven (value : ℚ) : ℕ :=
  let whole := value.floor.toNat
  let rest := value - whole
  if rest < 1 / 2 then whole
  else if 1 / 2 < rest then whole + 1
  else if whole % 2 = 0 then whole else whole + 1

def fixedPoint (digits : ℕ) (value : ℚ) : String :=
  let scaled := roundHalfEven (|value| * 10 ^ digits)
  let whole := toString (scaled / 10 ^ digits)
  let fraction := toString (scaled % 10 ^ digits)
  let padding := String.ofList (List.replicate (digits - fraction.length) '0')
  let sign := if value < 0 then "-" else ""
  if digits = 0 then sign ++ whole
  else sign ++ whole ++ "." ++ padding ++ fraction

end Purser.TextFormatting
