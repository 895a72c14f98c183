import Purser.Utf8Decoding
import Purser.TextFormatting

/-!
# Characters at the front of a byte string

A string of the source's language is any sequence of bytes.  Where it is read
as text, a byte that starts no complete character stands for itself alone.
-/

namespace Purser.RuneReading

open TextFormatting

/-- The character that stands in front, with the number of its bytes. -/
def front (octets : List UInt8) : Option (Char × ℕ) :=
  [1, 2, 3, 4].findSome? fun length =>
    match Utf8Decoding.decode (octets.take length) with
    | [some c] => some (c, length)
    | _ => none

def quotedRunes : ℕ → List UInt8 → List Char
  | 0, _ => []
  | _ + 1, [] => []
  | fuel + 1, octet :: rest =>
    match front (octet :: rest) with
    | some (c, length) => quotedChar c ++ quotedRunes fuel ((octet :: rest).drop length)
    | none =>
      ['\\', 'x', hexDigit (octet.toNat / 16), hexDigit (octet.toNat % 16)] ++ quotedRunes fuel rest

def quotedBytes (octets : List UInt8) : String :=
  String.ofList ('"' :: quotedRunes octets.length octets ++ ['"'])

example : quotedBytes [0x61, 0xC3, 0xA8, 0xC3, 0x0A] = "\"aè\\xc3\\n\"" := by
  decide +kernel

end Purser.RuneReading
