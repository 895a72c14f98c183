import Purser.Sha256Digests

/-!
# Signed texts

Bytes as text in the URL alphabet of base64, without padding, and the keyed
digest HMAC-SHA-256 by which such a text is signed.
-/

namespace Purser.SignedTokens

open Sha256Digests

/-- The value of a character of the alphabet. -/
def sextet (c : Char) : Option ℕ :=
  if 'A' ≤ c ∧ c ≤ 'Z' then some (c.toNat - 65)
  else if 'a' ≤ c ∧ c ≤ 'z' then some (c.toNat - 97 + 26)
  else if '0' ≤ c ∧ c ≤ '9' then some (c.toNat - 48 + 52)
  else if c = '-' then some 62
  else if c = '_' then some 63
  else none

/-- Four values make three bytes; two or three values at the end make one or two,
and the bits that are left over are ignored. -/
def assemble : List ℕ → Option (List UInt8)
  | first :: second :: third :: fourth :: rest =>
    let quantum := ((first * 64 + second) * 64 + third) * 64 + fourth
    (assemble rest).map fun bytes =>
      UInt8.ofNat (quantum / 65536) :: UInt8.ofNat (quantum / 256) :: UInt8.ofNat quantum :: bytes
  | [first, second, third] =>
    let quantum := (first * 64 + second) * 64 + third
    some [UInt8.ofNat (quantum / 1024), UInt8.ofNat (quantum / 4)]
  | [first, second] => some [UInt8.ofNat ((first * 64 + second) / 16)]
  | [_] => none
  | [] => some []

/-- Line ends within the text are skipped. -/
def decodeRawURL (text : List Char) : Option (List UInt8) :=
  ((text.filter fun c => c ≠ '\r' ∧ c ≠ '\n').mapM sextet).bind assemble

example : decodeRawURL "TWFuTQ".toList = some [77, 97, 110, 77] := by decide +kernel

def sextetChar (value : ℕ) : Char :=
  if value < 26 then Char.ofNat (65 + value)
  else if value < 52 then Char.ofNat (97 + (value - 26))
  else if value < 62 then Char.ofNat (48 + (value - 52))
  else if value = 62 then '-'
  else '_'

def encodeRawURL : List UInt8 → List Char
  | first :: second :: third :: rest =>
    let quantum := (first.toNat * 256 + second.toNat) * 256 + third.toNat
    sextetChar (quantum / 262144) :: sextetChar (quantum / 4096 % 64) ::
      sextetChar (quantum / 64 % 64) :: sextetChar (quantum % 64) :: encodeRawURL rest
  | [first, second] =>
    let quantum := (first.toNat * 256 + second.toNat) * 4
    [sextetChar (quantum / 4096), sextetChar (quantum / 64 % 64), sextetChar (quantum % 64)]
  | [first] =>
    let quantum := first.toNat * 16
    [sextetChar (quantum / 64), sextetChar (quantum % 64)]
  | [] => []

example : encodeRawURL [77, 97, 110, 77] = "TWFuTQ".toList := by decide +kernel

def hmac (key message : List UInt8) : List UInt8 :=
  let short := if 64 < key.length then digest key else key
  let block := short ++ List.replicate (64 - short.length) 0
  digest (block.map (· ^^^ 0x5c) ++ digest (block.map (· ^^^ 0x36) ++ message))

example : (hmac "Jefe".toUTF8.data.toList "what do ya want for nothing?".toUTF8.data.toList).take 4 =
    [0x5b, 0xdc, 0xc1, 0x46] := by
  decide +kernel

end Purser.SignedTokens
