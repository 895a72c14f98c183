import Mathlib.Data.List.Forall2

/-!
# Decoding UTF-8 octets that arrive in pieces

An octet that cannot continue the present character ends an ill-formed run, and
is read again as the start of the next one.  Lossy decoding replaces each run by
the replacement character.
-/

namespace Purser.Utf8Decoding

variable {pieces : List (List UInt8)} {texts : List (List Char)}

/-- A character whose next octet must lie between `low` and `high`, with
`tails` further continuation octets after it. -/
structure Pending where
  tails : ℕ
  low : ℕ
  high : ℕ
  value : ℕ

inductive Opening
  | character (c : Char)
  | sequence (pending : Pending)
  | malformed

/-- What an octet means where a character may start.  The ranges of the second
octet exclude overlong forms, surrogates and values past the last scalar. -/
def opening (octet : UInt8) : Opening :=
  let value := octet.toNat
  if value < 0x80 then .character (Char.ofNat value)
  else if value < 0xC2 then .malformed
  else if value < 0xE0 then .sequence ⟨0, 0x80, 0xBF, value % 32⟩
  else if value < 0xF0 then
    .sequence ⟨1, if value = 0xE0 then 0xA0 else 0x80,
      if value = 0xED then 0x9F else 0xBF, value % 16⟩
  else if value < 0xF5 then
    .sequence ⟨2, if value = 0xF0 then 0x90 else 0x80,
      if value = 0xF4 then 0x8F else 0xBF, value % 8⟩
  else .malformed

/-- The characters read, `none` for an ill-formed run, and the character left
open. -/
abbrev Reading := List (Option Char) × Option Pending

def start (octet : UInt8) : Reading :=
  match opening octet with
  | .character c => ([some c], none)
  | .sequence pending => ([], some pending)
  | .malformed => ([none], none)

def Pending.extend (pending : Pending) (octet : UInt8) : Reading :=
  let value := pending.value * 64 + octet.toNat % 64
  match pending.tails with
  | 0 => ([some (Char.ofNat value)], none)
  | tails + 1 => ([], some ⟨tails, 0x80, 0xBF, value⟩)

def advance : Option Pending → UInt8 → Reading
  | none, octet => start octet
  | some pending, octet =>
    if pending.low ≤ octet.toNat ∧ octet.toNat ≤ pending.high then
      pending.extend octet
    else (none :: (start octet).1, (start octet).2)

def read : Option Pending → List UInt8 → Reading
  | pending, [] => ([], pending)
  | pending, octet :: rest =>
    let reading := advance pending octet
    let remaining := read reading.2 rest
    (reading.1 ++ remaining.1, remaining.2)

/-- A character left open at the end of the text is an ill-formed run. -/
def Reading.close (reading : Reading) : List (Option Char) :=
  reading.1 ++ reading.2.toList.map fun _ => none

def decode (octets : List UInt8) : List (Option Char) := Reading.close (read none octets)

def replacement : Char := Char.ofNat 0xFFFD

def fromUtf8Lossy (octets : List UInt8) : List Char :=
  (decode octets).map fun decoded => decoded.getD replacement

/-- Decoding that fails on an ill-formed run. -/
def fromUtf8 (octets : List UInt8) : Option (List Char) :=
  if (decode octets).all Option.isSome then some (fromUtf8Lossy octets)
  else none

theorem read_append (pending : Option Pending) (first second : List UInt8) :
    read pending (first ++ second) =
      ((read pending first).1 ++ (read (read pending first).2 second).1,
        (read (read pending first).2 second).2) := by
  induction first generalizing pending with
  | nil => simp [read]
  | cons _ _ induction => simp [read, induction]

variable {octets : List UInt8} {text : List Char}

/-- A character left open at the end shows up as a missing one. -/
theorem boundary_of_all_isSome (complete : (decode octets).all Option.isSome = true) :
    (read none octets).2 = none := by
  cases left : (read none octets).2 with
  | none => rfl
  | some => simp [decode, Reading.close, left] at complete

theorem fromUtf8_eq_some_iff :
    fromUtf8 octets = some text ↔ (decode octets).all Option.isSome = true ∧
        fromUtf8Lossy octets = text := by
  by_cases complete : (decode octets).all Option.isSome = true
  · simp [fromUtf8, complete]
  · simp only [fromUtf8, complete, Bool.false_eq_true, if_false, reduceCtorEq, false_and]

theorem fromUtf8Lossy_of_fromUtf8 (valid : fromUtf8 octets = some text) :
    fromUtf8Lossy octets = text :=
  (fromUtf8_eq_some_iff.mp valid).2

theorem fromUtf8Lossy_append {first : List UInt8} (valid : fromUtf8 first = some text)
    (second : List UInt8) : fromUtf8Lossy (first ++ second) = text ++ fromUtf8Lossy second := by
  obtain ⟨complete, rfl⟩ := fromUtf8_eq_some_iff.mp valid
  simp [fromUtf8Lossy, decode, Reading.close, read_append, boundary_of_all_isSome complete]

theorem forall₂_of_mapM (valid : pieces.mapM fromUtf8 = some texts) :
    List.Forall₂ (fun piece text => fromUtf8 piece = some text) pieces texts := by
  induction pieces generalizing texts with
  | nil =>
    obtain rfl : texts = [] := by simpa using valid.symm
    exact .nil
  | cons piece pieces induction =>
    obtain ⟨text, decoded, rest, decodedRest, rfl⟩ :
        ∃ text, fromUtf8 piece = some text ∧
          ∃ rest, pieces.mapM fromUtf8 = some rest ∧ text :: rest = texts := by
      simpa [Option.bind_eq_some_iff] using valid
    exact .cons decoded (induction decodedRest)

theorem fromUtf8Lossy_flatten (valid : List.Forall₂ (fun piece text => fromUtf8 piece = some text)
      pieces texts) : fromUtf8Lossy pieces.flatten = texts.flatten := by
  induction valid with
  | nil => rfl
  | cons decoded _ induction =>
    rw [List.flatten_cons, fromUtf8Lossy_append decoded, induction, List.flatten_cons]

example : fromUtf8 [0xE2, 0x82, 0xAC] = some ['€'] := by decide

example : fromUtf8Lossy [0xE2, 0x82] ++ fromUtf8Lossy [0xAC] =
    [replacement, replacement] := by decide

end Purser.Utf8Decoding
