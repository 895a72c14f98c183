import Mathlib.Algebra.Ring.Nat
import Mathlib.Data.List.TakeWhile

/-!
# Socket addresses as text

The textual form of addresses in the Rust standard library.  A literal address
is an IPv4 or IPv6 address with a port; a host name is not one.
-/

namespace Purser.SocketAddresses

open List

inductive IpAddr where
  | v4 (address : BitVec 32)
  | v6 (address : BitVec 128)
  deriving DecidableEq

def IpAddr.isUnspecified : IpAddr → Bool
  | .v4 address => address = 0
  | .v6 address => address = 0

structure SocketAddr where
  ip : IpAddr
  port : ℕ
  deriving DecidableEq

def digitValue (c : Char) : Option ℕ :=
  if '0' ≤ c ∧ c ≤ '9' then some (c.toNat - '0'.toNat)
  else if 'a' ≤ c ∧ c ≤ 'z' then some (c.toNat - 'a'.toNat + 10)
  else if 'A' ≤ c ∧ c ≤ 'Z' then some (c.toNat - 'A'.toNat + 10)
  else none

def isDigit (radix : ℕ) (c : Char) : Bool :=
  match digitValue c with
  | some value => value < radix
  | none => false

def digitsValue (radix : ℕ) (digits : List Char) : ℕ :=
  digits.foldl (fun value c => value * radix + (digitValue c).getD 0) 0

def readNumber (radix bound : ℕ) (maxDigits : Option ℕ) (allowZeroPrefix : Bool)
    (input : List Char) : Option (ℕ × List Char) :=
  let digits := input.takeWhile (isDigit radix)
  let value := digitsValue radix digits
  let tooLong := maxDigits.any (· < digits.length)
  let zeroPrefixed := digits.head? == some '0' && decide (1 < digits.length)
  if digits = [] ∨ tooLong ∨ (zeroPrefixed && !allowZeroPrefix) ∨ bound ≤ value then
    none
  else some (value, input.drop digits.length)

def readGiven (c : Char) : List Char → Option (List Char)
  | [] => none
  | first :: rest => if first = c then some rest else none

def readSeparated {Item : Type} (separator : Char) (first : Bool)
    (read : List Char → Option (Item × List Char)) (input : List Char) :
    Option (Item × List Char) :=
  if first then read input else (readGiven separator input).bind read

def readOctets : ℕ → ℕ → List Char → Option (ℕ × List Char)
  | 0, value, input => some (value, input)
  | remaining + 1, value, input => do
      let (octet, rest) ← readSeparated '.' (remaining = 3) (readNumber 10 256 (some 3) false) input
      readOctets remaining (value * 256 + octet) rest

def readIPv4 (input : List Char) : Option (ℕ × List Char) := readOctets 4 0 input

def readGroups (first : Bool) : ℕ → List Char → List ℕ × Bool × List Char
  | 0, input => ([], false, input)
  | remaining + 1, input =>
    let embedded :=
      if remaining = 0 then none else readSeparated ':' first readIPv4 input
    match embedded with
    | some (address, rest) => ([address / 2 ^ 16, address % 2 ^ 16], true, rest)
    | none =>
      match readSeparated ':' first (readNumber 16 (2 ^ 16) (some 4) true) input with
      | none => ([], false, input)
      | some (group, rest) =>
        let (groups, endsInIPv4, rest) := readGroups false remaining rest
        (group :: groups, endsInIPv4, rest)

def joinGroups (groups : List ℕ) : BitVec 128 :=
  BitVec.ofNat 128 (groups.foldl (fun value group => value * 2 ^ 16 + group) 0)

def readIPv6 (input : List Char) : Option (BitVec 128 × List Char) :=
  let (head, headIPv4, rest) := readGroups true 8 input
  if head.length = 8 then some (joinGroups head, rest)
  else if headIPv4 then none
  else do
    let rest ← readGiven ':' rest
    let rest ← readGiven ':' rest
    -- the two colons stand for at least one group of zeroes
    let (tail, _, rest) := readGroups true (8 - (head.length + 1)) rest
    let zeroes := List.replicate (8 - head.length - tail.length) 0
    return (joinGroups (head ++ zeroes ++ tail), rest)

def readPort (input : List Char) : Option (ℕ × List Char) :=
  (readGiven ':' input).bind (readNumber 10 (2 ^ 16) none true)

def readSocketAddrV4 (input : List Char) : Option (SocketAddr × List Char) := do
  let (address, rest) ← readIPv4 input
  let (port, rest) ← readPort rest
  return (⟨.v4 (BitVec.ofNat 32 address), port⟩, rest)

/-- The scope of an IPv6 address is read and not kept. -/
def readSocketAddrV6 (input : List Char) : Option (SocketAddr × List Char) := do
  let rest ← readGiven '[' input
  let (address, rest) ← readIPv6 rest
  let rest := match (readGiven '%' rest).bind (readNumber 10 (2 ^ 32) none true) with
    | some (_, rest) => rest
    | none => rest
  let rest ← readGiven ']' rest
  let (port, rest) ← readPort rest
  return (⟨.v6 address, port⟩, rest)

def parseSocketAddr (text : String) : Option SocketAddr :=
  match (readSocketAddrV4 text.toList).or (readSocketAddrV6 text.toList) with
  | some (addr, []) => some addr
  | _ => none

def ipv4Text (address : BitVec 32) : String :=
  String.intercalate "." ([24, 16, 8, 0].map fun shift =>
    toString ((address.toNat >>> shift) % 256))

def segments (address : BitVec 128) : List ℕ :=
  [112, 96, 80, 64, 48, 32, 16, 0].map fun shift =>
    (address.toNat >>> shift) % 2 ^ 16

def longestZeroes (groups : List ℕ) : ℕ × ℕ :=
  (groups.zipIdx.foldl (fun (state : (ℕ × ℕ) × ℕ × ℕ) group =>
    let (longest, current) := state
    if group.1 = 0 then
      let current := if current.2 = 0 then (group.2, 1) else (current.1, current.2 + 1)
      (if longest.2 < current.2 then current else longest, current)
    else (longest, 0, 0)) ((0, 0), 0, 0)).1

def hexText (group : ℕ) : String := String.ofList (Nat.toDigits 16 group)

def ipv6Text (address : BitVec 128) : String :=
  let groups := segments address
  if groups.take 6 = [0, 0, 0, 0, 0, 2 ^ 16 - 1] then
    "::ffff:" ++ ipv4Text (address.truncate 32)
  else
    let (start, length) := longestZeroes groups
    if 1 < length then
      String.intercalate ":" ((groups.take start).map hexText) ++ "::" ++
        String.intercalate ":" ((groups.drop (start + length)).map hexText)
    else String.intercalate ":" (groups.map hexText)

def IpAddr.text : IpAddr → String
  | .v4 address => ipv4Text address
  | .v6 address => ipv6Text address

example : parseSocketAddr "[fe80::1%3]:80" =
    some ⟨.v6 0xfe800000000000000000000000000001, 80⟩ := by decide +kernel

example : (IpAddr.v6 0xfe800000000000000000000000000001).text = "fe80::1" := by
  decide +kernel

theorem digitValue_digitChar {value : ℕ} (small : value < 10) :
    digitValue value.digitChar = some value := by
  have all : ∀ value < 10, digitValue value.digitChar = some value := by decide
  exact all value small

theorem toDigits_digits (number : ℕ) : ∀ c ∈ Nat.toDigits 10 number, isDigit 10 c = true := by
  induction number using Nat.strongRecOn with
  | ind number induction =>
    intro c member
    have last : ∀ value < 10, isDigit 10 value.digitChar = true := by decide
    by_cases small : number < 10
    · rw [Nat.toDigits_of_lt_base small, mem_singleton] at member
      rw [member]
      exact last number small
    · rw [Nat.toDigits_of_base_le (by decide) (by omega), mem_append, mem_singleton] at member
      rcases member with member | rfl
      · exact induction (number / 10) (by omega) c member
      · exact last _ (Nat.mod_lt _ (by decide))

theorem digitsValue_toDigits (number : ℕ) : digitsValue 10 (Nat.toDigits 10 number) = number := by
  induction number using Nat.strongRecOn with
  | ind number induction =>
    by_cases small : number < 10
    · rw [Nat.toDigits_of_lt_base small]
      simp [digitsValue, digitValue_digitChar small]
    · have rest := induction (number / 10) (by omega)
      unfold digitsValue at rest ⊢
      rw [Nat.toDigits_of_base_le (by decide) (by omega), foldl_append,
        foldl_cons, foldl_nil,
        digitValue_digitChar (Nat.mod_lt _ (by decide)), Option.getD_some]
      omega

theorem readNumber_toDigits {number bound : ℕ} (below : number < bound) :
    readNumber 10 bound none true (Nat.toDigits 10 number) = some (number, []) := by
  have allDigits : (Nat.toDigits 10 number).takeWhile (isDigit 10) = Nat.toDigits 10 number :=
    takeWhile_eq_self_iff.mpr (toDigits_digits number)
  simp [readNumber, allDigits, digitsValue_toDigits, below]

theorem readNumber_zero {c : Char} (stop : isDigit 10 c = false) (rest : List Char) :
    readNumber 10 256 (some 3) false ('0' :: c :: rest) = some (0, c :: rest) := by
  have zero : isDigit 10 '0' = true := by decide
  have digits : ('0' :: c :: rest).takeWhile (isDigit 10) = ['0'] := by
    rw [takeWhile_cons_of_pos zero, takeWhile_cons_of_neg (by simp [stop])]
  simp [readNumber, digits, digitsValue, digitValue]

/-- The unspecified IPv4 address with a port is read as just that. -/
theorem parseSocketAddr_unspecified {port : ℕ} (below : port < 2 ^ 16) :
    parseSocketAddr ("0.0.0.0:" ++ toString port) = some ⟨.v4 0, port⟩ := by
  have chars : ("0.0.0.0:" ++ toString port).toList =
      ['0', '.', '0', '.', '0', '.', '0', ':'] ++ Nat.toDigits 10 port := by
    simp
  have address : readIPv4 (['0', '.', '0', '.', '0', '.', '0', ':'] ++
      Nat.toDigits 10 port) = some (0, ':' :: Nat.toDigits 10 port) := by
    have dot : isDigit 10 '.' = false := by decide
    have colon : isDigit 10 ':' = false := by decide
    simp [readIPv4, readOctets, readSeparated, readGiven, readNumber_zero dot,
      readNumber_zero colon]
  have socket : readSocketAddrV4 (['0', '.', '0', '.', '0', '.', '0', ':'] ++
      Nat.toDigits 10 port) = some (⟨.v4 0, port⟩, []) := by
    have portRead : readPort (':' :: Nat.toDigits 10 port) = some (port, []) :=
      readNumber_toDigits below
    simp only [readSocketAddrV4, address, Option.bind_eq_bind, Option.bind_some, portRead]
    rfl
  rw [parseSocketAddr, chars, socket]
  rfl

end Purser.SocketAddresses
