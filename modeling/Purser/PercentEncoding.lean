import Mathlib.Data.List.Basic

/-!
# Percent-encoded bytes

A strict reader refuses a percent sign without two digits after it, a lenient
one takes it literally.  Both read back what was written.
-/

namespace Purser.PercentEncoding

def percent : UInt8 := 0x25

def hexDigit (value : UInt8) : UInt8 :=
  if value < 10 then 0x30 + value else 0x37 + value

def hexValue (digit : UInt8) : Option UInt8 :=
  if 0x30 ≤ digit ∧ digit ≤ 0x39 then some (digit - 0x30)
  else if 0x41 ≤ digit ∧ digit ≤ 0x46 then some (digit - 0x37)
  else if 0x61 ≤ digit ∧ digit ≤ 0x66 then some (digit - 0x57)
  else none

def escapedByte (high low : UInt8) : Option UInt8 :=
  (hexValue high).bind fun upper =>
    (hexValue low).map fun lower => upper * 16 + lower

def escape (safe : UInt8 → Bool) (bytes : List UInt8) : List UInt8 :=
  bytes.flatMap fun byte =>
    if safe byte then [byte]
    else [percent, hexDigit (byte / 16), hexDigit (byte % 16)]

/-- The strict reader. -/
def unescape : List UInt8 → Option (List UInt8)
  | byte :: high :: low :: rest =>
    if byte = percent then
      (escapedByte high low).bind fun escaped =>
        (unescape rest).map (escaped :: ·)
    else (unescape (high :: low :: rest)).map (byte :: ·)
  | short => if percent ∈ short then none else some short

/-- The lenient reader. -/
def decode : List UInt8 → List UInt8
  | byte :: high :: low :: rest =>
    if byte = percent then
      match escapedByte high low with
      | some escaped => escaped :: decode rest
      | none => byte :: decode (high :: low :: rest)
    else byte :: decode (high :: low :: rest)
  | short => short

theorem hexValue_hexDigit {value : UInt8} (small : value.toNat < 16) :
    hexValue (hexDigit value) = some value := by
  have all : ∀ digit : Fin 16, hexValue (hexDigit (UInt8.ofNat digit)) =
      some (UInt8.ofNat digit) := by decide
  have result := all ⟨value.toNat, small⟩
  rwa [UInt8.ofNat_toNat] at result

theorem escapedByte_hexDigit (byte : UInt8) :
    escapedByte (hexDigit (byte / 16)) (hexDigit (byte % 16)) = some byte := by
  have bound := byte.toNat_lt
  have high : (byte / 16).toNat < 16 := by
    change byte.toNat / 16 < 16
    omega
  have low : (byte % 16).toNat < 16 := by
    exact Nat.mod_lt _ (by decide)
  have whole : byte / 16 * 16 + byte % 16 = byte := by
    apply UInt8.toNat_inj.mp
    change (byte.toNat / 16 * 16 % 256 + byte.toNat % 16) % 256 = byte.toNat
    omega
  rw [escapedByte, hexValue_hexDigit high, hexValue_hexDigit low]
  exact congrArg some whole

theorem decode_cons_of_ne {byte : UInt8} (plain : byte ≠ percent) (rest : List UInt8) :
    decode (byte :: rest) = byte :: decode rest := by
  rcases rest with _ | ⟨high, _ | ⟨low, later⟩⟩
  · rfl
  · rfl
  · rw [decode, if_neg plain]

theorem unescape_cons_of_ne {byte : UInt8} (plain : byte ≠ percent) (rest : List UInt8) :
    unescape (byte :: rest) = (unescape rest).map (byte :: ·) := by
  rcases rest with _ | ⟨high, _ | ⟨low, later⟩⟩
  · simp [unescape, Ne.symm plain]
  · by_cases second : percent = high <;> simp [unescape, Ne.symm plain, second]
  · rw [unescape, if_neg plain]

theorem decode_of_plain {bytes : List UInt8} (plain : percent ∉ bytes) : decode bytes = bytes := by
  induction bytes with
  | nil => rfl
  | cons _ _ induction =>
    rw [List.mem_cons, not_or] at plain
    rw [decode_cons_of_ne (Ne.symm plain.1), induction plain.2]

theorem unescape_of_plain {bytes : List UInt8} (plain : percent ∉ bytes) :
    unescape bytes = some bytes := by
  induction bytes with
  | nil => rfl
  | cons _ _ induction =>
    rw [List.mem_cons, not_or] at plain
    rw [unescape_cons_of_ne (Ne.symm plain.1), induction plain.2]
    rfl

theorem decode_escape {safe : UInt8 → Bool} (unsafePercent : safe percent = false)
    (bytes : List UInt8) : decode (escape safe bytes) = bytes := by
  induction bytes with
  | nil => rfl
  | cons byte rest induction =>
    rw [escape, List.flatMap_cons]
    change decode (_ ++ escape safe rest) = _
    by_cases isSafe : safe byte = true
    · have plain : byte ≠ percent := by
        rintro rfl
        rw [unsafePercent] at isSafe
        cases isSafe
      rw [if_pos isSafe, List.singleton_append, decode_cons_of_ne plain, induction]
    · rw [if_neg isSafe]
      change decode (percent :: hexDigit (byte / 16) :: hexDigit (byte % 16) ::
        escape safe rest) = _
      rw [decode, if_pos rfl, escapedByte_hexDigit byte]
      simp only [induction]

end Purser.PercentEncoding
