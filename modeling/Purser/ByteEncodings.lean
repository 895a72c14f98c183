import Mathlib.Algebra.GroupWithZero.Nat
import Mathlib.Data.List.Basic
import Mathlib.Data.List.Sort
import Mathlib.Data.Int.Notation

/-!
# Byte encodings that can be read back

An encoding is prefix free when the value and what stands after it can be told
from any text that begins with it.
-/

namespace Purser.ByteEncodings

open List

abbrev Bytes := List UInt8

variable {Value Other : Type*}

/-- What begins with an encoding begins with no other one. -/
def PrefixFree (encode : Value → Bytes) : Prop := ∀ ⦃first second : Value⦄ ⦃rest others : Bytes⦄,
    encode first ++ rest = encode second ++ others → first = second ∧ rest = others

variable {encode : Value → Bytes}

theorem PrefixFree.comp (free : PrefixFree encode) {view : Other → Value}
    (injective : Function.Injective view) : PrefixFree (encode ∘ view) := by
  intro first second rest others same
  obtain ⟨sameView, sameRest⟩ := free same
  exact ⟨injective sameView, sameRest⟩

theorem PrefixFree.pair {encodeOther : Other → Bytes} (free : PrefixFree encode)
    (freeOther : PrefixFree encodeOther) :
    PrefixFree fun pair : Value × Other => encode pair.1 ++ encodeOther pair.2 := by
  intro first second rest others same
  simp only [append_assoc] at same
  obtain ⟨sameFirst, sameTail⟩ := free same
  obtain ⟨sameSecond, sameRest⟩ := freeOther sameTail
  exact ⟨Prod.ext sameFirst sameSecond, sameRest⟩

def uvarintWithin : ℕ → ℕ → Bytes
  | 0, _ => []
  | fuel + 1, value =>
    if value < 128 then [UInt8.ofNat value]
    else UInt8.ofNat (value % 128 + 128) :: uvarintWithin fuel (value / 128)

/-- Seven bits to a byte, the low ones first, every byte but the last with its
high bit set. -/
def uvarint (value : ℕ) : Bytes := uvarintWithin (value + 1) value

theorem uvarintWithin_eq {fuel : ℕ} : ∀ {other value : ℕ}, value < fuel → value < other →
    uvarintWithin fuel value = uvarintWithin other value := by
  induction fuel with
  | zero =>
    omega
  | succ fuel induction =>
    intro other value enough enoughOther
    obtain ⟨other, rfl⟩ : ∃ smaller, other = smaller + 1 := ⟨other - 1, by omega⟩
    simp only [uvarintWithin]
    split
    · rfl
    · have tail : uvarintWithin fuel (value / 128) = uvarintWithin other (value / 128) :=
        induction (by omega) (by omega)
      rw [tail]

theorem uvarint_eq (value : ℕ) : uvarint value =
      if value < 128 then [UInt8.ofNat value]
      else UInt8.ofNat (value % 128 + 128) :: uvarint (value / 128) := by
  rw [uvarint, uvarintWithin]
  split
  · rfl
  · rw [uvarint, uvarintWithin_eq (by omega) (Nat.lt_succ_self _)]

theorem toNat_ofNat {value : ℕ} (small : value < 256) : (UInt8.ofNat value).toNat = value := by
  rw [UInt8.toNat_ofNat']
  omega

theorem ofNat_inj {first second : ℕ} (firstSmall : first < 256) (secondSmall : second < 256)
    (same : UInt8.ofNat first = UInt8.ofNat second) : first = second := by
  have sameValue := congrArg UInt8.toNat same
  rwa [toNat_ofNat firstSmall, toNat_ofNat secondSmall] at sameValue

theorem prefixFree_uvarint : PrefixFree uvarint := by
  intro first
  -- The high bit of the byte in front tells whether the number goes on.
  induction first using Nat.strongRecOn with
  | ind first induction =>
    intro second rest others same
    rw [uvarint_eq first, uvarint_eq second] at same
    split at same <;> split at same <;>
      simp only [cons_append, nil_append, List.cons.injEq] at same
    · exact ⟨ofNat_inj (by omega) (by omega) same.1, same.2⟩
    · have := ofNat_inj (by omega) (by omega) same.1
      omega
    · have := ofNat_inj (by omega) (by omega) same.1
      omega
    · obtain ⟨sameByte, sameTail⟩ := same
      have low := ofNat_inj (by omega) (by omega) sameByte
      obtain ⟨high, sameRest⟩ := induction (first / 128) (by omega) sameTail
      exact ⟨by omega, sameRest⟩

/-- Non-negative numbers are even, negative ones odd. -/
def zigzag : ℤ → ℕ
  | .ofNat value => 2 * value
  | .negSucc value => 2 * value + 1

theorem zigzag_injective : Function.Injective zigzag := by
  intro first second same
  cases first <;> cases second <;> simp only [zigzag] at same
  · congr 1
    omega
  · omega
  · omega
  · omega

def varint (value : ℤ) : Bytes := uvarint (zigzag value)

theorem prefixFree_varint : PrefixFree varint := prefixFree_uvarint.comp zigzag_injective

def lengthPrefixed (bytes : Bytes) : Bytes := uvarint bytes.length ++ bytes

theorem prefixFree_lengthPrefixed : PrefixFree lengthPrefixed := by
  intro first second rest others same
  simp only [lengthPrefixed, append_assoc] at same
  obtain ⟨sameLength, sameTail⟩ := prefixFree_uvarint same
  exact append_inj sameTail sameLength

/-- A list whose length is known in front is read item by item. -/
theorem flatMap_inj (free : PrefixFree encode) :
    ∀ {first second : List Value} {rest others : Bytes}, first.length = second.length →
      first.flatMap encode ++ rest = second.flatMap encode ++ others →
      first = second ∧ rest = others
  | [], [], _, _, _, same => ⟨rfl, by simpa using same⟩
  | [], _ :: _, _, _, sameLength, _ | _ :: _, [], _, _, sameLength, _ => by simp at sameLength
  | item :: items, other :: _, _, _, sameLength, same => by
      simp only [flatMap_cons, append_assoc] at same
      obtain ⟨sameItem, sameTail⟩ := free same
      obtain ⟨sameItems, sameRest⟩ := flatMap_inj free (by simpa using sameLength) sameTail
      exact ⟨by rw [sameItem, sameItems], sameRest⟩

/-- The last bytes of a number, the high one first. -/
def bigEndian : ℕ → ℕ → Bytes
  | 0, _ => []
  | width + 1, value => bigEndian width (value / 256) ++ [UInt8.ofNat value]

@[simp]
theorem length_bigEndian (width value : ℕ) : (bigEndian width value).length = width := by
  induction width generalizing value with
  | zero => rfl
  | succ _ induction => simp [bigEndian, induction]

theorem bigEndian_inj {width : ℕ} : ∀ {first second : ℕ}, first < 256 ^ width →
    second < 256 ^ width → bigEndian width first = bigEndian width second → first = second := by
  induction width with
  | zero =>
    omega
  | succ _ induction =>
    intro first second firstSmall secondSmall same
    obtain ⟨sameHigh, sameLow⟩ := append_inj' same rfl
    have high := induction (by omega) (by omega) sameHigh
    have low := congrArg UInt8.toNat (List.cons.inj sameLow).1
    rw [UInt8.toNat_ofNat', UInt8.toNat_ofNat'] at low
    omega

/-- The order of a dictionary. -/
def bytesLE : Bytes → Bytes → Bool
  | [], _ => true
  | _ :: _, [] => false
  | first :: firsts, second :: seconds =>
    first < second || (first = second && bytesLE firsts seconds)

theorem bytesLE_total : ∀ first second : Bytes,
    bytesLE first second = true ∨ bytesLE second first = true
  | [], _ => Or.inl rfl
  | _ :: _, [] => Or.inr rfl
  | first :: firsts, second :: seconds => by
      have rest := bytesLE_total firsts seconds
      simp only [bytesLE, Bool.or_eq_true, Bool.and_eq_true, decide_eq_true_eq]
      rcases lt_trichotomy first.toNat second.toNat with less | same | more
      · exact Or.inl (Or.inl less)
      · have equal : first = second := UInt8.toNat_inj.mp same
        rcases rest with below | above
        · exact Or.inl (Or.inr ⟨equal, below⟩)
        · exact Or.inr (Or.inr ⟨equal.symm, above⟩)
      · exact Or.inr (Or.inl more)

theorem bytesLE_antisymm : ∀ {first second : Bytes}, bytesLE first second = true →
    bytesLE second first = true → first = second
  | [], [], _, _ => rfl
  | [], _ :: _, _, above => by simp [bytesLE] at above
  | _ :: _, [], below, _ => by simp [bytesLE] at below
  | first :: firsts, second :: seconds, below, above => by
      simp only [bytesLE, Bool.or_eq_true, Bool.and_eq_true, decide_eq_true_eq] at below above
      rcases below with less | ⟨rfl, below⟩
      · rcases above with more | ⟨same, -⟩
        · exact absurd (UInt8.lt_trans less more) (UInt8.lt_irrefl _)
        · rw [same] at less
          exact absurd less (UInt8.lt_irrefl _)
      · rcases above with more | ⟨-, above⟩
        · exact absurd more (UInt8.lt_irrefl _)
        · rw [bytesLE_antisymm below above]

theorem bytesLE_trans : ∀ {first second third : Bytes}, bytesLE first second = true →
    bytesLE second third = true → bytesLE first third = true
  | [], _, _, _, _ => rfl
  | _ :: _, [], _, below, _ => by simp [bytesLE] at below
  | _ :: _, _ :: _, [], _, above => by simp [bytesLE] at above
  | first :: firsts, second :: seconds, third :: thirds, below, above => by
      simp only [bytesLE, Bool.or_eq_true, Bool.and_eq_true, decide_eq_true_eq] at below above ⊢
      rcases below with less | ⟨rfl, below⟩
      · rcases above with more | ⟨rfl, -⟩
        · exact Or.inl (UInt8.lt_trans less more)
        · exact Or.inl less
      · rcases above with more | ⟨rfl, above⟩
        · exact Or.inl more
        · exact Or.inr ⟨rfl, bytesLE_trans below above⟩

def sortBytes (strings : List Bytes) : List Bytes :=
  strings.insertionSort fun first second => bytesLE first second = true

theorem perm_sortBytes (strings : List Bytes) : (sortBytes strings).Perm strings :=
  perm_insertionSort _ _

theorem sortBytes_eq_of_perm {strings others : List Bytes} (perm : strings.Perm others) :
    sortBytes strings = sortBytes others := by
  have total : Std.Total fun first second : Bytes => bytesLE first second = true := ⟨bytesLE_total⟩
  have transitive : IsTrans Bytes fun first second => bytesLE first second = true :=
    ⟨fun _ _ _ => bytesLE_trans⟩
  refine List.Perm.eq_of_pairwise (fun _ _ _ _ => bytesLE_antisymm)
    (pairwise_insertionSort _ _) (pairwise_insertionSort _ _) ?_
  exact (perm_sortBytes strings).trans (perm.trans (perm_sortBytes others).symm)

def hexDigit (value : ℕ) : UInt8 :=
  if value < 10 then UInt8.ofNat (48 + value) else UInt8.ofNat (87 + value)

def hexEncode (bytes : Bytes) : Bytes :=
  bytes.flatMap fun byte => [hexDigit (byte.toNat / 16), hexDigit (byte.toNat % 16)]

def hexValue (digit : UInt8) : Option ℕ :=
  let code := digit.toNat
  if 48 ≤ code ∧ code ≤ 57 then some (code - 48)
  else if 97 ≤ code ∧ code ≤ 102 then some (code - 87)
  else if 65 ≤ code ∧ code ≤ 70 then some (code - 55)
  else none

/-- What is wrong with a text that is not made of pairs of digits. -/
inductive HexProblem
  | invalidByte (byte : UInt8)
  | oddLength

def hexRead : Bytes → Bytes × Option HexProblem
  | high :: low :: rest =>
    match hexValue high, hexValue low with
    | none, _ => ([], some (.invalidByte high))
    | some _, none => ([], some (.invalidByte low))
    | some upper, some lower =>
      let (bytes, problem) := hexRead rest
      (UInt8.ofNat (upper * 16 + lower) :: bytes, problem)
  | [last] =>
    match hexValue last with
    | none => ([], some (.invalidByte last))
    | some _ => ([], some .oddLength)
  | [] => ([], none)

theorem hexValue_hexDigit {value : ℕ} (small : value < 16) :
    hexValue (hexDigit value) = some value := by
  have all : ∀ digit : Fin 16, hexValue (hexDigit digit) = some digit.val := by decide
  exact all ⟨value, small⟩

theorem hexRead_hexEncode (bytes : Bytes) : hexRead (hexEncode bytes) = (bytes, none) := by
  induction bytes with
  | nil => rfl
  | cons byte bytes induction =>
    have small : byte.toNat < 256 := byte.toNat_lt
    have pair : hexEncode (byte :: bytes) =
        hexDigit (byte.toNat / 16) :: hexDigit (byte.toNat % 16) :: hexEncode bytes := rfl
    rw [pair, hexRead, hexValue_hexDigit (by omega), hexValue_hexDigit (by omega), induction]
    have whole : byte.toNat / 16 * 16 + byte.toNat % 16 = byte.toNat := by omega
    simp only [whole, UInt8.ofNat_toNat]

theorem hexEncode_injective : Function.Injective hexEncode := by
  intro first second same
  have read : hexRead (hexEncode first) = hexRead (hexEncode second) := by rw [same]
  rw [hexRead_hexEncode, hexRead_hexEncode] at read
  exact (Prod.mk.inj read).1

@[simp]
theorem length_hexEncode (bytes : Bytes) : (hexEncode bytes).length = 2 * bytes.length := by
  induction bytes with
  | nil => rfl
  | cons byte bytes induction =>
    have pair : hexEncode (byte :: bytes) =
        hexDigit (byte.toNat / 16) :: hexDigit (byte.toNat % 16) :: hexEncode bytes := rfl
    rw [pair, length_cons, length_cons, length_cons]
    omega

end Purser.ByteEncodings
