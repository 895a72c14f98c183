import Purser.ByteEncodings
import Purser.RuneReading

/-!
# JSON in byte strings

The scanner accepts what the standard decoder of the source's language
accepts.  A value keeps the text of its numbers, words and strings, so that it
can be written again without blanks.
-/

namespace Purser.JsonScanning

open ByteEncodings

def sign (c : Char) : UInt8 := UInt8.ofNat c.toNat

def word (literal : String) : Bytes := literal.toList.map sign

inductive Value
  /-- A number, or one of the words for true, false and nothing. -/
  | literal (text : Bytes)
  /-- What stands between the quotes. -/
  | string (raw : Bytes)
  | array (items : List Value)
  | object (fields : List (Bytes × Value))

def isBlank (byte : UInt8) : Bool :=
  byte = sign ' ' || byte = sign '\t' || byte = sign '\r' || byte = sign '\n'

def skipBlanks (bytes : Bytes) : Bytes := bytes.dropWhile isBlank

def isDigit (byte : UInt8) : Bool := 48 ≤ byte.toNat && byte.toNat ≤ 57

def scanString : ℕ → Bytes → Option (Bytes × Bytes)
  | 0, _ => none
  | _ + 1, [] => none
  | fuel + 1, byte :: rest =>
    if byte = sign '"' then some ([], rest)
    else if byte = sign '\\' then
      match rest with
      | [] => none
      | escape :: rest =>
        if escape = sign 'u' then
          if rest.length < 4 ∨ (rest.take 4).all (fun digit => (hexValue digit).isSome) = false
          then none
          else
            (scanString fuel (rest.drop 4)).map fun (text, rest') =>
              (byte :: escape :: rest.take 4 ++ text, rest')
        else if escape ∈ word "bfnrt\\/\"" then
          (scanString fuel rest).map fun (text, rest) => (byte :: escape :: text, rest)
        else none
    else if byte.toNat < 32 then none
    else (scanString fuel rest).map fun (text, rest) => (byte :: text, rest)

def scanPart (markers signs : Bytes) : Bytes → Option (Bytes × Bytes)
  | [] => some ([], [])
  | marker :: rest =>
    if marker ∈ markers then
      let front := (rest.take 1).filter fun byte => byte ∈ signs
      let digits := (rest.drop front.length).takeWhile isDigit
      if digits = [] then none
      else some (marker :: front ++ digits, rest.drop (front.length + digits.length))
    else some ([], marker :: rest)

def scanNumber (bytes : Bytes) : Option (Bytes × Bytes) := do
  let minus := bytes.take 1 |>.filter (· = sign '-')
  let unsigned := bytes.drop minus.length
  let digits := unsigned.takeWhile isDigit
  if digits = [] then none
  else
    -- A zero in front ends the whole part.
    let whole := if digits.head? = some (sign '0') then digits.take 1 else digits
    let (fraction, rest) ← scanPart (word ".") [] (unsigned.drop whole.length)
    let (exponent, rest) ← scanPart (word "eE") (word "+-") rest
    some (minus ++ whole ++ fraction ++ exponent, rest)

def scanWord (text : Bytes) (bytes : Bytes) : Option (Value × Bytes) :=
  if text.isPrefixOf bytes then some (.literal text, bytes.drop text.length) else none

mutual

def scanValue (depth : ℕ) : ℕ → Bytes → Option (Value × Bytes)
  | 0, _ => none
  | fuel + 1, bytes =>
    match skipBlanks bytes with
    | [] => none
    | byte :: rest =>
      if byte = sign '"' then
        (scanString (rest.length + 1) rest).map fun (text, rest) => (.string text, rest)
      else if byte = sign '[' then
        if depth = 0 then none
        else if (skipBlanks rest).head? = some (sign ']') then
          some (.array [], (skipBlanks rest).tail)
        else
          (scanItems (depth - 1) fuel rest).map fun (items, rest) => (.array items, rest)
      else if byte = sign '\x7b' then
        if depth = 0 then none
        else if (skipBlanks rest).head? = some (sign '\x7d') then
          some (.object [], (skipBlanks rest).tail)
        else
          (scanFields (depth - 1) fuel rest).map fun (fields, rest) => (.object fields, rest)
      else if byte = sign 't' then scanWord (word "true") (byte :: rest)
      else if byte = sign 'f' then scanWord (word "false") (byte :: rest)
      else if byte = sign 'n' then scanWord (word "null") (byte :: rest)
      else (scanNumber (byte :: rest)).map fun (text, rest) => (.literal text, rest)

def scanItems (depth : ℕ) : ℕ → Bytes → Option (List Value × Bytes)
  | 0, _ => none
  | fuel + 1, bytes => do
      let (item, rest) ← scanValue depth fuel bytes
      match skipBlanks rest with
      | [] => none
      | mark :: rest =>
        if mark = sign ',' then
          (scanItems depth fuel rest).map fun (items, rest) => (item :: items, rest)
        else if mark = sign ']' then some ([item], rest)
        else none

def scanFields (depth : ℕ) : ℕ → Bytes → Option (List (Bytes × Value) × Bytes)
  | 0, _ => none
  | fuel + 1, bytes =>
    match skipBlanks bytes with
    | [] => none
    | quote :: rest =>
      if quote ≠ sign '"' then none
      else do
        let (key, rest) ← scanString (rest.length + 1) rest
        match skipBlanks rest with
        | [] => none
        | colon :: rest =>
          if colon ≠ sign ':' then none
          else do
            let (value, rest) ← scanValue depth fuel rest
            match skipBlanks rest with
            | [] => none
            | mark :: rest =>
              if mark = sign ',' then
                (scanFields depth fuel rest).map fun (fields, rest) =>
                  ((key, value) :: fields, rest)
              else if mark = sign '\x7d' then some ([(key, value)], rest)
              else none

end

def maxNestingDepth : ℕ := 10000

def scan (bytes : Bytes) : Option Value := do
  let (value, rest) ← scanValue maxNestingDepth (2 * bytes.length + 2) bytes
  if skipBlanks rest = [] then some value else none

def quote (raw : Bytes) : Bytes := sign '"' :: raw ++ [sign '"']

mutual

def Value.compact : Value → Bytes
  | .literal text => text
  | .string raw => quote raw
  | .array items => sign '[' :: compactItems items ++ [sign ']']
  | .object fields => sign '\x7b' :: compactFields fields ++ [sign '\x7d']

def compactItems : List Value → Bytes
  | [] => []
  | [item] => item.compact
  | item :: items => item.compact ++ sign ',' :: compactItems items

def compactFields : List (Bytes × Value) → Bytes
  | [] => []
  | [(key, value)] => quote key ++ sign ':' :: value.compact
  | (key, value) :: fields =>
    quote key ++ sign ':' :: value.compact ++ sign ',' :: compactFields fields

end

def replacement : Bytes := String.utf8EncodeChar (Char.ofNat 0xFFFD)

def unicodeEscape (raw : Bytes) : Option ℕ :=
  if raw.take 2 = word "\\u" ∧ (raw.drop 2).length ≥ 4 then
    (((raw.drop 2).take 4).mapM hexValue).map fun digits =>
      digits.foldl (fun value digit => value * 16 + digit) 0
  else none

def simpleEscape (byte : UInt8) : UInt8 :=
  if byte = sign 'b' then 8
  else if byte = sign 'f' then 12
  else if byte = sign 'n' then 10
  else if byte = sign 'r' then 13
  else if byte = sign 't' then 9
  else byte

def unquoteWithin : ℕ → Bytes → Bytes
  | 0, _ => []
  | _ + 1, [] => []
  | fuel + 1, byte :: rest =>
    if byte = sign '\\' then
      match unicodeEscape (byte :: rest) with
      | some code =>
        let after := (byte :: rest).drop 6
        if code < 0xD800 ∨ 0xE000 ≤ code then
          String.utf8EncodeChar (Char.ofNat code) ++ unquoteWithin fuel after
        else
          -- The first half of a pair is read together with the second.
          match unicodeEscape after with
          | some low =>
            if code < 0xDC00 ∧ 0xDC00 ≤ low ∧ low < 0xE000 then
              String.utf8EncodeChar
                  (Char.ofNat (0x10000 + (code - 0xD800) * 0x400 + (low - 0xDC00))) ++
                unquoteWithin fuel (after.drop 6)
            else replacement ++ unquoteWithin fuel after
          | none => replacement ++ unquoteWithin fuel after
      | none =>
        match rest with
        | [] => []
        | escape :: rest => simpleEscape escape :: unquoteWithin fuel rest
    else
      match RuneReading.front (byte :: rest) with
      | some (_, length) =>
        (byte :: rest).take length ++ unquoteWithin fuel ((byte :: rest).drop length)
      | none => replacement ++ unquoteWithin fuel rest

/-- The text that stands between the quotes of a string. -/
def unquote (raw : Bytes) : Bytes := unquoteWithin raw.length raw

example : (scan (word " \x7b \"a\" : [ 1.50 , null ] \x7d ")).map Value.compact =
    some (word "\x7b\"a\":[1.50,null]\x7d") := by
  decide +kernel

example : unquote (word "x\\u00e8\\n" ++ [0xC3]) = [120, 0xC3, 0xA8, 10, 0xEF, 0xBF, 0xBD] := by
  decide +kernel

end Purser.JsonScanning
