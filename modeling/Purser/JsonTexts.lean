import Purser.TextFormatting

/-!
# JSON values

Objects keep one value for each key, in the order of their keys.  The reader accepts the texts of RFC 8259 down to a
nesting of 127 values; a number that is not a 64-bit integer keeps its
literal.
-/

namespace Purser.JsonTexts

open TextFormatting

inductive Number
  | unsigned (value : UInt64)
  | negative (value : Int64)
  | float (literal : List Char)

inductive Json
  | null
  | bool (value : Bool)
  | number (value : Number)
  | string (text : List Char)
  | array (items : List Json)
  | object (fields : List (List Char × Json))

namespace Json

def getField (key : List Char) : Json → Option Json
  | object fields => fields.lookup key
  | _ => none

def field (key : List Char) (value : Json) : Json := (value.getField key).getD null

def item (position : ℕ) : Json → Json
  | array items => items[position]?.getD null
  | _ => null

def asString : Json → Option (List Char)
  | string text => some text
  | _ => none

def asUnsigned : Json → Option UInt64
  | number (.unsigned value) => some value
  | _ => none

def asArray : Json → Option (List Json)
  | array items => some items
  | _ => none

def insertField (key : List Char) (value : Json) : List (List Char × Json) → List (List Char × Json)
  | [] => [(key, value)]
  | (other, old) :: rest =>
    if key = other then (key, value) :: rest
    else if key < other then (key, value) :: (other, old) :: rest
    else (other, old) :: insertField key value rest

/-- An object with the given fields; of two values for a key the later one
stays. -/
def ofFields (fields : List (List Char × Json)) : Json :=
  object (fields.foldl (fun sorted entry => insertField entry.1 entry.2 sorted) [])

end Json

def isBlank (c : Char) : Bool := c = ' ' || c = '\n' || c = '\t' || c = '\r'

variable (markers signs text : List Char)

def skipBlanks : List Char := text.dropWhile isBlank

def hexValue (c : Char) : Option ℕ :=
  if '0' ≤ c ∧ c ≤ '9' then some (c.toNat - '0'.toNat)
  else if 'a' ≤ c ∧ c ≤ 'f' then some (c.toNat - 'a'.toNat + 10)
  else if 'A' ≤ c ∧ c ≤ 'F' then some (c.toNat - 'A'.toNat + 10)
  else none

def readHex : Option (ℕ × List Char) :=
  match text with
  | a :: b :: c :: d :: rest => do
      let digits ← [a, b, c, d].mapM hexValue
      pure (digits.foldl (fun value digit => value * 16 + digit) 0, rest)
  | _ => none

def readUnicode : Option (Char × List Char) := do
  let (value, rest) ← readHex text
  if value < 0xD800 ∨ 0xE000 ≤ value then
    pure (Char.ofNat value, rest)
  else if 0xDC00 ≤ value then none
  else
    match rest with
    | '\\' :: 'u' :: second => do
        let (low, rest) ← readHex second
        if 0xDC00 ≤ low ∧ low < 0xE000 then
          pure (Char.ofNat (0x10000 + (value - 0xD800) * 0x400 + (low - 0xDC00)), rest)
        else none
    | _ => none

def simpleEscape (c : Char) : Option Char :=
  if c = '"' ∨ c = '\\' ∨ c = '/' then some c
  else if c = 'b' then some (Char.ofNat 8)
  else if c = 'f' then some (Char.ofNat 12)
  else if c = 'n' then some '\n'
  else if c = 'r' then some '\r'
  else if c = 't' then some '\t'
  else none

def readString : ℕ → List Char → Option (List Char × List Char)
  | 0, _ => none
  | _ + 1, [] => none
  | fuel + 1, c :: rest =>
    if c = '"' then some ([], rest)
    else if c = '\\' then
      match rest with
      | 'u' :: escape => do
          let (decoded, rest) ← readUnicode escape
          let (text, rest) ← readString fuel rest
          pure (decoded :: text, rest)
      | escape :: rest => do
          let decoded ← simpleEscape escape
          let (text, rest) ← readString fuel rest
          pure (decoded :: text, rest)
      | [] => none
    else if c.toNat < 32 then none
    else do
      let (text, rest) ← readString fuel rest
      pure (c :: text, rest)

def digitsValue (digits : List Char) : ℕ :=
  digits.foldl (fun value digit => value * 10 + (digit.toNat - '0'.toNat)) 0

def integer (minus : Bool) (digits : List Char) : Number :=
  let value := digitsValue digits
  if minus then
    if 0 < value ∧ value ≤ 2 ^ 63 then .negative (Int64.ofInt (-value))
    else .float ('-' :: digits)
  else if value < 2 ^ 64 then .unsigned (UInt64.ofNat value)
  else .float digits

def readPart : Option (List Char × List Char) :=
  match text with
  | [] => some ([], [])
  | marker :: rest =>
    if marker ∈ markers then
      let sign := (rest.take 1).filter fun c => c ∈ signs
      let digits := (rest.drop sign.length).takeWhile Char.isDigit
      if digits = [] then none
      else some (marker :: sign ++ digits, rest.drop (sign.length + digits.length))
    else some ([], text)

def readNumber : Option (Number × List Char) := do
  let minus := text.head? = some '-'
  let unsigned := if minus then text.drop 1 else text
  let digits := unsigned.takeWhile Char.isDigit
  if digits = [] ∨ (digits.head? = some '0' ∧ digits.length ≠ 1) then none
  else
    let (fraction, rest) ← readPart ['.'] [] (unsigned.drop digits.length)
    let (exponent, rest) ← readPart ['e', 'E'] ['+', '-'] rest
    if fraction = [] ∧ exponent = [] then
      pure (integer minus digits, rest)
    else
      pure (.float ((if minus then ['-'] else []) ++ digits ++ fraction ++ exponent), rest)

def readWord (word : List Char) (value : Json) (text : List Char) : Option (Json × List Char) :=
  if word.isPrefixOf text then some (value, text.drop word.length) else none

mutual

def readValue (depth : ℕ) : ℕ → List Char → Option (Json × List Char)
  | 0, _ => none
  | fuel + 1, text =>
    match skipBlanks text with
    | '"' :: rest => do
        let (text, rest) ← readString (rest.length + 1) rest
        pure (.string text, rest)
    | '[' :: rest =>
      if depth ≤ 1 then none
      else
        match skipBlanks rest with
        | ']' :: rest => some (.array [], rest)
        | _ => do
            let (items, rest) ← readItems (depth - 1) fuel rest
            pure (.array items, rest)
    | '\x7b' :: rest =>
      if depth ≤ 1 then none
      else
        match skipBlanks rest with
        | '\x7d' :: rest => some (.object [], rest)
        | _ => do
            let (fields, rest) ← readFields (depth - 1) fuel rest
            pure (.ofFields fields, rest)
    | 'n' :: rest => readWord ['u', 'l', 'l'] .null rest
    | 't' :: rest => readWord ['r', 'u', 'e'] (.bool true) rest
    | 'f' :: rest => readWord ['a', 'l', 's', 'e'] (.bool false) rest
    | other => do
        let (number, rest) ← readNumber other
        pure (.number number, rest)

def readItems (depth : ℕ) : ℕ → List Char → Option (List Json × List Char)
  | 0, _ => none
  | fuel + 1, text => do
      let (item, rest) ← readValue depth fuel text
      match skipBlanks rest with
      | ',' :: rest => do
          let (items, rest) ← readItems depth fuel rest
          pure (item :: items, rest)
      | ']' :: rest => pure ([item], rest)
      | _ => none

def readFields (depth : ℕ) : ℕ → List Char → Option (List (List Char × Json) × List Char)
  | 0, _ => none
  | fuel + 1, text =>
    match skipBlanks text with
    | '"' :: rest => do
        let (key, rest) ← readString (rest.length + 1) rest
        match skipBlanks rest with
        | ':' :: rest => do
            let (value, rest) ← readValue depth fuel rest
            match skipBlanks rest with
            | ',' :: rest => do
                let (fields, rest) ← readFields depth fuel rest
                pure ((key, value) :: fields, rest)
            | '\x7d' :: rest => pure ([(key, value)], rest)
            | _ => none
        | _ => none
    | _ => none

end

def fromStr (text : List Char) : Option Json := do
  let (value, rest) ← readValue 128 (2 * text.length + 2) text
  if skipBlanks rest = [] then pure value else none

end Purser.JsonTexts
