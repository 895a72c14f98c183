import Purser.GatewayTable
import Purser.PercentEncoding
import Mathlib.Data.List.TakeWhile

/-!
# Route calls over HTTP

Routes are written with a JSON body.  A deletion puts the identifier into the
path of a URL as it is, which the client and the gateway read.
-/

namespace Purser.Gateway

open PercentEncoding

def utf8Bytes (text : String) : List UInt8 := text.toByteArray.data.toList

def ofUtf8Bytes (bytes : List UInt8) : Option String := String.fromUTF8? ⟨bytes.toArray⟩

theorem ofUtf8Bytes_utf8Bytes (text : String) : ofUtf8Bytes (utf8Bytes text) = some text := by
  change String.fromUTF8? text.toByteArray = some text
  rw [String.fromUTF8?, dif_pos text.isValidUTF8]
  rfl

def numberSign : UInt8 := 0x23

def questionMark : UInt8 := 0x3F

def slash : UInt8 := 0x2F

def isControl (byte : UInt8) : Bool := byte < 0x20 ∨ byte = 0x7F

def pathSafe (byte : UInt8) : Bool := (0x30 ≤ byte ∧ byte ≤ 0x39) ∨ (0x41 ≤ byte ∧ byte ≤ 0x5A) ∨
    (0x61 ≤ byte ∧ byte ≤ 0x7A) ∨ byte ∈ utf8Bytes "-_.~$&+,/:;=@"

def validEncoded (path : List UInt8) : Bool :=
  path.all fun byte => pathSafe byte ∨ byte ∈ utf8Bytes "!'()*[]%"

/-- The path that the client sends for the end of a URL; what follows a question
mark or a number sign is not part of it.  A malformed end is refused. -/
def sentPath (ending : List UInt8) : Option (List UInt8) :=
  let url := ending.takeWhile (· ≠ numberSign)
  let fragment := (ending.dropWhile (· ≠ numberSign)).drop 1
  let path := url.takeWhile (· ≠ questionMark)
  if url.any isControl then none
  else
    (unescape fragment).bind fun _ =>
      (unescape path).map fun decoded =>
        if validEncoded path then path else escape pathSafe decoded

/-- The parameter of the route `/routes/{model_id}`. -/
def matchedModel (path : List UInt8) : Option String :=
  if path = [] ∨ slash ∈ path then none else ofUtf8Bytes (decode path)

def deleteTarget (modelID : String) : Option String :=
  (sentPath (utf8Bytes modelID)).bind matchedModel

def httpCalls : RouteCalls where
  upsert := putRoute
  delete modelID table :=
    match deleteTarget modelID with
    | some target => .ok (table.removeRoute target)
    | none => .error "the request is refused or matches no route"

/-- The identifier has no byte with a meaning of its own in a URL, apart from
slashes. -/
def IsPlain (modelID : String) : Prop := ∀ byte ∈ utf8Bytes modelID,
    byte ≠ numberSign ∧ byte ≠ questionMark ∧ byte ≠ percent

instance (modelID : String) : Decidable (IsPlain modelID) :=
  inferInstanceAs (Decidable (∀ _ ∈ _, _))

theorem decode_sentPath {ending : List UInt8} (plain : ∀ byte ∈ ending,
      byte ≠ numberSign ∧ byte ≠ questionMark ∧ byte ≠ percent) {path : List UInt8}
    (sent : sentPath ending = some path) : decode path = ending := by
  have noPercent : percent ∉ ending := fun member => (plain _ member).2.2 rfl
  have url : ending.takeWhile (· ≠ numberSign) = ending := by
    rw [List.takeWhile_eq_self_iff]
    intro byte member
    simpa using (plain byte member).1
  have whole : ending.takeWhile (· ≠ questionMark) = ending := by
    rw [List.takeWhile_eq_self_iff]
    intro byte member
    simpa using (plain byte member).2.1
  unfold sentPath at sent
  simp only [url, whole] at sent
  split at sent
  · cases sent
  · obtain ⟨_, -, sent⟩ := Option.bind_eq_some_iff.mp sent
    rw [unescape_of_plain noPercent] at sent
    obtain rfl := Option.some.inj sent
    split
    · exact decode_of_plain noPercent
    · exact decode_escape (by decide) ending

/-- The deletion of a plain identifier fails or removes its own route. -/
theorem deleteTarget_of_plain {modelID : String} (plain : IsPlain modelID) :
    deleteTarget modelID = none ∨ deleteTarget modelID = some modelID := by
  unfold deleteTarget
  cases sent : sentPath (utf8Bytes modelID) with
  | none => exact Or.inl rfl
  | some path =>
    change matchedModel path = none ∨ matchedModel path = some modelID
    unfold matchedModel
    split
    · exact Or.inl rfl
    · rw [decode_sentPath plain sent, ofUtf8Bytes_utf8Bytes]
      exact Or.inr rfl

/-- A space is escaped on the way, a question mark cuts the identifier off. -/
example : deleteTarget "my model" = some "my model" ∧
    deleteTarget "llama?q4" = some "llama" ∧ deleteTarget "a%2Fb" = some "a/b" ∧
    deleteTarget "a/b" = none := by
  decide +kernel

end Purser.Gateway
