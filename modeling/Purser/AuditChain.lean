import Purser.HashChains
import Purser.ByteEncodings
import Purser.Sha256Digests
import Purser.KeyedStores
import Purser.RuneReading

/-!
# The audit chain

An entry carries the hash of the entry in front of it and its own hash, over
that hash and a canonical encoding of the content.  Sequence numbers and lengths
are natural numbers: no slice of the source is long enough for them to wrap.
-/

namespace Purser.Audit

open ByteEncodings HashChains KeyedStores RuneReading Sha256Digests List

abbrev Text := Bytes

def text (literal : String) : Text := literal.toUTF8.data.toList

abbrev StringMap := Store (Prod.fst : Text × Text → Text)

def StringMap.value (fields : StringMap) (key : Text) : Text :=
  ((fields.find key).map Prod.snd).getD []

def genesisPrevHash : Text := List.replicate 64 48

def firstSeq : ℕ := 1

def canonicalVersion : Text := text "purser.audit.v1"

structure Entry where
  seq : ℕ
  timeUnixNano : ℤ
  actor : Text
  action : Text
  target : Text
  /-- None for a map that was never made. -/
  details : Option StringMap
  prevHash : Text
  hash : Text

namespace Entry

def fields (entry : Entry) : StringMap := entry.details.getD Store.empty

def detail (entry : Entry) (key : Text) : Option Text := (entry.fields.find key).map Prod.snd

def sortedKeys (entry : Entry) : List Text := sortBytes (entry.fields.rows.map Prod.fst)

def canonicalBytes (entry : Entry) : Bytes :=
  lengthPrefixed canonicalVersion ++ uvarint entry.seq ++ varint entry.timeUnixNano ++
    lengthPrefixed entry.actor ++ lengthPrefixed entry.action ++ lengthPrefixed entry.target ++
    uvarint entry.sortedKeys.length ++ entry.sortedKeys.flatMap fun key =>
      lengthPrefixed key ++ lengthPrefixed (entry.fields.value key)

def message (entry : Entry) : Bytes := (hexRead entry.prevHash).1 ++ entry.canonicalBytes

def hexProblemText : HexProblem → String
  | .invalidByte byte =>
    "encoding/hex: invalid byte: U+00" ++ String.ofList [(Nat.digitChar (byte.toNat / 16)).toUpper,
        (Nat.digitChar (byte.toNat % 16)).toUpper] ++
      (if 32 ≤ byte.toNat ∧ byte.toNat < 127 ∨ 161 ≤ byte.toNat ∧ byte.toNat ≠ 173 then
        " '" ++ String.ofList [Char.ofNat byte.toNat] ++ "'" else "")
  | .oddLength => "encoding/hex: odd length hex string"

def computeHash (entry : Entry) : Except String Text :=
  match (hexRead entry.prevHash).2 with
  | some problem =>
    .error ("audit: invalid prev hash " ++ quotedBytes entry.prevHash ++ ": " ++
      hexProblemText problem)
  | none => .ok (hexEncode (digest entry.message))

/-- The same content and chain fields, whatever the order of the details and
whether an empty map was made for them. -/
structure Same (first second : Entry) : Prop where
  seq : first.seq = second.seq
  timeUnixNano : first.timeUnixNano = second.timeUnixNano
  actor : first.actor = second.actor
  action : first.action = second.action
  target : first.target = second.target
  detail : ∀ key, first.detail key = second.detail key
  prevHash : first.prevHash = second.prevHash
  hash : first.hash = second.hash

end Entry

inductive Kind
  | seq
  | link
  | hash

def Kind.text : Kind → String
  | .seq => "seq"
  | .link => "link"
  | .hash => "hash"

structure VerifyError where
  index : ℕ
  seq : ℕ
  kind : Kind
  msg : String

def VerifyError.error (problem : VerifyError) : String :=
  "audit: chain broken at index " ++ toString problem.index ++ " (seq " ++
    toString problem.seq ++ "): " ++ problem.kind.text ++ ": " ++ problem.msg

def verifyFrom : ℕ → Text → List Entry → Option VerifyError
  | _, _, [] => none
  | index, previous, entry :: entries =>
    let wantSeq := firstSeq + index
    if entry.seq ≠ wantSeq then
      some ⟨index, entry.seq, .seq,
        "expected seq " ++ toString wantSeq ++ ", got " ++ toString entry.seq⟩
    else if entry.prevHash ≠ previous then
      some ⟨index, entry.seq, .link,
        "prev hash " ++ quotedBytes entry.prevHash ++ " does not link to preceding hash " ++
          quotedBytes previous⟩
    else
      match entry.computeHash with
      | .error problem => some ⟨index, entry.seq, .hash, problem⟩
      | .ok want =>
        if entry.hash ≠ want then
          some ⟨index, entry.seq, .hash,
            "stored hash " ++ quotedBytes entry.hash ++ " does not match recomputed hash " ++
              quotedBytes want⟩
        else verifyFrom (index + 1) entry.hash entries

def verify (entries : List Entry) : Option VerifyError := verifyFrom 0 genesisPrevHash entries

structure Follows (index : ℕ) (previous : Text) (entry : Entry) : Prop where
  seq : entry.seq = firstSeq + index
  prevHash : entry.prevHash = previous
  hash : entry.computeHash = .ok entry.hash

variable {index : ℕ} {entries : List Entry} {entry first second : Entry}

theorem verifyFrom_eq_none_iff {previous : Text} : verifyFrom index previous entries = none ↔
      Chained Follows Entry.hash index previous entries := by
  induction entries generalizing index previous with
  | nil => simp [verifyFrom, Chained]
  | cons entry _ induction =>
    simp only [verifyFrom, Chained]
    by_cases rightSeq : entry.seq = firstSeq + index
    · rw [if_neg (not_not.mpr rightSeq)]
      by_cases rightLink : entry.prevHash = previous
      · rw [if_neg (not_not.mpr rightLink)]
        cases computed : entry.computeHash with
        | error =>
          simp only [reduceCtorEq, false_iff]
          rintro ⟨follows, -⟩
          rw [follows.hash] at computed
          cases computed
        | ok want =>
          by_cases rightHash : entry.hash = want
          · subst rightHash
            simp only [ne_eq, not_true_eq_false, if_false, induction]
            exact ⟨fun chained => ⟨⟨rightSeq, rightLink, computed⟩, chained⟩, And.right⟩
          · simp only [ne_eq, rightHash, not_false_eq_true, if_true, reduceCtorEq, false_iff]
            rintro ⟨follows, -⟩
            rw [follows.hash] at computed
            exact rightHash (Except.ok.inj computed)
      · rw [if_pos rightLink]
        simp only [reduceCtorEq, false_iff]
        exact fun chained => rightLink chained.1.prevHash
    · rw [if_pos rightSeq]
      simp only [reduceCtorEq, false_iff]
      exact fun chained => rightSeq chained.1.seq

theorem verify_eq_none_iff :
    verify entries = none ↔ Chained Follows Entry.hash 0 genesisPrevHash entries :=
  verifyFrom_eq_none_iff

def IsDigest (hash : Text) : Prop := ∃ bytes : Bytes, bytes.length = 32 ∧ hash = hexEncode bytes

theorem isDigest_genesis : IsDigest genesisPrevHash := ⟨List.replicate 32 0, by decide, by decide⟩

theorem Entry.computeHash_of_isDigest (previous : IsDigest entry.prevHash) :
    entry.computeHash = .ok (hexEncode (digest entry.message)) := by
  obtain ⟨bytes, -, same⟩ := previous
  simp [Entry.computeHash, same, hexRead_hexEncode]

theorem isDigest_of_computeHash {hash : Text} (computed : entry.computeHash = .ok hash) :
    IsDigest hash ∧ hash = hexEncode (digest entry.message) := by
  unfold Entry.computeHash at computed
  split at computed
  · cases computed
  · cases computed
    exact ⟨⟨_, length_digest _, rfl⟩, rfl⟩

theorem chained_isDigest {previous : Text} (start : IsDigest previous)
    (chained : Chained Follows Entry.hash index previous entries) :
    Chained (fun place before entry => Follows place before entry ∧ IsDigest before)
      Entry.hash index previous entries := by
  induction entries generalizing index previous with
  | nil => trivial
  | cons _ _ induction =>
    obtain ⟨follows, rest⟩ := chained
    exact ⟨⟨follows, start⟩, induction (isDigest_of_computeHash follows.hash).1 rest⟩

theorem Entry.detail_eq_some_iff {key value : Text} :
    entry.detail key = some value ↔ key ∈ entry.sortedKeys ∧ entry.fields.value key = value := by
  have perm := perm_sortBytes (entry.fields.rows.map Prod.fst)
  rw [Entry.sortedKeys, perm.mem_iff]
  cases found : entry.fields.find key with
  | none =>
    have absent := Store.find_eq_none_iff.mp found
    simp [Entry.detail, found, absent]
  | some row =>
    obtain ⟨member, rfl⟩ := Store.find_eq_some_iff.mp found
    have known : row.1 ∈ entry.fields.rows.map Prod.fst := mem_map_of_mem member
    simp [Entry.detail, StringMap.value, found, known]

theorem Entry.flatMap_sortedKeys (entry : Entry) :
    (entry.sortedKeys.flatMap fun key =>
      lengthPrefixed key ++ lengthPrefixed (entry.fields.value key)) =
      (entry.sortedKeys.map fun key => (key, entry.fields.value key)).flatMap
        fun field => lengthPrefixed field.1 ++ lengthPrefixed field.2 := by
  rw [flatMap_map]

theorem Entry.content_of_canonicalBytes (same : first.canonicalBytes = second.canonicalBytes) :
    first.seq = second.seq ∧ first.timeUnixNano = second.timeUnixNano ∧
      first.actor = second.actor ∧ first.action = second.action ∧
      first.target = second.target ∧ ∀ key, first.detail key = second.detail key := by
  simp only [Entry.canonicalBytes, append_assoc] at same
  obtain ⟨-, same⟩ := prefixFree_lengthPrefixed same
  obtain ⟨seq, same⟩ := prefixFree_uvarint same
  obtain ⟨time, same⟩ := prefixFree_varint same
  obtain ⟨actor, same⟩ := prefixFree_lengthPrefixed same
  obtain ⟨action, same⟩ := prefixFree_lengthPrefixed same
  obtain ⟨target, same⟩ := prefixFree_lengthPrefixed same
  obtain ⟨count, same⟩ := prefixFree_uvarint same
  rw [Entry.flatMap_sortedKeys, Entry.flatMap_sortedKeys] at same
  have longer := congrArg (· ++ ([] : Bytes)) same
  obtain ⟨fields, -⟩ := flatMap_inj (prefixFree_lengthPrefixed.pair prefixFree_lengthPrefixed)
    (by simpa using count) longer
  refine ⟨seq, time, actor, action, target, ?_⟩
  have keys : first.sortedKeys = second.sortedKeys := by
    have sameKeys := congrArg (List.map Prod.fst) fields
    simpa [Function.comp_def] using sameKeys
  rw [keys] at fields
  intro key
  apply Option.ext
  intro value
  rw [Entry.detail_eq_some_iff, Entry.detail_eq_some_iff, keys]
  refine and_congr_right fun member => ?_
  rw [(Prod.mk.inj (map_inj_left.mp fields key member)).2]

theorem Entry.same_of_message (firstPrevious : IsDigest first.prevHash)
    (secondPrevious : IsDigest second.prevHash) (sameHash : first.hash = second.hash)
    (same : first.message = second.message) : first.Same second := by
  obtain ⟨firstBytes, firstLength, firstText⟩ := firstPrevious
  obtain ⟨secondBytes, secondLength, secondText⟩ := secondPrevious
  simp only [Entry.message, firstText, secondText, hexRead_hexEncode] at same
  obtain ⟨sameBytes, sameContent⟩ := append_inj same (firstLength.trans secondLength.symm)
  obtain ⟨seq, time, actor, action, target, detail⟩ := Entry.content_of_canonicalBytes sameContent
  exact ⟨seq, time, actor, action, target, detail,
    by rw [firstText, secondText, sameBytes], sameHash⟩

theorem Entry.sortedKeys_eq_of_detail (same : ∀ key, first.detail key = second.detail key) :
    first.sortedKeys = second.sortedKeys := by
  refine sortBytes_eq_of_perm ?_
  rw [perm_ext_iff_of_nodup first.fields.unique second.fields.unique]
  have mem_iff (entry : Entry) (key : Text) :
      key ∈ entry.fields.rows.map Prod.fst ↔ (entry.detail key).isSome := by
    rw [Entry.detail, ← not_iff_not, ← Store.find_eq_none_iff]
    simp
  intro key
  rw [mem_iff, mem_iff, same key]

/-- Accepted lists with one last hash are of one length and agree entry by entry,
unless two messages that were hashed for them collide. -/
theorem verify_tip_binds {firsts seconds : List Entry} {first second : Entry}
    (free : CollisionFree (firsts.map Entry.message ++ seconds.map Entry.message))
    (firstVerified : verify firsts = none) (secondVerified : verify seconds = none)
    (firstLast : firsts.getLast? = some first) (secondLast : seconds.getLast? = some second)
    (sameHash : first.hash = second.hash) :
    firsts.length = seconds.length ∧ List.Forall₂ Entry.Same firsts seconds := by
  have firstChained := chained_isDigest isDigest_genesis (verify_eq_none_iff.mp firstVerified)
  have secondChained := chained_isDigest isDigest_genesis (verify_eq_none_iff.mp secondVerified)
  have agree : List.Forall₂ Entry.Same firsts seconds := by
    refine forall₂_of_getLast_eq ?_ firstChained secondChained firstLast secondLast sameHash
    rintro place other before otherBefore first second firstMember secondMember
      ⟨firstFollows, firstDigest⟩ ⟨secondFollows, secondDigest⟩ sameHash
    have firstHash := (isDigest_of_computeHash firstFollows.hash).2
    have secondHash := (isDigest_of_computeHash secondFollows.hash).2
    have sameDigest : digest first.message = digest second.message := by
      apply hexEncode_injective
      rw [← firstHash, ← secondHash, sameHash]
    have sameMessage : first.message = second.message :=
      free _ (mem_append_left _ (mem_map_of_mem firstMember)) _
        (mem_append_right _ (mem_map_of_mem secondMember)) sameDigest
    rw [← firstFollows.prevHash] at firstDigest
    rw [← secondFollows.prevHash] at secondDigest
    have same := Entry.same_of_message firstDigest secondDigest sameHash sameMessage
    refine ⟨?_, ?_, same⟩
    · have sameSeq := same.seq
      rw [firstFollows.seq, secondFollows.seq] at sameSeq
      omega
    · rw [← firstFollows.prevHash, ← secondFollows.prevHash, same.prevHash]
  exact ⟨agree.length_eq, agree⟩

def Entry.stamped (entry : Entry) : Entry := { entry with hash := hexEncode (digest entry.message) }

def enrolled (details : Option StringMap) : Entry :=
  ⟨1, 0, text "fleet", text "fleet.node.enrolled", text "node-1", details, genesisPrevHash, []⟩

def enrolledEntry (details : Option StringMap) : Entry := (enrolled details).stamped

theorem verify_enrolledEntry (details : Option StringMap) :
    verify [enrolledEntry details] = none := by
  rw [verify_eq_none_iff]
  exact ⟨⟨rfl, rfl, Entry.computeHash_of_isDigest isDigest_genesis⟩, trivial⟩

-- Without a map and with an empty one.
theorem verify_tip_binds_enrolled :
    verify [enrolledEntry none] = none ∧ verify [enrolledEntry (some Store.empty)] = none ∧
      List.Forall₂ Entry.Same [enrolledEntry none] [enrolledEntry (some Store.empty)] := by
  have free : CollisionFree ([enrolledEntry none].map Entry.message ++
      [enrolledEntry (some Store.empty)].map Entry.message) := by
    have one : (enrolledEntry (some Store.empty)).message = (enrolledEntry none).message := rfl
    rintro first firstMember second secondMember -
    simp only [map_cons, map_nil, one, cons_append, nil_append,
      mem_cons, not_mem_nil, or_false, or_self] at firstMember secondMember
    rw [firstMember, secondMember]
  exact ⟨verify_enrolledEntry none, verify_enrolledEntry _,
    (verify_tip_binds free (verify_enrolledEntry none) (verify_enrolledEntry _) rfl rfl rfl).2⟩

end Purser.Audit
