import Qaas.Auth.Decoding
import Qaas.Group.Decoding
import Qaas.Group.OpenedKeys

/-! What derived code admits against what the constructors of keys and tenants do. -/

namespace Qaas

open Serde

variable {T V : Type}

/-- The text of an envelope gives the empty text for its key. -/
def GivesEmptyKey (wire : WireFormat T) (bytes : Bytes) : Prop :=
  ∃ json, wire.fromSlice bytes = .ok json ∧
    (Envelope.shape wire).document .idempotencyKey json = some (.string "")

/-- The files of a group's two logs leave the empty key in force: a message under it still waits, a
registration under it is still taken, or a dead letter under it is still dead. -/
def KeepsEmptyKey (wire : LogWire T V) (wal dlqWal : Bytes) : Prop :=
  ∃ records letters, Contains (wire.reading (WalRecord.decoder wire)) wal records ∧
    Contains (wire.reading (DlqRecord.decoder wire)) dlqWal letters ∧
      (StillWaits records .empty ∨ StillTaken records .empty ∨ StillDead letters .empty)

/-- The file of a key store's log leaves a key minted for a malformed text. -/
def KeepsMalformedTenant (wire : LogWire T V) (wal : Bytes) : Prop :=
  ∃ records tenant, Contains (wire.reading KeyRecord.decoder) wal records ∧
    StillMinted records tenant ∧ tenant.Malformed

/-- A document is read as an envelope under a key exactly if its `idempotency_key` is the key's text,
whatever that text is. -/
theorem Envelope.decode_key_iff {wire : WireFormat T} {json : Json} {envelope : Envelope T}
    (read : decode wire json = .ok envelope) (key : IdempotencyKey) :
    envelope.idempotencyKey = some key ↔
      (shape wire).document .idempotencyKey json = some (.string key.key) := by
  simp only [decode, bind_eq_ok] at read
  obtain ⟨slots, visited, _, _, _, _, _, _, taken, keyTaken, _, _, _, _, _, _, made⟩ := read
  -- The key is what was taken for its field.
  have same : envelope.idempotencyKey = taken := by rw [← Except.ok.inj made]
  rw [same]
  exact Decoder.optional_text IdempotencyKey.mk_injective (Shape.take_document visited keyTaken) key.key

/-- A decoded envelope is read from the document of its text; the version is only checked. -/
theorem Envelope.decode_of_fromJson {wire : WireFormat T} {bytes : Bytes} {envelope : Envelope T}
    (decoded : fromJson wire bytes = .ok envelope) :
    ∃ json, wire.fromSlice bytes = .ok json ∧ decode wire json = .ok envelope := by
  obtain ⟨read, mapped, checked⟩ := bind_eq_ok.mp decoded
  have same : read = envelope := by
    split at checked
    · exact Except.ok.inj checked
    · cases checked
  subst same
  -- Neither the text nor the document was refused.
  cases document : wire.fromSlice bytes with
  | error error => simp [document, Except.bind, Except.mapError] at mapped
  | ok json =>
    refine ⟨json, rfl, ?_⟩
    cases found : decode wire json with
    | error error => simp [document, Except.bind, found, Except.mapError] at mapped
    | ok other => simpa [document, Except.bind, found, Except.mapError] using mapped

/-- An envelope is decoded under the empty key exactly if its text gives it. -/
theorem Envelope.emptyKey_iff {wire : WireFormat T} {bytes : Bytes} {envelope : Envelope T}
    (decoded : fromJson wire bytes = .ok envelope) :
    envelope.idempotencyKey = some .empty ↔ GivesEmptyKey wire bytes := by
  obtain ⟨json, text, read⟩ := Envelope.decode_of_fromJson decoded
  rw [Envelope.decode_key_iff read, GivesEmptyKey]
  constructor
  · intro given
    exact ⟨json, text, given⟩
  · rintro ⟨other, found, given⟩
    -- The text has one document.
    rw [text] at found
    rwa [← Except.ok.inj found] at given

/-- All keys of a kind are accepted exactly if the empty one is not of it. -/
theorem IdempotencyKey.all_accepted_iff (holds : IdempotencyKey → Prop) :
    (∀ key, holds key → key.Accepted) ↔ ¬ holds .empty := by
  -- The empty key is the only one that is refused.
  simp only [IdempotencyKey.accepted_iff]
  constructor
  · intro apart empty
    exact apart .empty empty rfl
  · rintro absent key held rfl
    exact absent held

/-- The keys of a group that opens on two files are all accepted exactly if these leave no empty key
in force. -/
theorem ConsumerGroup.keys_accepted_iff {wire : LogWire T V} {wal dlqWal : Reader}
    {visibilityTimeout : Duration} {retryPolicy : RetryPolicy} {order : List MessageId}
    {group : ConsumerGroup T V}
    (opened : openFiles wire wal dlqWal visibilityTimeout retryPolicy order = .ok group) :
    (∀ key, group.HoldsKey key → key.Accepted) ↔ ¬ KeepsEmptyKey wire wal.file dlqWal.file := by
  obtain ⟨records, letters, main, dead, rfl⟩ := openFiles_eq_ok.mp opened
  rw [IdempotencyKey.all_accepted_iff, holdsKey_opened_iff, KeepsEmptyKey]
  constructor
  · rintro absent ⟨others, otherLetters, otherMain, otherDead, kept⟩
    -- The files contain nothing else.
    rw [main.unique otherMain, dead.unique otherDead] at absent
    exact absent kept
  · intro absent kept
    exact absent ⟨records, letters, main, dead, kept⟩

/-- The tenants of a key store that opens on a file are all accepted exactly if this leaves no key
minted for a malformed text. -/
theorem ApiKeyStore.tenants_accepted_iff {wire : LogWire T V} {wal : Reader}
    {store : ApiKeyStore TenantText} (opened : openFile wire wal = .ok store) :
    (∀ tenant, store.HoldsTenant tenant → tenant.Accepted) ↔ ¬ KeepsMalformedTenant wire wal.file := by
  obtain ⟨records, contains, rfl⟩ := openFile_eq_ok.mp opened
  -- What the store holds is what its file leaves minted, and the file contains nothing else.
  simp only [holdsTenant_opened_iff, TenantText.accepted_iff]
  constructor
  · rintro wellFormed ⟨others, tenant, otherContains, minted, malformed⟩
    rw [← contains.unique otherContains] at minted
    exact wellFormed tenant minted malformed
  · intro absent tenant minted malformed
    exact absent ⟨records, tenant, contains, minted, malformed⟩

/-- Every key and every tenant that derived code reads is one that its constructor accepts exactly
if the input has no malformed one in force: for a decoded envelope, for a group that opens on two
files, and for a key store that opens on one. -/
theorem admitted_accepted_iff (wire : LogWire T V) :
    (∀ bytes envelope, Envelope.fromJson wire.toWireFormat bytes = .ok envelope →
      ((∀ key, envelope.idempotencyKey = some key → key.Accepted) ↔
        ¬ GivesEmptyKey wire.toWireFormat bytes)) ∧
    (∀ wal dlqWal visibilityTimeout retryPolicy order group,
      ConsumerGroup.openFiles wire wal dlqWal visibilityTimeout retryPolicy order = .ok group →
        ((∀ key, group.HoldsKey key → key.Accepted) ↔ ¬ KeepsEmptyKey wire wal.file dlqWal.file)) ∧
    ∀ wal store, ApiKeyStore.openFile wire wal = .ok store →
      ((∀ tenant, store.HoldsTenant tenant → tenant.Accepted) ↔ ¬ KeepsMalformedTenant wire wal.file) := by
  -- One equivalence for each of the three ways in.
  refine ⟨fun bytes envelope decoded => ?_, ?_, ?_⟩
  · rw [IdempotencyKey.all_accepted_iff fun key => envelope.idempotencyKey = some key, Envelope.emptyKey_iff decoded]
  · intro wal dlqWal visibilityTimeout retryPolicy order group opened
    exact ConsumerGroup.keys_accepted_iff opened
  · intro wal store opened
    exact ApiKeyStore.tenants_accepted_iff opened

/-- Logs whose records are all under accepted keys leave no empty key in force. -/
theorem not_keepsEmptyKey {wire : LogWire T V} {wal dlqWal : Bytes} {records : List (WalRecord T V)}
    {letters : List (DlqRecord T V)} (main : Contains (wire.reading (WalRecord.decoder wire)) wal records)
    (dead : Contains (wire.reading (DlqRecord.decoder wire)) dlqWal letters)
    (enqueued : ∀ id key item, .enqueue id (some key) item ∈ records → key.Accepted)
    (recorded : ∀ letter key, .deadLetter letter ∈ letters → letter.idempotencyKey = some key → key.Accepted) :
    ¬ KeepsEmptyKey wire wal dlqWal := by
  have refused : ¬ IdempotencyKey.empty.Accepted := by simp [IdempotencyKey.accepted_iff]
  rintro ⟨others, otherLetters, otherMain, otherDead, kept⟩
  obtain rfl := main.unique otherMain
  obtain rfl := dead.unique otherDead
  -- Whatever is in force is recorded.
  rcases kept with ⟨before, id, item, after, rfl, _⟩ | ⟨before, id, item, after, rfl, _⟩ |
    ⟨before, letter, after, rfl, carries, _⟩
  · exact refused (enqueued id .empty item (by simp))
  · exact refused (enqueued id .empty item (by simp))
  · exact refused (recorded letter .empty (by simp) carries)

/-- A log whose mints are all for accepted tenants leaves no key minted for a malformed text. -/
theorem not_keepsMalformedTenant {wire : LogWire T V} {wal : Bytes} {records : List (KeyRecord TenantText)}
    (contains : Contains (wire.reading KeyRecord.decoder) wal records)
    (minted : ∀ keyHash tenant, .mint keyHash tenant ∈ records → tenant.Accepted) :
    ¬ KeepsMalformedTenant wire wal := by
  -- A key that is still minted has its mint in the log.
  rintro ⟨others, tenant, otherContains, still, malformed⟩
  obtain rfl := contains.unique otherContains
  obtain ⟨before, keyHash, after, rfl, _⟩ := still
  exact TenantText.accepted_iff.mp (minted keyHash tenant (by simp)) malformed

/-- The bytes of a text and its document. -/
structure WireSample where
  text : String
  document : Json

/-- The bytes of a sample. -/
def WireSample.bytes (sample : WireSample) : Bytes :=
  sample.text.toUTF8.toList

/-- Texts as payloads, documents as values, and no text but the sample's. -/
def WireSample.wire (sample : WireSample) : LogWire String Json where
  toVec _ := .error (.custom "not written")
  fromSlice bytes := if bytes = sample.bytes then .ok sample.document else .error (.custom "expected value")
  parseUuid := parseHyphenated
  encode payload := .ok (.string payload)
  payload := .text
  value := { decode := .ok }
  hash := crc32

/-- An envelope under a key whose text needs no escapes. -/
def keyedEnvelope (key : String) : WireSample where
  text := String.append "\x7b\"version\":\x7b\"major\":1,\"minor\":0\x7d," <|
    "\"id\":\"0192f3a4-5b6c-7d8e-9fa0-b1c2d3e4f506\",\"created_at\":5,\"idempotency_key\":\"" ++ key ++
    "\",\"trace_id\":null,\"headers\":\x7b\x7d,\"payload\":\"hello\"\x7d"
  document := .object
    [("version", .object [("major", .integer 1), ("minor", .integer 0)]),
      ("id", .string "0192f3a4-5b6c-7d8e-9fa0-b1c2d3e4f506"), ("created_at", .integer 5),
      ("idempotency_key", .string key), ("trace_id", .null), ("headers", .object []),
      ("payload", .string "hello")]

/-- A main log's record of an enqueue under such a key. -/
def keyedEnqueue (key : String) : WireSample where
  text := "\x7b\"Enqueue\":[\"0192f3a4-5b6c-7d8e-9fa0-b1c2d3e4f506\",\"" ++ key ++ "\",\"hello\"]\x7d"
  document := .object [("Enqueue", .array
    [.string "0192f3a4-5b6c-7d8e-9fa0-b1c2d3e4f506", .string key, .string "hello"])]

/-- A key log's record of a mint for such a tenant. -/
def mintFor (tenant : String) : WireSample where
  text := "\x7b\"Mint\":\x7b\"key_hash\":\"5e884898\",\"tenant\":\"" ++ tenant ++ "\"\x7d\x7d"
  document := .object [("Mint", .object [("key_hash", .string "5e884898"), ("tenant", .string tenant)])]

/-- A log of one frame, which is the sample. -/
def WireSample.log (sample : WireSample) {R : Type} (decoder : Decoder R) : Reader :=
  ⟨framed (sample.wire.reading decoder) sample.bytes, []⟩

/-- The log of a sample contains what its document is read as. -/
theorem WireSample.contains {R : Type} (sample : WireSample) {decoder : Decoder R} {record : R}
    (decoded : decoder.decode sample.document = .ok record) (small : sample.bytes.length < 2 ^ 32) :
    Contains (sample.wire.reading decoder) (sample.log decoder).file [record] := by
  -- The payload of the one frame is the text that the wire knows.
  refine contains_framed ?_ small
  simp only [LogWire.reading, WireSample.wire, if_pos]
  rw [Except.bind, decoded]
  rfl

/-- The envelope under that key. -/
def keyed (key : String) : Envelope String where
  version := .current
  id := laterMinor.id
  createdAt := ⟨5⟩
  idempotencyKey := some ⟨key⟩
  traceId := none
  headers := ∅
  payload := "hello"

/-- The group with the message of that enqueue. -/
def keyedGroup (key : String) : ConsumerGroup String Json :=
  .opened { records := [.enqueue laterMinor.id (some ⟨key⟩) "hello"] } {} 30 .default []

/-- The store with the key of that mint. -/
def mintedStore (tenant : String) : ApiKeyStore TenantText :=
  .opened { records := [.mint "5e884898" ⟨tenant⟩] }

/-- The envelope is decoded, whatever the key. -/
theorem fromJson_keyedEnvelope (key : String) :
    Envelope.fromJson (keyedEnvelope key).wire.toWireFormat (keyedEnvelope key).bytes = .ok (keyed key) := by
  have text : (keyedEnvelope key).wire.fromSlice (keyedEnvelope key).bytes = .ok (keyedEnvelope key).document :=
    if_pos rfl
  -- The fields are read without a look at the key's text.
  rw [Envelope.fromJson, text]
  rfl

/-- The log of an enqueue contains its record, whatever the key. -/
theorem contains_keyedEnqueue (key : String) (small : (keyedEnqueue key).bytes.length < 2 ^ 32) :
    Contains ((keyedEnqueue key).wire.reading (WalRecord.decoder (keyedEnqueue key).wire))
      ((keyedEnqueue key).log (WalRecord.decoder (keyedEnqueue key).wire)).file
      [.enqueue laterMinor.id (some ⟨key⟩) "hello"] :=
  (keyedEnqueue key).contains rfl small

/-- The log of a mint contains its record, whatever the tenant. -/
theorem contains_mintFor (tenant : String) (small : (mintFor tenant).bytes.length < 2 ^ 32) :
    Contains ((mintFor tenant).wire.reading KeyRecord.decoder) ((mintFor tenant).log KeyRecord.decoder).file
      [.mint "5e884898" ⟨tenant⟩] :=
  (mintFor tenant).contains rfl small

/-- An empty file contains nothing. -/
theorem contains_nil {R : Type} (format : Format R) : Contains format [] [] :=
  ⟨[], [], rfl, .nil, rfl⟩

/-- The group opens, whatever the key. -/
theorem openFiles_keyedEnqueue (key : String) (small : (keyedEnqueue key).bytes.length < 2 ^ 32) :
    ConsumerGroup.openFiles (keyedEnqueue key).wire
      ((keyedEnqueue key).log (WalRecord.decoder (keyedEnqueue key).wire)) ⟨[], []⟩ 30 .default [] =
      .ok (keyedGroup key) :=
  ConsumerGroup.openFiles_eq_ok.mpr ⟨_, [], contains_keyedEnqueue key small, contains_nil _, rfl⟩

/-- The store opens, whatever the tenant. -/
theorem openFile_mintFor (tenant : String) (small : (mintFor tenant).bytes.length < 2 ^ 32) :
    ApiKeyStore.openFile (mintFor tenant).wire ((mintFor tenant).log KeyRecord.decoder) =
      .ok (mintedStore tenant) :=
  ApiKeyStore.openFile_eq_ok.mpr ⟨_, contains_mintFor tenant small, rfl⟩

/-- The group holds the key. -/
theorem keyedGroup_holdsKey (key : String) : (keyedGroup key).HoldsKey ⟨key⟩ :=
  (holdsKey_opened_iff _ _ _ _ _ _).mpr (.inl ⟨[], laterMinor.id, "hello", [], rfl, Nat.le_refl 0⟩)

/-- An envelope is decoded under the empty key, a log opens as a group that has registered it, and
another one as a store whose key is for a path out of the data directory. -/
theorem empty_key_admitted :
    (Envelope.fromJson (keyedEnvelope "").wire.toWireFormat (keyedEnvelope "").bytes = .ok (keyed "") ∧
      (keyed "").idempotencyKey = some .empty) ∧
    (ConsumerGroup.openFiles (keyedEnqueue "").wire
        ((keyedEnqueue "").log (WalRecord.decoder (keyedEnqueue "").wire)) ⟨[], []⟩ 30 .default [] =
        .ok (keyedGroup "") ∧
      (keyedGroup "").HoldsKey .empty ∧ ((keyedGroup "").state.dedup.lookup .empty).isSome) ∧
    (ApiKeyStore.openFile (mintFor "../acme").wire ((mintFor "../acme").log KeyRecord.decoder) =
        .ok (mintedStore "../acme") ∧
      (mintedStore "../acme").HoldsTenant ⟨"../acme"⟩) ∧
    ¬ IdempotencyKey.empty.Accepted ∧ ¬ TenantText.Accepted ⟨"../acme"⟩ := by
  refine ⟨⟨fromJson_keyedEnvelope "", rfl⟩, ⟨openFiles_keyedEnqueue "" (by decide +kernel),
    keyedGroup_holdsKey "", rfl⟩, ⟨openFile_mintFor "../acme" (by decide +kernel), "5e884898", rfl⟩, ?_, ?_⟩
  · rw [IdempotencyKey.accepted_iff]
    exact fun apart => apart rfl
  · -- The dots and the slash are no characters of an identifier.
    rw [TenantText.accepted_iff, not_not]
    exact .inr (.inr ⟨'.', by decide, by decide⟩)

/-- Under a key and for a tenant that pass, everything that is read passes. -/
theorem admitted_accepted_iff_dedup :
    (Envelope.fromJson (keyedEnvelope "dedup-1").wire.toWireFormat (keyedEnvelope "dedup-1").bytes =
        .ok (keyed "dedup-1") ∧
      ∀ key, (keyed "dedup-1").idempotencyKey = some key → key.Accepted) ∧
    ((keyedGroup "dedup-1").HoldsKey ⟨"dedup-1"⟩ ∧ ∀ key, (keyedGroup "dedup-1").HoldsKey key → key.Accepted) ∧
    (mintedStore "acme").HoldsTenant ⟨"acme"⟩ ∧
      ∀ tenant, (mintedStore "acme").HoldsTenant tenant → tenant.Accepted := by
  have smallEnqueue : (keyedEnqueue "dedup-1").bytes.length < 2 ^ 32 := by decide +kernel
  have smallMint : (mintFor "acme").bytes.length < 2 ^ 32 := by decide +kernel
  have held : (mintedStore "acme").HoldsTenant ⟨"acme"⟩ := ⟨"5e884898", rfl⟩
  have envelopes := (admitted_accepted_iff (keyedEnvelope "dedup-1").wire).1 _ _ (fromJson_keyedEnvelope "dedup-1")
  have groups := (admitted_accepted_iff (keyedEnqueue "dedup-1").wire).2.1 _ _ _ _ _ _
    (openFiles_keyedEnqueue "dedup-1" smallEnqueue)
  have stores := (admitted_accepted_iff (mintFor "acme").wire).2.2 _ _ (openFile_mintFor "acme" smallMint)
  refine ⟨⟨fromJson_keyedEnvelope "dedup-1", envelopes.mpr ?_⟩, ⟨keyedGroup_holdsKey "dedup-1", groups.mpr ?_⟩,
    held, stores.mpr ?_⟩
  · intro given
    have carried := (Envelope.emptyKey_iff (fromJson_keyedEnvelope "dedup-1")).mpr given
    exact absurd carried (by decide)
  · refine not_keepsEmptyKey (contains_keyedEnqueue "dedup-1" smallEnqueue) (contains_nil _) ?_ (by simp)
    intro id key item member
    obtain ⟨_, rfl, _⟩ : id = laterMinor.id ∧ key = ⟨"dedup-1"⟩ ∧ item = "hello" := by simpa using member
    exact ⟨⟨"dedup-1"⟩, rfl⟩
  · refine not_keepsMalformedTenant (contains_mintFor "acme" smallMint) fun keyHash tenant member => ?_
    obtain ⟨_, rfl⟩ : keyHash = "5e884898" ∧ tenant = ⟨"acme"⟩ := by simpa using member
    exact ⟨acme, rfl⟩

end Qaas
