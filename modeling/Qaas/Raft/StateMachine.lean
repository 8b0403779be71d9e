import Mathlib.Data.Finmap
import Qaas.Wal.Frame

/-! The key-value state machine that a raft log drives, and its snapshots. -/

namespace Qaas

/-- A write that is submitted to the cluster. -/
inductive Request where
  | set (key value : String)

/-- What applying an entry returns: the value at the key that it has set. -/
structure Response where
  value : Option String
  deriving DecidableEq

variable {L M X : Type}

/-- A membership, and where in the log it was set. -/
structure StoredMembership (L M : Type) where
  logId : Option L
  membership : M
  deriving DecidableEq

/-- What an entry of the log carries. -/
inductive EntryPayload (M : Type) where
  | blank
  | normal (request : Request)
  | membership (membership : M)

/-- An entry of the log. -/
structure RaftEntry (L M : Type) where
  logId : L
  payload : EntryPayload M

/-- The map, and how far it reflects the log. -/
structure StateMachineData (L M : Type) where
  lastAppliedLog : Option L
  lastMembership : StoredMembership L M
  kv : Finmap fun _ : String => String
  deriving DecidableEq

/-- What describes a snapshot. -/
structure SnapshotMeta (L M : Type) where
  lastLogId : Option L
  lastMembership : StoredMembership L M
  snapshotId : String

/-- A snapshot: what describes it, and the encoded map. -/
structure StoredSnapshot (L M : Type) where
  meta_ : SnapshotMeta L M
  data : Bytes

/-- A state machine: its data, the last snapshot built or installed, and the number of the next one. -/
structure StateMachineStore (L M : Type) where
  data : StateMachineData L M
  currentSnapshot : Option (StoredSnapshot L M)
  snapshotIdx : UInt64

/-- What builds or installs a snapshot can fail at: the encoding, or the decoding of a snapshot. -/
inductive StorageError (L M X : Type) where
  | writeStateMachine (error : X)
  | readSnapshot (signature : SnapshotMeta L M) (error : X)

/-- The JSON encoding of a map from strings to strings, and its decoding. -/
structure MapCodec (X : Type) where
  toVec : (Finmap fun _ : String => String) → Except X Bytes
  fromSlice : Bytes → Except X (Finmap fun _ : String => String)

/-- Decoding takes back every encoding. -/
def MapCodec.RoundTrips (codec : MapCodec X) : Prop :=
  ∀ kv bytes, codec.toVec kv = .ok bytes → codec.fromSlice bytes = .ok kv

/-- A state machine to which nothing has been applied. -/
def StateMachineStore.new [Inhabited M] : StateMachineStore L M :=
  ⟨⟨none, ⟨none, default⟩, ∅⟩, none, 0⟩

/-- Apply one entry. -/
def StateMachineData.applyEntry (data : StateMachineData L M) (entry : RaftEntry L M) :
    StateMachineData L M × Response :=
  let data := { data with lastAppliedLog := some entry.logId }
  match entry.payload with
  -- An entry without a request still moves the position on.
  | .blank => (data, ⟨none⟩)
  | .normal (.set key value) => ({ data with kv := data.kv.insert key value }, ⟨some value⟩)
  | .membership membership => ({ data with lastMembership := ⟨some entry.logId, membership⟩ }, ⟨none⟩)

/-- Apply entries one after the other. -/
def StateMachineData.apply (data : StateMachineData L M) :
    List (RaftEntry L M) → StateMachineData L M × List Response
  | [] => (data, [])
  | entry :: entries =>
    let (data, response) := data.applyEntry entry
    let (data, responses) := data.apply entries
    (data, response :: responses)

/-- Apply a batch of entries. -/
def StateMachineStore.apply (store : StateMachineStore L M) (entries : List (RaftEntry L M)) :
    StateMachineStore L M × List Response :=
  let (data, responses) := store.data.apply entries
  ({ store with data := data }, responses)

/-- The id of a snapshot: where in the log it stands, and its number. -/
def snapshotName (display : L → String) (lastAppliedLog : Option L) (number : UInt64) : String :=
  let last := (lastAppliedLog.map display).getD "none"
  s!"{last}-{number}"

/-- The snapshot of some data under a number, with the encoded map. -/
def StateMachineData.snapshot (data : StateMachineData L M) (display : L → String) (number : UInt64)
    (bytes : Bytes) : StoredSnapshot L M :=
  ⟨⟨data.lastAppliedLog, data.lastMembership, snapshotName display data.lastAppliedLog number⟩, bytes⟩

/-- Build a snapshot of the data, and keep it. -/
def StateMachineStore.buildSnapshot (display : L → String) (codec : MapCodec X)
    (store : StateMachineStore L M) :
    Except (StorageError L M X) (StateMachineStore L M × StoredSnapshot L M) :=
  match codec.toVec store.data.kv with
  | .error error => .error (.writeStateMachine error)
  | .ok bytes =>
    -- Every snapshot takes a number, so that no two of them have one id.
    let snapshot := store.data.snapshot display store.snapshotIdx bytes
    .ok ({ store with currentSnapshot := some snapshot, snapshotIdx := store.snapshotIdx + 1 }, snapshot)

/-- The data that a snapshot carries, once its map is decoded. -/
def StoredSnapshot.content (snapshot : StoredSnapshot L M) (kv : Finmap fun _ : String => String) :
    StateMachineData L M :=
  ⟨snapshot.meta_.lastLogId, snapshot.meta_.lastMembership, kv⟩

/-- Replace the data by that of a snapshot, and keep the snapshot. -/
def StateMachineStore.installSnapshot (codec : MapCodec X) (store : StateMachineStore L M)
    (snapshot : StoredSnapshot L M) : Except (StorageError L M X) (StateMachineStore L M) :=
  match codec.fromSlice snapshot.data with
  -- A snapshot that cannot be decoded changes nothing.
  | .error error => .error (.readSnapshot snapshot.meta_ error)
  | .ok kv => .ok { store with data := snapshot.content kv, currentSnapshot := some snapshot }

/-- The last snapshot built or installed. -/
def StateMachineStore.getCurrentSnapshot (store : StateMachineStore L M) : Option (StoredSnapshot L M) :=
  store.currentSnapshot

/-- Entries that come one after the other may be applied in two parts. -/
theorem StateMachineData.apply_append (data : StateMachineData L M)
    (first second : List (RaftEntry L M)) :
    data.apply (first ++ second) =
      (((data.apply first).1.apply second).1, (data.apply first).2 ++ ((data.apply first).1.apply second).2) := by
  induction first generalizing data with
  | nil => rfl
  | cons entry first ih =>
    simp only [List.cons_append, apply, ih]

/-- There is a response for every entry. -/
@[simp] theorem StateMachineData.length_responses (data : StateMachineData L M)
    (entries : List (RaftEntry L M)) :
    (data.apply entries).2.length = entries.length := by
  induction entries generalizing data with
  | nil => rfl
  | cons entry entries ih => simp only [apply, List.length_cons, ih]

end Qaas
