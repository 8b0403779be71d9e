import Qaas.Raft.StateMachine

/-! Replicas that catch up by snapshots and those that apply every entry are the same. -/

namespace Qaas

variable {L M X : Type} {display : L → String} {codec : MapCodec X}

/-- What a store becomes, and what it answers, when it applies entries in batches and builds snapshots in
between. -/
inductive StateMachineStore.Applies (display : L → String) (codec : MapCodec X)
    (store : StateMachineStore L M) :
    List (RaftEntry L M) → StateMachineStore L M → List Response → Prop
  | nothing : Applies display codec store [] store []
  | batch {log : List (RaftEntry L M)} {next : StateMachineStore L M} {responses : List Response}
      (entries : List (RaftEntry L M)) : Applies display codec store log next responses →
      Applies display codec store (log ++ entries)
        (next.apply entries).1 (responses ++ (next.apply entries).2)
  | snapshot {log : List (RaftEntry L M)} {next built : StateMachineStore L M}
      {responses : List Response} {snapshot : StoredSnapshot L M} :
      Applies display codec store log next responses →
      next.buildSnapshot display codec = .ok (built, snapshot) →
      Applies display codec store log built responses

variable [Inhabited M]

/-- A store reflects a part of the log that it has applied, or whose snapshot, taken by such a
store, it has installed. -/
inductive StateMachineStore.Reflects (display : L → String) (codec : MapCodec X) :
    StateMachineStore L M → List (RaftEntry L M) → Prop
  | new : Reflects display codec .new []
  | applies {store next : StateMachineStore L M} {log rest : List (RaftEntry L M)}
      {responses : List Response} :
      Reflects display codec store log → store.Applies display codec rest next responses →
      Reflects display codec next (log ++ rest)
  | installs {store other built next : StateMachineStore L M} {log before : List (RaftEntry L M)}
      {snapshot : StoredSnapshot L M} :
      Reflects display codec store log → Reflects display codec other before →
      other.buildSnapshot display codec = .ok (built, snapshot) →
      store.installSnapshot codec snapshot = .ok next → Reflects display codec next before

/-- Apply the entries of a log in batches of one. -/
def StateMachineStore.applyEach (store : StateMachineStore L M) :
    List (RaftEntry L M) → StateMachineStore L M × List Response
  | [] => (store, [])
  | entry :: log =>
    let (next, responses) := store.apply [entry]
    let (last, more) := next.applyEach log
    (last, responses ++ more)

omit [Inhabited M] in
/-- Entry by entry is all at once. -/
theorem StateMachineStore.applyEach_eq (store : StateMachineStore L M) (log : List (RaftEntry L M)) :
    store.applyEach log = store.apply log := by
  induction log generalizing store with
  | nil => rfl
  | cons entry log ih =>
    simp only [applyEach, ih, apply, StateMachineData.apply, List.singleton_append]

omit [Inhabited M] in
/-- A snapshot is built without a change to the data. -/
theorem StateMachineStore.buildSnapshot_data {store built : StateMachineStore L M}
    {snapshot : StoredSnapshot L M} (build : store.buildSnapshot display codec = .ok (built, snapshot)) :
    built.data = store.data ∧ codec.toVec store.data.kv = .ok snapshot.data ∧
      snapshot.content store.data.kv = store.data := by
  unfold buildSnapshot at build
  split at build
  · cases build
  · rename_i bytes encoded
    obtain ⟨rfl, rfl⟩ := Prod.mk.inj (Except.ok.inj build)
    exact ⟨rfl, encoded, rfl⟩

omit [Inhabited M] in
/-- A snapshot can be built when the map can be encoded. -/
theorem StateMachineStore.buildSnapshot_ok (display : L → String) {store : StateMachineStore L M}
    {bytes : Bytes} (encoded : codec.toVec store.data.kv = .ok bytes) :
    ∃ built snapshot, store.buildSnapshot display codec = .ok (built, snapshot) := by
  unfold buildSnapshot
  rw [encoded]
  exact ⟨_, _, rfl⟩

omit [Inhabited M] in
/-- Batches, and snapshots between them, do what the entries do. -/
theorem StateMachineStore.Applies.data_eq {store next : StateMachineStore L M}
    {log : List (RaftEntry L M)}
    {responses : List Response} (applies : store.Applies display codec log next responses) :
    next.data = (store.data.apply log).1 ∧ responses = (store.data.apply log).2 := by
  induction applies with
  | nothing => exact ⟨rfl, rfl⟩
  | @batch log next responses entries _ ih =>
    obtain ⟨data, answers⟩ := ih
    rw [StateMachineData.apply_append, ← data, ← answers]
    exact ⟨rfl, rfl⟩
  -- A snapshot answers nothing, and changes no data.
  | snapshot _ build ih =>
    obtain ⟨data, answers⟩ := ih
    exact ⟨(buildSnapshot_data build).1.trans data, answers⟩

omit [Inhabited M] in
/-- A snapshot that was built can be installed anywhere, and brings the data it was built from. -/
theorem StateMachineStore.install_built (trips : codec.RoundTrips)
    {store other built : StateMachineStore L M} {snapshot : StoredSnapshot L M}
    (build : other.buildSnapshot display codec = .ok (built, snapshot)) :
    store.installSnapshot codec snapshot =
      .ok { store with data := other.data, currentSnapshot := some snapshot } := by
  obtain ⟨_, encoded, content⟩ := buildSnapshot_data build
  unfold installSnapshot
  rw [trips _ _ encoded]
  simp only [content]

/-- Whatever way a store came to reflect a part of the log, it has the data that the entries make. -/
theorem StateMachineStore.Reflects.data_eq (trips : codec.RoundTrips) {store : StateMachineStore L M}
    {log : List (RaftEntry L M)} (reflects : store.Reflects display codec log) :
    store.data = ((StateMachineStore.new : StateMachineStore L M).data.apply log).1 := by
  induction reflects with
  | new => rfl
  | applies _ applied ih =>
    rw [StateMachineData.apply_append, applied.data_eq.1, ih]
  | installs _ _ build install _ ih =>
    -- The snapshot brings what the store had that it was taken of.
    rw [install_built trips build] at install
    obtain rfl := Except.ok.inj install
    exact ih

/-- A fresh node that installs a snapshot of a part of the log and applies the rest, in any batches
and with any snapshots in between, has the data of a node that applies the whole log entry by entry,
and answers the rest as that node does. -/
theorem StateMachineStore.snapshot_equivalence (trips : codec.RoundTrips)
    {store built : StateMachineStore L M} {before : List (RaftEntry L M)} {snapshot : StoredSnapshot L M}
    (reflects : store.Reflects display codec before)
    (build : store.buildSnapshot display codec = .ok (built, snapshot)) :
    ∃ node, (StateMachineStore.new : StateMachineStore L M).installSnapshot codec snapshot = .ok node ∧
      ∀ rest last responses, node.Applies display codec rest last responses →
        last.data = (StateMachineStore.new.applyEach (before ++ rest)).1.data ∧
          responses = (StateMachineStore.new.applyEach (before ++ rest)).2.drop before.length := by
  -- The snapshot installs the data of the first part; entries that are applied in batches do as one by one.
  refine ⟨_, install_built trips build, fun rest last responses applies => ?_⟩
  obtain ⟨data, answers⟩ := applies.data_eq
  have before_eq := reflects.data_eq trips
  simp only [before_eq] at data answers
  rw [applyEach_eq, apply, StateMachineData.apply_append]
  refine ⟨data, answers.trans ?_⟩
  rw [List.drop_left' (StateMachineData.length_responses _ _)]

/-- The snapshot that a store returns was built of a store that reflects a part of the log. -/
theorem StateMachineStore.Reflects.currentSnapshot {store : StateMachineStore L M}
    {log : List (RaftEntry L M)} (reflects : store.Reflects display codec log)
    {snapshot : StoredSnapshot L M} (returned : store.getCurrentSnapshot = some snapshot) :
    ∃ other before built, StateMachineStore.Reflects display codec other before ∧
      other.buildSnapshot display codec = .ok (built, snapshot) := by
  induction reflects with
  | new => cases returned
  | applies earlier applied ih =>
    induction applied with
    -- Applying leaves the snapshot alone, so it is the one from before.
    | nothing => exact ih returned
    | batch entries _ inner => exact inner returned
    | @snapshot log next built responses own applied build _ =>
      -- The last snapshot is the one returned.
      refine ⟨next, _, built, .applies earlier applied, ?_⟩
      have kept : built.currentSnapshot = some own := by
        unfold buildSnapshot at build
        split at build
        · cases build
        · obtain ⟨rfl, rfl⟩ := Prod.mk.inj (Except.ok.inj build)
          rfl
      obtain rfl : own = snapshot := Option.some.inj (kept.symm.trans returned)
      exact build
  -- The store returns the snapshot that it has installed.
  | @installs store other built next log before own _ earlier build install _ _ =>
    unfold installSnapshot at install
    split at install
    · cases install
    · obtain rfl := Except.ok.inj install
      obtain rfl : own = snapshot := Option.some.inj returned
      exact ⟨other, before, built, earlier, build⟩

/-- The JSON text of the map that takes `a` to `1`, and of no other. -/
def textOfOne : MapCodec Unit where
  toVec kv := if kv = Finmap.singleton "a" "1" then .ok [123, 34, 97, 34, 58, 34, 49, 34, 125] else .error ()
  fromSlice bytes :=
    if bytes = [123, 34, 97, 34, 58, 34, 49, 34, 125] then .ok (Finmap.singleton "a" "1") else .error ()

/-- The text is taken back. -/
theorem textOfOne_roundTrips : textOfOne.RoundTrips := by
  intro kv bytes encoded
  simp only [textOfOne] at encoded ⊢
  split at encoded
  · rename_i one
    rw [← Except.ok.inj encoded, one]
    rfl
  · cases encoded

/-- A value is set, the membership changes, and the value is set again. -/
def smallLog : List (RaftEntry Nat Unit) :=
  [⟨1, .normal (.set "a" "1")⟩, ⟨2, .membership ()⟩, ⟨3, .normal (.set "a" "2")⟩]

theorem StateMachineStore.snapshot_equivalence_smallLog :
    ∃ (node last : StateMachineStore Nat Unit) (responses : List Response),
      node.Applies toString textOfOne (smallLog.drop 2) last responses ∧
        last.data = (StateMachineStore.new.applyEach smallLog).1.data ∧ responses = [⟨some "2"⟩] := by
  have applied : (StateMachineStore.new : StateMachineStore Nat Unit).Applies toString textOfOne
      ([] ++ smallLog.take 2) _ _ := .batch _ .nothing
  have encoded : textOfOne.toVec (StateMachineStore.new.apply (smallLog.take 2)).1.data.kv =
      .ok [123, 34, 97, 34, 58, 34, 49, 34, 125] := by
    decide +kernel
  obtain ⟨built, snapshot, build⟩ := buildSnapshot_ok toString encoded
  obtain ⟨node, _, same⟩ := StateMachineStore.snapshot_equivalence textOfOne_roundTrips
    (.applies .new applied) build
  have rest : node.Applies toString textOfOne ([] ++ smallLog.drop 2) _ _ := .batch _ .nothing
  obtain ⟨data, answers⟩ := same _ _ _ rest
  exact ⟨node, _, _, rest, data, answers.trans (by decide +kernel)⟩

end Qaas
