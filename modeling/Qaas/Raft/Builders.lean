import Mathlib.Order.Defs.LinearOrder
import Qaas.Concurrency.Pool
import Qaas.Concurrency.Run
import Qaas.Raft.Snapshots

/-! Snapshots are built while the state machine applies entries and installs other snapshots. -/

namespace Qaas

open Concurrency

variable {L M X : Type}

/-- Where the installation of a snapshot stands: before its data is written, or before it is kept. -/
inductive InstallStage (L M : Type) where
  | data (snapshot : StoredSnapshot L M)
  | store (snapshot : StoredSnapshot L M)

/-- Where a build stands: before it reads the data, before it encodes what it has read, before it
keeps the snapshot, or at its end. Once it has read, it knows how many snapshots had been kept by
then. -/
inductive BuildStage (L M X : Type) where
  | read
  | encode (data : StateMachineData L M) (since : Nat)
  | store (snapshot : StoredSnapshot L M) (since : Nat)
  | done (result : Except (StorageError L M X) (StoredSnapshot L M))

/-- A store, what the state machine is installing, and the log ids of all snapshots ever kept. -/
structure SnapshotWorld (L M : Type) where
  store : StateMachineStore L M
  installing : Option (InstallStage L M)
  history : List (Option L)

/-- How far the data reflects the log. -/
def SnapshotWorld.applied (world : SnapshotWorld L M) : Option L :=
  world.store.data.lastAppliedLog

/-- How far the current snapshot does, if there is one. -/
def SnapshotWorld.kept (world : SnapshotWorld L M) : Option L :=
  world.store.getCurrentSnapshot.bind fun snapshot => snapshot.meta_.lastLogId

/-- Keep a snapshot. -/
def SnapshotWorld.keep (world : SnapshotWorld L M) (snapshot : StoredSnapshot L M) : SnapshotWorld L M :=
  { world with
    store := { world.store with currentSnapshot := some snapshot }
    history := world.history ++ [snapshot.meta_.lastLogId] }

/-- The next step of a build. -/
def SnapshotWorld.build (display : L → String) (codec : MapCodec X) (world : SnapshotWorld L M) :
    BuildStage L M X → Option (SnapshotWorld L M × BuildStage L M X)
  | .read => some (world, .encode world.store.data world.history.length)
  | .encode data since =>
    match codec.toVec data.kv with
    | .error error => some (world, .done (.error (.writeStateMachine error)))
    | .ok bytes =>
      let number := world.store.snapshotIdx
      some ({ world with store := { world.store with snapshotIdx := number + 1 } },
        .store (data.snapshot display number bytes) since)
  | .store snapshot _ => some (world.keep snapshot, .done (.ok snapshot))
  | .done _ => none

/-- The next step of an installation; a snapshot that cannot be decoded ends it. -/
def SnapshotWorld.install (codec : MapCodec X) (world : SnapshotWorld L M) :
    Option (SnapshotWorld L M) :=
  world.installing.map fun
    | .data snapshot =>
      match codec.fromSlice snapshot.data with
      | .error _ => { world with installing := none }
      | .ok kv =>
        { world with
          store := { world.store with data := snapshot.content kv }
          installing := some (.store snapshot) }
    | .store snapshot => { world.keep snapshot with installing := none }

/-- A state machine and all builds. -/
abbrev SnapshotPool (L M X : Type) := Pool (SnapshotWorld L M) (BuildStage L M X)

/-- A build begins or takes its next step, or the state machine applies entries, begins to install a
snapshot or goes on with it. -/
inductive SnapshotAction (L M : Type) where
  | build
  | step (task : Nat)
  | apply (entries : List (RaftEntry L M))
  | install (snapshot : StoredSnapshot L M)
  | proceed

/-- One step; the state machine does one thing at a time. -/
def SnapshotPool.step (display : L → String) (codec : MapCodec X) (pool : SnapshotPool L M X) :
    SnapshotAction L M → Option (SnapshotPool L M X)
  | .build => some (pool.spawn .read)
  | .step i => pool.advance i (SnapshotWorld.build display codec)
  | .apply entries =>
    if pool.shared.installing.isSome then none
    else some { pool with shared := { pool.shared with store := (pool.shared.store.apply entries).1 } }
  | .install snapshot =>
    if pool.shared.installing.isSome then none
    else some { pool with shared := { pool.shared with installing := some (.data snapshot) } }
  | .proceed => (pool.shared.install codec).map fun world => { pool with shared := world }

/-- A new state machine. -/
def SnapshotPool.start [Inhabited M] : SnapshotPool L M X :=
  ⟨⟨.new, none, []⟩, []⟩

/-- A build that nothing interrupts builds a snapshot. -/
theorem SnapshotWorld.build_alone {display : L → String} {codec : MapCodec X} {world : SnapshotWorld L M}
    {built : StateMachineStore L M} {snapshot : StoredSnapshot L M}
    (builds : world.store.buildSnapshot display codec = .ok (built, snapshot)) :
    ∃ last, ((world.build display codec .read).bind fun next => next.1.build display codec next.2).bind
        (fun next => next.1.build display codec next.2) = some (last, .done (.ok snapshot)) ∧
      last.store = built := by
  -- The three steps of the build do together what the whole function does.
  unfold StateMachineStore.buildSnapshot at builds
  split at builds
  · cases builds
  · rename_i bytes encoded
    obtain ⟨rfl, rfl⟩ := Prod.mk.inj (Except.ok.inj builds)
    refine ⟨SnapshotWorld.keep { world with
      store := { world.store with snapshotIdx := world.store.snapshotIdx + 1 } } _, ?_, rfl⟩
    simp only [build, encoded, Option.bind_some]

/-- An installation that nothing interrupts installs its snapshot. -/
theorem SnapshotWorld.install_alone {codec : MapCodec X} {world : SnapshotWorld L M}
    {installed : StateMachineStore L M} {snapshot : StoredSnapshot L M}
    (installs : world.store.installSnapshot codec snapshot = .ok installed) :
    ∃ last, (SnapshotWorld.install codec { world with installing := some (.data snapshot) }).bind
        (SnapshotWorld.install codec) = some last ∧
      last.store = installed ∧ last.installing = none := by
  -- So do the two steps of an installation.
  unfold StateMachineStore.installSnapshot at installs
  split at installs
  · cases installs
  · rename_i kv decoded
    obtain rfl := Except.ok.inj installs
    refine ⟨{ SnapshotWorld.keep { world with
      store := { world.store with data := snapshot.content kv } } snapshot with installing := none }, ?_, rfl, rfl⟩
    simp only [install, decoded, Option.map_some, Option.bind_some]
    rfl

@[simp] theorem SnapshotWorld.keep_kept (world : SnapshotWorld L M) (snapshot : StoredSnapshot L M) :
    (world.keep snapshot).kept = snapshot.meta_.lastLogId := rfl

@[simp] theorem SnapshotWorld.keep_applied (world : SnapshotWorld L M) (snapshot : StoredSnapshot L M) :
    (world.keep snapshot).applied = world.applied := rfl

@[simp] theorem SnapshotWorld.keep_history (world : SnapshotWorld L M) (snapshot : StoredSnapshot L M) :
    (world.keep snapshot).history = world.history ++ [snapshot.meta_.lastLogId] := rfl

/-- What a step of a build does. -/
inductive SnapshotWorld.Builds (world : SnapshotWorld L M) :
    BuildStage L M X → SnapshotWorld L M → BuildStage L M X → Prop
  | reads : Builds world .read world (.encode world.store.data world.history.length)
  | fails {data : StateMachineData L M} {since : Nat} (error : X) :
      Builds world (.encode data since) world (.done (.error (.writeStateMachine error)))
  | encodes {data : StateMachineData L M} {since : Nat} {snapshot : StoredSnapshot L M}
    (number : UInt64) :
      snapshot.meta_.lastLogId = data.lastAppliedLog →
      Builds world (.encode data since) { world with store := { world.store with snapshotIdx := number } }
        (.store snapshot since)
  | keeps {snapshot : StoredSnapshot L M} {since : Nat} :
      Builds world (.store snapshot since) (world.keep snapshot) (.done (.ok snapshot))

/-- Every step of a build is one of these. -/
theorem SnapshotWorld.build_builds {display : L → String} {codec : MapCodec X}
    {world next : SnapshotWorld L M}
    {stage after : BuildStage L M X} (taken : world.build display codec stage = some (next, after)) :
    world.Builds stage next after := by
  -- One constructor for each stage; only the encoding can fail.
  cases stage with
  | read =>
    obtain ⟨rfl, rfl⟩ := Prod.mk.inj (Option.some.inj taken)
    exact .reads
  | encode data since =>
    simp only [build] at taken
    split at taken <;> obtain ⟨rfl, rfl⟩ := Prod.mk.inj (Option.some.inj taken)
    · exact .fails _
    · exact .encodes _ rfl
  | store snapshot since =>
    obtain ⟨rfl, rfl⟩ := Prod.mk.inj (Option.some.inj taken)
    exact .keeps
  | done result => cases taken

/-- What a step of an installation does: it is abandoned, or writes the data, or keeps the snapshot. -/
theorem SnapshotWorld.install_cases {codec : MapCodec X} {world next : SnapshotWorld L M}
    (taken : world.install codec = some next) :
    (∃ snapshot, world.installing = some (.data snapshot) ∧ next = { world with installing := none }) ∨
    (∃ snapshot kv, world.installing = some (.data snapshot) ∧ next = { world with
      store := { world.store with data := snapshot.content kv },
        installing := some (.store snapshot) }) ∨
    ∃ snapshot, world.installing = some (.store snapshot) ∧
      next = { world.keep snapshot with installing := none } := by
  -- Data that cannot be decoded end the installation.
  unfold install at taken
  obtain ⟨stage, installing, rfl⟩ := Option.map_eq_some_iff.mp taken
  cases stage with
  | data snapshot =>
    simp only
    split
    · exact .inl ⟨snapshot, installing, rfl⟩
    · exact .inr (.inl ⟨snapshot, _, installing, rfl⟩)
  | store snapshot => exact .inr (.inr ⟨snapshot, installing, rfl⟩)

variable [LinearOrder L]

/-- Positions in the log are ordered, and none is the earliest. -/
theorem logId_trans {a b c : Option L} (first : a ≤ b) (second : b ≤ c) : a ≤ c := by
  -- Only between two positions is there anything to show.
  cases a with
  | none => exact Option.none_le
  | some a =>
    cases b with
    | none => exact absurd first (by simp)
    | some b =>
      cases c with
      | none => exact absurd second (by simp)
      | some c => exact Option.some_le_some.mpr ((Option.some_le_some.mp first).trans (Option.some_le_some.mp second))

theorem logId_refl (a : Option L) : a ≤ a := by
  cases a <;> simp

/-- Entries come in the order of the log, and an installed snapshot is not older than what is applied. -/
def SnapshotPool.InOrder (pool : SnapshotPool L M X) : SnapshotAction L M → Prop
  | .apply entries => (pool.shared.applied :: entries.map fun entry => some entry.logId).Pairwise (· ≤ ·)
  | .install snapshot => pool.shared.applied ≤ snapshot.meta_.lastLogId
  | _ => True

/-- How far the data reflected the log whose snapshot a build is about to keep, and how many
snapshots had been kept when it was read. -/
def BuildStage.storing : BuildStage L M X → Option (Option L × Nat)
  | .store snapshot since => some (snapshot.meta_.lastLogId, since)
  | _ => none

/-- A snapshot is kept only while none of a later log id has been kept since its data was read. -/
def SnapshotPool.InTime (pool : SnapshotPool L M X) : SnapshotAction L M → Prop
  | .step i => ∀ stage ∈ pool.tasks[i]?, ∀ reading ∈ stage.storing,
    ∀ id ∈ pool.shared.history.drop reading.2, id ≤ reading.1
  | _ => True

instance decidableLogIdLe : (a b : Option L) → Decidable (a ≤ b)
  | none, _ => .isTrue Option.none_le
  | some _, none => .isFalse (by simp)
  | some a, some b => decidable_of_iff (a ≤ b) Option.some_le_some.symm

instance SnapshotPool.InOrder.decidable (pool : SnapshotPool L M X) (act : SnapshotAction L M) :
    Decidable (pool.InOrder act) :=
  match act with
  | .apply entries =>
    inferInstanceAs (Decidable ((pool.shared.applied :: entries.map fun entry => some entry.logId).Pairwise (· ≤ ·)))
  | .install snapshot => inferInstanceAs (Decidable (pool.shared.applied ≤ snapshot.meta_.lastLogId))
  | .build | .step _ | .proceed => inferInstanceAs (Decidable True)

instance SnapshotPool.InTime.decidable (pool : SnapshotPool L M X) (act : SnapshotAction L M) :
    Decidable (pool.InTime act) :=
  match act with
  | .step i => inferInstanceAs (Decidable (∀ stage ∈ pool.tasks[i]?, ∀ reading ∈ stage.storing, _))
  | .build | .apply _ | .install _ | .proceed => inferInstanceAs (Decidable True)

/-- Entries that come in order only move the data on. -/
theorem StateMachineData.applied_le {data : StateMachineData L M} {entries : List (RaftEntry L M)}
    (ordered : (data.lastAppliedLog :: entries.map fun entry => some entry.logId).Pairwise (· ≤ ·)) :
    data.lastAppliedLog ≤ (data.apply entries).1.lastAppliedLog := by
  induction entries generalizing data with
  | nil => exact logId_refl _
  | cons entry entries ih =>
    obtain ⟨before, rest⟩ := List.pairwise_cons.mp ordered
    -- Whatever an entry holds, its position is the last applied one.
    have one : (data.applyEntry entry).1.lastAppliedLog = some entry.logId := by
      unfold applyEntry
      split <;> rfl
    have onward : (data.applyEntry entry).1.lastAppliedLog ≤
        (data.apply (entry :: entries)).1.lastAppliedLog := by
      refine ih ?_
      rw [one]
      exact rest
    rw [one] at onward
    exact logId_trans (before _ List.mem_cons_self) onward

/-- How far the data reflected the log that a build has read, and how many snapshots had been kept
by then. -/
def BuildStage.reading : BuildStage L M X → Option (Option L × Nat)
  | .encode data since => some (data.lastAppliedLog, since)
  | .store snapshot since => some (snapshot.meta_.lastLogId, since)
  | .read | .done _ => none

/-- What a build has read is not ahead of what is applied, nor behind what is kept, if nothing has
been kept since. -/
def BuildStage.Behind (world : SnapshotWorld L M) (stage : BuildStage L M X) : Prop :=
  ∀ id since, stage.reading = some (id, since) → id ≤ world.applied ∧ since ≤ world.history.length ∧
    (since = world.history.length → world.kept ≤ id)

/-- A snapshot that is being installed is not older than what is applied, and its data is what is
applied. -/
def InstallStage.Ahead (world : SnapshotWorld L M) : InstallStage L M → Prop
  | .data snapshot => world.applied ≤ snapshot.meta_.lastLogId
  | .store snapshot => world.applied = snapshot.meta_.lastLogId

/-- No snapshot is ahead of what is applied, and the current one was kept last. -/
structure SnapshotPool.Sound (pool : SnapshotPool L M X) : Prop where
  kept : pool.shared.kept ≤ pool.shared.applied
  latest : ∀ id, pool.shared.history.getLast? = some id → pool.shared.kept = id
  behind : ∀ stage ∈ pool.tasks, stage.Behind pool.shared
  ahead : ∀ stage, pool.shared.installing = some stage → stage.Ahead pool.shared

/-- What was read stays behind while the data moves on. -/
theorem BuildStage.Behind.applied {world next : SnapshotWorld L M} {stage : BuildStage L M X}
    (behind : stage.Behind world) (onward : world.applied ≤ next.applied) (kept : next.kept = world.kept)
    (history : next.history = world.history) : stage.Behind next := by
  intro id since known
  rw [kept, history]
  -- Nothing is kept, so only what is applied moves on.
  obtain ⟨before, within, last⟩ := behind id since known
  exact ⟨logId_trans before onward, within, last⟩

/-- What was read stays behind while a snapshot is kept. -/
theorem BuildStage.Behind.keep {world : SnapshotWorld L M} {stage : BuildStage L M X}
    (behind : stage.Behind world) (snapshot : StoredSnapshot L M) :
    stage.Behind (world.keep snapshot) := by
  intro id since known
  -- One more is kept than when the data was read, so the last part says nothing.
  obtain ⟨before, within, _⟩ := behind id since known
  simp only [SnapshotWorld.keep_applied, SnapshotWorld.keep_history, List.length_append,
    List.length_singleton]
  exact ⟨before, by omega, by omega⟩

/-- A build keeps all snapshots behind what is applied. -/
theorem SnapshotPool.Sound.built {pool : SnapshotPool L M X} {next : SnapshotWorld L M} {i : Nat}
    {stage after : BuildStage L M X} (sound : pool.Sound) (found : pool.tasks[i]? = some stage)
    (builds : pool.shared.Builds stage next after) :
    SnapshotPool.Sound ⟨next, pool.tasks.set i after⟩ := by
  have own := sound.behind stage (List.mem_of_getElem? found)
  -- All builds but one are where they were.
  have others (world : SnapshotWorld L M) (kept : ∀ other ∈ pool.tasks, other.Behind world)
      (last : after.Behind world) : ∀ other ∈ pool.tasks.set i after, other.Behind world := by
    intro other member
    rcases List.mem_or_eq_of_mem_set member with before | rfl
    · exact kept other before
    · exact last
  cases builds with
  | reads =>
    refine ⟨sound.kept, sound.latest, others _ sound.behind ?_, sound.ahead⟩
    -- What is read is what is applied.
    intro id since known
    obtain ⟨rfl, rfl⟩ := Prod.mk.inj (Option.some.inj known)
    exact ⟨logId_refl _, le_refl _, fun _ => sound.kept⟩
  | fails error =>
    refine ⟨sound.kept, sound.latest, others _ sound.behind ?_, sound.ahead⟩
    intro id since known
    cases known
  | @encodes data since snapshot number same =>
    refine ⟨sound.kept, sound.latest, others _ sound.behind ?_, sound.ahead⟩
    intro id since known
    obtain ⟨rfl, rfl⟩ := Prod.mk.inj (Option.some.inj known)
    exact own _ _ (by rw [same]; rfl)
  | @keeps snapshot since =>
    -- What the build has read is behind what is applied, and becomes the current snapshot.
    obtain ⟨behind, _, _⟩ := own _ _ rfl
    refine ⟨behind, ?_, others _ (fun other member => (sound.behind other member).keep snapshot) ?_, ?_⟩
    · intro id last
      simpa using last
    · intro id since known
      cases known
    · intro stage known
      have ahead := sound.ahead stage known
      cases stage <;> exact ahead

/-- Every step that keeps to the order keeps all snapshots behind what is applied. -/
theorem SnapshotPool.Sound.step {display : L → String} {codec : MapCodec X}
    {pool next : SnapshotPool L M X}
    {act : SnapshotAction L M} (sound : pool.Sound) (inOrder : pool.InOrder act)
    (taken : pool.step display codec act = some next) : next.Sound := by
  cases act with
  -- A build knows nothing yet of what it will keep.
  | build =>
    obtain rfl := Option.some.inj taken
    refine ⟨sound.kept, sound.latest, ?_, sound.ahead⟩
    intro stage member
    rcases List.mem_append.mp member with before | last
    · exact sound.behind stage before
    · obtain rfl := List.mem_singleton.mp last
      intro id since known
      cases known
  | step i =>
    obtain ⟨stage, world, after, found, moved, rfl⟩ := Pool.advance_eq_some.mp taken
    exact sound.built found (SnapshotWorld.build_builds moved)
  | apply entries =>
    simp only [SnapshotPool.step] at taken
    split at taken
    · cases taken
    · rename_i idle
      obtain rfl := Option.some.inj taken
      have onward : pool.shared.applied ≤ (pool.shared.store.data.apply entries).1.lastAppliedLog :=
        StateMachineData.applied_le inOrder
      refine ⟨logId_trans sound.kept onward, sound.latest, ?_, fun stage known => ?_⟩
      · exact fun stage member => (sound.behind stage member).applied onward rfl rfl
      · -- Nothing is being installed meanwhile.
        rw [show pool.shared.installing = some stage from known] at idle
        exact absurd rfl idle
  | install snapshot =>
    simp only [SnapshotPool.step] at taken
    split at taken
    · cases taken
    · obtain rfl := Option.some.inj taken
      refine ⟨sound.kept, sound.latest, fun stage member => sound.behind stage member,
        fun stage known => ?_⟩
      obtain rfl := Option.some.inj known
      exact inOrder
  | proceed =>
    obtain ⟨world, installed, rfl⟩ := Option.map_eq_some_iff.mp taken
    rcases SnapshotWorld.install_cases installed with
      ⟨snapshot, _, rfl⟩ | ⟨snapshot, kv, installing, rfl⟩ | ⟨snapshot, installing, rfl⟩
    · exact ⟨sound.kept, sound.latest, fun stage member => sound.behind stage member,
        fun _ known => (by cases known)⟩
    · -- The data of the snapshot is not older than what was applied.
      have onward : pool.shared.applied ≤ snapshot.meta_.lastLogId := sound.ahead _ installing
      refine ⟨logId_trans sound.kept onward, sound.latest, ?_, fun stage known => ?_⟩
      · exact fun stage member => (sound.behind stage member).applied onward rfl rfl
      · obtain rfl := Option.some.inj known
        rfl
    · -- The snapshot that is installed is the one that is kept.
      have same : pool.shared.applied = snapshot.meta_.lastLogId := sound.ahead _ installing
      refine ⟨same.symm ▸ logId_refl _, ?_, ?_, fun _ known => (by cases known)⟩
      · intro id last
        show snapshot.meta_.lastLogId = id
        simpa using last
      · exact fun stage member => (sound.behind stage member).keep snapshot

/-- Every run in order keeps all snapshots behind what is applied. -/
theorem SnapshotPool.sound_of_run [Inhabited M] {display : L → String} {codec : MapCodec X}
    {trace : List (Transition (SnapshotPool L M X) (SnapshotAction L M))} {pool : SnapshotPool L M X}
    (run : Run (SnapshotPool.step display codec) SnapshotPool.InOrder .start trace pool) :
    pool.Sound := by
  have initial : (SnapshotPool.start : SnapshotPool L M X).Sound :=
    ⟨logId_refl _, fun _ last => (by cases last), fun _ member => (List.not_mem_nil member).elim,
      fun _ known => (by cases known)⟩
  exact run.invariant initial fun _ _ _ inOrder sound taken => sound.step inOrder taken

/-- A step keeps no other snapshot, or one as far as the log was applied, or that of a build. -/
theorem SnapshotPool.Sound.kept_step {display : L → String} {codec : MapCodec X}
    {pool next : SnapshotPool L M X} {act : SnapshotAction L M} (sound : pool.Sound)
    (taken : pool.step display codec act = some next) :
    (next.shared.history = pool.shared.history ∧ next.shared.kept = pool.shared.kept ∧ pool.InTime act) ∨
    (next.shared.history = pool.shared.history ++ [next.shared.kept] ∧
      next.shared.kept = pool.shared.applied ∧ pool.InTime act) ∨
    ∃ i snapshot since, act = .step i ∧ pool.tasks[i]? = some (.store snapshot since) ∧
      next.shared.history = pool.shared.history ++ [next.shared.kept] ∧
      next.shared.kept = snapshot.meta_.lastLogId := by
  cases act with
  | build =>
    obtain rfl := Option.some.inj taken
    exact .inl ⟨rfl, rfl, trivial⟩
  | step i =>
    obtain ⟨stage, world, after, found, moved, rfl⟩ := Pool.advance_eq_some.mp taken
    -- A build that keeps nothing in this step is in time.
    have inTime (other : stage.storing = none) : pool.InTime (.step i) := by
      intro task there reading storing
      rw [found] at there
      rw [← Option.some.inj there, other] at storing
      cases storing
    cases SnapshotWorld.build_builds moved with
    | reads => exact .inl ⟨rfl, rfl, inTime rfl⟩
    | fails error => exact .inl ⟨rfl, rfl, inTime rfl⟩
    | encodes number same => exact .inl ⟨rfl, rfl, inTime rfl⟩
    | @keeps snapshot since => exact .inr (.inr ⟨i, snapshot, since, rfl, found, rfl, rfl⟩)
  | apply entries =>
    simp only [SnapshotPool.step] at taken
    split at taken
    · cases taken
    · obtain rfl := Option.some.inj taken
      exact .inl ⟨rfl, rfl, trivial⟩
  | install snapshot =>
    simp only [SnapshotPool.step] at taken
    split at taken
    · cases taken
    · obtain rfl := Option.some.inj taken
      exact .inl ⟨rfl, rfl, trivial⟩
  | proceed =>
    obtain ⟨world, installed, rfl⟩ := Option.map_eq_some_iff.mp taken
    rcases SnapshotWorld.install_cases installed with
      ⟨snapshot, _, rfl⟩ | ⟨snapshot, kv, _, rfl⟩ | ⟨snapshot, installing, rfl⟩
    · exact .inl ⟨rfl, rfl, trivial⟩
    · exact .inl ⟨rfl, rfl, trivial⟩
    · -- The last step of an installation keeps what it has applied.
      have same : pool.shared.applied = snapshot.meta_.lastLogId := sound.ahead _ installing
      exact .inr (.inl ⟨rfl, same.symm, trivial⟩)

/-- While the current snapshot has never gone backwards, no snapshot ever kept is ahead of it. -/
theorem SnapshotPool.history_le [Inhabited M] {display : L → String} {codec : MapCodec X}
    {trace : List (Transition (SnapshotPool L M X) (SnapshotAction L M))} {pool : SnapshotPool L M X}
    (run : Run (SnapshotPool.step display codec) SnapshotPool.InOrder .start trace pool)
    (forward : ∀ e ∈ trace, e.pre.shared.kept ≤ e.post.shared.kept) :
    ∀ id ∈ pool.shared.history, id ≤ pool.shared.kept := by
  induction run with
  | nil => exact fun _ member => (List.not_mem_nil member).elim
  | @snoc trace pool next act earlier inOrder taken ih =>
    -- What was kept before is not ahead of the current snapshot, which has not gone backwards since.
    have before := ih fun e member => forward e (List.mem_append_left _ member)
    have last := forward ⟨pool, act, next⟩ (by simp)
    have appended (grown : next.shared.history = pool.shared.history ++ [next.shared.kept]) :
        ∀ id ∈ next.shared.history, id ≤ next.shared.kept := by
      intro id member
      rw [grown] at member
      rcases List.mem_append.mp member with old | new
      · exact logId_trans (before id old) last
      · rw [List.mem_singleton.mp new]
        exact logId_refl _
    rcases (sound_of_run earlier).kept_step taken with
      ⟨same, kept, _⟩ | ⟨grown, _, _⟩ | ⟨_, _, _, _, _, grown, _⟩
    · rw [same, kept]
      exact before
    · exact appended grown
    · exact appended grown

/-- The current snapshot never goes backwards exactly when every build keeps its snapshot before one of a
later log id is kept. -/
theorem SnapshotPool.forward_iff [Inhabited M] {display : L → String} {codec : MapCodec X}
    {trace : List (Transition (SnapshotPool L M X) (SnapshotAction L M))} {pool : SnapshotPool L M X}
    (run : Run (SnapshotPool.step display codec) SnapshotPool.InOrder .start trace pool) :
    (∀ e ∈ trace, e.pre.shared.kept ≤ e.post.shared.kept) ↔ ∀ e ∈ trace, e.pre.InTime e.act := by
  constructor
  · intro forward e member
    obtain ⟨before, after, shape⟩ := List.append_of_mem member
    obtain ⟨reached, _, taken, _⟩ := run.split shape
    have earlier := history_le reached fun f among => forward f (shape ▸ List.mem_append_left _ among)
    rcases (sound_of_run reached).kept_step taken with
      ⟨_, _, inTime⟩ | ⟨_, _, inTime⟩ | ⟨i, snapshot, since, act, found, _, kept⟩
    · exact inTime
    · exact inTime
    · -- All that was kept before is behind what is kept now.
      have last := forward e member
      rw [kept] at last
      rw [act]
      intro task there reading storing id dropped
      rw [found] at there
      obtain rfl := Option.some.inj there
      obtain rfl := Option.some.inj storing
      exact logId_trans (earlier id (List.mem_of_mem_drop dropped)) last
  · intro inTime e member
    obtain ⟨⟨_, reached⟩, _, taken⟩ := run.of_mem member
    have sound := sound_of_run reached
    rcases sound.kept_step taken with
      ⟨_, kept, _⟩ | ⟨_, kept, _⟩ | ⟨i, snapshot, since, act, found, _, kept⟩
    · -- Nothing was kept.
      rw [kept]
      exact logId_refl _
    · -- The installed snapshot is as far as what is applied, and nothing kept is ahead of that.
      rw [kept]
      exact sound.kept
    · -- A build keeps what it has read.
      rw [kept]
      obtain ⟨_, within, alone⟩ := sound.behind _ (List.mem_of_getElem? found) _ _ rfl
      rcases within.eq_or_lt with none | some
      · exact alone none
      · -- The current snapshot is the last of those kept since the data was read.
        have timely := inTime e member
        rw [act] at timely
        refine timely _ found _ rfl _ ?_
        have nonempty : e.pre.shared.history ≠ [] := List.ne_nil_of_length_pos (by omega)
        have latest := sound.latest _ (List.getLast?_eq_some_getLast nonempty)
        rw [latest]
        have dropped : e.pre.shared.history.drop since ≠ [] := by simpa using some
        rw [← List.getLast_drop dropped]
        exact List.getLast_mem dropped

/-- A build reads what has been applied up to the first entry, and keeps its snapshot when one up to
the second has been installed. -/
def slowBuild : List (SnapshotAction Nat Unit) :=
  [.apply [⟨1, .normal (.set "a" "1")⟩], .build, .step 0, .step 0,
    .install ⟨⟨some 2, ⟨none, ()⟩, "2-0"⟩, [123, 34, 97, 34, 58, 34, 49, 34, 125]⟩, .proceed, .proceed, .step 0]

/-- Such a build puts an older snapshot in the place of the installed one. -/
theorem SnapshotPool.backward :
    ¬ ∀ (display : Nat → String) (codec : MapCodec Unit)
      (trace : List (Transition (SnapshotPool Nat Unit Unit) (SnapshotAction Nat Unit)))
      (pool : SnapshotPool Nat Unit Unit), codec.RoundTrips →
      Run (SnapshotPool.step display codec) SnapshotPool.InOrder .start trace pool →
      ∀ e ∈ trace, e.pre.shared.kept ≤ e.post.shared.kept := by
  -- In the run that is computed a slow build stores its snapshot after the installation.
  intro always
  have recorded : ∃ ran ∈ record (SnapshotPool.step toString textOfOne) .start slowBuild,
      (∀ e ∈ ran.1, e.pre.InOrder e.act) ∧ ∃ e ∈ ran.1, ¬ e.pre.shared.kept ≤ e.post.shared.kept := by
    decide +kernel
  obtain ⟨⟨trace, pool⟩, ran, inOrder, e, member, falls⟩ := recorded
  have run := ((run_of_record .nil ran).strengthen inOrder).mono fun _ _ both => both.2
  exact falls (always _ _ trace pool textOfOne_roundTrips run e member)

theorem SnapshotPool.forward_iff_slowBuild :
    ∃ ran ∈ record (SnapshotPool.step toString textOfOne) .start (slowBuild.take 7),
      ∀ e ∈ ran.1, e.pre.shared.kept ≤ e.post.shared.kept := by
  have recorded : ∃ ran ∈ record (SnapshotPool.step toString textOfOne) .start (slowBuild.take 7),
      (∀ e ∈ ran.1, e.pre.InOrder e.act) ∧ ∀ e ∈ ran.1, e.pre.InTime e.act := by
    decide +kernel
  obtain ⟨⟨trace, pool⟩, ran, inOrder, inTime⟩ := recorded
  have run := ((run_of_record .nil ran).strengthen inOrder).mono fun _ _ both => both.2
  exact ⟨(trace, pool), ran, (SnapshotPool.forward_iff run).mpr inTime⟩

end Qaas
