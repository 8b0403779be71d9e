import Qaas.Audit.Logger

/-! Whether the two counters of an audit log account for every event. -/

namespace Qaas

open Concurrency

variable {E : Type}

/-- The record that a call logs. -/
def AuditTask.record : AuditTask E → Option (AuditRecord E)
  | .log record _ => some record
  | .worker _ => none

/-- Every record that has been logged. -/
def AuditPool.logged (pool : AuditPool E) : List (AuditRecord E) :=
  pool.tasks.filterMap AuditTask.record

/-- A call of `log` that has returned. -/
def AuditTask.returned : AuditTask E → Nat
  | .log _ .returned => 1
  | _ => 0

/-- The calls of `log` that have been made. -/
def AuditPool.made (pool : AuditPool E) : Nat :=
  tally AuditTask.returned pool.tasks

/-- A worker has a record in hand. -/
def AuditTask.busy : AuditTask E → Nat
  | .worker (.append _) | .worker .count => 1
  | _ => 0

/-- The channel is empty, and the workers have nothing to do. -/
def AuditPool.Quiet (pool : AuditPool E) : Prop :=
  pool.shared.channel = [] ∧ ∀ task ∈ pool.tasks, task.busy = 0

instance AuditPool.Quiet.decidable (pool : AuditPool E) : Decidable pool.Quiet :=
  decidable_of_iff (pool.shared.channel.isEmpty = true ∧ ∀ task ∈ pool.tasks, task.busy = 0) <| by
    rw [List.isEmpty_iff]
    rfl

/-- An append returns an error. -/
def AuditPool.Fails (pool : AuditPool E) : AuditAction E → Prop
  | .step i outcome => outcome.acknowledged = false ∧ ∃ record, pool.tasks[i]? = some (.worker (.append record))
  | _ => False

/-- The record that a worker is about to append. -/
def AuditTask.held : AuditTask E → Option (AuditRecord E)
  | .worker (.append record) => some record
  | _ => none

/-- The record that a call has sent, or had refused. -/
def AuditTask.sent : AuditTask E → Option (AuditRecord E)
  | .log record .refused | .log record .returned => some record
  | _ => none

/-- An append puts its record into the file at most once. -/
theorem Log.count_written_append {R : Type} [DecidableEq R] (log : Log R) (record other : R)
    (outcome : AppendOutcome) :
    (log.append record outcome).1.written.count other ≤
      log.written.count other + if record = other then 1 else 0 := by
  -- Whether it lands behind a torn record or in front, the file gains this one.
  have landed : (log.land record).written.count other =
      log.written.count other + if record = other then 1 else 0 := by
    unfold land written
    split <;> simp [List.count_append, List.count_cons] <;> omega
  rw [append_fst]
  split
  · exact landed.le
  · split <;> exact Nat.le_add_right _ _

/-- What one step of a task does. -/
inductive AuditLogger.Moved (logger : AuditLogger E) (outcome : AppendOutcome) :
    AuditTask E → AuditLogger E → AuditTask E → Prop
  | locks : Moved logger outcome (.worker .lock) { logger with receiverLocked := true } (.worker .recv)
  | takes {record : AuditRecord E} {rest : List (AuditRecord E)} : logger.channel = record :: rest →
      Moved logger outcome (.worker .recv) { logger with channel := rest, receiverLocked := false }
        (.worker (.append record))
  | stops : Moved logger outcome (.worker .recv)
      { logger with receiverLocked := false, receivers := logger.receivers - 1 } (.worker .stopped)
  | appends (record : AuditRecord E) : outcome.acknowledged = true →
      Moved logger outcome (.worker (.append record))
        { logger with wal := (logger.wal.append record outcome).1 } (.worker .count)
  | fails (record : AuditRecord E) : outcome.acknowledged = false →
      Moved logger outcome (.worker (.append record))
        { logger with wal := (logger.wal.append record outcome).1, failures := logger.failures + 1 }
        (.worker .lock)
  | counts : Moved logger outcome (.worker .count)
      { logger with written := logger.written + 1, writes := logger.writes + 1 } (.worker .lock)
  | sends (record : AuditRecord E) :
      Moved logger outcome (.log record .trySend) { logger with channel := logger.channel ++ [record] }
        (.log record .returned)
  | refuses (record : AuditRecord E) :
      Moved logger outcome (.log record .trySend) logger (.log record .refused)
  | drops (record : AuditRecord E) :
      Moved logger outcome (.log record .refused)
        { logger with dropped := logger.dropped + 1, drops := logger.drops + 1 } (.log record .returned)

/-- Every step of a worker is one of these. -/
theorem AuditLogger.work_moved {logger next : AuditLogger E} {outcome : AppendOutcome}
    {stage after : WorkerStage E} (taken : logger.work outcome stage = some (next, after)) :
    logger.Moved outcome (.worker stage) next (.worker after) := by
  cases stage with
  | lock =>
    simp only [work] at taken
    split at taken
    · cases taken
    · obtain ⟨rfl, rfl⟩ := Prod.mk.inj (Option.some.inj taken)
      exact .locks
  | recv =>
    simp only [work] at taken
    -- A worker stops when the channel is empty and no more is to come.
    split at taken
    · rename_i waiting
      obtain ⟨rfl, rfl⟩ := Prod.mk.inj (Option.some.inj taken)
      exact .takes waiting
    · split at taken
      · obtain ⟨rfl, rfl⟩ := Prod.mk.inj (Option.some.inj taken)
        exact .stops
      · cases taken
  | append record =>
    simp only [work, Log.append_snd] at taken
    split at taken
    · rename_i good
      obtain ⟨rfl, rfl⟩ := Prod.mk.inj (Option.some.inj taken)
      exact .appends record good
    · rename_i bad
      obtain ⟨rfl, rfl⟩ := Prod.mk.inj (Option.some.inj taken)
      exact .fails record (by simpa using bad)
  | count =>
    obtain ⟨rfl, rfl⟩ := Prod.mk.inj (Option.some.inj taken)
    exact .counts
  | stopped => cases taken

/-- Every step of a call of `log` is one of these. -/
theorem AuditLogger.log_moved {logger next : AuditLogger E} {outcome : AppendOutcome}
    {record : AuditRecord E} {stage after : LogStage}
    (taken : logger.log record stage = some (next, after)) :
    logger.Moved outcome (.log record stage) next (.log record after) := by
  cases stage with
  | trySend =>
    simp only [log, trySend] at taken
    split at taken
    · -- The channel takes the record when it has room.
      rename_i accepted
      obtain ⟨rfl, rfl⟩ := Prod.mk.inj (Option.some.inj taken)
      split at accepted
      · cases accepted
      · split at accepted
        · obtain rfl := Except.ok.inj accepted
          exact .sends record
        · cases accepted
    · obtain ⟨rfl, rfl⟩ := Prod.mk.inj (Option.some.inj taken)
      exact .refuses record
    · obtain ⟨rfl, rfl⟩ := Prod.mk.inj (Option.some.inj taken)
      exact .refuses record
  | refused =>
    obtain ⟨rfl, rfl⟩ := Prod.mk.inj (Option.some.inj taken)
    exact .drops record
  | returned => cases taken

/-- Every step of a task is one of these. -/
theorem AuditLogger.move_moved {logger next : AuditLogger E} {outcome : AppendOutcome}
    {task after : AuditTask E} (taken : logger.move outcome task = some (next, after)) :
    logger.Moved outcome task next after := by
  -- A task is the worker or a call, and each has its own steps.
  cases task with
  | worker stage =>
    obtain ⟨⟨_, _⟩, worked, same⟩ := Option.map_eq_some_iff.mp taken
    obtain ⟨rfl, rfl⟩ := Prod.mk.inj same
    exact work_moved worked
  | log record stage =>
    obtain ⟨⟨_, _⟩, logged, same⟩ := Option.map_eq_some_iff.mp taken
    obtain ⟨rfl, rfl⟩ := Prod.mk.inj same
    exact log_moved logged

section

variable [DecidableEq E]

/-- Every call that has returned is accounted for, and every record in the file, in the channel or
in hand was there before or has been sent. -/
structure AuditPool.Sound (wal : Log (AuditRecord E)) (pool : AuditPool E) : Prop where
  written : pool.shared.written.toNat = pool.shared.writes % 2 ^ 64
  dropped : pool.shared.dropped.toNat = pool.shared.drops % 2 ^ 64
  balance : pool.made = pool.shared.writes + pool.shared.drops + pool.shared.failures +
    pool.shared.channel.length + tally AuditTask.busy pool.tasks
  once : ∀ record, pool.shared.wal.written.count record + pool.shared.channel.count record +
      tally (share AuditTask.held record) pool.tasks ≤
    wal.written.count record + tally (share AuditTask.sent record) pool.tasks

/-- A task that moves keeps the accounts, if its own share of them is right. -/
theorem AuditPool.Sound.replaced {wal : Log (AuditRecord E)} {pool : AuditPool E} {i : Nat}
    {task after : AuditTask E} {next : AuditLogger E} (sound : pool.Sound wal)
    (found : pool.tasks[i]? = some task)
    (written : next.written.toNat = next.writes % 2 ^ 64)
    (dropped : next.dropped.toNat = next.drops % 2 ^ 64)
    (balance : after.returned + pool.shared.writes + pool.shared.drops + pool.shared.failures +
        pool.shared.channel.length + task.busy =
      task.returned + next.writes + next.drops + next.failures + next.channel.length + after.busy)
    (once : ∀ record, next.wal.written.count record + next.channel.count record +
        share AuditTask.held record after + share AuditTask.sent record task ≤
      pool.shared.wal.written.count record + pool.shared.channel.count record +
        share AuditTask.held record task + share AuditTask.sent record after) :
    AuditPool.Sound wal ⟨next, pool.tasks.set i after⟩ := by
  refine ⟨written, dropped, ?_, fun record => ?_⟩
  · -- All other tasks keep their shares.
    have before := sound.balance
    have returned := tally_set AuditTask.returned after found
    have busy := tally_set AuditTask.busy after found
    unfold AuditPool.made at before ⊢
    simp only
    omega
  · have before := sound.once record
    have own := once record
    have held := tally_set (share AuditTask.held record) after found
    have sent := tally_set (share AuditTask.sent record) after found
    simp only
    omega

/-- One more event in a 64-bit count. -/
theorem toNat_succ {counter : UInt64} {count : Nat} (counted : counter.toNat = count % 2 ^ 64) :
    (counter + 1).toNat = (count + 1) % 2 ^ 64 := by
  rw [UInt64.toNat_add, show (1 : UInt64).toNat = 1 from rfl]
  omega

/-- A task that moves keeps the accounts. -/
theorem AuditPool.Sound.moved {wal : Log (AuditRecord E)} {pool : AuditPool E} {i : Nat}
    {task after : AuditTask E} {next : AuditLogger E} {outcome : AppendOutcome} (sound : pool.Sound wal)
    (found : pool.tasks[i]? = some task) (moved : pool.shared.Moved outcome task next after) :
    AuditPool.Sound wal ⟨next, pool.tasks.set i after⟩ := by
  cases moved with
  | locks =>
    -- A lock moves no record.
    refine sound.replaced found sound.written sound.dropped ?_ fun other => ?_
    · simp [AuditTask.returned, AuditTask.busy]
    · simp [share, AuditTask.held, AuditTask.sent]
  | takes waiting =>
    -- The record leaves the channel for the hand of the worker.
    refine sound.replaced found sound.written sound.dropped ?_ fun other => ?_
    · simp only [waiting, AuditTask.returned, AuditTask.busy, List.length_cons]
      omega
    · simp [waiting, share, AuditTask.held, AuditTask.sent, List.count_cons]
      omega
  | stops =>
    refine sound.replaced found sound.written sound.dropped ?_ fun other => ?_
    · simp [AuditTask.returned, AuditTask.busy]
    · simp [share, AuditTask.held, AuditTask.sent]
  | appends record _ =>
    -- The record leaves the hand for the file, and the worker is busy until it has counted it.
    refine sound.replaced found sound.written sound.dropped ?_ fun other => ?_
    · simp [AuditTask.returned, AuditTask.busy]
    · have landed := pool.shared.wal.count_written_append record other outcome
      simp [share, AuditTask.held, AuditTask.sent]
      omega
  | fails record _ =>
    -- A failed append may have put the record into the file all the same, but nobody tries again.
    refine sound.replaced found sound.written sound.dropped ?_ fun other => ?_
    · simp only [AuditTask.returned, AuditTask.busy]
      omega
    · have landed := pool.shared.wal.count_written_append record other outcome
      simp [share, AuditTask.held, AuditTask.sent]
      omega
  | counts =>
    -- What the worker was busy with is now one of those written.
    refine sound.replaced found (toNat_succ sound.written) sound.dropped ?_ fun other => ?_
    · simp only [AuditTask.returned, AuditTask.busy]
      omega
    · simp [share, AuditTask.held, AuditTask.sent]
  | sends record =>
    -- The call has returned, and its record is in the channel.
    refine sound.replaced found sound.written sound.dropped ?_ fun other => ?_
    · simp only [AuditTask.returned, AuditTask.busy, List.length_append, List.length_singleton]
      omega
    · simp [share, AuditTask.held, AuditTask.sent, List.count_append, List.count_singleton]
      omega
  | refuses record =>
    refine sound.replaced found sound.written sound.dropped ?_ fun other => ?_
    · simp [AuditTask.returned, AuditTask.busy]
    · simp [share, AuditTask.held, AuditTask.sent]
  | drops record =>
    -- The call has returned, and its record is one of those dropped.
    refine sound.replaced found sound.written (toNat_succ sound.dropped) ?_ fun other => ?_
    · simp only [AuditTask.returned, AuditTask.busy]
      omega
    · simp [share, AuditTask.held, AuditTask.sent]

/-- Every step keeps the accounts. -/
theorem AuditPool.Sound.step {wal : Log (AuditRecord E)} {pool next : AuditPool E} {act : AuditAction E}
    (sound : pool.Sound wal) (taken : pool.step act = some next) : next.Sound wal := by
  cases act with
  | log record =>
    simp only [AuditPool.step] at taken
    split at taken
    · cases taken
    · -- A call that begins has no share of anything yet.
      obtain rfl := Option.some.inj taken
      refine ⟨sound.written, sound.dropped, ?_, fun other => ?_⟩
      · have before := sound.balance
        unfold AuditPool.made at before ⊢
        simpa [Pool.spawn, AuditTask.returned, AuditTask.busy] using before
      · have before := sound.once other
        simpa [Pool.spawn, share, AuditTask.held, AuditTask.sent] using before
  | step i outcome =>
    obtain ⟨task, shared, after, found, moved, rfl⟩ := Pool.advance_eq_some.mp taken
    exact sound.moved found (AuditLogger.move_moved moved)
  | drop =>
    simp only [AuditPool.step] at taken
    split at taken
    · cases taken
    · obtain rfl := Option.some.inj taken
      exact ⟨sound.written, sound.dropped, sound.balance, sound.once⟩

/-- A logger that has just been opened has nothing to account for. -/
theorem AuditPool.sound_of_opened {config : AuditLoggerConfig} {wal : Log (AuditRecord E)}
    {start : AuditPool E} (opened : AuditPool.opened config wal = some start) : start.Sound wal := by
  unfold AuditPool.opened at opened
  split at opened
  · cases opened
  · obtain rfl := Option.some.inj opened
    have replicated (f : AuditTask E → Nat) (zero : f (.worker .lock) = 0) :
        tally f (List.replicate (max config.workers 1) (.worker .lock)) = 0 :=
      tally_eq_zero.mpr fun task member => (List.eq_of_mem_replicate member) ▸ zero
    refine ⟨rfl, rfl, ?_, fun record => ?_⟩
    · -- The workers that have just been started have nothing in hand.
      unfold AuditPool.made
      rw [replicated _ rfl, replicated _ rfl]
      rfl
    · rw [replicated _ rfl, replicated _ rfl]
      simp

/-- Every run keeps the accounts. -/
theorem AuditPool.sound_of_run {config : AuditLoggerConfig} {wal : Log (AuditRecord E)}
    {start pool : AuditPool E} {trace : List (Transition (AuditPool E) (AuditAction E))}
    {ok : AuditPool E → AuditAction E → Prop} (opened : AuditPool.opened config wal = some start)
    (run : Run AuditPool.step ok start trace pool) : pool.Sound wal :=
  run.invariant (sound_of_opened opened) fun _ _ _ _ sound taken => sound.step taken

end

/-- The failures are counted. -/
theorem AuditPool.failures_step {pool next : AuditPool E} {act : AuditAction E}
    (taken : pool.step act = some next) :
    next.shared.failures = pool.shared.failures ∧ ¬ pool.Fails act ∨
      next.shared.failures = pool.shared.failures + 1 ∧ pool.Fails act := by
  -- Only the worker writes, and only a write that fails is counted.
  cases act with
  | log record =>
    simp only [AuditPool.step] at taken
    split at taken
    · cases taken
    · obtain rfl := Option.some.inj taken
      exact .inl ⟨rfl, id⟩
  | step i outcome =>
    obtain ⟨task, shared, after, found, moved, rfl⟩ := Pool.advance_eq_some.mp taken
    have other (own : ∀ record, task ≠ .worker (.append record)) : ¬ pool.Fails (.step i outcome) := by
      intro ⟨_, record, there⟩
      rw [found] at there
      exact own record (Option.some.inj there)
    cases AuditLogger.move_moved moved with
    | appends record good => exact .inl ⟨rfl, fun fails => by cases good.symm.trans fails.1⟩
    | fails record bad => exact .inr ⟨rfl, bad, record, found⟩
    | _ => exact .inl ⟨rfl, other (by simp)⟩
  | drop =>
    simp only [AuditPool.step] at taken
    split at taken
    · cases taken
    · obtain rfl := Option.some.inj taken
      exact .inl ⟨rfl, id⟩

/-- Nothing has failed exactly when no step of the run did. -/
theorem AuditPool.failures_of_run {config : AuditLoggerConfig} {wal : Log (AuditRecord E)}
    {start pool : AuditPool E} {trace : List (Transition (AuditPool E) (AuditAction E))}
    {ok : AuditPool E → AuditAction E → Prop} (opened : AuditPool.opened config wal = some start)
    (run : Run AuditPool.step ok start trace pool) :
    pool.shared.failures = 0 ↔ ∀ e ∈ trace, ¬ e.pre.Fails e.act := by
  induction run with
  | nil =>
    unfold AuditPool.opened at opened
    split at opened
    · cases opened
    · obtain rfl := Option.some.inj opened
      simp
  | @snoc trace pool next act _ _ taken ih =>
    rcases failures_step taken with ⟨same, fine⟩ | ⟨more, fails⟩
    · rw [same, ih]
      constructor
      · intro earlier e member
        rcases List.mem_append.mp member with before | last
        · exact earlier e before
        · rw [List.mem_singleton.mp last]
          exact fine
      · exact fun all e member => all e (List.mem_append_left _ member)
    · -- The step that has just failed is one of the run.
      constructor
      · intro zero
        omega
      · intro fine
        exact absurd fails (fine ⟨pool, act, next⟩ (by simp))

/-- At rest the counters account for every call, and no record is in the file more often than it was
logged, exactly when no append has failed and neither counter has wrapped around. -/
theorem AuditPool.accounted_iff {config : AuditLoggerConfig} {wal : Log (AuditRecord E)}
    {start pool : AuditPool E} {trace : List (Transition (AuditPool E) (AuditAction E))}
    (opened : AuditPool.opened config wal = some start)
    (run : Run AuditPool.step (fun _ _ => True) start trace pool) (quiet : pool.Quiet) :
    (pool.shared.written.toNat + pool.shared.dropped.toNat = pool.made ∧
      (pool.shared.wal.written : Multiset (AuditRecord E)) ≤ wal.written + pool.logged) ↔
    (∀ e ∈ trace, ¬ e.pre.Fails e.act) ∧ pool.shared.writes < 2 ^ 64 ∧ pool.shared.drops < 2 ^ 64 := by
  classical
  have sound := sound_of_run opened run
  rw [← failures_of_run opened run]
  obtain ⟨empty, idle⟩ := quiet
  have balance := sound.balance
  rw [empty, tally_eq_zero.mpr idle, List.length_nil] at balance
  have once : (pool.shared.wal.written : Multiset (AuditRecord E)) ≤ wal.written + pool.logged := by
    refine Multiset.le_iff_count.mpr fun record => ?_
    have bound := sound.once record
    -- What has been sent has been logged.
    have sent : tally (share AuditTask.sent record) pool.tasks ≤
      tally (share AuditTask.record record) pool.tasks := by
      refine tally_le_tally fun task _ => ?_
      unfold share
      split
      · rename_i known
        have logs : task.record = some record := by
          unfold AuditTask.sent at known
          split at known
          · exact known
          · exact known
          · cases known
        rw [if_pos logs]
      · exact Nat.zero_le _
    rw [Multiset.count_add, AuditPool.logged, count_filterMap, Multiset.coe_count, Multiset.coe_count]
    omega
  have written := sound.written
  have dropped := sound.dropped
  have writes := Nat.mod_le pool.shared.writes (2 ^ 64)
  have drops := Nat.mod_le pool.shared.drops (2 ^ 64)
  -- Nothing is in the channel or in hand, so what is missing to the calls are failures and wraps.
  constructor
  · intro ⟨same, _⟩
    omega
  · intro ⟨unfailed, few, fewer⟩
    refine ⟨?_, once⟩
    rw [written, dropped, Nat.mod_eq_of_lt few, Nat.mod_eq_of_lt fewer]
    omega

/-- One worker, and room for one record. -/
def smallLogger : AuditLoggerConfig :=
  ⟨1, 1⟩

/-- An event is logged, and the worker takes it and appends it. -/
def loggedOnce (outcome : AppendOutcome) : List (AuditAction Unit) :=
  [.log ⟨⟨0⟩, ()⟩, .step 1 .ok, .step 0 .ok, .step 0 .ok, .step 0 outcome]

/-- An event whose append has failed is in neither count. -/
theorem AuditPool.event_unaccounted :
    ¬ ∀ (config : AuditLoggerConfig) (wal : Log (AuditRecord Unit)) (start pool : AuditPool Unit)
      (trace : List (Transition (AuditPool Unit) (AuditAction Unit))),
      AuditPool.opened config wal = some start → Run AuditPool.step (fun _ _ => True) start trace pool →
      pool.Quiet → pool.shared.written.toNat + pool.shared.dropped.toNat = pool.made ∧
        (pool.shared.wal.written : Multiset (AuditRecord Unit)) ≤ wal.written + pool.logged := by
  -- In the run that is computed the one append fails.
  intro always
  have recorded : ∃ start ∈ AuditPool.opened smallLogger ({} : Log (AuditRecord Unit)),
      ∃ ran ∈ record AuditPool.step start (loggedOnce .failedEmpty),
        ran.2.Quiet ∧ ran.2.shared.written.toNat + ran.2.shared.dropped.toNat ≠ ran.2.made := by
    decide +kernel
  obtain ⟨start, opened, ⟨trace, pool⟩, ran, quiet, lost⟩ := recorded
  exact lost (always _ _ start pool trace opened (run_of_record .nil ran) quiet).1

theorem AuditPool.accounted_iff_loggedOnce :
    ∃ start ∈ AuditPool.opened smallLogger ({} : Log (AuditRecord Unit)),
      ∃ ran ∈ record AuditPool.step start (loggedOnce .ok ++ [.step 0 .ok]),
        ran.2.shared.written.toNat + ran.2.shared.dropped.toNat = ran.2.made ∧ ran.2.made = 1 := by
  have recorded : ∃ start ∈ AuditPool.opened smallLogger ({} : Log (AuditRecord Unit)),
      ∃ ran ∈ record AuditPool.step start (loggedOnce .ok ++ [.step 0 .ok]),
        ran.2.Quiet ∧ ran.2.shared.failures = 0 ∧ ran.2.shared.writes < 2 ^ 64 ∧
          ran.2.shared.drops < 2 ^ 64 ∧ ran.2.made = 1 := by
    decide +kernel
  obtain ⟨start, opened, ⟨trace, pool⟩, ran, quiet, none, few, fewer, one⟩ := recorded
  have run := run_of_record .nil ran
  have fine := (AuditPool.failures_of_run opened run).mp none
  exact ⟨start, opened, (trace, pool), ran,
    ((AuditPool.accounted_iff opened run quiet).mpr ⟨fine, few, fewer⟩).1, one⟩

end Qaas
