import Qaas.Group.Checkpoints
import Qaas.Group.Files
import Qaas.Group.Polling

/-! Whatever a group gives out, a caller has handed in, or the logs that it was opened on held. -/

namespace Qaas

open Concurrency

variable {T V : Type}

/-- What has been said of the messages of a queue. -/
structure Handed (T V : Type) where
  issued : Message T → Prop
  saved : MessageId → V → Prop
  shown : MessageId → V → Bool → Prop
  blamed : MessageId → String → Prop
  judged : MessageId → TriageVerdict → Prop

/-- Everything said in one place is said in the other too. -/
structure Handed.Within (handed more : Handed T V) : Prop where
  issued : ∀ message, handed.issued message → more.issued message
  saved : ∀ id state, handed.saved id state → more.saved id state
  shown : ∀ id data isFinal, handed.shown id data isFinal → more.shown id data isFinal
  blamed : ∀ id reason, handed.blamed id reason → more.blamed id reason
  judged : ∀ id verdict, handed.judged id verdict → more.judged id verdict

/-- A checkpoint of a message, if there is one, has been saved for it. -/
def Handed.Saves (handed : Handed T V) (id : MessageId) (checkpoint : Option V) : Prop :=
  ∀ state ∈ checkpoint, handed.saved id state

/-- A reason for a failure of a message is a consumer's, or that of an expired lease. -/
def Handed.Blames (handed : Handed T V) (id : MessageId) (reason : Option String) : Prop :=
  ∀ text ∈ reason, text = "visibility timeout expired" ∨ handed.blamed id text

/-- A claim carries its message, and a checkpoint of it. -/
structure Claim.Genuine (handed : Handed T V) (claim : Claim T V) : Prop where
  message : ∃ key, handed.issued ⟨claim.id, claim.item, key⟩ ∧
    claim.idempotencyKey = effectiveIdempotencyKey claim.id key
  checkpoint : handed.Saves claim.id claim.checkpoint

/-- A dead letter tells of its message what has been said of it. -/
structure DeadLetter.Genuine (handed : Handed T V) (deadLetter : DeadLetter T V) : Prop where
  message : handed.issued deadLetter.message
  checkpoint : handed.Saves deadLetter.id deadLetter.checkpoint
  lastError : handed.Blames deadLetter.id deadLetter.lastError
  triage : ∀ verdict ∈ deadLetter.triage, handed.judged deadLetter.id verdict

/-- A group holds nothing of its messages but what has been said of them. -/
structure ConsumerGroup.Genuine (handed : Handed T V) (group : ConsumerGroup T V) : Prop
    extends Sourced handed.issued group where
  keeps : group.state.Keeps handed.Saves
  streams : ∀ id lease, group.state.leased.lookup id = some lease →
    ∀ chunk ∈ lease.stream, handed.shown id chunk.data chunk.isFinal
  buried : ∀ id deadLetter, group.dlq.entries.lookup id = some deadLetter → deadLetter.Genuine handed
  checkpoints : ∀ id state, WalRecord.checkpoint id state ∈ group.wal.records → handed.saved id state
  letters : ∀ deadLetter, DlqRecord.deadLetter deadLetter ∈ group.dlq.wal.records → deadLetter.Genuine handed
  verdicts : ∀ id verdict, DlqRecord.annotate id verdict ∈ group.dlq.wal.records → handed.judged id verdict

/-- What a call says is among what has been said. -/
structure Call.Says (handed : Handed T V) (call : Call T V) : Prop where
  saved : ∀ id token state, call = .checkpoint id token state → handed.saved id state
  shown : ∀ id token data isFinal, call = .publishPartialResult id token data isFinal →
    handed.shown id data isFinal
  blamed : ∀ id token reason, call = .nack id token (some reason) → handed.blamed id reason
  judged : ∀ id verdict, call = .annotateDeadLetter id verdict → handed.judged id verdict

/-- What an operation returns is what has been said of the message that it asked for. -/
def Result.Genuine (handed : Handed T V) (call : Call T V) : Result T V → Prop
  -- An enqueue is told of itself, or of a message with the same key.
  | .message id => ∃ message item, call = .enqueue message ∧ handed.issued ⟨id, item, message.idempotencyKey⟩
  | .claimed claim => claim.Genuine handed
  | .polled (.chunks chunks) => ∃ id after, call = .partialResultsSince id after ∧
    ∀ chunk ∈ chunks, after < chunk.sequence ∧ handed.shown id chunk.data chunk.isFinal
  | _ => True

/-- What an operation is about to return, or has returned. -/
def Pc.tells : Pc T V → Option (Result T V)
  | .releaseKey _ _ result | .notifyOne result | .done result => some result
  | _ => none

/-- An operation has nothing of its messages in hand but what has been said of them. -/
structure Pc.Genuine (handed : Handed T V) (call : Call T V) (pc : Pc T V) : Prop where
  messages : ∀ message ∈ pc.messages, handed.issued message
  failing : ∀ failed ∈ pc.failing,
    handed.Saves failed.id failed.checkpoint ∧ handed.Blames failed.id failed.reason
  burying : ∀ deadLetter caller, pc = .insertDeadLetter deadLetter caller → deadLetter.Genuine handed
  told : ∀ result ∈ pc.tells, result.Genuine handed call

section

variable {handed more : Handed T V} {group group' : ConsumerGroup T V}

theorem Handed.Saves.mono {id : MessageId} {checkpoint : Option V} (saves : handed.Saves id checkpoint)
    (within : handed.Within more) : more.Saves id checkpoint :=
  fun state found => within.saved id state (saves state found)

theorem Handed.Blames.mono {id : MessageId} {reason : Option String} (blames : handed.Blames id reason)
    (within : handed.Within more) : more.Blames id reason :=
  fun text found => (blames text found).imp_right (within.blamed id text)

theorem Claim.Genuine.mono {claim : Claim T V} (genuine : claim.Genuine handed) (within : handed.Within more) :
    claim.Genuine more := by
  obtain ⟨key, known, effective⟩ := genuine.message
  exact ⟨⟨key, within.issued _ known, effective⟩, genuine.checkpoint.mono within⟩

theorem DeadLetter.Genuine.mono {deadLetter : DeadLetter T V} (genuine : deadLetter.Genuine handed)
    (within : handed.Within more) : deadLetter.Genuine more where
  message := within.issued _ genuine.message
  checkpoint := genuine.checkpoint.mono within
  lastError := genuine.lastError.mono within
  triage verdict found := within.judged _ _ (genuine.triage verdict found)

/-- What a group holds has still been said when more has. -/
theorem ConsumerGroup.Genuine.mono (genuine : group.Genuine handed) (within : handed.Within more) :
    group.Genuine more where
  toSourced := genuine.toSourced.mono within.issued
  keeps :=
    { pending := fun entry member => (genuine.keeps.pending entry member).mono within
      delayed := fun entry member => (genuine.keeps.delayed entry member).mono within
      leased := fun id lease found => (genuine.keeps.leased id lease found).mono within }
  streams id lease found chunk member := within.shown _ _ _ (genuine.streams id lease found chunk member)
  buried id deadLetter found := (genuine.buried id deadLetter found).mono within
  checkpoints id state member := within.saved id state (genuine.checkpoints id state member)
  letters deadLetter member := (genuine.letters deadLetter member).mono within
  verdicts id verdict member := within.judged id verdict (genuine.verdicts id verdict member)

theorem Result.Genuine.mono {call : Call T V} {result : Result T V} (genuine : result.Genuine handed call)
    (within : handed.Within more) : result.Genuine more call := by
  -- Only an enqueue, a claim and a poll tell of a message.
  cases result with
  | message id =>
    obtain ⟨message, item, called, known⟩ := genuine
    exact ⟨message, item, called, within.issued _ known⟩
  | claimed claim => exact Claim.Genuine.mono genuine within
  | polled poll =>
    cases poll with
    | chunks chunks =>
      obtain ⟨id, after, called, known⟩ := genuine
      exact ⟨id, after, called, fun chunk member =>
        ⟨(known chunk member).1, within.shown _ _ _ (known chunk member).2⟩⟩
    | notActive => exact True.intro
  | _ => exact True.intro

theorem Pc.Genuine.mono {call : Call T V} {pc : Pc T V} (genuine : pc.Genuine handed call)
    (within : handed.Within more) : pc.Genuine more call where
  messages message member := within.issued message (genuine.messages message member)
  failing failed member := ⟨(genuine.failing failed member).1.mono within, (genuine.failing failed member).2.mono within⟩
  burying deadLetter caller here := (genuine.burying deadLetter caller here).mono within
  told result here := (genuine.told result here).mono within

end

section

variable {handed : Handed T V} {now : Instant} {wallClock : Timestamp} {env : StepEnv}
  {group group' : ConsumerGroup T V} {pc next : Pc T V} {call : Call T V}

/-- A record that a step adds to the main log is the one that the operation was about to append. -/
theorem Moved.mainLog (moved : Moved now wallClock env group pc group' next) {record : WalRecord T V}
    (member : record ∈ group'.wal.records) : record ∈ group.wal.records ∨ pc.mainRecord = some record := by
  rw [moved.wal] at member
  -- Whatever comes of an append, no other record gets into the log.
  cases own : pc.mainRecord with
  | none =>
    rw [own] at member
    exact .inl member
  | some appended =>
    rw [own] at member
    exact (Log.mem_records_append member).imp_right fun same => congrArg some same.symm

/-- A record that a step adds to the dead-letter log is the one that the operation was about to append. -/
theorem Moved.dlqLog (moved : Moved now wallClock env group pc group' next) {record : DlqRecord T V}
    (member : record ∈ group'.dlq.wal.records) :
    record ∈ group.dlq.wal.records ∨ pc.dlqRecord group.retryPolicy wallClock = some record := by
  -- A step appends at most one record to this log.
  rw [moved.dlqWal] at member
  cases own : pc.dlqRecord group.retryPolicy wallClock with
  | none =>
    rw [own] at member
    exact .inl member
  | some appended =>
    rw [own] at member
    exact (Log.mem_records_append member).imp_right fun same => congrArg some same.symm

/-- A step stores a checkpoint only for a call that has saved it. -/
theorem Moved.saves (moved : Moved now wallClock env group pc group' next)
    (keeps : group.state.Keeps handed.Saves)
    (failing : ∀ failed ∈ pc.failing, handed.Saves failed.id failed.checkpoint)
    (stored : ∀ id token state, pc = .storeCheckpoint id token state → handed.saved id state) :
    group'.state.Keeps handed.Saves ∧ ∀ failed ∈ next.failing, handed.Saves failed.id failed.checkpoint := by
  -- Only the step that stores a checkpoint puts a new one anywhere.
  by_cases storing : ∃ id token state, pc = .storeCheckpoint id token state
  · obtain ⟨id, token, state, rfl⟩ := storing
    cases moved with
    | quiet changed quiet =>
      cases quiet
      exact ⟨keeps, List.forall_mem_nil _⟩
    | @checkpointStored _ _ _ lease active =>
      refine ⟨⟨keeps.pending, keeps.delayed, fun other found leased => ?_⟩, List.forall_mem_nil _⟩
      rcases lookup_of_insert leased with ⟨rfl, rfl⟩ | ⟨_, before⟩
      · rintro _ ⟨⟩
        exact stored other token state rfl
      · exact keeps.leased other found before
  · exact moved.keeps keeps failing (fun _ _ _ => nofun) fun id token state same => storing ⟨id, token, state, same⟩

/-- A delivery that begins to fail has run out of time, or a consumer has given it back. -/
theorem Moved.fails (moved : Moved now wallClock env group pc group' next) :
    ∀ failed ∈ next.failing, failed ∈ pc.failing ∨ failed.reason = some "visibility timeout expired" ∨
      ∃ token, pc = .releaseNacked failed.id token failed.reason := by
  intro failed member
  cases moved with
  | quiet changed quiet => cases quiet <;> cases member
  | @enqueueFailed message caller unsynced =>
    cases keyed : message.idempotencyKey <;> rw [keyed] at member <;> cases member
  | @reclaim order first rest reclaims =>
    -- The batch is made of the leases whose timeout has passed.
    have among : failed ∈ first :: rest := member
    rw [reclaims.taken, List.mem_filterMap] at among
    obtain ⟨id, _, same⟩ := among
    obtain ⟨lease, _, rfl⟩ := Option.map_eq_some_iff.mp same
    exact .inr (.inl rfl)
  | @retried _ caller => exact .inl (List.mem_cons_of_mem _ (caller.failing.1 failed member))
  | exhaustedWritten => exact .inl (List.mem_cons_of_mem _ member)
  | @exhaustedFailed _ caller => exact .inl (List.mem_cons_of_mem _ (caller.failing.2 failed member))
  | insertDeadLetter => exact .inl member
  | @deadLetteredWritten _ caller => exact .inl (caller.failing.1 failed member)
  | @deadLetteredFailed _ caller => exact .inl (caller.failing.2 failed member)
  | @nacked id token reason lease active =>
    obtain rfl := List.mem_singleton.mp member
    exact .inr (.inr ⟨token, rfl⟩)
  | @removeWritten deadLetter caller =>
    cases caller with
    | reprocess => cases member
    | purge => cases carried : deadLetter.idempotencyKey <;> simp [TakeCaller.next, carried, Pc.failing] at member
  | _ => cases member

/-- A chunk is added to a stream by a call that publishes it. -/
theorem mem_added {id : MessageId} {chunk : StreamChunk V} (member : chunk ∈ added id (Pc.pushed pc next)) :
    ∃ token, pc = .pushChunk id token chunk.data chunk.isFinal := by
  -- Only a push adds a chunk, and only to the stream of its own message.
  unfold Pc.pushed at member
  split at member
  · rename_i other token data isFinal sequence
    by_cases same : other = id
    · subst same
      rw [added_some, if_pos rfl, List.mem_singleton] at member
      subst member
      exact ⟨token, rfl⟩
    · simp [added, same] at member
  · cases member

/-- A dead letter in memory was there before, has just been put there, or has got a verdict. -/
theorem Moved.buries (moved : Moved now wallClock env group pc group' next) {id : MessageId}
    {deadLetter : DeadLetter T V} (found : group'.dlq.entries.lookup id = some deadLetter) :
    group.dlq.entries.lookup id = some deadLetter ∨ (∃ caller, pc = .insertDeadLetter deadLetter caller) ∨
      ∃ old verdict, group.dlq.entries.lookup id = some old ∧ pc = .storeVerdict id verdict ∧
        deadLetter = { old with triage := some verdict } := by
  -- Three steps change the dead letters in memory: one puts in, one annotates, one takes out.
  cases moved with
  | @insertDeadLetter new caller =>
    rcases lookup_of_insert found with ⟨_, rfl⟩ | ⟨_, before⟩
    · exact .inr (.inl ⟨caller, rfl⟩)
    · exact .inl before
  | @verdictStored other verdict answer =>
    simp only [ConsumerGroup.withEntries, DeadLetters.annotate] at found
    split at found
    · rename_i old stored
      rcases lookup_of_insert found with ⟨rfl, rfl⟩ | ⟨_, before⟩
      · exact .inr (.inr ⟨old, verdict, stored, rfl, rfl⟩)
      · exact .inl before
    · exact .inl found
  | taken => exact .inl (lookup_of_erase found).2
  | _ => exact .inl found

/-- A delivery that has been resolved has left its dead letter behind, and goes on to no other. -/
theorem ResolveCaller.unburying (caller : ResolveCaller T V) (deadLetter : DeadLetter T V)
    (other : ResolveCaller T V) :
    caller.next ≠ .insertDeadLetter deadLetter other ∧ caller.failed ≠ .insertDeadLetter deadLetter other := by
  match caller with
  | .nack | .reclaim [] | .reclaim (_ :: _) => exact ⟨nofun, nofun⟩

/-- A delivery that has been resolved tells of no message. -/
theorem ResolveCaller.told (caller : ResolveCaller T V) :
    (∀ result ∈ caller.next.tells, result.Genuine handed call) ∧
      ∀ result ∈ caller.failed.tells, result.Genuine handed call := by
  match caller with
  | .nack => exact ⟨by rintro _ ⟨⟩; trivial, by rintro _ ⟨⟩; trivial⟩
  | .reclaim [] | .reclaim (_ :: _) => exact ⟨nofun, nofun⟩

/-- A dead letter is made of a delivery that has failed. -/
theorem Moved.burying (moved : Moved now wallClock env group pc group' next) {deadLetter : DeadLetter T V}
    {caller : ResolveCaller T V} (here : next = .insertDeadLetter deadLetter caller) :
    ∃ failed, pc = .resolve failed caller ∧ deadLetter = failed.deadLetter wallClock := by
  -- Of all steps only the record of an exhausted delivery leads there.
  cases moved with
  | quiet changed quiet => cases quiet <;> cases here
  | @enqueueFailed message caller unsynced => cases keyed : message.idempotencyKey <;> rw [keyed] at here <;> cases here
  | @exhaustedWritten failed caller =>
    cases here
    exact ⟨failed, rfl, rfl⟩
  | @retried _ caller | @deadLetteredWritten _ caller => exact absurd here (caller.unburying deadLetter _).1
  | @exhaustedFailed _ caller | @deadLetteredFailed _ caller => exact absurd here (caller.unburying deadLetter _).2
  | @removeWritten letter caller =>
    cases caller with
    | reprocess => cases here
    | purge => cases carried : letter.idempotencyKey <;> simp [TakeCaller.next, carried] at here
  | _ => cases here

/-- Whatever an operation is about to return after a step, has been said. -/
theorem Moved.told (moved : Moved now wallClock env group pc group' next) (genuine : group.Genuine handed)
    (held : pc.Genuine handed call) (serves : pc.serves call)
    (polled : ∀ id after chunks, pc = .pollStream id after → next = .done (.polled (.chunks chunks)) →
      ∃ lease, group.state.leased.lookup id = some lease ∧
        chunks = lease.stream.filter fun chunk => decide (after < chunk.sequence)) :
    ∀ result ∈ next.tells, result.Genuine handed call := by
  cases moved with
  | quiet changed quiet =>
    cases quiet with
    | notifyOne result =>
      rintro _ ⟨⟩
      exact held.told result rfl
    | polled id after poll =>
      rintro _ ⟨⟩
      cases poll with
      | notActive => trivial
      | chunks chunks =>
        -- The chunks are those of the lease's stream that lie behind the cursor.
        obtain ⟨lease, found, rfl⟩ := polled id after chunks rfl rfl
        refine ⟨id, after, serves, fun chunk member => ?_⟩
        obtain ⟨inStream, behind⟩ := List.mem_filter.mp member
        exact ⟨of_decide_eq_true behind, genuine.streams id lease found chunk inStream⟩
    | _ =>
      intro result told
      cases told <;> trivial
  -- A duplicate is told the message that its key is registered for.
  | @reserveHit message key existingId found =>
    rintro _ ⟨⟩
    obtain ⟨item, known⟩ := genuine.dedup key existingId found
    exact ⟨message, item, serves.1, by rw [serves.2]; exact known⟩
  | @enqueueFailed message caller unsynced =>
    intro result told
    cases keyed : message.idempotencyKey <;> rw [keyed] at told <;> cases told <;> trivial
  | @pushPending message caller =>
    cases caller with
    | reprocess =>
      rintro _ ⟨⟩
      trivial
    | producer =>
      rintro _ ⟨⟩
      exact ⟨message, message.item, serves, held.messages message List.mem_cons_self⟩
  | @releaseKey id key result =>
    rintro _ ⟨⟩
    exact held.told result rfl
  | @claimed entry rest front =>
    rintro _ ⟨⟩
    -- The claim is of an entry that was pending, or was waiting out its backoff.
    have promoted : handed.issued entry.message := by
      rcases mem_promoted (front ▸ List.mem_cons_self : entry ∈ (group.state.promoteReadyDelayed now).pending) with
        waiting | ⟨delayed, retry, rfl⟩
      · exact genuine.pending entry waiting
      · exact genuine.delayed delayed retry
    exact ⟨⟨entry.idempotencyKey, promoted, rfl⟩,
      (genuine.keeps.promote now).pending entry (by rw [front]; exact List.mem_cons_self)⟩
  | @retried _ caller | @deadLetteredWritten _ caller => exact caller.told.1
  | @exhaustedFailed _ caller | @deadLetteredFailed _ caller => exact caller.told.2
  | @removeWritten letter caller =>
    intro result told
    cases caller with
    | reprocess => cases told
    | purge =>
      cases carried : letter.idempotencyKey <;> simp only [TakeCaller.next, carried] at told <;> cases told <;> trivial
  | _ =>
    intro result told
    cases told <;> trivial

/-- One step adds nothing to what a group holds, or an operation has in hand, that has not been said. -/
theorem Moved.genuine (moved : Moved now wallClock env group pc group' next) (genuine : group.Genuine handed)
    (held : pc.Genuine handed call) (serves : pc.serves call) (spoken : call.Says handed)
    (reserved : ∀ message key, pc = .reserve message key →
      handed.issued message ∧ message.idempotencyKey = some key)
    (polled : ∀ id after chunks, pc = .pollStream id after → next = .done (.polled (.chunks chunks)) →
      ∃ lease, group.state.leased.lookup id = some lease ∧
        chunks = lease.stream.filter fun chunk => decide (after < chunk.sequence)) :
    group'.Genuine handed ∧ next.Genuine handed call := by
  obtain ⟨sourced, messages⟩ := moved.sourced genuine.toSourced held.messages reserved
  obtain ⟨keeps, saves⟩ := moved.saves genuine.keeps (fun failed member => (held.failing failed member).1)
    fun id token state same => by
      subst same
      exact spoken.saved id token state serves
  -- A delivery whose retries are exhausted makes a dead letter that says what it says.
  have letter : ∀ failed caller, pc = .resolve failed caller → (failed.deadLetter wallClock).Genuine handed := by
    rintro failed caller rfl
    obtain ⟨saved, blamed⟩ := held.failing failed List.mem_cons_self
    exact ⟨held.messages failed.message List.mem_cons_self, saved, blamed, nofun⟩
  refine ⟨{ toSourced := sourced, keeps, streams := ?_, buried := ?_, checkpoints := ?_, letters := ?_, verdicts := ?_ },
    { messages, failing := ?_, burying := ?_, told := moved.told genuine held serves polled }⟩
  · -- A stream grows only by what its own call publishes.
    intro id lease found chunk member
    rcases moved.stream found with ⟨_, _, _, empty⟩ | ⟨_, old, before, grows⟩
    · rw [empty] at member
      cases member
    · rw [grows] at member
      rcases List.mem_append.mp member with earlier | new
      · exact genuine.streams id old before chunk earlier
      · obtain ⟨token, rfl⟩ := mem_added new
        exact spoken.shown id token _ _ serves
  · -- A dead letter is buried by the operation that makes it, and annotated by its triage.
    intro id deadLetter found
    rcases moved.buries found with before | ⟨caller, rfl⟩ | ⟨old, verdict, before, rfl, rfl⟩
    · exact genuine.buried id deadLetter before
    · exact held.burying deadLetter caller rfl
    · have stored := genuine.buried id old before
      refine ⟨stored.message, stored.checkpoint, stored.lastError, ?_⟩
      rintro _ ⟨⟩
      obtain ⟨rfl, _⟩ := genuine.entries id old before
      exact spoken.judged old.id verdict serves
  · -- The logs say what their operations append.
    intro id state member
    rcases moved.mainLog member with before | here
    · exact genuine.checkpoints id state before
    · cases pc with
      | appendCheckpoint =>
        cases here
        exact spoken.saved _ _ _ serves
      | _ => cases here
  · intro deadLetter member
    rcases moved.dlqLog member with before | here
    · exact genuine.letters deadLetter before
    · cases pc with
      | resolve failed caller =>
        obtain ⟨_, same⟩ := Option.ite_none_right_eq_some.mp here
        cases same
        exact letter failed caller rfl
      | _ => cases here
  · intro id verdict member
    rcases moved.dlqLog member with before | here
    · exact genuine.verdicts id verdict before
    · cases pc with
      | resolve =>
        obtain ⟨_, same⟩ := Option.ite_none_right_eq_some.mp here
        cases same
      | appendAnnotate =>
        cases here
        exact spoken.judged _ _ serves
      | _ => cases here
  · -- A delivery fails with the text of its nack, or because its lease has expired.
    intro failed member
    refine ⟨saves failed member, ?_⟩
    rcases moved.fails failed member with before | expired | ⟨token, rfl⟩
    · exact (held.failing failed before).2
    · rw [expired]
      rintro _ ⟨⟩
      exact .inl rfl
    · intro text given
      rw [Option.mem_def] at given
      exact .inr (spoken.blamed failed.id token text (by rw [← given]; exact serves))
  · intro deadLetter caller here
    obtain ⟨failed, same, rfl⟩ := moved.burying here
    exact letter failed caller same

end

/-- What the two logs of a queue tell of its messages. -/
def Handed.logged (wal : Log (WalRecord T V)) (dlqWal : Log (DlqRecord T V)) : Handed T V where
  issued message := .enqueue message.id message.idempotencyKey message.item ∈ wal.records ∨
    ∃ deadLetter, .deadLetter deadLetter ∈ dlqWal.records ∧ deadLetter.message = message
  saved id state := .checkpoint id state ∈ wal.records ∨
    ∃ deadLetter, .deadLetter deadLetter ∈ dlqWal.records ∧ deadLetter.id = id ∧ deadLetter.checkpoint = some state
  -- The streams of partial results are in no log.
  shown _ _ _ := False
  blamed id reason :=
    ∃ deadLetter, .deadLetter deadLetter ∈ dlqWal.records ∧ deadLetter.id = id ∧ deadLetter.lastError = some reason
  judged id verdict := .annotate id verdict ∈ dlqWal.records ∨
    ∃ deadLetter, .deadLetter deadLetter ∈ dlqWal.records ∧ deadLetter.id = id ∧ deadLetter.triage = some verdict

/-- What has been said of the messages of a queue: what was known before, and what the calls have handed in. -/
def World.handed (world : World T V) (known : Handed T V) : Handed T V where
  issued message := known.issued message ∨ world.Issued message
  saved id state := known.saved id state ∨ ∃ task ∈ world.tasks, ∃ token, task.call = .checkpoint id token state
  shown id data isFinal := known.shown id data isFinal ∨
    ∃ task ∈ world.tasks, ∃ token, task.call = .publishPartialResult id token data isFinal
  blamed id reason := known.blamed id reason ∨
    ∃ task ∈ world.tasks, ∃ token, task.call = .nack id token (some reason)
  judged id verdict := known.judged id verdict ∨ ∃ task ∈ world.tasks, task.call = .annotateDeadLetter id verdict

/-- A queue holds, and its operations have in hand, what was known or has been handed in. -/
structure World.Genuine (known : Handed T V) (world : World T V) : Prop where
  serves : ∀ task ∈ world.tasks, task.pc.serves task.call
  group : world.shared.group.Genuine (world.handed known)
  held : ∀ task ∈ world.tasks, task.pc.Genuine (world.handed known) task.call

section

variable {handed known : Handed T V} {group : ConsumerGroup T V} {world world' : World T V} {task : Task T V}

/-- A checkpoint that a replay finds was recorded. -/
theorem mem_of_replay_checkpoints {records : List (WalRecord T V)} {id : MessageId} {state : V}
    (found : (Replay.records records).checkpoints.lookup id = some state) : .checkpoint id state ∈ records := by
  -- From the end of the log, one replayed record at a time.
  induction records using List.reverseRecOn with
  | nil => cases found
  | append_singleton records record ih =>
    rw [Replay.records_append] at found
    cases record with
    | checkpoint other new =>
      rcases lookup_of_insert found with ⟨rfl, rfl⟩ | ⟨_, before⟩
      · exact List.mem_append_right _ List.mem_cons_self
      · exact List.mem_append_left _ (ih before)
    | ack other =>
      simp only [Replay.record] at found
      split at found <;> exact List.mem_append_left _ (ih found)
    | enqueue | deadLettered => exact List.mem_append_left _ (ih found)

/-- A checkpoint that is restored was found for its message. -/
theorem lookup_of_restore {entries : List (Pending T V)} {checkpoints : Checkpoints V} {entry : Pending T V}
    (member : entry ∈ restoreCheckpoints entries checkpoints) {state : V} (carried : entry.checkpoint = some state) :
    checkpoints.lookup entry.id = some state := by
  -- Each entry takes its checkpoint out of the table, and the others choose from what is left.
  induction entries generalizing checkpoints with
  | nil => cases member
  | cons first rest ih =>
    rcases List.mem_cons.mp member with rfl | later
    · exact carried
    · exact (lookup_of_erase (ih later)).2

/-- The dead letters that a replay finds say what has been said. -/
theorem DeadLetters.replay_genuine {records : List (DlqRecord T V)}
    (letters : ∀ deadLetter, DlqRecord.deadLetter deadLetter ∈ records → deadLetter.Genuine handed)
    (verdicts : ∀ id verdict, DlqRecord.annotate id verdict ∈ records → handed.judged id verdict)
    {id : MessageId} {deadLetter : DeadLetter T V}
    (found : (DeadLetters.replay records).lookup id = some deadLetter) : deadLetter.Genuine handed := by
  induction records using List.reverseRecOn generalizing deadLetter with
  | nil => cases found
  | append_singleton records record ih =>
    have earlier := @ih (fun letter member => letters letter (List.mem_append_left _ member))
      fun id verdict member => verdicts id verdict (List.mem_append_left _ member)
    have last : record ∈ records ++ [record] := List.mem_append_right _ List.mem_cons_self
    rw [DeadLetters.replay_append] at found
    cases record with
    | deadLetter new =>
      rcases lookup_of_insert found with ⟨_, rfl⟩ | ⟨_, before⟩
      · exact letters deadLetter last
      · exact earlier before
    | remove other => exact earlier (lookup_of_erase found).2
    | annotate other verdict =>
      simp only [DeadLetters.replayRecord, DeadLetters.annotate] at found
      split at found
      · rename_i old stored
        rcases lookup_of_insert found with ⟨rfl, rfl⟩ | ⟨_, before⟩
        · -- The entry gets the verdict, and keeps the rest.
          have genuine := earlier stored
          obtain ⟨rfl, _⟩ := mem_of_replay_entries stored
          refine ⟨genuine.message, genuine.checkpoint, genuine.lastError, ?_⟩
          rintro _ ⟨⟩
          exact verdicts old.id verdict last
        · exact earlier before
      · exact earlier found

/-- A group that is opened on the logs of another one holds nothing else than that one's logs do. -/
theorem ConsumerGroup.Genuine.opened (genuine : group.Genuine handed) (visibilityTimeout : Duration)
    (retryPolicy : RetryPolicy) (order : List MessageId) :
    (ConsumerGroup.opened group.wal group.dlq.wal visibilityTimeout retryPolicy order).Genuine handed where
  toSourced := genuine.toSourced.opened visibilityTimeout retryPolicy order
  keeps :=
    { pending := fun entry member state carried =>
        genuine.checkpoints entry.id state (mem_of_replay_checkpoints (lookup_of_restore member carried))
      delayed := fun _ member => (nomatch member)
      leased := fun _ _ found => (nomatch found) }
  streams _ _ found := nomatch found
  buried _ _ found := DeadLetters.replay_genuine genuine.letters genuine.verdicts found
  checkpoints := genuine.checkpoints
  letters := genuine.letters
  verdicts := genuine.verdicts

/-- A group that is opened holds what its logs tell. -/
theorem ConsumerGroup.opened_genuine (wal : Log (WalRecord T V)) (dlqWal : Log (DlqRecord T V))
    (visibilityTimeout : Duration) (retryPolicy : RetryPolicy) (order : List MessageId) :
    (ConsumerGroup.opened wal dlqWal visibilityTimeout retryPolicy order).Genuine (.logged wal dlqWal) := by
  -- It is opened on the logs of a group that holds nothing in memory.
  have bare : ConsumerGroup.Genuine (.logged wal dlqWal)
      (⟨⟨[], ∅, [], ∅⟩, {}, wal, ⟨∅, dlqWal⟩, visibilityTimeout, retryPolicy, 0⟩ : ConsumerGroup T V) :=
    { pending := fun _ member => (nomatch member)
      leased := fun _ _ found => (nomatch found)
      delayed := fun _ member => (nomatch member)
      entries := fun _ _ found => (nomatch found)
      wal := fun _ _ _ member => .inl member
      dlqWal := fun deadLetter member => .inr ⟨deadLetter, member, rfl⟩
      dedup := fun _ _ found => (nomatch found)
      keeps := ⟨fun _ member => (nomatch member), fun _ member => (nomatch member), fun _ _ found => (nomatch found)⟩
      streams := fun _ _ found => (nomatch found)
      buried := fun _ _ found => (nomatch found)
      checkpoints := fun _ _ member => .inl member
      letters := fun deadLetter member =>
        { message := .inr ⟨deadLetter, member, rfl⟩
          checkpoint := fun _ carried => .inr ⟨deadLetter, member, rfl, carried⟩
          lastError := fun _ carried => .inr ⟨deadLetter, member, rfl, carried⟩
          triage := fun _ carried => .inr ⟨deadLetter, member, rfl, carried⟩ }
      verdicts := fun _ _ member => .inl member }
  exact bare.opened visibilityTimeout retryPolicy order

/-- What has been said stays said as long as every call is remembered. -/
theorem World.handed_within (issued : ∀ message, world.Issued message → world'.Issued message)
    (calls : ∀ task ∈ world.tasks, ∃ task' ∈ world'.tasks, task'.call = task.call) :
    (world.handed known).Within (world'.handed known) where
  issued message := Or.imp_right (issued message)
  saved _ _ := Or.imp_right fun ⟨task, member, token, called⟩ =>
    have ⟨task', member', same⟩ := calls task member
    ⟨task', member', token, same.trans called⟩
  shown _ _ _ := Or.imp_right fun ⟨task, member, token, called⟩ =>
    have ⟨task', member', same⟩ := calls task member
    ⟨task', member', token, same.trans called⟩
  blamed _ _ := Or.imp_right fun ⟨task, member, token, called⟩ =>
    have ⟨task', member', same⟩ := calls task member
    ⟨task', member', token, same.trans called⟩
  judged _ _ := Or.imp_right fun ⟨task, member, called⟩ =>
    have ⟨task', member', same⟩ := calls task member
    ⟨task', member', same.trans called⟩

/-- What a call says has been said. -/
theorem World.spoken (known : Handed T V) (member : task ∈ world.tasks) : task.call.Says (world.handed known) where
  saved _ token _ called := .inr ⟨task, member, token, called⟩
  shown _ token _ _ called := .inr ⟨task, member, token, called⟩
  blamed _ token _ called := .inr ⟨task, member, token, called⟩
  judged _ _ called := .inr ⟨task, member, called⟩

/-- What a group holds, it holds when an operation has stopped. -/
theorem Stalled.genuine {group group' : ConsumerGroup T V} (stalled : Stalled group group')
    (genuine : group.Genuine handed) : group'.Genuine handed where
  toSourced := stalled.sourced genuine.toSourced
  keeps := by rw [stalled.state]; exact genuine.keeps
  -- Nothing of what is asked about has changed.
  streams := by rw [stalled.state]; exact genuine.streams
  buried := by rw [stalled.entries]; exact genuine.buried
  checkpoints := by rw [stalled.records]; exact genuine.checkpoints
  letters := by rw [stalled.dlqRecords]; exact genuine.letters
  verdicts := by rw [stalled.dlqRecords]; exact genuine.verdicts

/-- An operation that goes on keeps to what has been said. -/
theorem World.Genuine.advance (genuine : world.Genuine known) {i : Nat} (found : world.tasks[i]? = some task)
    {now : Instant} {wallClock : Timestamp} {env : StepEnv} {pc : Pc T V} (cancelled : Bool)
    (moved : Moved now wallClock env world.shared.group task.pc group pc)
    (polled : ∀ id after chunks, task.pc = .pollStream id after → pc = .done (.polled (.chunks chunks)) →
      ∃ lease, world.shared.group.state.leased.lookup id = some lease ∧
        chunks = lease.stream.filter fun chunk => decide (after < chunk.sequence)) :
    World.Genuine known
      ⟨{ world.shared with group := group }, world.tasks.set i ⟨task.call, pc, cancelled⟩⟩ := by
  have member := List.mem_of_getElem? found
  have new : (⟨task.call, pc, cancelled⟩ : Task T V) ∈ world.tasks.set i ⟨task.call, pc, cancelled⟩ :=
    List.mem_set (List.getElem?_eq_some_iff.mp found).1 _
  -- Every call is there as before, and the one that goes on has not gone back to reserving a key.
  have within : (world.handed known).Within (World.handed
      ⟨{ world.shared with group := group }, world.tasks.set i ⟨task.call, pc, cancelled⟩⟩ known) := by
    refine World.handed_within (fun message issued =>
      issued.set found rfl fun message key reserving => absurd reserving (moved.not_reserve message key)) ?_
    intro other there
    rcases mem_set_or_eq ⟨task.call, pc, cancelled⟩ found there with rfl | kept
    · exact ⟨_, new, rfl⟩
    · exact ⟨other, kept, rfl⟩
  have serves := genuine.serves task member
  have spoken := World.spoken known (show (⟨task.call, pc, cancelled⟩ : Task T V) ∈ Pool.tasks
    (⟨{ world.shared with group := group }, world.tasks.set i ⟨task.call, pc, cancelled⟩⟩ : World T V) from new)
  have issued : ∀ message key, task.pc = .reserve message key → (World.handed
      ⟨{ world.shared with group := group }, world.tasks.set i ⟨task.call, pc, cancelled⟩⟩ known).issued message ∧
        message.idempotencyKey = some key := by
    intro message key reserving
    rw [reserving] at serves
    exact ⟨.inr ⟨_, new, serves.1, fun key => moved.not_reserve message key⟩, serves.2⟩
  obtain ⟨holds, hands⟩ := moved.genuine (genuine.group.mono within) ((genuine.held task member).mono within) serves
    spoken issued polled
  refine ⟨fun other there => ?_, holds, fun other there => ?_⟩
  · rcases List.mem_or_eq_of_mem_set there with before | rfl
    · exact genuine.serves other before
    · exact moved.serves genuine.group.toSourced serves
  · rcases List.mem_or_eq_of_mem_set there with before | rfl
    · exact (genuine.held other before).mono within
    · exact hands

/-- An operation that is called has nothing in hand yet but its own message. -/
theorem Call.entry_genuine (call : Call T V)
    (issued : ∀ message, call.entry = .appendEnqueue message .producer → handed.issued message) :
    call.entry.Genuine handed call := by
  -- Only an enqueue has a message, and one under a key reserves that first.
  cases call with
  | enqueue message =>
    cases keyed : message.idempotencyKey with
    | none =>
      simp only [entry, keyed] at issued ⊢
      refine ⟨fun other member => ?_, List.forall_mem_nil _, fun _ _ here => (by cases here),
        fun _ here => (by cases here)⟩
      obtain rfl := List.mem_singleton.mp member
      exact issued other rfl
    | some key =>
      simp only [entry, keyed]
      exact ⟨List.forall_mem_nil _, List.forall_mem_nil _, fun _ _ here => (by cases here), fun _ here => (by cases here)⟩
  | _ => exact ⟨List.forall_mem_nil _, List.forall_mem_nil _, fun _ _ here => (by cases here), fun _ here => (by cases here)⟩

/-- An operation that is dropped as it stands keeps to it, too. -/
theorem World.Genuine.stall (genuine : world.Genuine known) {i : Nat} (found : world.tasks[i]? = some task)
    (stalled : Stalled world.shared.group group) :
    World.Genuine known
      ⟨{ world.shared with group := group }, world.tasks.set i { task with cancelled := true }⟩ := by
  have within : (world.handed known).Within (World.handed
      ⟨{ world.shared with group := group }, world.tasks.set i { task with cancelled := true }⟩ known) := by
    refine World.handed_within (fun message issued => issued.set found rfl fun _ _ _ => rfl) ?_
    intro other there
    rcases mem_set_or_eq { task with cancelled := true } found there with rfl | kept
    · exact ⟨_, List.mem_set (List.getElem?_eq_some_iff.mp found).1 _, rfl⟩
    · exact ⟨other, kept, rfl⟩
  have member := List.mem_of_getElem? found
  -- What it has in its hands is what it had before.
  refine ⟨fun other there => ?_, stalled.genuine (genuine.group.mono within), fun other there => ?_⟩
  · rcases List.mem_or_eq_of_mem_set there with before | rfl
    · exact genuine.serves other before
    · exact genuine.serves task member
  · rcases List.mem_or_eq_of_mem_set there with before | rfl
    · exact (genuine.held other before).mono within
    · exact (genuine.held task member).mono within

/-- A call that is made adds to what has been said. -/
theorem World.Genuine.spawn (genuine : world.Genuine known) (call : Call T V) :
    World.Genuine known (world.spawn ⟨call, call.entry, false⟩) := by
  have within : (world.handed known).Within (World.handed (world.spawn ⟨call, call.entry, false⟩) known) :=
    World.handed_within (fun _ issued => issued.spawn) fun task there =>
      ⟨task, List.mem_append_left _ there, rfl⟩
  refine ⟨fun task there => ?_, genuine.group.mono within, fun task there => ?_⟩
  · rcases List.mem_append.mp there with before | new
    · exact genuine.serves task before
    · obtain rfl := List.mem_singleton.mp new
      exact call.entry_serves
  · rcases List.mem_append.mp there with before | new
    · exact (genuine.held task before).mono within
    · -- An enqueue without a key begins with its own message.
      obtain rfl := List.mem_singleton.mp new
      refine Call.entry_genuine call fun message first => .inr ⟨_, there, ?_, fun key reserving => ?_⟩
      · have serves := call.entry_serves
        rw [first] at serves
        exact serves
      · rw [first] at reserving
        cases reserving

/-- The calls of a process that has died are remembered, and its logs are all that is left. -/
theorem World.Genuine.reopen (genuine : world.Genuine known) (order : List MessageId) :
    World.Genuine known
      ⟨{ world.shared with group := world.shared.group.reopened order }, world.tasks.map Task.kill⟩ := by
  have within : (world.handed known).Within (World.handed
      ⟨{ world.shared with group := world.shared.group.reopened order }, world.tasks.map Task.kill⟩ known) :=
    World.handed_within (fun _ issued => issued.kill) fun task there =>
      ⟨task.kill, List.mem_map_of_mem there, task.kill_call⟩
  refine ⟨fun task there => ?_, (genuine.group.mono within).opened _ _ order, fun task there => ?_⟩
  · obtain ⟨before, was, rfl⟩ := List.mem_map.mp there
    simpa using genuine.serves before was
  · obtain ⟨before, was, rfl⟩ := List.mem_map.mp there
    rw [Task.kill_pc, Task.kill_call]
    exact (genuine.held before was).mono within

/-- Every step keeps a queue to what was known or has been handed in. -/
theorem World.Genuine.step (genuine : world.Genuine known) {act : Action T V} (taken : world.step act = some world') :
    world'.Genuine known := by
  cases act with
  | step i env =>
    obtain ⟨task, group, next, found, _, moved, rfl⟩ := step_move taken
    -- A poll is answered with what its stream holds in this step.
    refine genuine.advance found task.cancelled (move_moved moved) fun id after chunks here answered => ?_
    have read : Pc.answered task.pc next = some (id, after, chunks) := by rw [here, answered]; rfl
    obtain ⟨lease, leased, same, _⟩ := move_answered moved read
    exact ⟨lease, leased, same⟩
  | drop i wrote =>
    cases step_stepped taken with
    | drop found alive dropped =>
      cases dropped with
      | written whole clean writes moved =>
        refine genuine.advance found true moved fun id after chunks here _ => ?_
        rw [here] at writes
        cases writes
      | stalled stalled => exact genuine.stall found stalled
  | call call =>
    cases step_stepped taken with
    | call fresh => exact genuine.spawn call
  | tick elapsed =>
    cases taken
    exact ⟨genuine.serves, genuine.group, genuine.held⟩
  | setWallClock wallClock =>
    cases taken
    exact ⟨genuine.serves, genuine.group, genuine.held⟩
  | reopen order =>
    cases step_stepped taken with
    | reopen iterates => exact genuine.reopen order

/-- In every run a queue keeps to what its logs told when it was opened, and to what has been handed in. -/
theorem World.genuine_of_run {wal : Log (WalRecord T V)} {dlqWal : Log (DlqRecord T V)} {visibilityTimeout : Duration}
    {retryPolicy : RetryPolicy} {order : List MessageId} {now : Instant} {wallClock : Timestamp}
    {ok : World T V → Action T V → Prop} {trace : List (Transition (World T V) (Action T V))}
    (run : Run World.step ok
      ⟨⟨.opened wal dlqWal visibilityTimeout retryPolicy order, now, wallClock⟩, []⟩ trace world) :
    world.Genuine (.logged wal dlqWal) := by
  -- A group that has just been opened holds what its logs tell, and nothing has been handed in.
  have start : World.Genuine (.logged wal dlqWal)
      (⟨⟨.opened wal dlqWal visibilityTimeout retryPolicy order, now, wallClock⟩, []⟩ : World T V) :=
    { serves := List.forall_mem_nil _
      group := (ConsumerGroup.opened_genuine wal dlqWal visibilityTimeout retryPolicy order).mono
        ⟨fun _ => .inl, fun _ _ => .inl, fun _ _ _ => .inl, fun _ _ => .inl, fun _ _ => .inl⟩
      held := List.forall_mem_nil _ }
  exact run.invariant start fun _ _ _ _ before taken => before.step taken

/--
A queue gives out what was handed in, each message with what was said of that very message.

In every run, with writes that fail, operations that are cancelled and processes that die, what an operation
has returned and what the dead letters tell was in the logs when the queue was opened, or some caller has handed it in.
-/
theorem World.authentic {wal : Log (WalRecord T V)} {dlqWal : Log (DlqRecord T V)} {visibilityTimeout : Duration}
    {retryPolicy : RetryPolicy} {order : List MessageId} {now : Instant} {wallClock : Timestamp}
    {trace : List (Transition (World T V) (Action T V))}
    (run : Run World.step (fun _ _ => True)
      ⟨⟨.opened wal dlqWal visibilityTimeout retryPolicy order, now, wallClock⟩, []⟩ trace world) :
    (∀ task ∈ world.tasks, ∀ result, task.pc = .done result →
      result.Genuine (world.handed (.logged wal dlqWal)) task.call) ∧
    ∀ id deadLetter, world.shared.group.dlq.entries.lookup id = some deadLetter →
      deadLetter.id = id ∧ deadLetter.Genuine (world.handed (.logged wal dlqWal)) := by
  have genuine := World.genuine_of_run run
  refine ⟨fun task member result ended => ?_, fun id deadLetter found => ?_⟩
  · exact (genuine.held task member).told result (by rw [ended]; rfl)
  · exact ⟨(genuine.group.entries id deadLetter found).1, genuine.group.buried id deadLetter found⟩

end

/-- A log that holds a message and a checkpoint of it. -/
def checkpointedLog : Log (WalRecord Nat Nat) :=
  { records := [.enqueue ⟨1⟩ (some ⟨"order-1"⟩) 7, .checkpoint ⟨1⟩ 5] }

theorem World.authentic_resumed :
    ∃ ran ∈ record World.step ⟨⟨.opened checkpointedLog {} 30 .default [], 0, ⟨0⟩⟩, []⟩ (Action.run 0 .claim 3),
      ∃ task ∈ ran.2.tasks, task.pc = .done (.claimed ⟨⟨1⟩, ⟨0⟩, ⟨"order-1"⟩, 7, 1, some 5⟩) ∧
        Claim.Genuine (ran.2.handed (.logged checkpointedLog {})) ⟨⟨1⟩, ⟨0⟩, ⟨"order-1"⟩, 7, 1, some 5⟩ := by
  -- The run is computed: its claim is of what the log holds.
  have recorded :
      ∃ ran ∈ record World.step ⟨⟨.opened checkpointedLog {} 30 .default [], 0, ⟨0⟩⟩, []⟩ (Action.run 0 .claim 3),
        ∃ task ∈ ran.2.tasks, task.pc = .done (.claimed ⟨⟨1⟩, ⟨0⟩, ⟨"order-1"⟩, 7, 1, some 5⟩) := by
    decide +kernel
  obtain ⟨⟨trace, world⟩, ran, task, member, ended⟩ := recorded
  exact ⟨(trace, world), ran, task, member, ended, (World.authentic (run_of_record .nil ran)).1 task member _ ended⟩

end Qaas
