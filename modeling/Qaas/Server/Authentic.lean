import Qaas.Group.Authentic
import Qaas.Server.Dedup
import Qaas.Server.Projection

/-! Whatever the server answers of a queue's messages, its caller has handed in, or the queue's files held. -/

namespace Qaas

open Concurrency

variable {J : Type}

/-- Some call of this caller, seen in the group of this queue, is for this operation. -/
def ServerPool.Asks (services : Services) (stood : Nat → String → GroupUse → Prop) (pool : ServerPool J)
    (caller : Caller) (queue : String) (inner : Call J J) : Prop :=
  ∃ i task, pool.tasks[i]? = some task ∧ task.caller = caller ∧ task.call.Opens queue ∧
    ∃ use, stood i queue use ∧ task.call.Runs services inner use

/-- What the two files of a queue told of its messages when the server found them. -/
def Server.logged (origin : Server J) (caller : Caller) (queue : String) : Handed J J :=
  .logged (origin.disk.wals (walPath origin.registry.dataDir caller queue))
    (origin.disk.dlqs (dlqPath (walPath origin.registry.dataDir caller queue)))

/-- What has been said of the messages of a caller's queue: what its files told, and what the calls of this
caller have handed in that were seen there. -/
def ServerPool.handed (services : Services) (stood : Nat → String → GroupUse → Prop) (origin : Server J)
    (pool : ServerPool J) (caller : Caller) (queue : String) : Handed J J where
  issued message := (origin.logged caller queue).issued message ∨
    pool.Asks services stood caller queue (.enqueue message)
  saved id state := (origin.logged caller queue).saved id state ∨
    ∃ token, pool.Asks services stood caller queue (.checkpoint id token state)
  shown id data isFinal := (origin.logged caller queue).shown id data isFinal ∨
    ∃ token, pool.Asks services stood caller queue (.publishPartialResult id token data isFinal)
  blamed id reason := (origin.logged caller queue).blamed id reason ∨
    ∃ token, pool.Asks services stood caller queue (.nack id token (some reason))
  judged id verdict := (origin.logged caller queue).judged id verdict ∨
    pool.Asks services stood caller queue (.annotateDeadLetter id verdict)

/-- What a tool answers of messages has been said of them, in the queue that the call names. -/
def ToolResult.Genuine (services : Services) (said : String → Handed J J) (call : ToolCall J) :
    ToolResult J → Prop
  | .enqueued result => ∃ id item key, result.messageId = id.display ∧ (said result.queue).issued ⟨id, item, key⟩ ∧
    -- Only a duplicate by its embedding may be told of a message with another key.
    (result.deduplicated = false → ∃ params newId, call = .enqueue params newId ∧ params.key = .ok key)
  | .claimed result => result.available = true → ∃ params claim, call = .claim params ∧
    claim.Genuine (said params.queue) ∧ Qaas.claimed claim = Stage.done (.ok (.claimed result))
  | .streamed _ chunks => ∀ chunk ∈ chunks, ∃ params id, call = .streamPartialResults params ∧
    services.readId params.messageId = some id ∧ params.afterSequence.getD 0 < chunk.sequence ∧
      (said params.queue).shown id chunk.data chunk.isFinal
  | .deadLetters summaries => ∀ summary ∈ summaries, ∃ params deadLetter, call = .listDeadLetters params ∧
    DeadLetter.Genuine (said params.queue) deadLetter ∧ summary = deadLetter.summary
  | _ => True

/-- A message whose embedding is in an index of the registry. -/
def QueueRegistry.Indexes {G : Type} (registry : QueueRegistry G) (key : String) (id : MessageId) : Prop :=
  ∃ index, registry.dedup.lookup key = some index ∧ id ∈ index.entries.map Prod.fst

/-- A caller's names are told apart by their keys. -/
theorem scopeKey_name_inj {caller : Caller} {name other : String}
    (same : scopeKey caller name = scopeKey caller other) : name = other := by
  -- Both names stand behind the same prefix.
  cases caller with
  | none => exact same
  | some tenant =>
    have texts := congrArg String.toList same
    rw [scopeKey_some, scopeKey_some] at texts
    exact String.toList_inj.mp (List.cons.inj (List.append_cancel_left texts)).2

section

variable {services : Services} {stood seen : Nat → String → GroupUse → Prop} {origin server after : Server J}
  {pool next : ServerPool J} {caller : Caller} {queue : String}

/-- The calls of one state are among those of another, as they are, and no less is seen of them there. -/
structure ServerPool.Remembered (stood seen : Nat → String → GroupUse → Prop) (pool next : ServerPool J) : Prop where
  calls : ∀ (i : Nat) (task : ToolTask J), pool.tasks[i]? = some task →
    ∃ later, next.tasks[i]? = some later ∧ later.caller = task.caller ∧ later.call = task.call
  wider : ∀ i queue use, stood i queue use → seen i queue use

/-- What a call asks for, it asks for as long as it is remembered. -/
theorem ServerPool.Asks.mono {inner : Call J J} (asks : pool.Asks services stood caller queue inner)
    (remembered : ServerPool.Remembered stood seen pool next) : next.Asks services seen caller queue inner := by
  obtain ⟨i, task, there, rfl, opens, use, been, runs⟩ := asks
  obtain ⟨later, here, sameCaller, sameCall⟩ := remembered.calls i task there
  exact ⟨i, later, here, sameCaller, sameCall ▸ opens, use, remembered.wider i queue use been, sameCall ▸ runs⟩

theorem ServerPool.handed_mono (remembered : ServerPool.Remembered stood seen pool next) :
    (pool.handed services stood origin caller queue).Within (next.handed services seen origin caller queue) where
  issued _ := Or.imp_right fun asks => asks.mono remembered
  saved _ _ := Or.imp_right fun ⟨token, asks⟩ => ⟨token, asks.mono remembered⟩
  shown _ _ _ := Or.imp_right fun ⟨token, asks⟩ => ⟨token, asks.mono remembered⟩
  blamed _ _ := Or.imp_right fun ⟨token, asks⟩ => ⟨token, asks.mono remembered⟩
  judged _ _ := Or.imp_right fun asks => asks.mono remembered

theorem ToolResult.Genuine.mono {said more : String → Handed J J} {call : ToolCall J} {answer : ToolResult J}
    (genuine : answer.Genuine services said call) (within : ∀ queue, (said queue).Within (more queue)) :
    answer.Genuine services more call := by
  -- Four answers tell of messages.
  cases answer with
  | enqueued result =>
    obtain ⟨id, item, key, named, known, own⟩ := genuine
    exact ⟨id, item, key, named, (within _).issued _ known, own⟩
  | claimed result =>
    intro available
    obtain ⟨params, claim, called, known, shows⟩ := genuine available
    exact ⟨params, claim, called, known.mono (within _), shows⟩
  | streamed active chunks =>
    intro chunk member
    obtain ⟨params, id, called, read, behind, known⟩ := genuine chunk member
    exact ⟨params, id, called, read, behind, (within _).shown _ _ _ known⟩
  | deadLetters summaries =>
    intro summary member
    obtain ⟨params, deadLetter, called, known, same⟩ := genuine summary member
    exact ⟨params, deadLetter, called, known.mono (within _), same⟩
  | _ => exact True.intro

/-- What the operations of a queue's own run have handed in, the calls of its caller have. -/
theorem ServerPool.Projects.handed_within {owner : Nat → Nat} {world : World J J} (valid : ValidName queue)
    (projects : pool.Projects services stood (scopeKey caller queue) owner world) :
    (world.handed (origin.logged caller queue)).Within (pool.handed services stood origin caller queue) := by
  -- Each operation is that of one call, which names the same queue as the same caller.
  have asks {task : Task J J} (member : task ∈ world.tasks) : pool.Asks services stood caller queue task.call := by
    obtain ⟨j, there⟩ := List.getElem?_of_mem member
    obtain ⟨call, here, name, use, own, same, opens, been, runs, _⟩ := projects.ran j task there
    obtain ⟨rfl, rfl⟩ := scopeKey_inj own valid same
    exact ⟨_, call, here, rfl, opens, use, been, runs⟩
  exact
    { issued := fun message => Or.imp_right fun ⟨task, member, called, _⟩ => called ▸ asks member
      saved := fun _ _ => Or.imp_right fun ⟨task, member, token, called⟩ => ⟨token, called ▸ asks member⟩
      shown := fun _ _ _ => Or.imp_right fun ⟨task, member, token, called⟩ => ⟨token, called ▸ asks member⟩
      blamed := fun _ _ => Or.imp_right fun ⟨task, member, token, called⟩ => ⟨token, called ▸ asks member⟩
      judged := fun _ _ => Or.imp_right fun ⟨task, member, called⟩ => called ▸ asks member }

/-- An open queue is the group of a world that keeps to what has been said. -/
theorem ServerPool.Projected.genuine (projected : pool.Projected services stood origin) (valid : ValidName queue)
    (open_ : (pool.shared.registry.groups.lookup (scopeKey caller queue)).isSome) :
    ∃ owner world, pool.Projects services stood (scopeKey caller queue) owner world ∧
      world.Genuine (origin.logged caller queue) := by
  obtain ⟨start, ⟨caller', queue', order, at_, wallClock, own, same, _, _, rfl⟩, owner, trace, world, run, projects⟩ :=
    projected.worlds _ open_
  obtain ⟨rfl, rfl⟩ := scopeKey_inj own valid same
  exact ⟨owner, world, projects, World.genuine_of_run run⟩

/-- What a call tells of an operation is what has been said in its queue. -/
theorem ServerPool.Projected.tells (projected : pool.Projected services stood origin) {i : Nat} {task : ToolTask J}
    (found : pool.tasks[i]? = some task) (worked : task.stage.worked = true) (opens : task.call.Opens queue)
    (about : task.stage.About queue) :
    ValidName queue ∧ ∃ inner result use, task.call.Runs services inner use ∧
      result.Genuine (pool.handed services stood origin task.caller queue) inner ∧ task.stage.Shows result := by
  have open_ := projected.answered i task queue found worked opens about
  obtain ⟨start, ⟨caller', queue', order, at_, wallClock, own, same, _, _, rfl⟩, owner, trace, world, run, projects⟩ :=
    projected.worlds _ open_
  obtain ⟨j, inner, result, there, owns, _, ended, shows⟩ := projects.told i task queue found worked opens about rfl
  obtain ⟨call, here, name, use, valid, named, _, _, runs, _⟩ := projects.ran j inner there
  -- The operation is one of this very call.
  rw [owns] at here
  obtain rfl := Option.some.inj (found.symm.trans here)
  obtain rfl := scopeKey_name_inj named
  obtain ⟨rfl, rfl⟩ := scopeKey_inj own valid same
  have genuine := (World.genuine_of_run run).held inner (List.mem_of_getElem? there)
  exact ⟨valid, inner.call, result, use, runs,
    (genuine.told result (by rw [ended]; rfl)).mono (projects.handed_within valid), shows⟩

/-- The messages of a queue's index are indexed under the queue's key. -/
theorem QueueRegistry.Indexes.of_dedupOf {G : Type} {registry : QueueRegistry G} {id : MessageId}
    (member : id ∈ (registry.dedupOf caller queue).entries.map Prod.fst) :
    registry.Indexes (scopeKey caller queue) id := by
  unfold QueueRegistry.dedupOf at member
  cases found : registry.dedup.lookup (scopeKey caller queue) with
  | none =>
    -- An index that is yet to be made is empty.
    rw [found] at member
    cases member
  | some index =>
    rw [found] at member
    exact ⟨index, found, member⟩

/-- A message that is indexed once a queue's index has been stored is one of those before, or of that index. -/
theorem QueueRegistry.Indexes.of_setDedup {G : Type} {registry : QueueRegistry G} {key : String} {id : MessageId}
    {index : EmbeddingIndex MessageId} (indexed : (registry.setDedup caller queue index).Indexes key id) :
    registry.Indexes key id ∨ key = scopeKey caller queue ∧ id ∈ index.entries.map Prod.fst := by
  obtain ⟨stored, found, member⟩ := indexed
  rcases lookup_of_insert found with ⟨rfl, rfl⟩ | ⟨_, before⟩
  · exact .inr ⟨rfl, member⟩
  · exact .inl ⟨stored, before, member⟩

/-- The most similar entry is one of the index. -/
theorem EmbeddingIndex.mem_of_nearest {index : EmbeddingIndex MessageId} {score : Embedding → Embedding → ℚ}
    {rank : MessageId → Nat} {now : Instant} {embedding : Embedding} {best : MessageId × ℚ}
    (found : (index.nearest score rank now embedding).2 = some best) : best.1 ∈ index.entries.map Prod.fst := by
  obtain ⟨entry, member, same⟩ := List.mem_filterMap.mp (bestOf_eq_some found).1
  obtain ⟨_, _, rfl⟩ := Option.map_eq_some_iff.mp same
  exact List.mem_map_of_mem (mem_evictExpired member)

variable {self : Nat} {env : ToolEnv} {task : ToolTask J} {stage : Stage J}

/-- A step of a call indexes no message but the one that it remembers. -/
theorem Server.move_indexed (moved : server.move services self env task = some (after, stage)) {key : String}
    {id : MessageId} (indexed : after.registry.Indexes key id) :
    server.registry.Indexes key id ∨ ∃ queue embedding tokens cost,
      task.stage = .remember queue id embedding tokens cost ∧ scopeKey task.caller queue = key := by
  -- Only four ways on change an index of tasks, and only one of them adds to it.
  obtain ⟨caller, call, current⟩ := task
  cases Server.moved_of_move moved with
  | gets stepped =>
    obtain ⟨registry, result, got, rfl, _⟩ := Server.getStep_eq_some stepped
    -- Opening a queue is nothing to the indexes.
    have same : registry.dedup = server.registry.dedup := by cases QueueRegistry.get_got got <;> rfl
    obtain ⟨index, found, member⟩ := indexed
    exact .inl ⟨index, same ▸ found, member⟩
  | checksKey =>
    rcases indexed.of_setDedup with before | ⟨rfl, member⟩
    · exact .inl before
    · exact .inl (.of_dedupOf member)
  | collapses | misses =>
    rcases indexed.of_setDedup with before | ⟨rfl, member⟩
    · exact .inl before
    · obtain ⟨entry, kept, rfl⟩ := List.mem_map.mp member
      exact .inl (.of_dedupOf (List.mem_map_of_mem (EmbeddingIndex.mem_evictExpired kept)))
  | forgets =>
    rcases indexed.of_setDedup with before | ⟨rfl, member⟩
    · exact .inl before
    · obtain ⟨entry, kept, rfl⟩ := List.mem_map.mp member
      exact .inl (.of_dedupOf (List.mem_map_of_mem (List.mem_filter.mp kept).1))
  | @remembers queue other embedding tokens cost =>
    rcases indexed.of_setDedup with before | ⟨rfl, member⟩
    · exact .inl before
    · -- The message that is remembered comes to those that the index has already.
      obtain ⟨entry, among, rfl⟩ := List.mem_map.mp member
      rcases List.mem_append.mp among with kept | new
      · exact .inl (.of_dedupOf (List.mem_map_of_mem (List.mem_filter.mp kept).1))
      · obtain rfl := List.mem_singleton.mp new
        exact .inr ⟨queue, embedding, tokens, cost, rfl, rfl⟩
  | _ => exact .inl indexed

end

/-- What the server remembers of messages by their embeddings, and has answered of the messages of others, has
been said of them. -/
structure ServerPool.Recollects (services : Services) (stood : Nat → String → GroupUse → Prop) (origin : Server J)
    (pool : ServerPool J) : Prop where
  indexed : ∀ caller queue id, ValidName queue → pool.shared.registry.Indexes (scopeKey caller queue) id →
    ∃ item key, (pool.handed services stood origin caller queue).issued ⟨id, item, key⟩
  recalled : ∀ (i : Nat) (task : ToolTask J) answer, pool.tasks[i]? = some task →
    task.stage = .done (.ok answer) → task.stage.recalls = true →
      answer.Genuine services (pool.handed services stood origin task.caller) task.call

section

variable {services : Services} {stood seen : Nat → String → GroupUse → Prop} {origin server : Server J}
  {pool next : ServerPool J} {act : ServerAction J}
  {i : Nat} {env : ToolEnv} {caller : Caller} {call : ToolCall J} {before stage : Stage J}

/-- A call that looks at the messages of others finds what has been said of them. -/
theorem ServerPool.Recollects.consult (recollects : pool.Recollects services stood origin)
    (sorted : pool.Sorted services stood origin) (found : pool.tasks[i]? = some ⟨caller, call, before⟩)
    (moved : pool.shared.move services i env ⟨caller, call, before⟩ = some (server, stage))
    (consults : before.consults = true) {answer : ToolResult J} (ended : stage = .done (.ok answer))
    (recalls : stage.recalls = true) : answer.Genuine services (pool.handed services stood origin caller) call := by
  have proper : ToolTask.Proper ⟨caller, call, before⟩ := sorted.keyed.proper _ (List.mem_of_getElem? found)
  cases Server.moved_of_move moved with
  | @collapses locals embedding existingId similarity nearest =>
    -- The most similar message is one of the queue's index.
    cases ended
    have member := EmbeddingIndex.mem_of_nearest nearest
    obtain ⟨item, key, known⟩ := recollects.indexed caller locals.queue existingId proper.2 (.of_dedupOf member)
    exact ⟨existingId, item, key, rfl, known, nofun⟩
  | misses =>
    rw [ended] at recalls
    unfold Enqueueing.fresh at ended
    split at ended <;> cases ended
  | @listsLetters queue group opened =>
    obtain ⟨params, rfl, rfl⟩ := sorted.served.serves i _ found
    cases ended
    -- The entries are those of the world that the queue is the group of.
    obtain ⟨owner, world, projects, genuine⟩ := sorted.projected.genuine proper.2 (by rw [opened]; rfl)
    obtain rfl := Option.some.inj (projects.group.symm.trans opened)
    intro summary member
    obtain ⟨deadLetter, there, rfl⟩ := List.mem_map.mp member
    obtain ⟨id, _, stored⟩ := List.mem_filterMap.mp there
    exact ⟨params, deadLetter, rfl, (genuine.group.buried id deadLetter stored).mono
      (projects.handed_within proper.2), rfl⟩
  | _ => cases consults

/-- What was seen of the calls may be more. -/
theorem ServerPool.Recollects.mono (recollects : pool.Recollects services stood origin)
    (wider : ∀ i queue use, stood i queue use → seen i queue use) : pool.Recollects services seen origin := by
  -- With more seen of the calls, more counts as said.
  have more (caller : Caller) (queue : String) : (pool.handed services stood origin caller queue).Within
      (pool.handed services seen origin caller queue) :=
    ServerPool.handed_mono ⟨fun i task there => ⟨task, there, rfl, rfl⟩, wider⟩
  refine ⟨fun caller queue id valid there => ?_, fun i task answer there ended recalls => ?_⟩
  · obtain ⟨item, key, known⟩ := recollects.indexed caller queue id valid there
    exact ⟨item, key, (more caller queue).issued _ known⟩
  · exact (recollects.recalled i task answer there ended recalls).mono (more task.caller)

/-- A call that goes on leaves what has been said, and may add to it. -/
theorem ServerPool.handed_set (found : pool.tasks[i]? = some ⟨caller, call, before⟩) (other : Caller) (queue : String) :
    (pool.handed services stood origin other queue).Within
      (ServerPool.handed services stood origin ⟨server, pool.tasks.set i ⟨caller, call, stage⟩⟩ other queue) := by
  -- Every call is still there, and has the same caller and the same parameters.
  refine ServerPool.handed_mono ⟨fun j task there => ?_, fun _ _ _ been => been⟩
  by_cases own : j = i
  · subst own
    obtain rfl := Option.some.inj (found.symm.trans there)
    exact ⟨_, List.getElem?_set_self (List.getElem?_eq_some_iff.mp found).1, rfl, rfl⟩
  · exact ⟨task, (List.getElem?_set_ne fun same => own same.symm).trans there, rfl, rfl⟩

/-- A call that goes on keeps the rest to what has been said, if it keeps to it itself. -/
theorem ServerPool.Recollects.set (recollects : pool.Recollects services stood origin)
    (found : pool.tasks[i]? = some ⟨caller, call, before⟩)
    (indexed : ∀ other queue id, ValidName queue → server.registry.Indexes (scopeKey other queue) id →
      pool.shared.registry.Indexes (scopeKey other queue) id ∨
        ∃ item key, (pool.handed services stood origin other queue).issued ⟨id, item, key⟩)
    (recalled : ∀ answer, stage = .done (.ok answer) → stage.recalls = true →
      answer.Genuine services (pool.handed services stood origin caller) call) :
    ServerPool.Recollects services stood origin ⟨server, pool.tasks.set i ⟨caller, call, stage⟩⟩ := by
  -- For the call that moves this was asked for; what the others tell was said before.
  refine ⟨fun other queue id valid there => ?_, fun j task answer there ended recalls => ?_⟩
  · have known : ∃ item key, (pool.handed services stood origin other queue).issued ⟨id, item, key⟩ := by
      rcases indexed other queue id valid there with earlier | new
      · exact recollects.indexed other queue id valid earlier
      · exact new
    obtain ⟨item, key, known⟩ := known
    exact ⟨item, key, (handed_set found other queue).issued _ known⟩
  · rcases found_set found there with ⟨rfl, rfl⟩ | ⟨_, earlier⟩
    · exact (recalled answer ended recalls).mono (handed_set found caller)
    · exact (recollects.recalled j task answer earlier ended recalls).mono (handed_set found task.caller)

/-- Every step keeps what is remembered to what has been said. -/
theorem ServerPool.Recollects.step (recollects : pool.Recollects services stood origin)
    (sorted : pool.Sorted services stood origin) (taken : pool.step services act = some next) :
    next.Recollects services stood origin := by
  cases act with
  | call caller call =>
    simp only [ServerPool.step] at taken
    split at taken
    case isFalse => cases taken
    obtain rfl := Option.some.inj taken
    have more (other : Caller) (queue : String) : (pool.handed services stood origin other queue).Within
        (ServerPool.handed services stood origin (pool.spawn ⟨caller, call, .authorize⟩) other queue) :=
      ServerPool.handed_mono ⟨fun i task there =>
        ⟨task, (List.getElem?_append_left (List.getElem?_eq_some_iff.mp there).1).trans there, rfl, rfl⟩,
        fun _ _ _ been => been⟩
    refine ⟨fun other queue id valid there => ?_, fun j task answer there ended recalls => ?_⟩
    · obtain ⟨item, key, known⟩ := recollects.indexed other queue id valid there
      exact ⟨item, key, (more other queue).issued _ known⟩
    · rcases found_concat there with earlier | ⟨rfl, rfl⟩
      · exact (recollects.recalled j task answer earlier ended recalls).mono (more task.caller)
      · cases ended
  | step i env =>
    obtain ⟨⟨caller, call, before⟩, server, stage, found, moved, rfl⟩ := (step_eq_some rfl).mp taken
    refine recollects.set found (fun other queue id valid there => ?_) fun answer ended recalls =>
      recollects.consult sorted found moved (Server.move_recalls moved recalls) ended recalls
    rcases Server.move_indexed moved there with earlier | ⟨name, embedding, tokens, cost, rfl, same⟩
    · exact .inl earlier
    · -- The message that is remembered is the one that the call's enqueue has been told of.
      obtain ⟨params, newId, rfl, named⟩ := sorted.served.serves i _ found
      obtain ⟨own, inner, result, use, _, genuine, shows⟩ := sorted.projected.tells found rfl named rfl
      obtain ⟨rfl, rfl⟩ := scopeKey_inj own valid same
      cases result with
      | message told =>
        obtain rfl := shows
        obtain ⟨message, item, _, known⟩ := genuine
        exact .inr ⟨item, message.idempotencyKey, known⟩
      | _ => exact shows.elim
  | timeout i wrote =>
    obtain ⟨⟨caller, call, before⟩, server, stage, found, given, rfl⟩ := (step_eq_some rfl).mp taken
    obtain ⟨_, _, _, _, _, _, _, _, _, _, rfl, rfl⟩ := Server.timeout_eq_some given
    refine recollects.set found (fun _ _ _ _ there => .inl there) fun answer ended recalls => ?_
    -- A call that is given up tells of no message.
    cases call <;> cases ended <;> cases recalls
  | tick elapsed =>
    obtain rfl := Option.some.inj taken
    exact ⟨recollects.indexed, recollects.recalled⟩
  | setWallClock wallClock =>
    obtain rfl := Option.some.inj taken
    exact ⟨recollects.indexed, recollects.recalled⟩

/-- In every run, what the server remembers of messages has been said of them. -/
theorem ServerPool.recollects_of_run {dataDir : Location} {keys : Log KeyRecord} {disk : Disk J} {now : Instant}
    {wallClock : Timestamp} {trace : List (Transition (ServerPool J) (ServerAction J))}
    (run : Run (ServerPool.step services) (fun _ _ => True)
      ⟨.new dataDir keys disk now wallClock, []⟩ trace pool) :
    pool.Recollects services (ServerPool.Stood trace) (.new dataDir keys disk now wallClock) := by
  -- Step by step, with what the run has seen so far.
  induction run with
  | nil =>
    exact
      { indexed := fun _ _ _ _ ⟨_, found, _⟩ => (nomatch found)
        recalled := fun _ _ _ there => (nomatch there) }
  | @snoc trace pool next act before _ taken recollects =>
    exact (recollects.step (ServerPool.sorted_of_run before) taken).mono fun _ _ _ stood => stood.append _

/--
What the server answers of messages was in the files of the caller's queue, or the same caller has handed it in.

In every run, whatever the calls of all callers do, a claim carries a payload that was enqueued under its id, with
the key and a checkpoint of that message; a stream is of chunks that were published for the message asked for; and a
dead letter tells its own payload, checkpoint, errors and verdict.
-/
theorem ServerPool.attributed {dataDir : Location} {keys : Log KeyRecord} {disk : Disk J} {now : Instant}
    {wallClock : Timestamp} {trace : List (Transition (ServerPool J) (ServerAction J))}
    (run : Run (ServerPool.step services) (fun _ _ => True)
      ⟨.new dataDir keys disk now wallClock, []⟩ trace pool) :
    ∀ (i : Nat) (task : ToolTask J) answer, pool.tasks[i]? = some task → task.stage = .done (.ok answer) →
      answer.Genuine services
        (pool.handed services (ServerPool.Stood trace) (.new dataDir keys disk now wallClock) task.caller) task.call := by
  -- Four answers tell of messages; each is what an operation of the queue's own run returned, or was recalled.
  have recollects := ServerPool.recollects_of_run run
  have sorted := ServerPool.sorted_of_run run
  intro i task answer found ended
  have answers := sorted.served.serves i task found
  rw [ended] at answers
  obtain ⟨caller, call, stage⟩ := task
  obtain rfl : stage = .done (.ok answer) := ended
  cases answer with
  | enqueued result =>
    -- A duplicate is another's message; otherwise the id is that of this very enqueue.
    cases duplicate : result.deduplicated with
    | true => exact recollects.recalled i _ _ found rfl duplicate
    | false =>
      cases call with
      | enqueue params newId =>
        obtain ⟨_, inner, returned, use, runs, genuine, shows⟩ :=
          sorted.projected.tells found (by simp [Stage.worked, ToolResult.worked, duplicate]) answers.1 rfl
        cases returned with
        | message id =>
          obtain ⟨message, item, rfl, known⟩ := genuine
          cases use with
          | enqueue =>
            obtain ⟨key, own, same⟩ := runs
            obtain rfl := Call.enqueue.inj same
            exact ⟨id, item, key, shows, known, fun _ => ⟨params, newId, rfl, own⟩⟩
          | _ => exact runs.elim
        | _ => exact shows.elim
      | _ => exact answers.elim
  -- A claim that found nothing tells of no message.
  | claimed result =>
    intro available
    cases call with
    | claim params =>
      obtain ⟨_, inner, returned, use, _, genuine, shows⟩ := sorted.projected.tells found available rfl True.intro
      cases returned with
      | claimed claim => exact ⟨params, claim, rfl, genuine, shows⟩
      | _ => exact shows.elim
    | _ => exact answers.elim
  | streamed active chunks =>
    intro chunk member
    cases call with
    | streamPartialResults params =>
      -- A chunk is there, so that the stream was not merely given up at its deadline.
      have nonempty : chunks.isEmpty = false := by
        cases chunks with
        | nil => cases member
        | cons => rfl
      obtain ⟨_, inner, returned, use, runs, genuine, shows⟩ :=
        sorted.projected.tells found (by simp [Stage.worked, ToolResult.worked, nonempty]) rfl True.intro
      cases returned with
      | polled poll =>
        cases poll with
        | chunks told =>
          obtain ⟨_, rfl⟩ := shows
          obtain ⟨id, after, rfl, known⟩ := genuine
          cases use with
          | within deadline =>
            obtain ⟨id, read, same⟩ := runs
            obtain ⟨rfl, rfl⟩ := Call.partialResultsSince.inj same
            exact ⟨params, id, rfl, read, (known chunk member).1, (known chunk member).2⟩
          | _ => exact runs.elim
        | notActive =>
          obtain rfl : active = false := shows
          rw [answers rfl] at member
          cases member
      | _ => exact shows.elim
    | _ => exact answers.elim
  -- The list is read from the group, and was vouched for when it was read.
  | deadLetters summaries => exact recollects.recalled i _ _ found rfl rfl
  | _ => exact True.intro

end

/-- A message is enqueued on a queue, and claimed. -/
def enqueuedAndClaimed : List (ServerAction Unit) :=
  .call none (.plain "orders" () ⟨0⟩) :: ServerAction.run 0 10 ++
    .call none (.claim ⟨"orders", none⟩) :: ServerAction.run 1 6

/-- The message that a call has claimed. -/
def Stage.granted : Stage J → Option (ClaimResult J)
  | .done (.ok (.claimed result)) => some result
  | _ => none

theorem ServerPool.attributed_claim :
    ∃ ran ∈ record (ServerPool.step Services.alike) ⟨.new ["data"] {} .empty 0 ⟨0⟩, []⟩ enqueuedAndClaimed,
      ∃ task ∈ ran.2.tasks[1]?, ∃ result ∈ task.stage.granted, result.available = true ∧
        ToolResult.Genuine Services.alike
          (ran.2.handed Services.alike (ServerPool.Stood ran.1) (.new ["data"] {} .empty 0 ⟨0⟩) task.caller) task.call (.claimed result) := by
  -- The run is computed: its claim has found the message.
  have recorded :
      ∃ ran ∈ record (ServerPool.step Services.alike) ⟨.new ["data"] {} .empty 0 ⟨0⟩, []⟩ enqueuedAndClaimed,
        ∃ task ∈ ran.2.tasks[1]?, ∃ result ∈ task.stage.granted, result.available = true := by
    decide +kernel
  obtain ⟨⟨trace, pool⟩, ran, task, found, result, granted, available⟩ := recorded
  have ended : task.stage = .done (.ok (.claimed result)) := by
    unfold Stage.granted at granted
    split at granted
    · rename_i same
      cases granted
      exact same
    · cases granted
  exact ⟨(trace, pool), ran, task, found, result, granted, available,
    ServerPool.attributed (run_of_record .nil ran) 1 task _ found ended⟩

end Qaas
