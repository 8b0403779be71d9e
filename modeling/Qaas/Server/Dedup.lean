import Qaas.Server.OneQueue

/-! Concurrent enqueues of similar tasks make one message, where none of them acts on an outdated look. -/

namespace Qaas

open Concurrency

variable {J : Type}

/-- Two vectors count as duplicates. -/
def Embedding.Similar (score : Embedding → Embedding → ℚ) (self other : Embedding) : Prop :=
  ∃ similarity ∈ self.cosineSimilarity score other, dedupSimilarityThreshold ≤ similarity

instance Embedding.Similar.decidable (score : Embedding → Embedding → ℚ) (self other : Embedding) :
    Decidable (self.Similar score other) :=
  inferInstanceAs (Decidable (∃ similarity ∈ self.cosineSimilarity score other, _))

/-- The embedding that a call carries. -/
def ToolCall.vector : ToolCall J → Option Embedding
  | .enqueue params _ =>
    match params.vector with
    | .ok embedding => embedding
    | .error _ => none
  | _ => none

/-- An enqueue carries a vector that is valid. -/
theorem ToolCall.vector_enqueue {params : EnqueueParams J} {newId : MessageId} {embedding : Embedding} :
    (ToolCall.enqueue params newId).vector = some embedding ↔ params.vector = .ok (some embedding) := by
  cases given : params.vector <;> simp [ToolCall.vector, given]

/-- A call that begins carries an embedding that is similar to those of all other calls, and to none that
was remembered before them; no step comes as late as a first embedding may be forgotten. -/
def ServerPool.Alike (services : Services) (caller : Caller) (queue : String) (server : Server J)
    (pool : ServerPool J) (act : ServerAction J) : Prop :=
  pool.shared.now < server.now + dedupTtl ∧
    match act with
    | .call _ call => ∃ embedding ∈ call.vector,
        (∀ entry ∈ (server.view caller queue).index.entries,
          ¬ embedding.Similar services.score entry.2.embedding) ∧
        ∀ task ∈ pool.tasks, ∀ other ∈ task.call.vector,
          embedding.Similar services.score other ∧ other.Similar services.score embedding
    | _ => True

instance ServerPool.Alike.decidable (services : Services) (caller : Caller) (queue : String)
    (server : Server J) (pool : ServerPool J) (act : ServerAction J) :
    Decidable (pool.Alike services caller queue server act) :=
  match act with
  | .call _ call => inferInstanceAs (Decidable (_ ∧ ∃ embedding ∈ call.vector, _))
  | .step _ _ | .timeout _ _ | .tick _ | .setWallClock _ => inferInstanceAs (Decidable (_ ∧ True))

/-- The message that an enqueue is going to return, and whose embedding it has yet to insert. -/
def Stage.settledOn : Stage J → Option MessageId
  | .group _ (.notifyOne (.message id)) _ | .remember _ id _ _ _ => some id
  | _ => none

/-- In its next step an enqueue that has found nothing similar makes its message, or finds the one that its
key belongs to. -/
def Stage.settles (keys : Dedup) : Stage J → Bool
  | .group _ (.reserve _ own) _ => (keys.lookup own).isSome
  | .group _ (.pushPending _ _) _ => true
  | _ => false

/-- A step by which a call settles on a message only while what it has found is still so: no similar
embedding is there, and none is yet to be inserted. -/
def ServerPool.UpToDate (services : Services) (caller : Caller) (queue : String) (pool : ServerPool J) :
    ServerAction J → Prop
  | .step i _ => ∀ task ∈ pool.tasks[i]?, task.stage.settles (pool.shared.view caller queue).keys = true →
      (∀ embedding ∈ task.call.vector, ∀ entry ∈ (pool.shared.view caller queue).index.entries,
        ¬ embedding.Similar services.score entry.2.embedding) ∧
      pool.All fun j other => j ≠ i → other.stage.settledOn = none
  | _ => True

instance ServerPool.UpToDate.decidable (services : Services) (caller : Caller) (queue : String)
    (pool : ServerPool J) (act : ServerAction J) : Decidable (pool.UpToDate services caller queue act) :=
  match act with
  | .step i _ => inferInstanceAs (Decidable (∀ task ∈ pool.tasks[i]?, _))
  | .call _ _ | .timeout _ _ | .tick _ | .setWallClock _ => inferInstanceAs (Decidable True)

/-- The answer is that a call was found to be a duplicate of a message. -/
def Names (id : MessageId) : ToolResult J → Prop
  | .enqueued result => result.messageId = id.display ∧ result.deduplicated = true
  | _ => False

/-- If a call has made a message, no other has, and every other with a result has the message's id,
as a duplicate. -/
def ServerPool.OneMessage (caller : Caller) (queue : String) (pool : ServerPool J) : Prop :=
  ∀ (i j : Nat) (creator other : ToolTask J), i ≠ j → pool.tasks[i]? = some creator →
    pool.tasks[j]? = some other → ∀ id ∈ creator.call.newId, id ∈ (pool.shared.view caller queue).pending →
    ¬ other.Created (pool.shared.view caller queue).pending ∧
      ∀ result, other.stage = .done (.ok result) → Names id result

/-- A call that has made no message, and has no result or that of a duplicate of the winner. -/
structure ToolTask.Follows (winner : Option MessageId) (pending : List MessageId) (task : ToolTask J) :
    Prop where
  uncreated : ¬ task.Created pending
  unsettled : task.stage.settledOn = none
  named : ∀ result, task.stage = .done (.ok result) → ∃ id ∈ winner, Names id result

section

variable {K : Type} {score : Embedding → Embedding → ℚ} {rank : K → Nat} {index next : EmbeddingIndex K}
  {now : Instant} {embedding : Embedding}

/-- What a search finds similar, is. -/
theorem EmbeddingIndex.nearest_similar {found : Option (K × ℚ)}
    (searched : index.nearest score rank now embedding = (next, found)) :
    next = index.evictExpired now ∧ ∀ best, found = some best → dedupSimilarityThreshold ≤ best.2 →
      ∃ entry ∈ next.entries, entry.1 = best.1 ∧ embedding.Similar score entry.2.embedding := by
  obtain ⟨rfl, rfl⟩ := Prod.mk.inj searched
  refine ⟨rfl, fun best found close => ?_⟩
  obtain ⟨entry, member, scored⟩ := List.mem_filterMap.mp (bestOf_eq_some found).1
  obtain ⟨similarity, compared, rfl⟩ := Option.map_eq_some_iff.mp scored
  exact ⟨entry, member, rfl, similarity, compared, close⟩

/-- An eviction keeps only entries that were there. -/
theorem EmbeddingIndex.mem_evictExpired {entry : K × IndexEntry}
    (member : entry ∈ (index.evictExpired now).entries) : entry ∈ index.entries := by
  unfold evictExpired at member
  split at member
  · exact member
  · exact List.mem_of_mem_filter member

/-- It keeps those that are young enough. -/
theorem EmbeddingIndex.mem_evictExpired_of_young {ttl : Duration} (bounded : index.ttl = some ttl)
    {entry : K × IndexEntry} (member : entry ∈ index.entries) (young : durationSince now entry.2.insertedAt < ttl) :
    entry ∈ (index.evictExpired now).entries := by
  unfold evictExpired
  rw [bounded]
  exact List.mem_filter.mpr ⟨member, decide_eq_true young⟩

@[simp] theorem EmbeddingIndex.evictExpired_ttl : (index.evictExpired now).ttl = index.ttl := by
  unfold evictExpired
  split <;> simp_all

end

section

variable {services : Services} {env : ToolEnv} {caller : Caller} {queue : String}
  {params : EnqueueParams J} {newId : MessageId} {view after : QueueView} {current later : Stage J}
  {embedding : Embedding}

/-- An enqueue that settles on a message goes on to insert its embedding for it. -/
theorem EnqueueStep.settled (path : current.OnPath queue params newId)
    (vector : params.vector = .ok (some embedding)) (settles : current.settles view.keys = true)
    (unmade : current.Unmade → newId ∉ view.pending)
    (step : EnqueueStep services env queue params newId view current after later) :
    after.index = view.index ∧ ∃ id, later.settledOn = some id ∧ (newId ∈ after.pending → id = newId) := by
  -- The message is settled by the step that pushes it, or that finds the key taken.
  cases path with
  | prepares prepares =>
    cases current with
    | group => cases prepares
    | _ => cases settles
  | waits waits =>
    cases current with
    | group => cases waits
    | _ => cases settles
  | asks | remembers | done => cases settles
  | group given _ enqueues =>
    obtain rfl := Except.ok.inj (given.symm.trans vector)
    cases step with
    | refused before => rcases before with before | before <;> cases before
    | prepares before _ _ | asks before _ _ | skips before _ _ => cases before
    | proceeds before _ => cases before
    | hit found => exact ⟨rfl, _, rfl, fun there => absurd there (unmade True.intro)⟩
    | reserved found =>
      simp only [Stage.settles, found] at settles
      cases settles
    | pushed => exact ⟨rfl, _, rfl, fun _ => congrArg Message.id enqueues⟩
    | _ => cases settles

/-- An index forgets after the same time as before. -/
theorem EnqueueStep.ttl (step : EnqueueStep services env queue params newId view current after later) :
    after.index.ttl = view.index.ttl := by
  cases step with
  | collapses searched _ | misses searched _ _ =>
    obtain rfl := (EmbeddingIndex.nearest_similar searched).1
    exact EmbeddingIndex.evictExpired_ttl
  | _ => rfl

/-- Before it is compared, an enqueue has settled on nothing. -/
theorem Stage.Prepares.unsettled (prepares : current.Prepares queue params) : current.settledOn = none := by
  cases current with
  | group | remember => cases prepares
  | _ => rfl

/-- Nor has it while it waits to be admitted. -/
theorem Stage.Waits.unsettled (waits : current.Waits queue params) : current.settledOn = none := by
  cases current with
  | group | remember => cases waits
  | _ => rfl

/-- An enqueue that has settled on a message has its answer once its embedding is inserted. -/
theorem EnqueueStep.inserts {id : MessageId} (path : current.OnPath queue params newId)
    (vector : params.vector = .ok (some embedding)) (settled : current.settledOn = some id)
    (step : EnqueueStep services env queue params newId view current after later) :
    after = view ∧ later.settledOn = some id ∨
      after = { view with index := view.index.insert view.now id embedding } ∧ later.answered = true := by
  -- Settled are the calls that have their message in the group, and those that remember its embedding next.
  cases path with
  | prepares prepares =>
    rw [prepares.unsettled] at settled
    cases settled
  | waits waits =>
    rw [waits.unsettled] at settled
    cases settled
  | asks | done => cases settled
  | group given _ enqueues =>
    obtain rfl := Except.ok.inj (given.symm.trans vector)
    cases step with
    | refused before => rcases before with before | before <;> cases before
    | prepares before _ _ | asks before _ _ | skips before _ _ => cases before
    | proceeds before _ => cases before
    | notified => exact .inl ⟨rfl, settled⟩
    | _ => cases settled
  | remembers given =>
    obtain rfl := Option.some.inj (Except.ok.inj (given.symm.trans vector))
    obtain rfl := Option.some.inj settled
    cases step with
    | refused before => rcases before with before | before <;> cases before
    | prepares before _ _ | asks before _ _ | skips before _ _ => cases before
    | proceeds before _ => cases before
    | remembers => exact .inr ⟨rfl, rfl⟩

/-- An enqueue that has settled on nothing, and does not, makes no message, inserts nothing, and has no
result but one that a search has found similar. -/
theorem EnqueueStep.passes {winner : Option MessageId} (path : current.OnPath queue params newId)
    (vector : params.vector = .ok (some embedding)) (settles : current.settles view.keys = false)
    (unsettled : current.settledOn = none)
    (step : EnqueueStep services env queue params newId view current after later)
    (similar : ∀ entry ∈ (view.index.evictExpired view.now).entries,
      embedding.Similar services.score entry.2.embedding → winner = some entry.1) :
    after.pending = view.pending ∧
      (after.index = view.index ∨ after.index = view.index.evictExpired view.now) ∧
      later.settledOn = none ∧
      ∀ result, later = .done (.ok result) → ∃ id ∈ winner, Names id result := by
  cases step with
  | refused _ | released => exact ⟨rfl, .inl rfl, rfl, fun _ same => by cases same⟩
  | prepares _ prepares _ =>
    refine ⟨rfl, .inl rfl, prepares.unsettled, fun _ same => ?_⟩
    subst same
    cases prepares
  | asks _ _ _ | denied _ | reserved _ | written _ => exact ⟨rfl, .inl rfl, rfl, fun _ same => by cases same⟩
  | admitted _ =>
    rename Enqueueing => locals
    cases own : locals.key <;> exact ⟨rfl, .inl rfl, rfl, fun _ same => by cases same⟩
  | skips _ none_ _ => cases none_.symm.trans vector
  | proceeds _ waits =>
    refine ⟨rfl, .inl rfl, waits.unsettled, fun _ same => ?_⟩
    subst same
    cases waits
  | misses searched _ waits =>
    refine ⟨rfl, .inr (EmbeddingIndex.nearest_similar searched).1, waits.unsettled, fun _ same => ?_⟩
    subst same
    cases waits
  | collapses searched close =>
    cases path with
    | prepares prepares => cases prepares
    | waits waits => cases waits
    | asks given own =>
      -- The search was one for the call's own embedding.
      obtain ⟨_, carried, _⟩ := given
      rw [own, vector] at carried
      obtain rfl := Option.some.inj (Except.ok.inj carried)
      obtain ⟨rfl, found⟩ := EmbeddingIndex.nearest_similar searched
      obtain ⟨entry, member, named, alike⟩ := found _ rfl close
      refine ⟨rfl, .inr rfl, rfl, fun result same => ?_⟩
      obtain rfl := Except.ok.inj (Stage.done.inj same)
      exact ⟨entry.1, similar entry member alike, congrArg MessageId.display named.symm, rfl⟩
  | unwritten _ shape =>
    rcases shape with ⟨_, _, rfl⟩ | ⟨_, rfl⟩ <;> exact ⟨rfl, .inl rfl, rfl, fun _ same => by cases same⟩
  | hit found =>
    simp only [Stage.settles, found] at settles
    cases settles
  | pushed => cases settles
  | notified | remembers => cases unsettled

end

/-- How far the calls have come in agreeing on a message. -/
inductive ServerPool.Agreement (services : Services) (caller : Caller) (queue : String) (start : Instant)
    (old : List (MessageId × IndexEntry)) (pool : ServerPool J) : Prop
  | open_ : (∀ entry ∈ (pool.shared.view caller queue).index.entries, entry ∈ old) →
      (pool.All fun _ task => task.Follows none (pool.shared.view caller queue).pending) →
      Agreement services caller queue start old pool
  -- One call has settled on a message, and has yet to insert its embedding.
  | settled {i : Nat} {first : ToolTask J} {id : MessageId} : pool.tasks[i]? = some first →
      first.stage.settledOn = some id →
      (first.Created (pool.shared.view caller queue).pending → first.call.newId = some id) →
      (∀ entry ∈ (pool.shared.view caller queue).index.entries, entry ∈ old) →
      (pool.All fun j task => j ≠ i → task.Follows (some id) (pool.shared.view caller queue).pending) →
      Agreement services caller queue start old pool
  -- The embedding is there, and whoever searches finds it.
  | known {i : Nat} {first : ToolTask J} {id : MessageId} {embedding : Embedding} {at_ : Instant} :
      pool.tasks[i]? = some first → first.stage.answered = true →
      (first.Created (pool.shared.view caller queue).pending → first.call.newId = some id) →
      first.call.vector = some embedding → start ≤ at_ →
      (id, ⟨embedding, at_⟩) ∈ (pool.shared.view caller queue).index.entries →
      (∀ entry ∈ (pool.shared.view caller queue).index.entries,
        entry ∈ old ∨ entry = (id, ⟨embedding, at_⟩)) →
      (pool.All fun j task => j ≠ i → task.Follows (some id) (pool.shared.view caller queue).pending) →
      Agreement services caller queue start old pool

/-- What holds while similar tasks are enqueued. -/
structure ServerPool.Deduplicating (services : Services) (caller : Caller) (queue : String) (start : Instant)
    (old : List (MessageId × IndexEntry)) (pool : ServerPool J) : Prop where
  enqueuing : pool.Enqueuing caller queue
  ttl : (pool.shared.view caller queue).index.ttl = some dedupTtl
  clock : start ≤ pool.shared.now
  carried : ∀ task ∈ pool.tasks, ∃ embedding ∈ task.call.vector,
    ∀ entry ∈ old, ¬ embedding.Similar services.score entry.2.embedding
  similar : ∀ (i j : Nat) (task other : ToolTask J), i ≠ j → pool.tasks[i]? = some task →
    pool.tasks[j]? = some other → ∀ embedding ∈ task.call.vector, ∀ vector ∈ other.call.vector,
      embedding.Similar services.score vector
  agreement : pool.Agreement services caller queue start old

section

variable {services : Services} {caller : Caller} {queue : String} {start : Instant}
  {old : List (MessageId × IndexEntry)} {pool : ServerPool J} {task : ToolTask J}
  {winner : Option MessageId} {pending after : List MessageId}

/-- What a call has made by other messages, it has made by fewer. -/
theorem ToolTask.Follows.congr (follows : task.Follows winner pending)
    (same : task.Created after ↔ task.Created pending) : task.Follows winner after :=
  ⟨fun created => follows.uncreated (same.mp created), follows.unsettled, follows.named⟩

/-- A call without a result may follow any winner. -/
theorem ToolTask.Follows.of_none (follows : task.Follows none pending) : task.Follows winner pending := by
  refine ⟨follows.uncreated, follows.unsettled, fun result same => ?_⟩
  obtain ⟨id, impossible, _⟩ := follows.named result same
  cases impossible

section

variable {i : Nat} {env : ToolEnv} {params : EnqueueParams J} {newId : MessageId} {stage later : Stage J}
  {server : Server J}

/-- The step of one call leaves the others with what they follow. -/
theorem ServerPool.Enqueuing.follows (enqueuing : pool.Enqueuing caller queue) {p : Nat → Prop}
    (found : pool.tasks[i]? = some ⟨caller, .enqueue params newId, stage⟩)
    (path : stage.OnPath queue params newId)
    (step : EnqueueStep services env queue params newId (pool.shared.view caller queue) stage
      (server.view caller queue) later)
    (own : p i → ToolTask.Follows winner (server.view caller queue).pending
      ⟨caller, .enqueue params newId, later⟩)
    (others : pool.All fun j task => p j → task.Follows winner (pool.shared.view caller queue).pending) :
    Pool.All ⟨server, pool.tasks.set i ⟨caller, .enqueue params newId, later⟩⟩ fun j task =>
      p j → task.Follows winner (server.view caller queue).pending := by
  intro j other there concerned
  rcases found_set found there with ⟨rfl, rfl⟩ | ⟨apart, before⟩
  · exact own concerned
  · exact (others j other before concerned).congr (enqueuing.created_other found path step apart before)

/-- A call that settles on nothing keeps on following. -/
theorem ToolTask.Follows.passes
    (follows : ToolTask.Follows winner pending ⟨caller, .enqueue params newId, stage⟩) (same : after = pending)
    (unsettled : later.settledOn = none)
    (named : ∀ result, later = .done (.ok result) → ∃ id ∈ winner, Names id result) :
    ToolTask.Follows winner after ⟨caller, .enqueue params newId, later⟩ := by
  subst same
  exact ⟨follows.uncreated, unsettled, named⟩

/-- A search forgets entries of an index, and adds none. -/
theorem EmbeddingIndex.mem_of_searched {index next : EmbeddingIndex MessageId} {now : Instant}
    {entry : MessageId × IndexEntry} (searched : next = index ∨ next = index.evictExpired now)
    (there : entry ∈ next.entries) : entry ∈ index.entries := by
  rcases searched with rfl | rfl
  · exact there
  · exact mem_evictExpired there

/-- While no call has settled on a message, one that takes a step is the first to, or goes on. -/
theorem ServerPool.Deduplicating.moves_open (agreeing : pool.Deduplicating services caller queue start old)
    (found : pool.tasks[i]? = some ⟨caller, .enqueue params newId, stage⟩)
    (path : stage.OnPath queue params newId)
    (step : EnqueueStep services env queue params newId (pool.shared.view caller queue) stage
      (server.view caller queue) later)
    (among : ∀ entry ∈ (pool.shared.view caller queue).index.entries, entry ∈ old)
    (follows : pool.All fun _ task => task.Follows none (pool.shared.view caller queue).pending) :
    ServerPool.Agreement services caller queue start old
      ⟨server, pool.tasks.set i ⟨caller, .enqueue params newId, later⟩⟩ := by
  have member := List.mem_of_getElem? found
  obtain ⟨embedding, carries, unlike⟩ := agreeing.carried _ member
  have vector : params.vector = .ok (some embedding) := ToolCall.vector_enqueue.mp carries
  have mine := follows i _ found
  cases settles : stage.settles (pool.shared.view caller queue).keys with
  | true =>
    -- The first call to settle is the winner, whose message the others will follow.
    obtain ⟨index, id, settled, own⟩ := step.settled path vector settles fun early =>
      agreeing.enqueuing.unmade _ member early newId rfl
    refine .settled (List.getElem?_set_self (List.getElem?_eq_some_iff.mp found).1) settled
      (fun created => ?_) (fun entry there => ?_)
      (agreeing.enqueuing.follows found path step (fun other => absurd rfl other) fun j task there _ =>
        (follows j task there).of_none)
    · obtain ⟨made, named, there⟩ := created
      obtain rfl := Option.some.inj named
      rw [own there]
      rfl
    · change entry ∈ (server.view caller queue).index.entries at there
      rw [index] at there
      exact among entry there
  | false =>
    -- No entry is similar, since all of them were there before.
    obtain ⟨pending, index, unsettled, named⟩ := step.passes path vector settles mine.unsettled
      fun entry there alike => absurd alike (unlike entry (among entry (EmbeddingIndex.mem_evictExpired there)))
    exact .open_ (fun entry there => among entry (EmbeddingIndex.mem_of_searched index there)) fun j task there =>
      agreeing.enqueuing.follows (p := fun _ => True) found path step
        (fun _ => mine.passes pending unsettled named) (fun j task there _ => follows j task there)
        j task there True.intro

/-- The call that has settled on a message inserts its embedding, or has yet to. -/
theorem ServerPool.Deduplicating.moves_first (agreeing : pool.Deduplicating services caller queue start old)
    (found : pool.tasks[i]? = some ⟨caller, .enqueue params newId, stage⟩)
    (path : stage.OnPath queue params newId)
    (step : EnqueueStep services env queue params newId (pool.shared.view caller queue) stage
      (server.view caller queue) later) {id : MessageId} (settledOn : stage.settledOn = some id)
    (own : ToolTask.Created (pool.shared.view caller queue).pending
      (⟨caller, .enqueue params newId, stage⟩ : ToolTask J) → newId = id)
    (among : ∀ entry ∈ (pool.shared.view caller queue).index.entries, entry ∈ old)
    (follows : pool.All fun j task => j ≠ i → task.Follows (some id) (pool.shared.view caller queue).pending) :
    ServerPool.Agreement services caller queue start old
      ⟨server, pool.tasks.set i ⟨caller, .enqueue params newId, later⟩⟩ := by
  have bound := (List.getElem?_eq_some_iff.mp found).1
  obtain ⟨embedding, carries, _⟩ := agreeing.carried _ (List.mem_of_getElem? found)
  have others := agreeing.enqueuing.follows found path step (fun other => absurd rfl other) follows
  rcases step.inserts path (ToolCall.vector_enqueue.mp carries) settledOn with ⟨same, still⟩ | ⟨inserted, answered⟩
  · refine .settled (List.getElem?_set_self bound) still ?_ ?_ others
    · show ToolTask.Created (server.view caller queue).pending _ → _
      rw [same]
      exact fun created => congrArg some (own created)
    · show ∀ entry ∈ (server.view caller queue).index.entries, entry ∈ old
      rw [same]
      exact among
  · -- Its embedding comes to those that were there before.
    refine .known (List.getElem?_set_self bound) answered ?_ carries agreeing.clock ?_ ?_ others
    · show ToolTask.Created (server.view caller queue).pending _ → _
      rw [inserted]
      exact fun created => congrArg some (own created)
    · show _ ∈ (server.view caller queue).index.entries
      rw [inserted]
      exact List.mem_append_right _ List.mem_cons_self
    · show ∀ entry ∈ (server.view caller queue).index.entries, _
      rw [inserted]
      intro entry member
      rcases List.mem_append.mp member with before | new
      · exact .inl (among entry (List.mem_of_mem_filter before))
      · exact .inr (List.mem_singleton.mp new)

/-- A step of a call keeps the agreement. -/
theorem ServerPool.Deduplicating.moves (agreeing : pool.Deduplicating services caller queue start old)
    (timely : pool.shared.now < start + dedupTtl)
    (upToDate : pool.UpToDate services caller queue (.step i env))
    (found : pool.tasks[i]? = some ⟨caller, .enqueue params newId, stage⟩)
    (path : stage.OnPath queue params newId)
    (step : EnqueueStep services env queue params newId (pool.shared.view caller queue) stage
      (server.view caller queue) later) :
    ServerPool.Agreement services caller queue start old
      ⟨server, pool.tasks.set i ⟨caller, .enqueue params newId, later⟩⟩ := by
  obtain ⟨embedding, carries, unlike⟩ := agreeing.carried _ (List.mem_of_getElem? found)
  have vector : params.vector = .ok (some embedding) := ToolCall.vector_enqueue.mp carries
  cases agreeing.agreement with
  | open_ among follows => exact agreeing.moves_open found path step among follows
  | @settled k first id there settledOn own among follows =>
    by_cases mine : k = i
    · subst mine
      obtain rfl := Option.some.inj (there.symm.trans found)
      exact agreeing.moves_first found path step settledOn (fun created => Option.some.inj (own created)) among follows
    · have following := follows i _ found fun same => mine same.symm
      cases settles : stage.settles (pool.shared.view caller queue).keys with
      | true =>
        -- The embedding that is yet to be inserted forbids the step.
        have idle := (upToDate _ found settles).2 k first there mine
        rw [idle] at settledOn
        cases settledOn
      | false =>
        obtain ⟨pending, index, unsettled, named⟩ := step.passes path vector settles following.unsettled
          fun entry there alike =>
            absurd alike (unlike entry (among entry (EmbeddingIndex.mem_evictExpired there)))
        refine .settled ((List.getElem?_set_ne fun same => mine same.symm).trans there) settledOn ?_
          (fun entry there => among entry (EmbeddingIndex.mem_of_searched index there))
          (agreeing.enqueuing.follows found path step (fun _ => following.passes pending unsettled named) follows)
        show first.Created (server.view caller queue).pending → _
        rw [pending]
        exact own
  | @known k first id inserted at_ there answered own carried since member among follows =>
    by_cases mine : k = i
    · subst mine
      obtain rfl := Option.some.inj (there.symm.trans found)
      cases answered.symm.trans step.unanswered
    · have following := follows i _ found fun same => mine same.symm
      cases settles : stage.settles (pool.shared.view caller queue).keys with
      | true =>
        -- So does the embedding that is there.
        have similar := agreeing.similar i k _ first (fun same => mine same.symm) found there embedding carries
          inserted carried
        exact absurd similar ((upToDate _ found settles).1 embedding carries _ member)
      | false =>
        obtain ⟨pending, index, unsettled, named⟩ := step.passes path vector settles following.unsettled
          fun entry there alike => by
            rcases among entry (EmbeddingIndex.mem_evictExpired there) with before | rfl
            · exact absurd alike (unlike entry before)
            · rfl
        refine .known ((List.getElem?_set_ne fun same => mine same.symm).trans there) answered ?_ carried since
          ?_ (fun entry there => among entry (EmbeddingIndex.mem_of_searched index there))
          (agreeing.enqueuing.follows found path step (fun _ => following.passes pending unsettled named) follows)
        · show first.Created (server.view caller queue).pending → _
          rw [pending]
          exact own
        · show _ ∈ (server.view caller queue).index.entries
          rcases index with same | evicted
          · rwa [same]
          · rw [evicted]
            -- The winner's embedding is not yet old enough to be forgotten.
            refine EmbeddingIndex.mem_evictExpired_of_young agreeing.ttl member ?_
            have ttl : (0 : Duration) < dedupTtl := by decide +kernel
            refine max_lt ?_ ttl
            show pool.shared.now - at_ < dedupTtl
            linarith

end

/-- A call that begins agrees with the others. -/
theorem ServerPool.Agreement.spawn (agreement : pool.Agreement services caller queue start old)
    (follows : ∀ winner, task.Follows winner (pool.shared.view caller queue).pending) :
    ServerPool.Agreement services caller queue start old (pool.spawn task) := by
  -- The calls that were there keep their places, and the new one follows any winner.
  have stays {i : Nat} {first : ToolTask J} (there : pool.tasks[i]? = some first) :
      (pool.spawn task).tasks[i]? = some first :=
    (List.getElem?_append_left (List.getElem?_eq_some_iff.mp there).1).trans there
  have every {winner : Option MessageId} {p : Nat → Prop}
      (others : pool.All fun j task => p j → task.Follows winner (pool.shared.view caller queue).pending) :
      (pool.spawn task).All fun j task => p j → task.Follows winner (pool.shared.view caller queue).pending := by
    intro j other there concerned
    rcases found_concat there with before | ⟨_, rfl⟩
    · exact others j other before concerned
    · exact follows winner
  cases agreement with
  | open_ among others =>
    exact .open_ among fun j task there =>
      every (p := fun _ => True) (fun j task there _ => others j task there) j task there True.intro
  | settled there settledOn own among others => exact .settled (stays there) settledOn own among (every others)
  | known there answered own carried since member among others =>
    exact .known (stays there) answered own carried since member among (every others)

/-- Only the calls, the pending messages and the index count. -/
theorem ServerPool.Agreement.congr {server : Server J}
    (agreement : pool.Agreement services caller queue start old)
    (pending : (server.view caller queue).pending = (pool.shared.view caller queue).pending)
    (index : (server.view caller queue).index = (pool.shared.view caller queue).index) :
    ServerPool.Agreement services caller queue start old ⟨server, pool.tasks⟩ := by
  -- Case by case, each fact is about the calls, the pending messages or the index.
  cases agreement with
  | open_ among others =>
    rw [← index] at among
    rw [← pending] at others
    exact .open_ among others
  | settled there settledOn own among others =>
    rw [← index] at among
    rw [← pending] at own others
    exact .settled there settledOn own among others
  | known there answered own carried since member among others =>
    rw [← index] at member among
    rw [← pending] at own others
    exact .known there answered own carried since member among others

/-- Every step keeps what holds while similar tasks are enqueued. -/
theorem ServerPool.Deduplicating.step {server : Server J} {next : ServerPool J} {act : ServerAction J}
    (agreeing : pool.Deduplicating services caller queue server.now (server.view caller queue).index.entries)
    (kept : pool.OnQueue caller queue act) (alike : pool.Alike services caller queue server act)
    (upToDate : pool.UpToDate services caller queue act) (taken : pool.step services act = some next) :
    next.Deduplicating services caller queue server.now (server.view caller queue).index.entries := by
  obtain ⟨step, enqueuing⟩ := agreeing.enqueuing.step kept taken
  -- A new enqueue joins the others, one of them moves on, or something else happens on the queue.
  cases step with
  | @begins params newId absent others =>
    obtain ⟨_, embedding, carries, unlike, similar⟩ := alike
    have uncreated : ¬ ToolTask.Created (pool.shared.view caller queue).pending
        (⟨caller, .enqueue params newId, .authorize⟩ : ToolTask J) := by
      intro ⟨id, named, there⟩
      obtain rfl := Option.some.inj named
      exact absent there
    refine ⟨enqueuing, agreeing.ttl, agreeing.clock, fun task member => ?_,
      fun i j task other apart first second vector carried vector' carried' => ?_,
      agreeing.agreement.spawn fun winner => ⟨uncreated, rfl, fun _ same => by cases same⟩⟩
    · rcases List.mem_append.mp member with before | new
      · exact agreeing.carried task before
      · obtain rfl := List.mem_singleton.mp new
        exact ⟨embedding, carries, unlike⟩
    · rcases found_concat first with before | ⟨rfl, rfl⟩ <;>
        rcases found_concat second with after | ⟨rfl, rfl⟩
      · -- The new embedding and those that were there are similar to each other.
        exact agreeing.similar i j task other apart before after vector carried vector' carried'
      · obtain rfl := Option.some.inj (carries.symm.trans carried')
        exact (similar task (List.mem_of_getElem? before) vector carried).2
      · obtain rfl := Option.some.inj (carries.symm.trans carried)
        exact (similar other (List.mem_of_getElem? after) vector' carried').1
      · exact absurd rfl apart
  | @waits act server' own same later =>
    refine ⟨enqueuing, ?_, agreeing.clock.trans later, agreeing.carried, agreeing.similar,
      agreeing.agreement.congr (by rw [same]) (by rw [same])⟩
    show (server'.view caller queue).index.ttl = _
    rw [same]
    exact agreeing.ttl
  | @moves i env params newId stage later server' found path step =>
    refine ⟨enqueuing, step.ttl.trans agreeing.ttl, ?_, fun task member => ?_,
      fun j k task other apart first second => ?_, agreeing.moves alike.1 upToDate found path step⟩
    · show server.now ≤ (server'.view caller queue).now
      rw [step.now]
      exact agreeing.clock
    · rcases List.mem_or_eq_of_mem_set member with before | rfl
      · exact agreeing.carried task before
      · exact agreeing.carried ⟨caller, .enqueue params newId, stage⟩ (List.mem_of_getElem? found)
    · rcases found_set found first with ⟨rfl, rfl⟩ | ⟨_, before⟩ <;>
        rcases found_set found second with ⟨rfl, rfl⟩ | ⟨_, after⟩
      · exact absurd rfl apart
      · exact agreeing.similar _ k ⟨caller, .enqueue params newId, stage⟩ other apart found after
      · exact agreeing.similar j _ task ⟨caller, .enqueue params newId, stage⟩ apart before found
      · exact agreeing.similar j k task other apart before after

/-- Where the calls agree on a message, they made no other. -/
theorem ServerPool.Agreement.oneMessage (agreement : pool.Agreement services caller queue start old) :
    pool.OneMessage caller queue := by
  intro i j creator other apart first second id named made
  have created : creator.Created (pool.shared.view caller queue).pending := ⟨id, named, made⟩
  -- Whoever has made a message is the one that the others follow.
  have leads {k : Nat} {leader : ToolTask J} {winner : MessageId} (there : pool.tasks[k]? = some leader)
      (own : leader.Created (pool.shared.view caller queue).pending → leader.call.newId = some winner)
      (others : pool.All fun j task => j ≠ k →
        task.Follows (some winner) (pool.shared.view caller queue).pending) :
      ¬ other.Created (pool.shared.view caller queue).pending ∧
        ∀ result, other.stage = .done (.ok result) → Names id result := by
    by_cases leading : i = k
    · subst leading
      obtain rfl := Option.some.inj (there.symm.trans first)
      have follows := others j other second fun same => apart same.symm
      refine ⟨follows.uncreated, fun result answered => ?_⟩
      obtain ⟨_, same, names⟩ := follows.named result answered
      obtain rfl := Option.some.inj same
      obtain rfl := Option.some.inj ((own created).symm.trans named)
      exact names
    · exact absurd created (others i creator first leading).uncreated
  cases agreement with
  | open_ among others => exact absurd created (others i creator first).uncreated
  | settled there _ own _ others => exact leads there own others
  | known there _ own _ _ _ _ others => exact leads there own others

end

/-- In every run of enqueues of similar tasks on one queue in which no call acts on an outdated look, at most
one makes a message, and all others return its id. -/
theorem ServerPool.one_message {services : Services} {caller : Caller} {queue : String} {server : Server J}
    (remembers : (server.view caller queue).index.ttl = some dedupTtl)
    {trace : List (Transition (ServerPool J) (ServerAction J))} {pool : ServerPool J}
    (run : Run (ServerPool.step services) (fun pool act => pool.OnQueue caller queue act ∧
      pool.Alike services caller queue server act) ⟨server, []⟩ trace pool)
    (upToDate : ∀ e ∈ trace, e.pre.UpToDate services caller queue e.act) : pool.OneMessage caller queue := by
  -- At the start no call has been made, so that everything is still open.
  have start : ServerPool.Deduplicating services caller queue server.now
      (server.view caller queue).index.entries (⟨server, []⟩ : ServerPool J) := by
    refine ⟨.start server, remembers, le_rfl, fun _ member => ?_, fun _ _ _ _ _ found => ?_,
      .open_ (fun _ there => there) fun _ _ found => ?_⟩
    · cases member
    · cases found
    · cases found
  have agreeing := (run.strengthen upToDate).invariant start fun _ _ _ allowed agreeing taken =>
    agreeing.step allowed.1.1 allowed.1.2 allowed.2 taken
  exact agreeing.agreement.oneMessage

/-- An enqueue of a task with an embedding. -/
def ToolCall.embedded (queue : String) (newId : MessageId) : ToolCall Unit :=
  .enqueue
    { queue := some queue
      payload := ()
      idempotencyKey := none
      estimatedTokens := none
      estimatedCost := none
      embedding := some [some 1] } newId

/-- Two enqueues of similar tasks, the second when the first is done. -/
def oneAfterTheOther : List (ServerAction Unit) :=
  .call none (.embedded "orders" ⟨0⟩) :: ServerAction.run 0 13 ++
    .call none (.embedded "orders" ⟨1⟩) :: ServerAction.run 1 5

theorem ServerPool.one_message_oneAfterTheOther :
    ∃ pool : ServerPool Unit, pool.tasks.length = 2 ∧ pool.Settled ∧
      (pool.shared.view none "orders").pending = [⟨0⟩] ∧ pool.OneMessage none "orders" := by
  have reached : ∃ pool : ServerPool Unit, Reachable (ServerPool.step Services.alike)
      (fun pool act => (pool.OnQueue none "orders" act ∧
        pool.Alike Services.alike none "orders" untouched act) ∧
          pool.UpToDate Services.alike none "orders" act) ⟨untouched, []⟩ pool ∧
      pool.tasks.length = 2 ∧ pool.Settled ∧ (pool.shared.view none "orders").pending = [⟨0⟩] :=
    reaches_of_exec oneAfterTheOther _ (by decide +kernel)
  obtain ⟨pool, ⟨trace, run⟩, two, settled, first⟩ := reached
  exact ⟨pool, two, settled, first, ServerPool.one_message rfl (run.mono fun _ _ allowed => allowed.1)
    fun e member => (run.of_mem member).2.1.2⟩

/-- Two enqueues of similar tasks that both look before either has inserted its embedding. -/
def bothLook : List (ServerAction Unit) :=
  [.call none (.embedded "orders" ⟨0⟩), .call none (.embedded "orders" ⟨1⟩)] ++
    ServerAction.run 0 8 ++ ServerAction.run 1 5 ++ ServerAction.run 0 5 ++ ServerAction.run 1 5

theorem ServerPool.two_messages :
    ¬ ∀ (services : Services) (server : Server Unit) (caller : Caller) (queue : String)
        (trace : List (Transition (ServerPool Unit) (ServerAction Unit))) (pool : ServerPool Unit),
      (∀ self other, services.score self other = services.score other self) →
      (server.view caller queue).index.ttl = some dedupTtl →
      Run (ServerPool.step services) (fun pool act => pool.OnQueue caller queue act ∧
        pool.Alike services caller queue server act) ⟨server, []⟩ trace pool →
      pool.OneMessage caller queue := by
  -- In the run that is computed both calls look before either has remembered its message.
  intro always
  have reached : ∃ pool : ServerPool Unit, Reachable (ServerPool.step Services.alike)
      (fun pool act => pool.OnQueue none "orders" act ∧
        pool.Alike Services.alike none "orders" untouched act) ⟨untouched, []⟩ pool ∧
      (pool.tasks.map fun task => task.call.newId) = [some ⟨0⟩, some ⟨1⟩] ∧
        (pool.shared.view none "orders").pending = [⟨0⟩, ⟨1⟩] :=
    reaches_of_exec bothLook _ (by decide +kernel)
  obtain ⟨pool, ⟨trace, run⟩, ids, both⟩ := reached
  have one := always Services.alike untouched none "orders" trace pool (fun _ _ => rfl) rfl run
  obtain ⟨first, rest, shape, named, last⟩ := List.map_eq_cons_iff.mp ids
  obtain ⟨second, nothing, rfl, other, ended⟩ := List.map_eq_cons_iff.mp last
  have only := one 0 1 first second (by decide) (by rw [shape]; rfl) (by rw [shape]; rfl) ⟨0⟩ named
    (by rw [both]; decide)
  exact only.1 ⟨⟨1⟩, other, by rw [both]; decide⟩

end Qaas
