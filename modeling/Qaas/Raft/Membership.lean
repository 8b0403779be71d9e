import Mathlib.Data.Finset.Basic
import Mathlib.Data.Finset.Union
import Qaas.Ordered.SortedMap

/-! Bringing the voters of a raft cluster in line with a list of members. -/

namespace Qaas

open Ordered

/-- Where a node is reached. -/
structure BasicNode where
  addr : String
  deriving DecidableEq

/-- The nodes that should be voters, by their ids. -/
abbrev ClusterMembers := SortedMap UInt64 BasicNode

/-- A change of the membership. -/
inductive ChangeMembers where
  | addVoters (voters : ClusterMembers)
  | removeVoters (voters : Finset UInt64)

/-- What is used of a raft node: what it reports of the membership, and the changes that it carries out. -/
structure Raft (C E : Type) where
  voterIds : C → Finset UInt64
  node : C → UInt64 → Option BasicNode
  addLearner : C → UInt64 → BasicNode → (blocking : Bool) → Except E Unit × C
  changeMembership : C → ChangeMembers → (retain : Bool) → Except E Unit × C

/-- What a raft node promises of the changes that it has carried out. -/
structure Raft.Documented {C E : Type} (raft : Raft C E) : Prop where
  addLearner : ∀ c id node blocking c', raft.addLearner c id node blocking = (.ok (), c') →
    raft.voterIds c' = raft.voterIds c ∧
      ∀ other, raft.node c' other = (raft.node c other).or (if other = id then some node else none)
  addVoters : ∀ c voters retain c', raft.changeMembership c (.addVoters voters) retain = (.ok (), c') →
    raft.voterIds c' = raft.voterIds c ∪ voters.keys.toFinset ∧
      ∀ id, raft.node c' id = (raft.node c id).or (voters.get? id)
  removeVoters : ∀ c voters c', voters ⊆ raft.voterIds c →
    raft.changeMembership c (.removeVoters voters) false = (.ok (), c') →
      raft.voterIds c' = raft.voterIds c \ voters ∧
        ∀ id, raft.node c' id = if id ∈ voters then none else raft.node c id

/-- The members that a file lists, which is read anew every time. -/
def FileMembershipSource.members {B J S : Type} (read : Except S B)
    (fromSlice : B → Except J (SortedMap UInt64 String)) (invalidData : J → S) : Except S ClusterMembers :=
  match read with
  | .error error => .error error
  | .ok bytes =>
    match fromSlice bytes with
    | .error error => .error (invalidData error)
    | .ok raw => .ok (raw.mapValues BasicNode.mk)

/-- What one round has changed. -/
structure MembershipDiff where
  joined : Finset UInt64
  left : Finset UInt64

/-- At what a round can fail. -/
inductive ReconcileError (S E : Type) where
  | source (error : S)
  | addLearner (nodeId : UInt64) (error : E)
  | changeMembership (error : E)

variable {C S E : Type}

/-- Add every joining node as a learner. -/
def Raft.addLearners (raft : Raft C E) : List (UInt64 × BasicNode) → C → Except (ReconcileError S E) Unit × C
  | [], c => (.ok (), c)
  | (id, node) :: joining, c =>
    match raft.addLearner c id node true with
    | (.error error, c) => (.error (.addLearner id error), c)
    | (.ok (), c) => raft.addLearners joining c

/-- Make voters of the joining nodes, if there are any. -/
def Raft.promote (raft : Raft C E) (joining : ClusterMembers) (c : C) : Except (ReconcileError S E) Unit × C :=
  if joining.keys = [] then (.ok (), c)
  else
    match raft.changeMembership c (.addVoters joining) true with
    | (.error error, c) => (.error (.changeMembership error), c)
    | (.ok (), c) => (.ok (), c)

/-- Remove the leaving voters, if there are any. -/
def Raft.remove (raft : Raft C E) (leaving : Finset UInt64) (c : C) : Except (ReconcileError S E) Unit × C :=
  if leaving = ∅ then (.ok (), c)
  else
    match raft.changeMembership c (.removeVoters leaving) false with
    | (.error error, c) => (.error (.changeMembership error), c)
    | (.ok (), c) => (.ok (), c)

/-- The members that are no voters yet. -/
def ClusterMembers.joining (desired : ClusterMembers) (current : Finset UInt64) : ClusterMembers :=
  desired.filter fun id => id ∉ current

/-- The voters that are no members any more. -/
def ClusterMembers.leaving (desired : ClusterMembers) (current : Finset UInt64) : Finset UInt64 :=
  current.filter fun id => id ∉ desired.keys

/-- One round: read the members, and have raft add those that are new and remove those that are gone. -/
def MembershipWatcher.reconcileOnce (raft : Raft C E) (members : Except S ClusterMembers) (c : C) :
    Except (ReconcileError S E) MembershipDiff × C :=
  match members with
  | .error error => (.error (.source error), c)
  | .ok desired =>
    let current := raft.voterIds c
    let joining := ClusterMembers.joining desired current
    let leaving := ClusterMembers.leaving desired current
    if joining.keys = [] ∧ leaving = ∅ then (.ok ⟨∅, ∅⟩, c)
    else
      match raft.addLearners joining.entries c with
      | (.error error, c) => (.error error, c)
      | (.ok (), c) =>
        match raft.promote joining c with
        | (.error error, c) => (.error error, c)
        | (.ok (), c) =>
          match raft.remove leaving c with
          | (.error error, c) => (.error error, c)
          | (.ok (), c) => (.ok ⟨joining.keys.toFinset, leaving⟩, c)

/-- After a round the voters are the members, each at its address, the round has reported the difference, and
another one changes nothing. -/
structure MembershipWatcher.Converges (S : Type) (raft : Raft C E) (desired : ClusterMembers) (before after : C)
    (diff : MembershipDiff) : Prop where
  voters : raft.voterIds after = desired.keys.toFinset
  addresses : ∀ id ∈ desired.keys, raft.node after id = desired.get? id
  joined : diff.joined = desired.keys.toFinset \ raft.voterIds before
  left : diff.left = raft.voterIds before \ desired.keys.toFinset
  settled : reconcileOnce raft (.ok (ε := S) desired) after = (.ok ⟨∅, ∅⟩, after)

/-- A member that the cluster knows is known at the address that is listed. -/
def MembershipWatcher.KnownRight (raft : Raft C E) (desired : ClusterMembers) (c : C) : Prop :=
  ∀ id ∈ desired.keys, if id ∈ raft.voterIds c then raft.node c id = desired.get? id
    else ∀ known ∈ raft.node c id, desired.get? id = some known

section

variable {raft : Raft C E} {desired joining : ClusterMembers} {leaving : Finset UInt64} {c c' : C}

/-- The learners are known, and those that were known already stay as they are. -/
theorem Raft.Documented.addLearners (documented : raft.Documented) {nodes : List (UInt64 × BasicNode)}
    (done : raft.addLearners (S := S) nodes c = (.ok (), c')) :
    raft.voterIds c' = raft.voterIds c ∧ ∀ id, raft.node c' id = (raft.node c id).or (nodes.lookup id) := by
  -- Induction on the nodes: each is added to a cluster that knows those before it.
  induction nodes generalizing c with
  | nil =>
    obtain rfl : c = c' := (Prod.mk.inj done).2
    exact ⟨rfl, fun id => by simp⟩
  | cons entry nodes ih =>
    obtain ⟨id, node⟩ := entry
    rw [Raft.addLearners] at done
    match added : raft.addLearner c id node true with
    | (.error error, next) => rw [added] at done; cases done
    | (.ok (), next) =>
      rw [added] at done
      obtain ⟨sameVoters, nodesAfter⟩ := documented.addLearner c id node true next added
      obtain ⟨restVoters, restNodes⟩ := ih done
      refine ⟨restVoters.trans sameVoters, fun other => ?_⟩
      rw [restNodes, nodesAfter, List.lookup_cons, Option.or_assoc]
      -- The first entry for an id is the one that the cluster learns.
      by_cases same : other = id
      · simp [same]
      · rw [if_neg same, beq_eq_false_iff_ne.mpr same]
        rfl

/-- The joining nodes are voters. -/
theorem Raft.Documented.promote (documented : raft.Documented)
    (done : raft.promote (S := S) joining c = (.ok (), c')) :
    raft.voterIds c' = raft.voterIds c ∪ joining.keys.toFinset ∧
      ∀ id, raft.node c' id = (raft.node c id).or (joining.get? id) := by
  -- Without joining nodes raft is not asked, and nothing changes.
  unfold Raft.promote at done
  split at done
  · rename_i none_
    obtain rfl : c = c' := (Prod.mk.inj done).2
    refine ⟨by simp [none_], fun id => ?_⟩
    have unknown : joining.get? id = none := by
      rw [← Option.not_isSome_iff_eq_none, SortedMap.get?_isSome, none_]
      exact List.not_mem_nil
    rw [unknown, Option.or_none]
  · match changed : raft.changeMembership c (.addVoters joining) true with
    | (.error error, next) => rw [changed] at done; cases done
    | (.ok (), next) =>
      rw [changed] at done
      obtain rfl : next = c' := (Prod.mk.inj done).2
      exact documented.addVoters c joining true next changed

/-- The leaving voters are gone. -/
theorem Raft.Documented.remove (documented : raft.Documented) (voters : leaving ⊆ raft.voterIds c)
    (done : raft.remove (S := S) leaving c = (.ok (), c')) :
    raft.voterIds c' = raft.voterIds c \ leaving ∧
      ∀ id, raft.node c' id = if id ∈ leaving then none else raft.node c id := by
  -- Without leaving voters raft is not asked, and nothing changes.
  unfold Raft.remove at done
  split at done
  · rename_i none_
    obtain rfl : c = c' := (Prod.mk.inj done).2
    simp [none_]
  · match changed : raft.changeMembership c (.removeVoters leaving) false with
    | (.error error, next) => rw [changed] at done; cases done
    | (.ok (), next) =>
      rw [changed] at done
      obtain rfl : next = c' := (Prod.mk.inj done).2
      exact documented.removeVoters c leaving next voters changed

theorem ClusterMembers.mem_joining {current : Finset UInt64} {id : UInt64} :
    id ∈ (ClusterMembers.joining desired current).keys ↔ id ∈ desired.keys ∧ id ∉ current := by
  rw [← SortedMap.get?_isSome, ClusterMembers.joining, SortedMap.get?_filter]
  by_cases known : id ∈ current <;> simp [known, SortedMap.get?_isSome]

theorem ClusterMembers.mem_leaving {current : Finset UInt64} {id : UInt64} :
    id ∈ ClusterMembers.leaving desired current ↔ id ∈ current ∧ id ∉ desired.keys := by
  simp [ClusterMembers.leaving]

/-- A joining node is known as it is listed. -/
theorem ClusterMembers.get?_joining (current : Finset UInt64) (id : UInt64) :
    (ClusterMembers.joining desired current).get? id = if id ∈ current then none else desired.get? id := by
  rw [ClusterMembers.joining, SortedMap.get?_filter]
  by_cases known : id ∈ current <;> simp [known]

/-- A round that finds the ids of the members among the voters, and no others, changes nothing. -/
theorem MembershipWatcher.reconcileOnce_settled (same : raft.voterIds c = desired.keys.toFinset) :
    reconcileOnce raft (.ok (ε := S) desired) c = (.ok ⟨∅, ∅⟩, c) := by
  have nobodyJoins : (ClusterMembers.joining desired (raft.voterIds c)).keys = [] := by
    -- Who joins would be listed and no voter.
    refine List.eq_nil_iff_forall_not_mem.mpr fun id member => ?_
    obtain ⟨listed, absent⟩ := ClusterMembers.mem_joining.mp member
    exact absent (same ▸ List.mem_toFinset.mpr listed)
  have nobodyLeaves : ClusterMembers.leaving desired (raft.voterIds c) = ∅ := by
    -- Every voter is listed.
    refine Finset.filter_eq_empty_iff.mpr fun id voter => ?_
    rw [same, List.mem_toFinset] at voter
    simpa using voter
  unfold reconcileOnce
  simp only [nobodyJoins, nobodyLeaves, and_self, if_true]

/-- What a round that has gone well has done: the voters are the members, new nodes are known as they are
listed, and what was known stays. -/
theorem MembershipWatcher.reconcileOnce_ok (documented : raft.Documented) {diff : MembershipDiff}
    (done : reconcileOnce raft (.ok (ε := S) desired) c = (.ok diff, c')) :
    raft.voterIds c' = desired.keys.toFinset ∧
      (∀ id ∈ desired.keys, raft.node c' id =
        (raft.node c id).or (if id ∈ raft.voterIds c then none else desired.get? id)) ∧
      diff.joined = desired.keys.toFinset \ raft.voterIds c ∧
      diff.left = raft.voterIds c \ desired.keys.toFinset := by
  have joined : (ClusterMembers.joining desired (raft.voterIds c)).keys.toFinset =
      desired.keys.toFinset \ raft.voterIds c := by
    ext id
    simp [ClusterMembers.mem_joining]
  have left : ClusterMembers.leaving desired (raft.voterIds c) = raft.voterIds c \ desired.keys.toFinset := by
    ext id
    simp [ClusterMembers.mem_leaving]
  unfold reconcileOnce at done
  simp only at done
  split at done
  · rename_i nothing
    obtain ⟨nobodyJoins, nobodyLeaves⟩ := nothing
    obtain ⟨same, rfl⟩ := Prod.mk.inj done
    obtain rfl := Except.ok.inj same
    rw [nobodyJoins, List.toFinset_nil] at joined
    rw [nobodyLeaves] at left
    -- The voters are among the members, and the members among the voters.
    have voters : raft.voterIds c = desired.keys.toFinset :=
      (Finset.sdiff_eq_empty_iff_subset.mp left.symm).antisymm (Finset.sdiff_eq_empty_iff_subset.mp joined.symm)
    refine ⟨voters, fun id listed => ?_, joined, left⟩
    rw [if_pos (voters ▸ List.mem_toFinset.mpr listed), Option.or_none]
  -- A round that has gone well has gone through all three changes.
  · match added : raft.addLearners (S := S) (ClusterMembers.joining desired (raft.voterIds c)).entries c with
    | (.error error, next) => rw [added] at done; cases done
    | (.ok (), learnt) =>
      rw [added] at done
      simp only at done
      match promoted : raft.promote (S := S) (ClusterMembers.joining desired (raft.voterIds c)) learnt with
      | (.error error, next) => rw [promoted] at done; cases done
      | (.ok (), grown) =>
        rw [promoted] at done
        simp only at done
        match removed : raft.remove (S := S) (ClusterMembers.leaving desired (raft.voterIds c)) grown with
        | (.error error, next) => rw [removed] at done; cases done
        | (.ok (), last) =>
          rw [removed] at done
          obtain ⟨same, rfl⟩ := Prod.mk.inj done
          obtain rfl := Except.ok.inj same
          obtain ⟨learntVoters, learntNodes⟩ := documented.addLearners added
          obtain ⟨grownVoters, grownNodes⟩ := documented.promote promoted
          rw [learntVoters, joined] at grownVoters
          -- Adding learners and voters takes no voter away, so that those who leave are still among them.
          have among : ClusterMembers.leaving desired (raft.voterIds c) ⊆ raft.voterIds grown := by
            rw [left, grownVoters]
            exact Finset.sdiff_subset.trans Finset.subset_union_left
          obtain ⟨lastVoters, lastNodes⟩ := documented.remove among removed
          refine ⟨?_, fun id listed => ?_, joined, left⟩
          -- The old voters and the new members, less the old voters that are no members.
          · rw [lastVoters, grownVoters, left]
            ext id
            simp only [Finset.mem_sdiff, Finset.mem_union]
            tauto
          -- A member does not leave, and is known as it was or else as it joins.
          · have stays : id ∉ ClusterMembers.leaving desired (raft.voterIds c) :=
              fun leaves => (ClusterMembers.mem_leaving.mp leaves).2 listed
            rw [lastNodes, if_neg stays, grownNodes, learntNodes]
            show ((raft.node c id).or ((ClusterMembers.joining desired (raft.voterIds c)).get? id)).or _ = _
            rw [Option.or_assoc, Option.or_self, ClusterMembers.get?_joining]

/-- A round that has gone well leaves the cluster as it is listed exactly if no member was known at another
address. -/
theorem MembershipWatcher.converges_iff (documented : raft.Documented) {diff : MembershipDiff}
    (done : reconcileOnce raft (.ok (ε := S) desired) c = (.ok diff, c')) :
    Converges S raft desired c c' diff ↔ KnownRight raft desired c := by
  obtain ⟨voters, nodes, joined, left⟩ := reconcileOnce_ok documented done
  have addresses : (∀ id ∈ desired.keys, raft.node c' id = desired.get? id) ↔ KnownRight raft desired c := by
    refine forall₂_congr fun id listed => ?_
    rw [nodes id listed]
    obtain ⟨node, there⟩ := Option.isSome_iff_exists.mp (SortedMap.get?_isSome.mpr listed)
    rw [there]
    by_cases voter : id ∈ raft.voterIds c
    -- Nothing is changed of a node that is a voter already.
    · rw [if_pos voter, if_pos voter, Option.or_none]
    · -- A node that was known as a learner keeps its address.
      rw [if_neg voter, if_neg voter]
      cases raft.node c id <;> simp [eq_comm]
  rw [← addresses]
  exact ⟨fun converges => converges.addresses, fun right =>
    ⟨voters, right, joined, left, reconcileOnce_settled voters⟩⟩

end

/-- The voters of a cluster, and the nodes that it knows. -/
structure Cluster where
  voters : Finset UInt64
  nodes : UInt64 → Option BasicNode

/-- A raft node that carries out every change but one that would leave no voters. -/
def oneLeader : Raft Cluster String where
  voterIds cluster := cluster.voters
  node cluster := cluster.nodes
  addLearner cluster id node _ :=
    (.ok (), { cluster with
      nodes := fun other => (cluster.nodes other).or (if other = id then some node else none) })
  changeMembership cluster change retain :=
    match change with
    | .addVoters voters =>
      (.ok (), ⟨cluster.voters ∪ voters.keys.toFinset, fun id => (cluster.nodes id).or (voters.get? id)⟩)
    | .removeVoters voters =>
      if cluster.voters ⊆ voters then (.error "new membership can not be empty", cluster)
      else (.ok (), ⟨cluster.voters \ voters, fun id => if id ∈ voters ∧ !retain then none else cluster.nodes id⟩)

theorem oneLeader_documented : oneLeader.Documented where
  addLearner c id node blocking c' done := by
    obtain rfl := (Prod.mk.inj done).2
    exact ⟨rfl, fun _ => rfl⟩
  addVoters c voters retain c' done := by
    obtain rfl := (Prod.mk.inj done).2
    exact ⟨rfl, fun _ => rfl⟩
  removeVoters c voters c' _ done := by
    simp only [oneLeader] at done
    split at done
    · cases (Prod.mk.inj done).1
    · obtain rfl := (Prod.mk.inj done).2
      exact ⟨rfl, fun id => by simp [oneLeader]⟩

/-- Two voters. -/
def twoVoters : Cluster :=
  ⟨{1, 2}, fun id => if id = 1 then some ⟨"127.0.0.1:21001"⟩ else if id = 2 then some ⟨"127.0.0.1:21002"⟩ else none⟩

/-- The second node has moved. -/
def secondMoved : ClusterMembers :=
  ⟨[(1, ⟨"127.0.0.1:21001"⟩), (2, ⟨"127.0.0.1:31002"⟩)], by decide⟩

/-- The second node is replaced by another. -/
def secondReplaced : ClusterMembers :=
  ⟨[(1, ⟨"127.0.0.1:21001"⟩), (3, ⟨"127.0.0.1:21003"⟩)], by decide⟩

/-- A node whose listed address changes is still known at the old one after the round. -/
theorem MembershipWatcher.address_kept :
    ¬ ∀ (raft : Raft Cluster String), raft.Documented → ∀ (desired : ClusterMembers) (c c' : Cluster)
      (diff : MembershipDiff), desired.keys ≠ [] →
      reconcileOnce raft (.ok (ε := Unit) desired) c = (.ok diff, c') →
      Converges Unit raft desired c c' diff := by
  intro always
  -- The ids are the same, so that the round has nothing to do.
  have round : reconcileOnce oneLeader (.ok (ε := Unit) secondMoved) twoVoters = (.ok ⟨∅, ∅⟩, twoVoters) :=
    reconcileOnce_settled (by decide)
  have converges := always oneLeader oneLeader_documented secondMoved twoVoters twoVoters ⟨∅, ∅⟩ (by decide) round
  exact absurd (converges.addresses 2 (by decide)) (by decide)

theorem MembershipWatcher.converges_iff_secondReplaced :
    ∃ diff after, reconcileOnce oneLeader (.ok (ε := Unit) secondReplaced) twoVoters = (.ok diff, after) ∧
      diff.joined = {3} ∧ diff.left = {2} ∧ Converges Unit oneLeader secondReplaced twoVoters after diff := by
  have round : ∃ diff, (reconcileOnce oneLeader (.ok (ε := Unit) secondReplaced) twoVoters).1 = .ok diff ∧
      diff.joined = {3} ∧ diff.left = {2} := ⟨⟨{3}, {2}⟩, rfl, rfl, rfl⟩
  obtain ⟨diff, answer, joined, left⟩ := round
  have done : reconcileOnce oneLeader (.ok (ε := Unit) secondReplaced) twoVoters =
      (.ok diff, (reconcileOnce oneLeader (.ok (ε := Unit) secondReplaced) twoVoters).2) :=
    Prod.ext answer rfl
  -- The first node is a voter at its listed address, and the third is not known yet.
  have known : KnownRight oneLeader secondReplaced twoVoters := by
    intro id listed
    have either : id = 1 ∨ id = 3 := by simpa [SortedMap.keys, secondReplaced] using listed
    rcases either with rfl | rfl
    · exact rfl
    · exact nofun
  exact ⟨diff, _, done, joined, left,
    (MembershipWatcher.converges_iff oneLeader_documented done).mpr known⟩

end Qaas
