import Qaas.Retry

/-! Embeddings by key, searched for the most similar one. -/

namespace Qaas

/-- A vector of finite components, never empty. -/
structure Embedding where
  values : List ℚ
  nonempty : values.isEmpty = false
  deriving DecidableEq

/-- A vector was empty or had a component that is not finite. -/
inductive InvalidEmbedding
  | invalidEmbedding
  deriving DecidableEq, Repr

/-- Validate a vector, of which a component that is not finite reads as none. -/
def Embedding.new (values : List (Option ℚ)) : Except InvalidEmbedding Embedding :=
  if finite : values.isEmpty = false ∧ values.all Option.isSome = true then
    .ok ⟨values.filterMap id, by
      obtain ⟨nonempty, all⟩ := finite
      cases values with
      | nil => cases nonempty
      | cons first rest => cases first <;> simp_all⟩
  else .error .invalidEmbedding

/-- How many components there are. -/
def Embedding.dimension (embedding : Embedding) : Nat :=
  embedding.values.length

/-- The similarity of two vectors, if they can be compared; the score is that of their directions. -/
def Embedding.cosineSimilarity (score : Embedding → Embedding → ℚ) (self other : Embedding) : Option ℚ :=
  if self.dimension ≠ other.dimension then none
  else if self.values.all (· = 0) ∨ other.values.all (· = 0) then none
  else some (score self other)

/-- One embedding, and when it was inserted. -/
structure IndexEntry where
  embedding : Embedding
  insertedAt : Instant
  deriving DecidableEq

/-- A collection of embeddings that may forget them after a while. -/
structure EmbeddingIndex (K : Type) where
  ttl : Option Duration
  entries : List (K × IndexEntry)

variable {K : Type}

/-- An empty index. -/
def EmbeddingIndex.new (ttl : Option Duration) : EmbeddingIndex K :=
  ⟨ttl, []⟩

/-- Drop every entry that is as old as entries may become. -/
def EmbeddingIndex.evictExpired (index : EmbeddingIndex K) (now : Instant) : EmbeddingIndex K :=
  match index.ttl with
  | none => index
  | some ttl =>
    { index with entries := index.entries.filter fun entry => durationSince now entry.2.insertedAt < ttl }

/-- The better of two candidates; the iteration order of the map decides between equal ones. -/
def better (rank : K → Nat) (best candidate : K × ℚ) : K × ℚ :=
  if best.2 < candidate.2 ∨ (best.2 = candidate.2 ∧ rank best.1 ≤ rank candidate.1) then candidate
  else best

/-- The candidate with the highest score. -/
def bestOf (rank : K → Nat) : List (K × ℚ) → Option (K × ℚ)
  | [] => none
  | candidate :: rest => some (rest.foldl (better rank) candidate)

/-- The entries that can be compared with an embedding, with their scores. -/
def EmbeddingIndex.candidates (score : Embedding → Embedding → ℚ) (index : EmbeddingIndex K)
    (embedding : Embedding) : List (K × ℚ) :=
  index.entries.filterMap fun entry =>
    (embedding.cosineSimilarity score entry.2.embedding).map fun similarity => (entry.1, similarity)

/-- The entry most similar to an embedding, and its score. -/
def EmbeddingIndex.nearest (score : Embedding → Embedding → ℚ) (rank : K → Nat)
    (index : EmbeddingIndex K) (now : Instant) (embedding : Embedding) :
    EmbeddingIndex K × Option (K × ℚ) :=
  let index := index.evictExpired now
  (index, bestOf rank (index.candidates score embedding))

/-- The keys that are left after the expired ones are gone. -/
def EmbeddingIndex.keys (index : EmbeddingIndex K) (now : Instant) : EmbeddingIndex K × List K :=
  let index := index.evictExpired now
  (index, index.entries.map Prod.fst)

/-- The best of some candidates is one of them, and none has a higher score. -/
theorem bestOf_eq_some {rank : K → Nat} {candidates : List (K × ℚ)} {best : K × ℚ}
    (found : bestOf rank candidates = some best) :
    best ∈ candidates ∧ ∀ other ∈ candidates, other.2 ≤ best.2 := by
  cases candidates with
  | nil => cases found
  | cons first rest =>
    obtain rfl := Option.some.inj found
    -- The induction goes through the rest with the best one so far.
    induction rest generalizing first with
    | nil => simp
    | cons second rest ih =>
      obtain ⟨member, highest⟩ := ih (better rank first second) rfl
      rw [List.foldl_cons]
      have chosen : better rank first second = second ∧ first.2 ≤ second.2 ∨
          better rank first second = first ∧ second.2 ≤ first.2 := by
        unfold better
        split
        · rename_i wins
          exact .inl ⟨rfl, wins.elim le_of_lt fun tie => tie.1.le⟩
        · rename_i loses
          rw [not_or] at loses
          exact .inr ⟨rfl, not_lt.mp loses.1⟩
      have top := highest _ List.mem_cons_self
      constructor
      · rcases List.mem_cons.mp member with same | later
        · rw [same]
          rcases chosen with ⟨won, _⟩ | ⟨won, _⟩ <;> simp [won]
        · simp [later]
      · intro other among
        -- Whoever lost against the next candidate is below the one that won.
        rcases chosen with ⟨won, below⟩ | ⟨won, below⟩ <;> rw [won] at top highest ⊢
        · rcases List.mem_cons.mp among with rfl | among
          · exact below.trans top
          · exact highest other among
        · rcases List.mem_cons.mp among with rfl | among
          · exact top
          · rcases List.mem_cons.mp among with rfl | among
            · exact below.trans top
            · exact highest other (List.mem_cons_of_mem _ among)

variable [DecidableEq K]

/-- Add or replace the embedding of a key. -/
def EmbeddingIndex.insert (index : EmbeddingIndex K) (now : Instant) (key : K) (embedding : Embedding) :
    EmbeddingIndex K :=
  { index with entries := index.entries.filter (fun entry => entry.1 ≠ key) ++ [(key, ⟨embedding, now⟩)] }

/-- Remove a key, if it is there. -/
def EmbeddingIndex.remove (index : EmbeddingIndex K) (key : K) : EmbeddingIndex K :=
  { index with entries := index.entries.filter fun entry => entry.1 ≠ key }

end Qaas
