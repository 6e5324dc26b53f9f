import DcrdChain.Orphans
import DcrdChain.Outcomes
import DcrdChain.Runs

/-!
# Lookups by hash and by height

The exported lookups of `chain.go` that read one entry of the block index or of the best
chain: `BlockHeightByHash`, `BlockHashByHeight`, `MainChainHasBlock`, `HeaderByHash`,
`HeaderByHeight`, `BlockByHash`, `BlockByHeight`, `ChainWork`, `BestPrevHash`,
`HaveBlock` and `isCurrent`.  On every chain of a run the lookups by height and by hash
are inverse on the best chain, and `HeightRange` returns what `BlockHashByHeight` returns
height by height.
-/

namespace DcrdChain

/-!
## The lookups
-/

/-- `NodeByHeight(height)` for an `int64` height: `nil` below zero and above the tip. -/
def ChainView.nodeAt (v : ChainView) (height : Int) : Option BlockNode :=
  if height < 0 then none else v.nodeByHeight height.toNat

/-- The `errNotInMainChain` of the lookups by height for a height off the best chain. -/
def noBlockAtHeight (height : Int) : ChainError :=
  .notInMainChain ("no block at height " ++ toString height ++ " exists")

/-- The message of the lookups by hash for a hash the index does not hold. -/
def blockNotKnown (hash : Hash) : ChainError :=
  .message ("block " ++ toString hash ++ " is not known")

/-- `BlockHeightByHash(hash)`. -/
def blockHeightByHash (b : BlockChain) (hash : Hash) : Except ChainError Int :=
  match b.index hash with
  | some node =>
      if b.bestChain.contains node then .ok node.height else .error (blockNotInMainChain hash)
  | none => .error (blockNotInMainChain hash)

/-- `BlockHashByHeight(height)`. -/
def blockHashByHeight (v : ChainView) (height : Int) : Except ChainError Hash :=
  match v.nodeAt height with
  | some node => .ok node.hash
  | none => .error (noBlockAtHeight height)

/-- `MainChainHasBlock(hash)`. -/
def mainChainHasBlock (b : BlockChain) (hash : Hash) : Bool :=
  match b.index hash with
  | some node => b.bestChain.contains node
  | none => false

/-- `HeaderByHash(hash)`: headers of the main chain and of side chains. -/
def headerByHash (b : BlockChain) (hash : Hash) : Except ChainError BlockHeader :=
  match b.index hash with
  | some node => .ok node.block.header
  | none => .error (blockNotKnown hash)

/-- `HeaderByHeight(height)`: the header at a height of the main chain. -/
def headerByHeight (v : ChainView) (height : Int) : Except ChainError BlockHeader :=
  match v.nodeAt height with
  | some node => .ok node.block.header
  | none => .error (noBlockAtHeight height)

/-- `ChainWork(hash)`: the work up to and including the block. -/
def chainWork (b : BlockChain) (hash : Hash) : Except ChainError Nat :=
  match b.index hash with
  | some node => .ok node.workSum
  | none => .error (blockNotKnown hash)

/-- `BestPrevHash()`: the hash of the tip's parent, the zero hash at the genesis block. -/
def bestPrevHash (v : ChainView) : Hash :=
  match v.tip.parent with
  | some p => p.hash
  | none => zeroHash

/-- `HaveBlock(hash)`: the block is in the index or in the orphan pool. -/
def haveBlock (b : BlockChain) (hash : Hash) : Bool :=
  (b.index hash).isSome || b.isKnownOrphan hash

/-- `isCurrent()`: the tip is not below the checkpoint and at most 24 hours old. -/
def isCurrent (v : ChainView) (checkpointHeight : Option Nat) (adjustedTime : Int) : Bool :=
  if checkpointHeight.any fun height => v.tip.height < height then false
  else decide (v.tip.block.header.timestamp ≥ adjustedTime - 24 * 3600)

variable (o : Oracle)

/-- `BlockByHash(hash)`: a stored block of the index, from the cache, pool or database. -/
def blockByHash (hash : Hash) : ChainM Block := do
  let b ← getChain
  match b.index hash with
  | some node =>
      if (b.status node.hash).dataStored then fetchBlockByNode o node
      else throw (blockNotKnown hash)
  | none => throw (blockNotKnown hash)

/-- `BlockByHeight(height)`: the block at a height of the main chain. -/
def blockByHeight (height : Int) : ChainM Block := do
  let b ← getChain
  match b.bestChain.nodeAt height with
  | some node => fetchBlockByNode o node
  | none => throw (noBlockAtHeight height)

/-!
## The best chain by height and by hash
-/

namespace ChainView

variable {v : ChainView}

theorem nodeAt_eq_some_iff {height : Int} {n : BlockNode} :
    v.nodeAt height = some n ↔ 0 ≤ height ∧ n ∈ v.tip.ancestors ∧ (n.height : Int) = height := by
  unfold nodeAt nodeByHeight
  by_cases h0 : height < 0
  · simp only [if_pos h0, reduceCtorEq, false_iff]
    omega
  · rw [if_neg h0, BlockNode.ancestor_eq_some_iff]
    constructor
    · rintro ⟨hm, hh⟩
      exact ⟨by omega, hm, by omega⟩
    · rintro ⟨-, hm, hh⟩
      exact ⟨hm, by omega⟩

theorem nodeAt_height {n : BlockNode} (h : n ∈ v.tip.ancestors) : v.nodeAt n.height = some n :=
  nodeAt_eq_some_iff.mpr ⟨by omega, h, rfl⟩

end ChainView

variable {v : ChainView} {b : BlockChain} {height : Int} {hash : Hash}

theorem blockHashByHeight_eq_ok :
    blockHashByHeight v height = .ok hash ↔ ∃ n, v.nodeAt height = some n ∧ n.hash = hash := by
  unfold blockHashByHeight
  cases v.nodeAt height <;> simp

theorem blockHeightByHash_eq_ok :
    blockHeightByHash b hash = .ok height ↔
      ∃ n, b.index hash = some n ∧ n ∈ b.bestChain.tip.ancestors ∧ (n.height : Int) = height := by
  unfold blockHeightByHash
  cases b.index hash with
  | none => simp
  | some n => by_cases hm : n ∈ b.bestChain.tip.ancestors <;> simp [hm]

theorem mainChainHasBlock_iff :
    mainChainHasBlock b hash = true ↔ ∃ n, b.index hash = some n ∧ n ∈ b.bestChain.tip.ancestors := by
  unfold mainChainHasBlock
  cases b.index hash <;> simp

theorem blockHashByHeight_height {n : BlockNode} (h : n ∈ v.tip.ancestors) :
    blockHashByHeight v n.height = .ok n.hash :=
  blockHashByHeight_eq_ok.mpr ⟨n, ChainView.nodeAt_height h, rfl⟩

theorem blockHashByHeight_getElem (v : ChainView) {k : Nat} (hk : k < v.nodes.length) :
    blockHashByHeight v k = .ok (v.nodes.get ⟨k, hk⟩).hash := by
  rw [blockHashByHeight, ChainView.nodeAt, if_neg (by omega), Int.toNat_ofNat,
    ← ChainView.getElem?_nodes, List.getElem?_eq_getElem hk]
  rfl

theorem main_chain_lookups_round_trip {env : Env} {allowed : Oracle -> Op -> Prop} {g : Block}
    {t0 s0 : BitVec 64} (hr : Reachable env allowed (BlockChain.ofGenesis g t0 s0) b) :
    (∀ height : Int, (∃ hash, blockHashByHeight b.bestChain height = .ok hash) ↔
      0 ≤ height ∧ height ≤ b.bestChain.tip.height) ∧
    (∀ (height : Int) (hash : Hash), blockHashByHeight b.bestChain height = .ok hash ->
      blockHeightByHash b hash = .ok height ∧ mainChainHasBlock b hash = true ∧
        headerByHash b hash = headerByHeight b.bestChain height) ∧
    (∀ hash : Hash, mainChainHasBlock b hash = true ↔ ∃ height, blockHeightByHash b hash = .ok height) ∧
    (∀ (hash : Hash) (height : Int), blockHeightByHash b hash = .ok height ->
      blockHashByHeight b.bestChain height = .ok hash) := by
  have ht := Tree.of_reachable env hr
  refine ⟨fun height => ⟨fun ⟨hash, h⟩ => ?_, fun ⟨h0, hle⟩ => ?_⟩, fun height hash h => ?_,
    fun hash => ?_, fun hash height h => ?_⟩
  · /- A height found is one of the best chain. -/
    obtain ⟨n, hn, -⟩ := blockHashByHeight_eq_ok.mp h
    obtain ⟨h0, hm, rfl⟩ := ChainView.nodeAt_eq_some_iff.mp hn
    exact ⟨h0, by exact_mod_cast BlockNode.height_le_of_mem_ancestors hm⟩
  · /- Every height of the best chain is found. -/
    rw [show height = (height.toNat : Int) by omega]
    exact ⟨_, blockHashByHeight_getElem _ (by simp; omega)⟩
  · /- From a height to its hash and back. -/
    obtain ⟨n, hn, rfl⟩ := blockHashByHeight_eq_ok.mp h
    obtain ⟨-, hm, rfl⟩ := ChainView.nodeAt_eq_some_iff.mp hn
    have hi := ht.consistent.index_of_mem_tip hm
    refine ⟨blockHeightByHash_eq_ok.mpr ⟨n, hi, hm, rfl⟩, mainChainHasBlock_iff.mpr ⟨n, hi, hm⟩, ?_⟩
    rw [headerByHash, hi, headerByHeight, hn]
  · rw [mainChainHasBlock_iff]
    simp only [blockHeightByHash_eq_ok]
    exact ⟨fun ⟨n, hi, hm⟩ => ⟨_, n, hi, hm, rfl⟩, fun ⟨_, n, hi, hm, _⟩ => ⟨n, hi, hm⟩⟩
  · /- From a hash to its height and back: the index keys its nodes by their hashes. -/
    obtain ⟨n, hi, hm, rfl⟩ := blockHeightByHash_eq_ok.mp h
    rw [← ht.keys _ _ hi]
    exact blockHashByHeight_height hm

theorem main_chain_lookups_round_trip_sampleForkChain :
    blockHeightByHash sampleForkChain sampleChild.hash = .ok 1 ∧
      blockHashByHeight sampleForkChain.bestChain 1 = .ok sampleChild.hash := by
  have h := (main_chain_lookups_round_trip reachable_sampleForkChain).2.1 1 sampleChild.hash
    (by rfl)
  exact ⟨h.1, by rfl⟩

/-!
## Blocks by hash and by height
-/

theorem block_lookups_of_run {env : Env} {allowed : Oracle -> Op -> Prop} {g : Block}
    {t0 s0 : BitVec 64} {w : World}
    (hr : Reachable env allowed (BlockChain.ofGenesis g t0 s0) w.chain) (hst : StoreAnswers o) :
    (∀ hash n, w.chain.index hash = some n ->
      ∃ w', blockByHash o hash w = .ok n.block w' ∧ w'.chain = w.chain) ∧
    (∀ hash, w.chain.index hash = none -> blockByHash o hash w = .error (blockNotKnown hash) w) ∧
    ∀ height, blockByHeight o height w = match blockHashByHeight w.chain.bestChain height with
      | .ok hash => blockByHash o hash w
      | .error e => .error e w := by
  have ht := Tree.of_reachable env hr
  /- An indexed node has its data stored, so `BlockByHash` fetches it. -/
  have hbyHash : ∀ n, w.chain.index n.hash = some n -> blockByHash o n.hash w = fetchBlockByNode o n w :=
    fun n hn => by
      unfold blockByHash
      simp only [getChain_bind, hn]
      rw [if_pos (dataStored_of_run hr _ _ hn)]
  refine ⟨fun hash n hn => ?_, fun hash hn => ?_, fun height => ?_⟩
  · obtain rfl := ht.keys _ _ hn
    rw [hbyHash n hn]
    exact fetchBlockByNode_of_consistent ht.consistent hst hn
  · unfold blockByHash
    simp only [getChain_bind, hn]
    rfl
  · unfold blockByHeight blockHashByHeight
    simp only [getChain_bind]
    cases hnode : w.chain.bestChain.nodeAt height with
    | none => rfl
    | some n =>
        have hm := (ChainView.nodeAt_eq_some_iff.mp hnode).2.1
        exact (hbyHash n (ht.consistent.index_of_mem_tip hm)).symm

theorem block_lookups_sampleForkChain :
    (∃ w', blockByHash Oracle.allOk sampleSibling.hash (World.start sampleForkChain) =
        .ok sampleSibling w' ∧ w'.chain = sampleForkChain) ∧
    blockByHeight Oracle.allOk 1 (World.start sampleForkChain) =
      blockByHash Oracle.allOk sampleChild.hash (World.start sampleForkChain) :=
  have h := block_lookups_of_run Oracle.allOk (w := World.start sampleForkChain)
    reachable_sampleForkChain NoFailure.allOk.toStoreAnswers
  ⟨h.1 _ (.child sampleSibling (.genesis sampleGenesis)) (by decide), (h.2.2 1).trans rfl⟩

/-!
## HeightRange height by height
-/

theorem mapM_blockHashByHeight (v : ChainView) {k m : Nat} (h : k + m ≤ v.tip.height + 1) :
    ((List.range' k m).map fun i : Nat => (i : Int)).mapM (blockHashByHeight v) =
      .ok (((v.nodes.drop k).take m).map BlockNode.hash) := by
  induction m generalizing k with
  | zero => rfl
  | succ m ih =>
      have hk : k < v.nodes.length := by simp; omega
      rw [List.range'_succ, List.map_cons, List.mapM_cons, blockHashByHeight_getElem v hk,
        ih (by omega), List.drop_eq_getElem_cons hk, List.take_succ_cons, List.map_cons]
      rfl

theorem heightRange_eq_mapM_blockHashByHeight (v : ChainView) {startHeight endHeight : Int}
    (h0 : 0 ≤ startHeight) (hle : startHeight ≤ endHeight) :
    heightRange v startHeight endHeight =
      ((List.range' startHeight.toNat (min endHeight (v.tip.height + 1) - startHeight).toNat).map
        fun i : Nat => (i : Int)).mapM (blockHashByHeight v) := by
  rw [heightRange_ok v h0 hle]
  by_cases hs : startHeight ≤ v.tip.height + 1
  · rw [mapM_blockHashByHeight v (by omega)]
  · rw [show (min endHeight (v.tip.height + 1) - startHeight).toNat = 0 by omega]
    rfl

theorem heightRange_eq_mapM_sampleForkChain :
    heightRange sampleForkChain.bestChain 0 5 =
      ((List.range' 0 2).map fun i : Nat => (i : Int)).mapM
        (blockHashByHeight sampleForkChain.bestChain) :=
  heightRange_eq_mapM_blockHashByHeight sampleForkChain.bestChain (by decide) (by decide)

end DcrdChain
