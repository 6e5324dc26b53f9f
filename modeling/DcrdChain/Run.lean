import DcrdChain.BestChain

/-!
# Runs of the chain engine

The operations a run of the engine is made of, each started on the chain it finds with
its own oracle: processing a new block (its node joins the index, then
`connectBestChain`), `forceHeadReorganization`, and direct calls of `connectBlock` and
`disconnectBlock` at the tip.  An operation that panics ends the process and has no
successor state.
-/

namespace DcrdChain

open BlockStatus

/-- The world an operation starts in: no collaborator call answered, no tip call made. -/
def World.start (b : BlockChain) : World :=
  ⟨b, 0, []⟩

@[simp] theorem World.chain_start (b : BlockChain) : (World.start b).chain = b :=
  rfl

/-- The new node's index entry as `maybeAcceptBlock` adds it: stored, no stake node yet. -/
def BlockChain.addNode (b : BlockChain) (n : BlockNode) : BlockChain :=
  { b with
    index := Function.update b.index n.hash (some n)
    status := Function.update b.status n.hash statusDataStored
    modified := n.hash :: b.modified
    stakeData := Function.update b.stakeData n.hash ⟨false, true, true, true⟩ }

@[simp] theorem BlockChain.bestChain_addNode (b : BlockChain) (n : BlockNode) :
    (b.addNode n).bestChain = b.bestChain :=
  rfl

/-- The operations of a run. -/
inductive Op
  | processBlock (block : Block) (flags : BehaviorFlags)
  | forceHeadReorganization (formerBest newBest : Hash)
  | connectBlock (node : BlockNode) (view : UtxoViewpoint) (stxos : Nat)
  | disconnectBlock (view : UtxoViewpoint)

/-- What an operation does from a chain, `none` when its guard fails. -/
def Op.run (env : Env) (o : Oracle) : Op -> BlockChain ->
    Option (EStateM.Result ChainError World Unit)
  | .processBlock block flags, b =>
      match b.index block.header.prevBlock with
      | some p =>
          if ¬ (b.status p.hash).KnownInvalid ∧ b.index block.hash = none ∧
              block.header.height = p.height + 1 then
            some ((connectBestChain env o (.child block p) block p.block flags >>= fun _ => pure ())
              (World.start (b.addNode (.child block p))))
          else none
      | none => none
  | .forceHeadReorganization f n, b =>
      some (DcrdChain.forceHeadReorganization env o f n (World.start b))
  | .connectBlock node view stxos, b =>
      match node.parent with
      | some p =>
          if b.index node.hash = some node then
            some ((DcrdChain.connectBlock env o node node.block p.block view stxos >>= fun _ => pure ())
              (World.start b))
          else none
      | none => none
  | .disconnectBlock view, b =>
      match b.bestChain.tip.parent with
      | some p =>
          some ((DcrdChain.disconnectBlock env o b.bestChain.tip b.bestChain.tip.block p.block view >>=
              fun _ => pure ()) (World.start b))
      | none => none

/-- `op`, answered by `o`, takes the chain from `b` to `b'` without a panic. -/
def Step (env : Env) (o : Oracle) (op : Op) (b b' : BlockChain) : Prop :=
  ∃ r, op.run env o b = some r ∧ ¬ Panicked r ∧ (finalWorld r).chain = b'

theorem Op.run_processBlock {env : Env} {o : Oracle} {block : Block} {flags : BehaviorFlags}
    {b : BlockChain} {r : EStateM.Result ChainError World Unit}
    (h : (Op.processBlock block flags).run env o b = some r) :
    ∃ p, b.index block.header.prevBlock = some p ∧ ¬ (b.status p.hash).KnownInvalid ∧
      b.index block.hash = none ∧ block.header.height = p.height + 1 ∧
      (connectBestChain env o (.child block p) block p.block flags >>= fun _ => pure ())
        (World.start (b.addNode (.child block p))) = r := by
  simp only [Op.run] at h
  split at h
  · rename_i p hp
    split at h
    · rename_i hc
      exact ⟨p, hp, hc.1, hc.2.1, hc.2.2, Option.some_injective _ h⟩
    · cases h
  · cases h

theorem Op.run_connectBlock {env : Env} {o : Oracle} {node : BlockNode} {view : UtxoViewpoint}
    {stxos : Nat} {b : BlockChain} {r : EStateM.Result ChainError World Unit}
    (h : (Op.connectBlock node view stxos).run env o b = some r) :
    ∃ p, node.parent = some p ∧ b.index node.hash = some node ∧
      (DcrdChain.connectBlock env o node node.block p.block view stxos >>= fun _ => pure ())
        (World.start b) = r := by
  simp only [Op.run] at h
  split at h
  · rename_i p hp
    split at h
    · exact ⟨p, hp, ‹_›, Option.some_injective _ h⟩
    · cases h
  · cases h

theorem Op.run_disconnectBlock {env : Env} {o : Oracle} {view : UtxoViewpoint} {b : BlockChain}
    {r : EStateM.Result ChainError World Unit}
    (h : (Op.disconnectBlock view).run env o b = some r) :
    ∃ p, b.bestChain.tip.parent = some p ∧
      (DcrdChain.disconnectBlock env o b.bestChain.tip b.bestChain.tip.block p.block view >>=
        fun _ => pure ()) (World.start b) = r := by
  simp only [Op.run] at h
  split at h
  · exact ⟨_, ‹_›, Option.some_injective _ h⟩
  · cases h

/-- The chain `op` leaves from `b` when it applies and does not panic, else `b`. -/
def Op.apply (env : Env) (o : Oracle) (op : Op) (b : BlockChain) : BlockChain :=
  match op.run env o b with
  | some r => if Panicked r then b else (finalWorld r).chain
  | none => b

/-- Whether `op` applies from `b` and does not panic. -/
def Op.runs (env : Env) (o : Oracle) (op : Op) (b : BlockChain) : Bool :=
  match op.run env o b with
  | some r => !decide (Panicked r)
  | none => false

theorem Op.step_apply {env : Env} {o : Oracle} {op : Op} {b : BlockChain}
    (h : op.runs env o b = true) : Step env o op b (op.apply env o b) := by
  unfold Op.runs at h
  unfold Op.apply
  split at h
  next r hr =>
    have hp : ¬ Panicked r := by simpa using h
    exact ⟨r, hr, hp, by simp only [hr, if_neg hp]⟩
  next => cases h

theorem Op.step_of_apply_ne {env : Env} {o : Oracle} {op : Op} {b : BlockChain}
    (h : op.apply env o b ≠ b) : Step env o op b (op.apply env o b) := by
  unfold Op.apply at *
  split at h
  next r hr =>
    by_cases hp : Panicked r
    · rw [if_pos hp] at h
      exact absurd rfl h
    · exact ⟨r, hr, hp, by simp only [hr, if_neg hp]⟩
  next => exact absurd rfl h

/-- The chains a run reaches from `b0` by the operations and oracles `allowed` admits. -/
inductive Reachable (env : Env) (allowed : Oracle -> Op -> Prop) (b0 : BlockChain) :
    BlockChain -> Prop
  | init : Reachable env allowed b0 b0
  | step {b b' : BlockChain} {o : Oracle} {op : Op} :
      Reachable env allowed b0 b -> allowed o op -> Step env o op b b' ->
      Reachable env allowed b0 b'

/-- A chain holding only its genesis block, as `initChainState` leaves a new database. -/
structure GenesisOnly (b : BlockChain) (g : Block) : Prop where
  index : b.index = fun h => if h = g.hash then some (.genesis g) else none
  status : b.status g.hash = ⟨true, true, false, false⟩
  tip : b.bestChain.tip = .genesis g
  snapshotHash : b.stateSnapshot.hash = g.hash
  snapshotPrevHash : b.stateSnapshot.prevHash = zeroHash
  snapshotHeight : b.stateSnapshot.height = 0
  snapshotBits : b.stateSnapshot.bits = g.header.bits
  record : b.db.bestState = b.stateSnapshot
  recordWorkSum : b.db.workSum = g.work
  cache : b.mainchainBlockCache = ∅
  cacheSize : b.mainchainBlockCacheSize = 12
  orphans : b.orphans = ∅
  prevOrphans : b.prevOrphans = ∅
  oldestOrphan : b.oldestOrphan = none

/-- The chain of a new database holding only `g`, with the given starting totals. -/
def BlockChain.ofGenesis (g : Block) (totalTxns totalSubsidy : BitVec 64) : BlockChain :=
  let state := newBestState (.genesis g) g.header.size (BitVec.ofNat 64 g.transactions.length)
    totalTxns g.header.timestamp totalSubsidy 0 g.header.sbits [] [] []
  { index := fun h => if h = g.hash then some (.genesis g) else none
    status := fun h => if h = g.hash then ⟨true, true, false, false⟩ else statusNone
    modified := []
    bestChain := ⟨.genesis g⟩
    stateSnapshot := state
    orphans := ∅
    prevOrphans := ∅
    oldestOrphan := none
    mainchainBlockCache := ∅
    mainchainBlockCacheSize := 12
    stakeData := fun _ => StakeFields.cleared
    db := ⟨state, g.work, [], fun _ => none, g.hash,
      fun h => if h = g.hash then some ⟨true, true, false, false⟩ else none⟩
    ntfns := [] }

theorem genesisOnly_ofGenesis (g : Block) (totalTxns totalSubsidy : BitVec 64) :
    GenesisOnly (BlockChain.ofGenesis g totalTxns totalSubsidy) g :=
  ⟨rfl, if_pos rfl, rfl, rfl, rfl, rfl, rfl, rfl, rfl, rfl, rfl, rfl, rfl, rfl⟩

/-- The coinbase of the blocks of the examples: one input, and nothing it spends. -/
def sampleCoinbase : MsgTx :=
  ⟨1, .regular⟩

/-- A genesis block with one unit of work and only its coinbase. -/
def sampleGenesis : Block :=
  ⟨1, ⟨zeroHash, 0, 0, 0, 0, 0, 0, 0, 0⟩, [sampleCoinbase], [], 1, []⟩

/-- A child of `sampleGenesis` with five units of work and only its coinbase. -/
def sampleChild : Block :=
  ⟨2, ⟨1, 1, 0, 0, 0, 0, 0, 0, 0⟩, [sampleCoinbase], [], 5, []⟩

/-- A child of `sampleChild` with five units of work and only its coinbase. -/
def sampleGrandchild : Block :=
  ⟨3, ⟨2, 2, 0, 0, 0, 0, 0, 0, 0⟩, [sampleCoinbase], [], 5, []⟩

/-- A sibling of `sampleChild` with one unit of work and only its coinbase. -/
def sampleSibling : Block :=
  ⟨4, ⟨1, 1, 0, 0, 0, 0, 0, 0, 0⟩, [sampleCoinbase], [], 1, []⟩

/-- The environment of the examples: late stake, no checkpoint, constant collaborators. -/
def sampleEnv : Env where
  stakeEnabledHeight := 100
  latestCheckpointHeight := 0
  blockUpgradeNumToCheck := 100
  hasIndexManager := false
  headerApprovesParent := fun _ => true
  calcPastMedianTime := fun _ => 0
  stakeNode := fun _ => ⟨0, [], [], [], [], [], []⟩
  nextRequiredStakeDifficulty := fun _ => 0
  calculateAddedSubsidy := fun _ _ => 0

/-- Collaborators that always succeed and report no spent outputs. -/
def Oracle.allOk : Oracle :=
  ⟨fun _ => some 0, fun _ => .ok 0⟩

/-- The chain after processing `sampleChild` and then its lighter sibling `sampleSibling`. -/
def sampleForkChain : BlockChain :=
  (Op.processBlock sampleSibling ⟨false⟩).apply sampleEnv Oracle.allOk
    ((Op.processBlock sampleChild ⟨false⟩).apply sampleEnv Oracle.allOk
      (BlockChain.ofGenesis sampleGenesis 0 0))

theorem reachable_sampleForkChain :
    Reachable sampleEnv (fun _ _ => True) (BlockChain.ofGenesis sampleGenesis 0 0) sampleForkChain :=
  .step (.step .init trivial (Op.step_apply (by decide))) trivial (Op.step_apply (by decide))

end DcrdChain
