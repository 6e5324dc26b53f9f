import DcrdChain.Effects

/-!
# Connecting and disconnecting the tip

`connectBlock` and `disconnectBlock` of `chain.go`, and the main-chain block cache they
maintain.  Both release the chain lock to send their notification; each is split at
that point into the part before the release and the part after it, so that the
interleavings the lock allows can be written with the same pieces.
-/

namespace DcrdChain

/-!
## Main-chain block cache
-/

/-- Delete every cached block the predicate selects, in the order of the `range` loop. -/
def deleteCached (p : Block -> Bool) (cache : AList (fun _ : Hash => Block)) :
    AList (fun _ : Hash => Block) :=
  cache.entries.foldl (fun c e => if p e.2 then c.erase e.1 else c) cache

/-- `pushMainChainBlockCache(block)`: cache the block and drop those too far below it. -/
def pushMainChainBlockCache (block : Block) (b : BlockChain) : BlockChain :=
  { b with
    mainchainBlockCache :=
      deleteCached
        (fun bl => decide ((bl.height : Int) ≤ (block.height : Int) - b.mainchainBlockCacheSize))
        (b.mainchainBlockCache.insert block.hash block) }

/-- `dropMainChainBlockCache(block)`. -/
def dropMainChainBlockCache (block : Block) (b : BlockChain) : BlockChain :=
  { b with mainchainBlockCache := b.mainchainBlockCache.erase block.hash }

variable (env : Env) (o : Oracle)

/-!
## connectBlock
-/

/-- The snapshot `connectBlock` publishes: the totals of `cur` plus the block's. -/
def connectBestState (node : BlockNode) (block parent : Block) (cur : BestState)
    (stakeNode : StakeNode) (nextStakeDiff : Int) : BestState :=
  let numTxns := countNumberOfTransactions env block parent
  newBestState node block.header.size numTxns (cur.totalTxns + numTxns)
    (env.calcPastMedianTime node) (cur.totalSubsidy + env.calculateAddedSubsidy block parent)
    (stakeNode.poolSize % 2 ^ 32) nextStakeDiff stakeNode.winners stakeNode.missedTickets
    stakeNode.finalState

/-- The database transaction of `connectBlock`, each of whose writes can fail. -/
def connectBlockDbUpdate (node : BlockNode) (block : Block) (view : UtxoViewpoint)
    (stxos : Nat) (state : BestState) : ChainM Database := do
  let b ← getChain
  let _ ← askStore o
  let _ ← askStore o
  let _ ← askStore o
  let _ ← askStore o
  if env.hasIndexManager then
    let _ ← askStore o
  pure { b.db with
    bestState := state
    workSum := node.workSum
    utxoSet := b.db.utxoSet ++ view.ops
    spendJournal := Function.update b.db.spendJournal block.hash (some stxos)
    stakeTip := node.hash }

/-- `connectBlock` up to the release of the chain lock. -/
def connectBlockCommit (node : BlockNode) (block parent : Block) (view : UtxoViewpoint)
    (stxos : Nat) : ChainM UtxoViewpoint := do
  let b ← getChain
  if block.header.prevBlock ≠ b.bestChain.tip.hash then
    panicf .connectNotExtendingTip
  let numSpent ← countSpentOutputs env block parent
  if stxos ≠ numSpent then
    panicf .connectStxosCount
  flushBlockIndex o
  let stakeNode ← fetchStakeNode env o node
  let b ← getChain
  let nextStakeDiff ← calcNextRequiredStakeDifficulty env o node
  let state := connectBestState env node block parent b.stateSnapshot stakeNode nextStakeDiff
  let db ← connectBlockDbUpdate env o node block view stxos state
  modifyChain fun b =>
    { b with db := db, bestChain := b.bestChain.setTip node, stateSnapshot := state }
  pure view.commit

/-- The stake notifications `connectBlock` sends once stake is enabled. -/
def sendStakeNotifications (node : BlockNode) : ChainM Unit := do
  if env.stakeEnabledHeight ≤ node.height then
    let nextStakeDiff ← calcNextRequiredStakeDifficulty env o node
    let stakeNode := env.stakeNode node
    sendNotification (.spentAndMissedTickets
      ⟨node.hash, node.height, nextStakeDiff, stakeNode.spentByBlock,
        stakeNode.missedByBlock, []⟩)
    sendNotification (.newTickets
      ⟨node.hash, node.height, nextStakeDiff, [], [], stakeNode.newTickets⟩)

/-- Before the last checkpoint, drop the stake data of the parent of the current tip. -/
def dropParentStakeData (node : BlockNode) : ChainM Unit := do
  if node.height < env.latestCheckpointHeight then
    let b ← getChain
    match b.bestChain.tip.parent with
    | none => panicf .nilDereference
    | some parent => setStakeFields parent.hash fun _ => StakeFields.cleared

/-- `connectBlock` after it re-acquires the chain lock. -/
def connectBlockAfterNotify (node : BlockNode) (block : Block) : ChainM Unit := do
  sendStakeNotifications env o node
  dropParentStakeData env node
  modifyChain (pushMainChainBlockCache block)

/-- `connectBlock(node, block, parent, view, stxos)`, returning the view the caller keeps. -/
def connectBlock (node : BlockNode) (block parent : Block) (view : UtxoViewpoint)
    (stxos : Nat) : ChainM UtxoViewpoint := do
  recordTipCall (.connectBlock node block parent)
  let view ← connectBlockCommit env o node block parent view stxos
  sendNotification (.blockConnected block parent)
  connectBlockAfterNotify env o node block
  pure view

/-!
## disconnectBlock
-/

/-- The database transaction of `disconnectBlock`; it writes `node.workSum`, as the source does. -/
def disconnectBlockDbUpdate (node prevNode : BlockNode) (block : Block)
    (view : UtxoViewpoint) (state : BestState) : ChainM Database := do
  let b ← getChain
  let _ ← askStore o
  let _ ← askStore o
  let _ ← askStore o
  let _ ← askStore o
  if env.hasIndexManager then
    let _ ← askStore o
  pure { b.db with
    bestState := state
    workSum := node.workSum
    utxoSet := b.db.utxoSet ++ view.ops
    spendJournal := Function.update b.db.spendJournal block.hash none
    stakeTip := prevNode.hash }

/-- The snapshot `disconnectBlock` publishes for the parent: `cur` less the block's totals. -/
def disconnectBestState (node prevNode : BlockNode) (block parent : Block) (cur : BestState)
    (parentStakeNode : StakeNode) : BestState :=
  let numTxns := countNumberOfTransactions env block parent
  newBestState prevNode parent.header.size numTxns (cur.totalTxns - numTxns)
    (env.calcPastMedianTime prevNode) (cur.totalSubsidy - env.calculateAddedSubsidy block parent)
    (parentStakeNode.poolSize % 2 ^ 32) node.block.header.sbits parentStakeNode.winners
    parentStakeNode.missedTickets parentStakeNode.finalState

/-- `disconnectBlock` up to the release of the chain lock. -/
def disconnectBlockCommit (node : BlockNode) (block parent : Block)
    (view : UtxoViewpoint) : ChainM UtxoViewpoint := do
  let b ← getChain
  if node.hash ≠ b.bestChain.tip.hash then
    panicf .disconnectNotTip
  flushBlockIndex o
  let _ ← fetchStakeNode env o node
  match node.parent with
  | none => panicf .nilDereference
  | some prevNode =>
      let parentStakeNode ← fetchStakeNode env o prevNode
      let b ← getChain
      let state := disconnectBestState env node prevNode block parent b.stateSnapshot parentStakeNode
      let db ← disconnectBlockDbUpdate env o node prevNode block view state
      modifyChain fun b =>
        { b with db := db, bestChain := b.bestChain.setTip prevNode, stateSnapshot := state }
      pure view.commit

/-- `disconnectBlock(node, block, parent, view)`; returns the view. -/
def disconnectBlock (node : BlockNode) (block parent : Block) (view : UtxoViewpoint) :
    ChainM UtxoViewpoint := do
  recordTipCall (.disconnectBlock node block parent)
  let view ← disconnectBlockCommit env o node block parent view
  sendNotification (.blockDisconnected block parent)
  modifyChain (dropMainChainBlockCache block)
  pure view

end DcrdChain
