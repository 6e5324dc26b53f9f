import DcrdChain.Reorganize

/-!
# Best-chain selection

`connectBestChain`, which extends the main chain, records a lighter side chain or
reorganizes to a heavier one, and `forceHeadReorganization`, which replaces the tip by a
sibling on request.
-/

namespace DcrdChain

open BlockStatus

/-- The `BehaviorFlags` `connectBestChain` reads. -/
structure BehaviorFlags where
  fastAdd : Bool
  deriving DecidableEq, Repr

/-- `BFNone`. -/
def BehaviorFlags.bfNone : BehaviorFlags :=
  ⟨false⟩

variable (env : Env) (o : Oracle)

/-- The extend case of `connectBestChain`: validate the block unless known valid, connect it. -/
def connectExtend (node : BlockNode) (block parent : Block) (fastAdd : Bool) : ChainM Unit := do
  let b ← getChain
  let isKnownValid := decide (b.status node.hash).KnownValid
  let fastAdd := fastAdd || isKnownValid
  let view := UtxoViewpoint.new block.header.prevBlock
  let (view, stxos) ← if !fastAdd then do
      let r ← checkConnectBlock o view block
      match r with
      | .error err =>
          if err.isRuleError then
            setStatusFlags node statusValidateFailed
            flushBlockIndexWarnOnly o
          throw err
      | .ok result => pure result
    else pure (view, 0)
  if !isKnownValid then
    setStatusFlags node statusValid
    flushBlockIndexWarnOnly o
  let (view, stxos) ← if fastAdd then do
      let view ← fetchInputUtxos o view
      connectTransactions o view block
    else pure (view, stxos)
  let _ ← connectBlock env o node block parent view stxos

/-- `connectBestChain(node, block, parent, flags)`: the fork length, `0` on the main chain. -/
def connectBestChain (node : BlockNode) (block parent : Block) (flags : BehaviorFlags) :
    ChainM Int := do
  let np ← deref node.parent
  if parent.hash ≠ np.hash then
    panicf .connectParentMismatch
  let b ← getChain
  let tip := b.bestChain.tip
  if block.header.prevBlock = tip.hash then
    connectExtend env o node block parent flags.fastAdd
    return 0
  if node.workSum ≤ tip.workSum then
    let fork ← deref (b.bestChain.findFork node)
    return (node.height : Int) - fork.height
  let (detachNodes, attachNodes) ← getReorganizeNodes node
  let err ← attempt (reorganizeChain env o detachNodes attachNodes)
  flushBlockIndexWarnOnly o
  match err with
  | .error e => throw e
  | .ok () => return 0

/-- The validation `forceHeadReorganization` runs on a target not known valid. -/
def validateForcedTarget (formerBestNode newBestNode : BlockNode) : ChainM Unit := do
  let newBestBlock ← fetchBlockByNode o newBestNode
  let commonParent ← deref formerBestNode.parent
  let view := UtxoViewpoint.new commonParent.hash
  let formerBestBlock ← fetchBlockByNode o formerBestNode
  let commonParentBlock ← fetchMainChainBlockByNode o commonParent
  let stxos ← dbFetchSpendJournalEntry o
  let numSpent ← countSpentOutputs env formerBestBlock commonParentBlock
  if stxos ≠ numSpent then
    panicf .forceReorgStxosCount
  let view ← disconnectTransactions o view formerBestBlock
  checkBlock o
  checkBlock o
  let r ← checkConnectBlock o view newBestBlock
  match r with
  | .error err =>
      if err.isRuleError then
        setStatusFlags newBestNode statusValidateFailed
      throw err
  | .ok _ => setStatusFlags newBestNode statusValid

/-- The checks of `forceHeadReorganization` and the lists `getReorganizeNodes` gives it. -/
def forceHeadReorganizationNodes (formerBest newBest : Hash) :
    ChainM (List BlockNode × List BlockNode) := do
  if formerBest = newBest then
    throw (.message "can't reorganize to the same block")
  let b ← getChain
  let formerBestNode := b.bestChain.tip
  if formerBestNode.hash ≠ formerBest then
    throw (.ruleError .errForceReorgWrongChain "tried to force reorg on wrong chain")
  let newBestNode ← (match b.index newBest with
    | some n =>
        if n.parent = formerBestNode.parent then pure n
        else throw (.ruleError .errForceReorgMissingChild
          "missing child of common parent for forced reorg")
    | none => throw (.ruleError .errForceReorgMissingChild
        "missing child of common parent for forced reorg"))
  let newBestNodeStatus := b.status newBestNode.hash
  if newBestNodeStatus.KnownInvalid then
    throw (.ruleError .errKnownInvalidBlock "block is known to be invalid")
  if ¬ newBestNodeStatus.KnownValid then
    validateForcedTarget env o formerBestNode newBestNode
  getReorganizeNodes newBestNode

/-- `forceHeadReorganization(formerBest, newBest)`.  Its `attach, detach` names are swapped,
so `reorganizeChain` still receives the detach list first. -/
def forceHeadReorganization (formerBest newBest : Hash) : ChainM Unit := do
  let (attach, detach) ← forceHeadReorganizationNodes env o formerBest newBest
  let err ← attempt (reorganizeChain env o attach detach)
  flushBlockIndexWarnOnly o
  match err with
  | .error e => throw e
  | .ok () => pure ()

end DcrdChain
