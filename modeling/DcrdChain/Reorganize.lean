import DcrdChain.Connect

/-!
# Reorganizations

`getReorganizeNodes` and the two-phase `reorganizeChain` of `chain.go`.  Each loop of
the source is a recursive function over the list it walks, carrying the loop's
variables; the commit loops index the blocks cached by the dry run exactly as the
source does (`detachBlocks[i+1]`, `attachBlocks[i-1]`).
-/

namespace DcrdChain

open BlockStatus

/-!
## getReorganizeNodes
-/

/-- The walk of `getReorganizeNodes` to the fork; an error at the first known-invalid node. -/
def attachWalk (forkNode : Option BlockNode) (status : Hash -> BlockStatus) :
    BlockNode -> List BlockNode -> Except (List BlockNode) (List BlockNode)
  | .genesis b, acc =>
      if some (.genesis b) = forkNode then .ok acc
      else if (status b.hash).KnownInvalid then .error acc
      else .ok (.genesis b :: acc)
  | .child b p, acc =>
      if some (.child b p) = forkNode then .ok acc
      else if (status b.hash).KnownInvalid then .error acc
      else attachWalk forkNode status p (.child b p :: acc)

/-- The walk from the tip down to the fork point, pushing each node to the back. -/
def detachWalk (forkNode : Option BlockNode) : BlockNode -> List BlockNode
  | .genesis b => if some (.genesis b) = forkNode then [] else [.genesis b]
  | .child b p => if some (.child b p) = forkNode then [] else .child b p :: detachWalk forkNode p

/-- `getReorganizeNodes(node)`: the nodes to detach, tip first, and to attach, fork first. -/
def getReorganizeNodes (node : BlockNode) : ChainM (List BlockNode × List BlockNode) := do
  let b ← getChain
  match node.parent with
  | none => panicf .nilDereference
  | some parent =>
      if (b.status parent.hash).KnownInvalid then
        setStatusFlags node statusInvalidAncestor
        return ([], [])
      let forkNode := b.bestChain.findFork node
      match attachWalk forkNode b.status node [] with
      | .error attachNodes =>
          attachNodes.forM fun dn => setStatusFlags dn statusInvalidAncestor
          return ([], [])
      | .ok attachNodes =>
          return (detachWalk forkNode b.bestChain.tip, attachNodes)

/-!
## reorganizeChain
-/

/-- `s[i]`, which panics out of range. -/
def sliceIndex {α : Type} (s : List α) (i : Nat) : ChainM α :=
  match s[i]? with
  | some x => pure x
  | none => panicf .indexOutOfRange

/-- Dereference a pointer that may be `nil`. -/
def deref {α : Type} : Option α -> ChainM α
  | some x => pure x
  | none => panicf .nilDereference

/-- Run `d` when `x` returns, whether with a result or an error (Go's `defer`). -/
def deferring {α : Type} (x : ChainM α) (d : ChainM Unit) : ChainM α := fun w =>
  match x w with
  | .ok a w' =>
      match d w' with
      | .ok _ w'' => .ok a w''
      | .error e w'' => .error e w''
  | .error e w' =>
      match d w' with
      | .ok _ w'' => .error e w''
      | .error e' w'' => .error e' w''

/-- The variables of the dry run's detach loop. -/
structure DetachState where
  nextBlockToDetach : Option Block
  detachBlocks : List Block
  detachSpentTxOuts : List Nat
  newBest : BlockNode
  view : UtxoViewpoint

/-- The variables of the dry run's attach loop. -/
structure AttachState where
  attachBlocks : List Block
  newBest : BlockNode
  view : UtxoViewpoint

variable (env : Env) (o : Oracle)

/-- The detach loop of the dry run: load each block and journal and disconnect it. -/
def detachDryRun : List BlockNode -> DetachState -> ChainM DetachState
  | [], st => pure st
  | n :: rest, st => do
      let block ← (match st.nextBlockToDetach with
        | some blk => pure blk
        | none => fetchMainChainBlockByNode o n)
      if n.hash ≠ block.hash then
        panicf .detachHashMismatch
      let np ← deref n.parent
      let parent ← fetchMainChainBlockByNode o np
      let stxos ← dbFetchSpendJournalEntry o
      let numSpent ← countSpentOutputs env block parent
      if stxos ≠ numSpent then
        panicf .detachStxosCount
      let view ← disconnectTransactions o st.view block
      detachDryRun rest
        ⟨some parent, st.detachBlocks ++ [block], st.detachSpentTxOuts ++ [stxos], np, view⟩

/-- The attach loop of the dry run: connect each block, validating those not known valid. -/
def attachDryRun (forkBlock : Option Block) :
    Nat -> List BlockNode -> AttachState -> ChainM AttachState
  | _, [], st => pure st
  | i, n :: rest, st => do
      let block ← fetchBlockByNode o n
      let parent ← (if i > 0 then sliceIndex st.attachBlocks (i - 1) else deref forkBlock)
      let np ← deref n.parent
      if np.hash ≠ parent.hash then
        panicf .attachParentMismatch
      let attachBlocks := st.attachBlocks ++ [block]
      let b ← getChain
      if (b.status n.hash).KnownValid then
        let (view, _) ← connectTransactions o st.view block
        attachDryRun forkBlock (i + 1) rest ⟨attachBlocks, n, view⟩
      else
        let r ← checkConnectBlock o st.view block
        match r with
        | .error err =>
            if err.isRuleError then
              setStatusFlags n statusValidateFailed
              rest.forM fun dn => setStatusFlags dn statusInvalidAncestor
            throw err
        | .ok (view, _) =>
            setStatusFlags n statusValid
            attachDryRun forkBlock (i + 1) rest ⟨attachBlocks, n, view⟩

/-- The detach loop of the commit phase, each block with its parent. -/
def detachCommit (detachBlocks : List Block) (detachSpentTxOuts : List Nat)
    (nextBlockToDetach : Option Block) :
    Nat -> List BlockNode -> UtxoViewpoint -> ChainM UtxoViewpoint
  | _, [], view => pure view
  | i, n :: rest, view => do
      let block ← sliceIndex detachBlocks i
      let parent ← (if i < detachBlocks.length - 1 then sliceIndex detachBlocks (i + 1)
        else deref nextBlockToDetach)
      let np ← deref n.parent
      if np.hash ≠ parent.hash then
        panicf .detachParentMismatch
      let view ← fetchInputUtxos o view
      let _ ← sliceIndex detachSpentTxOuts i
      let view ← disconnectTransactions o view block
      let view ← disconnectBlock env o n block parent view
      detachCommit detachBlocks detachSpentTxOuts nextBlockToDetach (i + 1) rest view

/-- The attach loop of the commit phase, each block with its parent. -/
def attachCommit (attachBlocks : List Block) (forkBlock : Option Block) :
    Nat -> List BlockNode -> UtxoViewpoint -> ChainM UtxoViewpoint
  | _, [], view => pure view
  | i, n :: rest, view => do
      let block ← sliceIndex attachBlocks i
      let parent ← (if i > 0 then sliceIndex attachBlocks (i - 1) else deref forkBlock)
      let np ← deref n.parent
      if np.hash ≠ parent.hash then
        panicf .attachParentMismatch
      let _ ← countSpentOutputs env block parent
      let (view, stxos) ← connectTransactions o view block
      let view ← connectBlock env o n block parent view stxos
      attachCommit attachBlocks forkBlock (i + 1) rest view

/-- The sanity checks `reorganizeChain` makes before its dry run. -/
def checkReorganizeNodes (tip : BlockNode) (detachNodes attachNodes : List BlockNode) :
    ChainM Unit := do
  (match detachNodes.head? with
    | some first => if first.hash ≠ tip.hash then panicf .reorgDetachNotTip else pure ()
    | none => pure ())
  (match attachNodes.head?, detachNodes.getLast? with
    | some firstAttach, some lastDetach => do
        let ap ← deref firstAttach.parent
        let dp ← deref lastDetach.parent
        if ap.hash ≠ dp.hash then panicf .reorgForkMismatch else pure ()
    | _, _ => pure ())

/-- What the dry run of `reorganizeChain` hands to its commit phase. -/
structure ReorgPlan where
  oldBest : BlockNode
  detached : DetachState
  forkBlock : Option Block
  attached : AttachState

/-- `reorganizeChain` up to its first release of the chain lock: the checks and the dry run. -/
def reorganizeDryRun (detachNodes attachNodes : List BlockNode) : ChainM ReorgPlan := do
  let b ← getChain
  let tip := b.bestChain.tip
  checkReorganizeNodes tip detachNodes attachNodes
  let d ← detachDryRun env o detachNodes ⟨none, [], [], tip, UtxoViewpoint.new tip.hash⟩
  let forkBlock ← (if attachNodes.length > 0 then some <$> fetchMainChainBlockByNode o d.newBest
    else pure none)
  let a ← attachDryRun o forkBlock 0 attachNodes ⟨[], d.newBest, d.view⟩
  pure ⟨tip, d, forkBlock, a⟩

/-- The commit phase of `reorganizeChain`; its end is announced also on failure (`defer`). -/
def reorganizeCommit (detachNodes attachNodes : List BlockNode) (plan : ReorgPlan) :
    ChainM Unit :=
  deferring
    (do
      let view ← detachCommit env o plan.detached.detachBlocks plan.detached.detachSpentTxOuts
        plan.detached.nextBlockToDetach 0 detachNodes (UtxoViewpoint.new plan.oldBest.hash)
      let _ ← attachCommit env o plan.attached.attachBlocks plan.forkBlock 0 attachNodes view
      pure ())
    (sendNotification .chainReorgDone)

/-- `reorganizeChain(detachNodes, attachNodes)`: dry run, announcements and commit. -/
def reorganizeChain (detachNodes attachNodes : List BlockNode) : ChainM Unit := do
  if detachNodes.isEmpty && attachNodes.isEmpty then
    return
  let plan ← reorganizeDryRun env o detachNodes attachNodes
  sendNotification (.reorganization plan.oldBest.hash plan.oldBest.height
    plan.attached.newBest.hash plan.attached.newBest.height)
  sendNotification .chainReorgStarted
  reorganizeCommit env o detachNodes attachNodes plan

end DcrdChain
