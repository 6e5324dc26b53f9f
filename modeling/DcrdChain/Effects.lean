import DcrdChain.State

/-!
# Calls to the collaborators

The functions `chain.go` calls outside itself: block fetches, the block-index flush, the
stake node and stake difficulty, the UTXO view and the validators.  Each asks the
oracle once for its outcome; the data it returns is the data the model knows (a node's
block, the stake node the environment assigns), so that only success or failure is left
open.  Last, `countSpentOutputs`, whose slice of the parent's transactions can panic.
-/

namespace DcrdChain

variable (env : Env) (o : Oracle)

/-- Run an operation and return its error as a value (`err := f()`); a panic still propagates. -/
def attempt {α : Type} (x : ChainM α) : ChainM (Except ChainError α) := fun w =>
  match x w with
  | .ok a w' => .ok (.ok a) w'
  | .error (.panic s) w' => .error (.panic s) w'
  | .error e w' => .ok (.error e) w'

/-- Run an operation whose error the caller logs and ignores. -/
def warnOnly (x : ChainM Unit) : ChainM Unit := do
  let _ ← attempt x

/-- `maybeFetchTicketInfo(node)`: load the ticket data of a node whose data was pruned. -/
def maybeFetchTicketInfo (hash : Hash) : ChainM Unit := do
  let b ← getChain
  let f := b.stakeData hash
  if f.newTickets && f.ticketsVoted && f.ticketsRevoked then
    pure ()
  else
    let _ ← askStore o
    setStakeFields hash fun f =>
      { f with newTickets := true, ticketsVoted := true, ticketsRevoked := true }

/-- `flushBlockIndex`: write the statuses of the modified nodes and clear the set. -/
def flushBlockIndex : ChainM Unit := do
  let b ← getChain
  b.modified.forM (maybeFetchTicketInfo o)
  let _ ← askStore o
  modifyChain fun b =>
    { b with
      db := { b.db with
        blockIndex := fun h => if h ∈ b.modified then some (b.status h) else b.db.blockIndex h }
      modified := [] }

/-- `flushBlockIndexWarnOnly`. -/
def flushBlockIndexWarnOnly : ChainM Unit :=
  warnOnly (flushBlockIndex o)

/-- `fetchStakeNode(node)`: the stake node of a node, which it keeps loaded. -/
def fetchStakeNode (node : BlockNode) : ChainM StakeNode := do
  let _ ← askStore o
  setStakeFields node.hash fun f => { f with stakeNode := true }
  pure (env.stakeNode node)

/-- `calcNextRequiredStakeDifficulty(node)`. -/
def calcNextRequiredStakeDifficulty (node : BlockNode) : ChainM Int := do
  let _ ← askStore o
  pure (env.nextRequiredStakeDifficulty node)

/-- `dbFetchSpendJournalEntry`: the number of spent outputs the journal records. -/
def dbFetchSpendJournalEntry : ChainM Nat :=
  askStore o

/-- `view.fetchInputUtxos(db, block, parent)`. -/
def fetchInputUtxos (view : UtxoViewpoint) : ChainM UtxoViewpoint := do
  let _ ← askStore o
  pure view

/-- `connectTransactions(view, block, parent, stxos)`: the view and the spent outputs. -/
def connectTransactions (view : UtxoViewpoint) (block : Block) :
    ChainM (UtxoViewpoint × Nat) := do
  let k ← askStore o
  pure ({ view with ops := view.ops ++ [.connect block.hash] }, k)

/-- `disconnectTransactions(view, block, parent, stxos)`. -/
def disconnectTransactions (view : UtxoViewpoint) (block : Block) : ChainM UtxoViewpoint := do
  let _ ← askStore o
  pure { view with ops := view.ops ++ [.disconnect block.hash] }

/-- `checkConnectBlock(node, block, parent, view, stxos)`: the validator's verdict. -/
def checkConnectBlock (view : UtxoViewpoint) (block : Block) :
    ChainM (Except ChainError (UtxoViewpoint × Nat)) := do
  let r ← askValidator o
  pure (r.map fun k => ({ view with ops := view.ops ++ [.connect block.hash] }, k))

/-- `checkBlockSanity` and `checkBlockContext`: a validator whose error is returned as is. -/
def checkBlock : ChainM Unit := do
  let r ← askValidator o
  match r with
  | .ok _ => pure ()
  | .error e => throw e

/-- `fetchMainChainBlockByNode(node)`: from the cache, else from the database. -/
def fetchMainChainBlockByNode (node : BlockNode) : ChainM Block := do
  let b ← getChain
  if !b.bestChain.contains node then
    throw (blockNotInMainChain node.hash)
  match b.mainchainBlockCache.lookup node.hash with
  | some block => pure block
  | none =>
      let _ ← askStore o
      pure node.block

/-- `fetchBlockByNode(node)`: from the main-chain cache, the orphan pool or the database. -/
def fetchBlockByNode (node : BlockNode) : ChainM Block := do
  let b ← getChain
  match b.mainchainBlockCache.lookup node.hash with
  | some block => pure block
  | none =>
      match b.orphans.lookup node.hash with
      | some orphan => pure orphan.block
      | none =>
          let _ ← askStore o
          pure node.block

/-!
## Counting spent outputs
-/

/-- The outputs one stake transaction spends in `countSpentOutputs`. -/
def stakeSpent (stx : MsgTx) : Nat :=
  match stx.txType with
  | .ssgen | .ssrtx => 1
  | _ => stx.numTxIn

/-- `countSpentOutputs(block, parent)`; `parent.Transactions()[1:]` panics on an empty tree. -/
def countSpentOutputs (block parent : Block) : ChainM Nat := do
  let numSpent ← (if env.headerApprovesParent block.header then do
      let txs ← sliceFrom parent.transactions 1
      pure (txs.map MsgTx.numTxIn).sum
    else pure 0)
  pure (numSpent + (block.stransactions.map stakeSpent).sum)

end DcrdChain
