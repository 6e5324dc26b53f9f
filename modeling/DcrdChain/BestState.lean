import DcrdChain.ChainView
import Mathlib.Data.BitVec
import Mathlib.Algebra.Order.Ring.Nat

/-!
# Best-state snapshots

`BestState`, `newBestState` and `countNumberOfTransactions` of `chain.go`, together with the
environment of the chain engine: the chain parameters and the deterministic functions
of the package that live outside `chain.go` (subsidy, median time, stake nodes, stake
difficulty), taken as given.
-/

namespace DcrdChain

/-- The data a `stake.Node` supplies to the chain engine. -/
structure StakeNode where
  poolSize : Nat
  winners : List Hash
  missedTickets : List Hash
  finalState : List Nat
  spentByBlock : List Hash
  missedByBlock : List Hash
  newTickets : List Hash
  deriving DecidableEq, Repr

/-- The chain parameters, and the collaborators of other files as functions of block data. -/
structure Env where
  stakeEnabledHeight : Nat
  latestCheckpointHeight : Nat
  blockUpgradeNumToCheck : Nat
  hasIndexManager : Bool
  headerApprovesParent : BlockHeader -> Bool
  calcPastMedianTime : BlockNode -> Int
  stakeNode : BlockNode -> StakeNode
  nextRequiredStakeDifficulty : BlockNode -> Int
  calculateAddedSubsidy : Block -> Block -> BitVec 64

/-- `BestState`: the tip of the main chain and the 64-bit totals of the chain up to it. -/
structure BestState where
  hash : Hash
  prevHash : Hash
  height : Nat
  bits : Nat
  nextPoolSize : Nat
  nextStakeDiff : Int
  blockSize : Nat
  numTxns : BitVec 64
  totalTxns : BitVec 64
  medianTime : Int
  totalSubsidy : BitVec 64
  nextWinningTickets : List Hash
  missedTickets : List Hash
  nextFinalState : List Nat
  deriving DecidableEq, Repr

/-- `newBestState`. -/
def newBestState (node : BlockNode) (blockSize : Nat) (numTxns totalTxns : BitVec 64)
    (medianTime : Int) (totalSubsidy : BitVec 64) (nextPoolSize : Nat)
    (nextStakeDiff : Int) (nextWinners missed : List Hash)
    (nextFinalState : List Nat) : BestState where
  hash := node.hash
  prevHash := node.parentHash
  height := node.height
  bits := node.block.header.bits
  nextPoolSize := nextPoolSize
  nextStakeDiff := nextStakeDiff
  blockSize := blockSize
  numTxns := numTxns
  totalTxns := totalTxns
  medianTime := medianTime
  totalSubsidy := totalSubsidy
  nextWinningTickets := nextWinners
  missedTickets := missed
  nextFinalState := nextFinalState

variable (env : Env)

/-- `countNumberOfTransactions`: the transactions adding the block inserts. -/
def countNumberOfTransactions (block parent : Block) : BitVec 64 :=
  (if env.headerApprovesParent block.header then
      BitVec.ofNat 64 parent.transactions.length
    else 0) +
    BitVec.ofNat 64 block.stransactions.length

end DcrdChain
