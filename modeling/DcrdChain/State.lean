import DcrdChain.BestState
import Mathlib.Data.List.AList

/-!
# The chain state and the effects of the engine

The fields of `BlockChain` the engine reads and writes, the database it commits to, and
the monad its operations run in.  Go mutates the chain in place and returns errors as
values, so an operation is a state transformer whose error results keep the state
reached so far (`EStateM`).  Every call to a collaborator outside `chain.go` that can
fail (the database, the UTXO view, the stake database, the validators) reads its answer
from an `Oracle`, one answer per call in order, so that a theorem over every oracle is a
theorem over every pattern of outcomes.
-/

namespace DcrdChain

/-!
## Notifications, views and the database
-/

/-- `TicketNotificationsData`. -/
structure TicketNotificationsData where
  hash : Hash
  height : Nat
  stakeDifficulty : Int
  ticketsSpent : List Hash
  ticketsMissed : List Hash
  ticketsNew : List Hash
  deriving DecidableEq, Repr

/-- The notifications `sendNotification` delivers, with their payloads. -/
inductive Notification
  | blockConnected (block parent : Block)
  | blockDisconnected (block parent : Block)
  | reorganization (oldHash : Hash) (oldHeight : Nat) (newHash : Hash) (newHeight : Nat)
  | chainReorgStarted
  | chainReorgDone
  | spentAndMissedTickets (data : TicketNotificationsData)
  | newTickets (data : TicketNotificationsData)
  deriving DecidableEq, Repr

/-- A change a UTXO view records: a block's transactions connected or disconnected. -/
inductive UtxoOp
  | connect (block : Hash)
  | disconnect (block : Hash)
  deriving DecidableEq, Repr

/-- A `UtxoViewpoint`: the block it represents and the changes not yet committed. -/
structure UtxoViewpoint where
  bestHash : Hash
  ops : List UtxoOp
  deriving DecidableEq, Repr

/-- `NewUtxoViewpoint()` followed by `SetBestHash(hash)`. -/
def UtxoViewpoint.new (hash : Hash) : UtxoViewpoint :=
  ⟨hash, []⟩

/-- `view.commit()`: the changes have been written out. -/
def UtxoViewpoint.commit (view : UtxoViewpoint) : UtxoViewpoint :=
  { view with ops := [] }

/-- The durable store: best state and work sum, UTXO changes, spend journal, stake tip, index. -/
structure Database where
  bestState : BestState
  workSum : Nat
  utxoSet : List UtxoOp
  spendJournal : Hash -> Option Nat
  stakeTip : Hash
  blockIndex : Hash -> Option BlockStatus

/-- Which of `stakeNode`, `newTickets`, `ticketsVoted` and `ticketsRevoked` are loaded. -/
structure StakeFields where
  stakeNode : Bool
  newTickets : Bool
  ticketsVoted : Bool
  ticketsRevoked : Bool
  deriving DecidableEq, Repr

/-- All four transient fields set to `nil`. -/
def StakeFields.cleared : StakeFields :=
  ⟨false, false, false, false⟩

/-- An `orphanBlock`: a block whose parent is unknown, and when it expires. -/
structure OrphanBlock where
  block : Block
  expiration : Nat
  deriving DecidableEq, Repr

/-!
## The chain
-/

/-- The fields of `BlockChain` the modelled functions use. -/
structure BlockChain where
  index : Hash -> Option BlockNode
  status : Hash -> BlockStatus
  modified : List Hash
  bestChain : ChainView
  stateSnapshot : BestState
  orphans : AList (fun _ : Hash => OrphanBlock)
  prevOrphans : AList (fun _ : Hash => List OrphanBlock)
  oldestOrphan : Option OrphanBlock
  mainchainBlockCache : AList (fun _ : Hash => Block)
  mainchainBlockCacheSize : Nat
  stakeData : Hash -> StakeFields
  db : Database
  ntfns : List Notification

/-- The `RuleError` codes the modelled functions return; validator codes are numbers. -/
inductive ErrorCode
  | errForceReorgWrongChain
  | errForceReorgMissingChild
  | errKnownInvalidBlock
  | validation (code : Nat)
  deriving DecidableEq, Repr

/-- Where a `panicf` (or a Go runtime panic) fires. -/
inductive PanicSite
  | connectNotExtendingTip
  | connectStxosCount
  | disconnectNotTip
  | reorgDetachNotTip
  | reorgForkMismatch
  | detachHashMismatch
  | detachStxosCount
  | detachParentMismatch
  | attachParentMismatch
  | forceReorgStxosCount
  | connectParentMismatch
  | nilDereference
  | indexOutOfRange
  | sliceBoundsOutOfRange
  deriving DecidableEq, Repr

/-- The errors: `RuleError`, `errNotInMainChain`, a message, a collaborator's failure, a panic. -/
inductive ChainError
  | ruleError (code : ErrorCode) (description : String)
  | notInMainChain (description : String)
  | message (description : String)
  | failure
  | panic (site : PanicSite)
  deriving DecidableEq, Repr

/-- `errNotInMainChain("block %s is not in the main chain")`. -/
def blockNotInMainChain (hash : Hash) : ChainError :=
  .notInMainChain ("block " ++ toString hash ++ " is not in the main chain")

/-- `_, ok := err.(RuleError)`. -/
def ChainError.isRuleError : ChainError -> Bool
  | .ruleError _ _ => true
  | _ => false

/-- What a validator answers. -/
inductive Verdict
  | ruleError (code : Nat)
  | failure
  deriving DecidableEq, Repr

/-- The collaborators' answers: the `i`-th store or validator call reads answer `i`. -/
structure Oracle where
  store : Nat -> Option Nat
  verdict : Nat -> Except Verdict Nat

/-- A `connectBlock` or `disconnectBlock` call with its arguments. -/
inductive TipCall
  | connectBlock (node : BlockNode) (block parent : Block)
  | disconnectBlock (node : BlockNode) (block parent : Block)
  deriving DecidableEq, Repr

/-- The chain, the number of collaborator calls answered so far, and the tip calls made. -/
structure World where
  chain : BlockChain
  calls : Nat
  tipCalls : List TipCall

/-- Operations of the engine. -/
abbrev ChainM := EStateM ChainError World

/-- The world an operation ends in, with a result or an error. -/
def finalWorld {α : Type} : EStateM.Result ChainError World α -> World
  | .ok _ w => w
  | .error _ w => w

/-- The operation ended in a panic. -/
def Panicked {α : Type} : EStateM.Result ChainError World α -> Prop
  | .error (.panic _) _ => True
  | _ => False

/-- The site of the panic an operation ended in, if it panicked. -/
def panicSite {α : Type} : EStateM.Result ChainError World α -> Option PanicSite
  | .error (.panic s) _ => some s
  | _ => none

/-- The value an operation returned, if it returned one. -/
def returned {α : Type} : EStateM.Result ChainError World α -> Option α
  | .ok a _ => some a
  | .error _ _ => none

theorem eq_ok_of_returned {α : Type} {r : EStateM.Result ChainError World α} {a : α}
    (h : returned r = some a) : r = .ok a (finalWorld r) := by
  cases r with
  | ok b w => cases h; rfl
  | error e w => cases h

/-- The error an operation raised, if it raised one. -/
def raised {α : Type} : EStateM.Result ChainError World α -> Option ChainError
  | .ok _ _ => none
  | .error e _ => some e

theorem eq_error_of_raised {α : Type} {r : EStateM.Result ChainError World α} {e : ChainError}
    (h : raised r = some e) : r = .error e (finalWorld r) := by
  cases r with
  | ok b w => cases h
  | error e' w => cases h; rfl

instance {α : Type} (r : EStateM.Result ChainError World α) : Decidable (Panicked r) :=
  match r with
  | .error (.panic _) _ => isTrue trivial
  | .error (.ruleError _ _) _ => isFalse id
  | .error (.notInMainChain _) _ => isFalse id
  | .error (.message _) _ => isFalse id
  | .error .failure _ => isFalse id
  | .ok _ _ => isFalse id

/-!
## Primitive effects
-/

/-- Read the chain. -/
def getChain : ChainM BlockChain := fun w =>
  .ok w.chain w

/-- Update the chain. -/
def modifyChain (f : BlockChain -> BlockChain) : ChainM Unit := fun w =>
  .ok () { w with chain := f w.chain }

/-- `panicf`. -/
def panicf {α : Type} (site : PanicSite) : ChainM α :=
  throw (.panic site)

/-- `s[i:]`, which panics when `i` is past the end of `s`. -/
def sliceFrom {α : Type} (s : List α) (i : Nat) : ChainM (List α) :=
  if i ≤ s.length then pure (s.drop i) else panicf .sliceBoundsOutOfRange

/-- `sendNotification`. -/
def sendNotification (n : Notification) : ChainM Unit :=
  modifyChain fun b => { b with ntfns := b.ntfns ++ [n] }

/-- Record a tip call. -/
def recordTipCall (c : TipCall) : ChainM Unit := fun w =>
  .ok () { w with tipCalls := w.tipCalls ++ [c] }

variable (o : Oracle)

/-- A call to the store: the number it returns, or its error. -/
def askStore : ChainM Nat := fun w =>
  match o.store w.calls with
  | some k => .ok k { w with calls := w.calls + 1 }
  | none => .error .failure { w with calls := w.calls + 1 }

/-- A call to a validator, whose error the caller inspects. -/
def askValidator : ChainM (Except ChainError Nat) := fun w =>
  .ok (match o.verdict w.calls with
    | .ok k => .ok k
    | .error (.ruleError c) => .error (.ruleError (.validation c) "")
    | .error .failure => .error .failure)
    { w with calls := w.calls + 1 }

/-- `SetStatusFlags(node, flags)`: OR the flags into the status, mark the node modified. -/
def setStatusFlags (node : BlockNode) (flags : BlockStatus) : ChainM Unit :=
  modifyChain fun b =>
    { b with
      status := Function.update b.status node.hash ((b.status node.hash).setFlags flags)
      modified := if node.hash ∈ b.modified then b.modified else node.hash :: b.modified }

/-- Set the stake fields of a node. -/
def setStakeFields (hash : Hash) (f : StakeFields -> StakeFields) : ChainM Unit :=
  modifyChain fun b => { b with stakeData := Function.update b.stakeData hash (f (b.stakeData hash)) }

end DcrdChain
