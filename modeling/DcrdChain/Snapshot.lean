import DcrdChain.Run
import DcrdChain.TipTransition

/-!
# The published snapshot

`connectBlock` and `disconnectBlock` publish a `BestState` snapshot and write the same
record to the database, beside a work sum.  A connect makes both describe the new tip and
writes the tip's work sum.  A disconnect makes both describe the parent, but writes the
work sum of the block it disconnected.  A disconnect right after a connect restores every
field of the snapshot but `numTxns`, which then counts the transactions of the
disconnected block instead of those of the tip.
-/

namespace DcrdChain

/-- `s` describes `n`: its hash, parent hash, height and bits. -/
def BestState.Describes (s : BestState) (n : BlockNode) : Prop :=
  s.hash = n.hash ∧ s.prevHash = n.parentHash ∧ s.height = n.height ∧
    s.bits = n.block.header.bits

theorem describes_newBestState (n : BlockNode) (blockSize : Nat) (numTxns totalTxns : BitVec 64)
    (medianTime : Int) (totalSubsidy : BitVec 64) (nextPoolSize : Nat) (nextStakeDiff : Int)
    (nextWinners missed : List Hash) (nextFinalState : List Nat) :
    (newBestState n blockSize numTxns totalTxns medianTime totalSubsidy nextPoolSize
      nextStakeDiff nextWinners missed nextFinalState).Describes n :=
  ⟨rfl, rfl, rfl, rfl⟩

/-- The snapshot and the stored record describe the tip, with the tip's work sum. -/
structure DescribesTip (b : BlockChain) : Prop where
  snapshot : b.stateSnapshot.Describes b.bestChain.tip
  record : b.db.bestState.Describes b.bestChain.tip
  workSum : b.db.workSum = b.bestChain.tip.workSum

variable (env : Env) (o : Oracle) {w w' : World} {node : BlockNode} {block parent : Block}
  {view v : UtxoViewpoint} {stxos : Nat}

/-!
## One transition
-/

theorem describesTip_of_connectBlock
    (h : connectBlock env o node block parent view stxos w = .ok v w') : DescribesTip w'.chain := by
  obtain ⟨-, -, -, -, b, sd, -, hc⟩ := connectBlock_ok env o h
  rw [hc]
  exact ⟨describes_newBestState .., describes_newBestState .., rfl⟩

theorem disconnectBlock_describes_parent
    (h : disconnectBlock env o node block parent view w = .ok v w') :
    exists prevNode, node.parent = some prevNode ∧ w'.chain.bestChain.tip = prevNode ∧
      w'.chain.stateSnapshot.Describes prevNode ∧ w'.chain.db.bestState.Describes prevNode ∧
      w'.chain.db.workSum = node.workSum := by
  obtain ⟨-, -, -, prevNode, hp, b, -, hc⟩ := disconnectBlock_ok env o h
  rw [hc]
  exact ⟨prevNode, hp, rfl, describes_newBestState .., describes_newBestState .., rfl⟩

theorem eq_child_of_parent_eq_some {n p : BlockNode} (h : n.parent = some p) :
    n = .child n.block p := by
  cases n with
  | genesis _ => cases h
  | child _ _ => cases h; rfl

theorem disconnectBlock_not_describesTip
    (h : disconnectBlock env o node block parent view w = .ok v w') (hwork : 0 < node.block.work) :
    ¬ DescribesTip w'.chain := by
  obtain ⟨prevNode, hp, htip, -, -, hws⟩ := disconnectBlock_describes_parent env o h
  intro hd
  have hsum : node.workSum = prevNode.workSum + node.block.work := by
    rw [eq_child_of_parent_eq_some hp]
    rfl
  have := hd.workSum
  rw [htip, hws, hsum] at this
  omega

theorem recorded_workSum_after_disconnect :
    exists b, Reachable sampleEnv (fun _ _ => True) (BlockChain.ofGenesis sampleGenesis 0 0) b ∧
      b.bestChain.tip = .genesis sampleGenesis ∧ b.db.workSum = 6 ∧ ¬ DescribesTip b := by
  refine ⟨_, @Reachable.step _ _ _ _ _ Oracle.allOk (.disconnectBlock (UtxoViewpoint.new 2))
    (@Reachable.step _ _ _ _ _ Oracle.allOk (.processBlock sampleChild ⟨false⟩) .init trivial
      ⟨_, rfl, by decide, rfl⟩) trivial ⟨_, rfl, by decide, rfl⟩, by decide, by decide, ?_⟩
  intro hd
  exact absurd hd.workSum (by decide)

/-!
## A connect and the disconnect after it
-/

theorem disconnect_after_connect_snapshot {P : BlockNode} {parentBlock : Block} {cur : BestState}
    {w1 w2 : World} {view' v' : UtxoViewpoint}
    (hS : w.chain.stateSnapshot = connectBestState env P P.block parentBlock cur (env.stakeNode P)
      (env.nextRequiredStakeDifficulty P))
    (hsbits : block.header.sbits = env.nextRequiredStakeDifficulty P)
    (hconnect : connectBlock env o (.child block P) block P.block view stxos w = .ok v w')
    (hw1 : w1.chain = w'.chain)
    (hdisconnect : disconnectBlock env o (.child block P) block P.block view' w1 = .ok v' w2) :
    w2.chain.stateSnapshot =
      { w.chain.stateSnapshot with numTxns := countNumberOfTransactions env block P.block } := by
  obtain ⟨-, -, -, -, b, sd, -, hc⟩ := connectBlock_ok env o hconnect
  obtain ⟨-, -, -, prevNode, hp, b', -, hc'⟩ := disconnectBlock_ok env o hdisconnect
  cases hp
  have hconnected : w'.chain.stateSnapshot = connectBestState env (.child block P) block P.block
      w.chain.stateSnapshot (env.stakeNode (.child block P))
      (env.nextRequiredStakeDifficulty (.child block P)) := by
    rw [hc]
    rfl
  have hdisconnected : w2.chain.stateSnapshot = disconnectBestState env (.child block P) P block
      P.block w1.chain.stateSnapshot (env.stakeNode P) := by
    rw [hc']
    rfl
  rw [hdisconnected, hw1, hconnected, hS]
  simp only [disconnectBestState, connectBestState, newBestState, BitVec.add_sub_cancel,
    BlockNode.block, hsbits]

/-- A child of `sampleGenesis` with five units of work and a transaction spending one output. -/
def sampleSpendingChild : Block :=
  ⟨11, ⟨1, 1, 0, 0, 0, 0, 0, 0, 0⟩, [sampleCoinbase, ⟨1, .regular⟩], [], 5, []⟩

/-- A child of `sampleSpendingChild` with five units of work and only its coinbase. -/
def sampleSpendingGrandchild : Block :=
  ⟨12, ⟨11, 2, 0, 0, 0, 0, 0, 0, 0⟩, [sampleCoinbase], [], 5, []⟩

/-- Collaborators that always succeed and report one spent output. -/
def Oracle.oneSpent : Oracle :=
  ⟨fun _ => some 1, fun _ => .ok 1⟩

theorem numTxns_after_round_trip :
    exists b1 b2 b3,
      Reachable sampleEnv (fun _ _ => True) (BlockChain.ofGenesis sampleGenesis 0 0) b1 ∧
      b1.bestChain.tip.hash = sampleSpendingChild.hash ∧
      Step sampleEnv Oracle.oneSpent (.processBlock sampleSpendingGrandchild ⟨false⟩) b1 b2 ∧
      b2.bestChain.tip.hash = sampleSpendingGrandchild.hash ∧
      Step sampleEnv Oracle.allOk (.disconnectBlock (UtxoViewpoint.new 12)) b2 b3 ∧
      b3.bestChain.tip.hash = sampleSpendingChild.hash ∧
      b1.stateSnapshot.numTxns = 1 ∧ b3.stateSnapshot = { b1.stateSnapshot with numTxns := 2 } :=
  ⟨_, _, _, @Reachable.step _ _ _ _ _ Oracle.allOk (.processBlock sampleSpendingChild ⟨false⟩)
      .init trivial ⟨_, rfl, by decide, rfl⟩, by decide, ⟨_, rfl, by decide, rfl⟩, by decide,
    ⟨_, rfl, by decide, rfl⟩, by decide, by decide, by decide⟩

end DcrdChain
