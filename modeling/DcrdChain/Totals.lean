import DcrdChain.RefineRun

/-!
# The running totals of the snapshot

`connectBlock` adds to the totals of the snapshot the transactions and the subsidy of the
block it connects, with its parent, and `disconnectBlock` subtracts those of the tip it
disconnects, with its parent.  So along every run, whatever fails, the totals are the
starting totals plus the sums over the consecutive block pairs of the best chain, in the
64-bit arithmetic of the fields: they depend on the best chain only, never on the
reorganizations that led to it.  While the exact sums fit the fields, the fields hold them,
and the subtraction of `disconnectBlock` does not wrap.
-/

namespace DcrdChain

/-!
## Sums along a chain
-/

namespace BlockNode

/-- The sum of `f` over each block of the chain ending at the node with its parent. -/
def pathSum {M : Type} [Add M] [Zero M] (f : Block -> Block -> M) : BlockNode -> M
  | genesis _ => 0
  | child b p => p.pathSum f + f b p.block

variable {M : Type} [Add M] [Zero M] (f : Block -> Block -> M)

@[simp] theorem pathSum_genesis (b : Block) : (genesis b).pathSum f = 0 := rfl

theorem pathSum_of_parent {n p : BlockNode} (hp : n.parent = some p) :
    n.pathSum f = p.pathSum f + f n.block p.block := by
  cases n with
  | genesis b => cases hp
  | child b q =>
      cases hp
      rfl

theorem pathSum_toNat (f : Block -> Block -> BitVec 64) (n : BlockNode) :
    (n.pathSum f).toNat = n.pathSum (fun b p => (f b p).toNat) % 2 ^ 64 := by
  induction n with
  | genesis b => rfl
  | child b p ih => simp only [pathSum, BitVec.toNat_add, ih, Nat.mod_add_mod]

theorem pathSum_toInt (f : Block -> Block -> BitVec 64) (n : BlockNode) :
    (n.pathSum f).toInt = (n.pathSum (fun b p => (f b p).toInt)).bmod (2 ^ 64) := by
  induction n with
  | genesis b => rfl
  | child b p ih => simp only [pathSum, BitVec.toInt_add, ih, Int.bmod_add_bmod_congr]

end BlockNode

theorem bmod_two_pow_64_of_range {x : Int} (hlo : -2 ^ 63 ≤ x) (hhi : x < 2 ^ 63) :
    x.bmod (2 ^ 64) = x := by
  rw [Int.bmod_def]
  push_cast
  split <;> omega

/-!
## The invariant
-/

/-- The snapshot totals are `t0` and `s0` plus the sums over the best chain. -/
structure Totals (env : Env) (t0 s0 : BitVec 64) (b : BlockChain) : Prop where
  /-- `TotalTxns`, the transactions the blocks of the best chain insert. -/
  txns : b.stateSnapshot.totalTxns = t0 + b.bestChain.tip.pathSum (countNumberOfTransactions env)
  /-- `TotalSubsidy`, the subsidy the blocks of the best chain add. -/
  subsidy : b.stateSnapshot.totalSubsidy = s0 + b.bestChain.tip.pathSum env.calculateAddedSubsidy

namespace Totals

variable {env : Env} {t0 s0 : BitVec 64} {b b' : BlockChain} (hT : Totals env t0 s0 b)
include hT

theorem of_eq (hs : b'.stateSnapshot = b.stateSnapshot) (hb : b'.bestChain = b.bestChain) :
    Totals env t0 s0 b' :=
  ⟨by rw [hs, hb, hT.txns], by rw [hs, hb, hT.subsidy]⟩

theorem move {s : Bool} (ht : Tree b) (h : Move env s b b') : Totals env t0 s0 b' := by
  cases h with
  | bookkeeping hb => exact hT.of_eq hb.stateSnapshot hb.bestChain
  | connect db sn nsd hprev hn hp hblock hparent =>
      subst hblock hparent
      have hpt := ht.parent_eq_tip hn hp hprev
      refine ⟨?_, ?_⟩ <;> dsimp only [connectBestState, newBestState, ChainView.tip_setTip]
      · rw [hT.txns, BlockNode.pathSum_of_parent _ hp, hpt, add_assoc]
      · rw [hT.subsidy, BlockNode.pathSum_of_parent _ hp, hpt, add_assoc]
  | disconnect db psn htip hn hp hblock hparent =>
      subst hblock hparent
      have hnt := ht.eq_tip hn htip
      refine ⟨?_, ?_⟩ <;> dsimp only [disconnectBestState, newBestState, ChainView.tip_setTip]
      · rw [hT.txns, ← hnt, BlockNode.pathSum_of_parent _ hp, ← add_assoc, add_sub_cancel_right]
      · rw [hT.subsidy, ← hnt, BlockNode.pathSum_of_parent _ hp, ← add_assoc, add_sub_cancel_right]
  | _ => exact hT.of_eq rfl rfl

theorem accept (h : Accept b b') : Totals env t0 s0 b' := by
  cases h with
  | keep => exact hT
  | node => exact hT.of_eq rfl rfl

theorem txns_toNat
    (hfit : t0.toNat + b.bestChain.tip.pathSum (fun x y => (countNumberOfTransactions env x y).toNat)
      < 2 ^ 64) :
    b.stateSnapshot.totalTxns.toNat =
      t0.toNat + b.bestChain.tip.pathSum (fun x y => (countNumberOfTransactions env x y).toNat) := by
  rw [hT.txns, BitVec.toNat_add, BlockNode.pathSum_toNat, Nat.add_mod_mod, Nat.mod_eq_of_lt hfit]

theorem sub_txns_toNat {p : BlockNode} (hp : b.bestChain.tip.parent = some p)
    (hfit : t0.toNat + b.bestChain.tip.pathSum (fun x y => (countNumberOfTransactions env x y).toNat)
      < 2 ^ 64) :
    (b.stateSnapshot.totalTxns -
        countNumberOfTransactions env b.bestChain.tip.block p.block).toNat =
      b.stateSnapshot.totalTxns.toNat -
        (countNumberOfTransactions env b.bestChain.tip.block p.block).toNat := by
  apply BitVec.toNat_sub_of_le
  rw [BitVec.le_def, hT.txns_toNat hfit, BlockNode.pathSum_of_parent _ hp]
  omega

theorem subsidy_toInt
    (hlo : -2 ^ 63 ≤ s0.toInt + b.bestChain.tip.pathSum (fun x y => (env.calculateAddedSubsidy x y).toInt))
    (hhi : s0.toInt + b.bestChain.tip.pathSum (fun x y => (env.calculateAddedSubsidy x y).toInt)
      < 2 ^ 63) :
    b.stateSnapshot.totalSubsidy.toInt =
      s0.toInt + b.bestChain.tip.pathSum (fun x y => (env.calculateAddedSubsidy x y).toInt) := by
  rw [hT.subsidy, BitVec.toInt_add, BlockNode.pathSum_toInt, Int.add_bmod_bmod,
    bmod_two_pow_64_of_range hlo hhi]

end Totals

theorem Totals.ofGenesis {env : Env} (g : Block) (t0 s0 : BitVec 64) :
    Totals env t0 s0 (BlockChain.ofGenesis g t0 s0) :=
  ⟨(add_zero t0).symm, (add_zero s0).symm⟩

theorem snapshot_totals_of_run {env : Env} {allowed : Oracle -> Op -> Prop} {g : Block}
    {t0 s0 : BitVec 64} {b b1 b' : BlockChain}
    (h : Reachable env allowed (BlockChain.ofGenesis g t0 s0) b) (hacc : Accept b b1)
    (hm : Moves env false b1 b') :
    b'.stateSnapshot.totalTxns = t0 + b'.bestChain.tip.pathSum (countNumberOfTransactions env) ∧
    b'.stateSnapshot.totalSubsidy = s0 + b'.bestChain.tip.pathSum env.calculateAddedSubsidy ∧
    (t0.toNat + b'.bestChain.tip.pathSum (fun x y => (countNumberOfTransactions env x y).toNat)
        < 2 ^ 64 ->
      b'.stateSnapshot.totalTxns.toNat =
        t0.toNat + b'.bestChain.tip.pathSum (fun x y => (countNumberOfTransactions env x y).toNat) ∧
      ∀ p, b'.bestChain.tip.parent = some p ->
        (b'.stateSnapshot.totalTxns -
            countNumberOfTransactions env b'.bestChain.tip.block p.block).toNat =
          b'.stateSnapshot.totalTxns.toNat -
            (countNumberOfTransactions env b'.bestChain.tip.block p.block).toNat) ∧
    (-2 ^ 63 ≤ s0.toInt + b'.bestChain.tip.pathSum (fun x y => (env.calculateAddedSubsidy x y).toInt) ->
      s0.toInt + b'.bestChain.tip.pathSum (fun x y => (env.calculateAddedSubsidy x y).toInt) < 2 ^ 63 ->
      b'.stateSnapshot.totalSubsidy.toInt =
        s0.toInt + b'.bestChain.tip.pathSum (fun x y => (env.calculateAddedSubsidy x y).toInt)) := by
  have haccept : ∀ c c', Tree c -> Totals env t0 s0 c -> Accept c c' -> Totals env t0 s0 c' :=
    fun _ _ _ hT h => hT.accept h
  have hmove : ∀ c c', Tree c -> Totals env t0 s0 c -> Move env false c c' -> Totals env t0 s0 c' :=
    fun _ _ ht hT h => hT.move ht h
  obtain ⟨ht, hT⟩ := Reachable.invariant env haccept hmove (fun _ _ _ h => nomatch h)
    (Tree.ofGenesis g t0 s0) (Totals.ofGenesis g t0 s0) h
  obtain ⟨-, hT'⟩ := Accept.invariant env haccept hmove ht hT hacc hm
  exact ⟨hT'.txns, hT'.subsidy, fun hfit => ⟨hT'.txns_toNat hfit, fun _ hp => hT'.sub_txns_toNat hp hfit⟩,
    hT'.subsidy_toInt⟩

theorem snapshot_totals_sampleForkChain :
    sampleForkChain.stateSnapshot.totalTxns =
      0 + sampleForkChain.bestChain.tip.pathSum (countNumberOfTransactions sampleEnv) ∧
    sampleForkChain.stateSnapshot.totalSubsidy =
      0 + sampleForkChain.bestChain.tip.pathSum sampleEnv.calculateAddedSubsidy ∧
    ((0 : BitVec 64).toNat + sampleForkChain.bestChain.tip.pathSum
        (fun x y => (countNumberOfTransactions sampleEnv x y).toNat) < 2 ^ 64 ->
      sampleForkChain.stateSnapshot.totalTxns.toNat = (0 : BitVec 64).toNat +
        sampleForkChain.bestChain.tip.pathSum (fun x y => (countNumberOfTransactions sampleEnv x y).toNat) ∧
      ∀ p, sampleForkChain.bestChain.tip.parent = some p ->
        (sampleForkChain.stateSnapshot.totalTxns -
            countNumberOfTransactions sampleEnv sampleForkChain.bestChain.tip.block p.block).toNat =
          sampleForkChain.stateSnapshot.totalTxns.toNat -
            (countNumberOfTransactions sampleEnv sampleForkChain.bestChain.tip.block p.block).toNat) ∧
    (-2 ^ 63 ≤ (0 : BitVec 64).toInt + sampleForkChain.bestChain.tip.pathSum
        (fun x y => (sampleEnv.calculateAddedSubsidy x y).toInt) ->
      (0 : BitVec 64).toInt + sampleForkChain.bestChain.tip.pathSum
        (fun x y => (sampleEnv.calculateAddedSubsidy x y).toInt) < 2 ^ 63 ->
      sampleForkChain.stateSnapshot.totalSubsidy.toInt = (0 : BitVec 64).toInt +
        sampleForkChain.bestChain.tip.pathSum (fun x y => (sampleEnv.calculateAddedSubsidy x y).toInt)) :=
  snapshot_totals_of_run reachable_sampleForkChain .keep .refl

end DcrdChain
