import DcrdChain.HeaviestTip
import DcrdChain.Snapshot

/-!
# What every run keeps

Properties of whole runs of the chain engine, for any operations and any answers of the
collaborators, failed operations included.  Each rests on the decomposition of a step into
the acceptance of a fresh node and a run of moves (`Step.moves`), and on the induction over
runs done once in `Reachable.invariant`:

* every run of the code is a run of the abstract tree machine, a strict one when only
  `processBlock` and `forceHeadReorganization` run, so that every block connected is known
  valid;
* the block index only grows, and no status flag of an indexed block is ever cleared;
* the published snapshot describes the tip at every chain a step passes through;
* reading a block through the main-chain cache gives the block the database holds;
* with a store that answers every call, an operation that fails without a panic leaves the
  tip where it was.
-/

namespace DcrdChain

variable {env : Env} {allowed : Oracle -> Op -> Prop} {g : Block} {t0 s0 : BitVec 64}

/-!
## The code refines the tree machine
-/

/-- One step of the abstract machine: an optional fresh leaf, then moves. -/
def TreeStep (env : Env) (s : Bool) (b b' : BlockChain) : Prop :=
  ∃ b1, Accept b b1 ∧ Moves env s b1 b'

theorem run_refines_treeSteps {s : Bool} {b0 b : BlockChain}
    (hs : ∀ o op, allowed o op -> s = true -> op.Strict = true) (ht : Tree b0)
    (h : Reachable env allowed b0 b) : Relation.ReflTransGen (TreeStep env s) b0 b := by
  induction h with
  | init => exact .refl
  | step hr hallowed hstep ih =>
      have htb := (Reachable.invariant env (I := fun _ => True) (fun _ _ _ _ _ => trivial)
        (fun _ _ _ _ _ => trivial) hs ht trivial hr).1
      exact ih.tail (Step.moves env htb hstep (hs _ _ hallowed))

theorem run_refines_treeSteps_sampleForkChain :
    Relation.ReflTransGen (TreeStep sampleEnv true) (BlockChain.ofGenesis sampleGenesis 0 0)
      sampleForkChain :=
  have hr : Reachable sampleEnv (fun _ op => op.Strict = true)
      (BlockChain.ofGenesis sampleGenesis 0 0) sampleForkChain :=
    .step (.step .init (by rfl) (Op.step_apply (by decide))) (by rfl) (Op.step_apply (by decide))
  run_refines_treeSteps (fun _ _ h _ => h) (Tree.ofGenesis sampleGenesis 0 0) hr

/-!
## The index only grows, and flags are never cleared
-/

theorem index_status_persist_of_run {b0 b : BlockChain} {k : Hash} {n : BlockNode}
    (ht : Tree b0) (h : Reachable env allowed b0 b) (hn : b0.index k = some n) :
    b.index k = some n ∧ (b0.status k).Le (b.status k) := by
  refine (Reachable.invariant env (s := false)
    (I := fun c => c.index k = some n ∧ (b0.status k).Le (c.status k))
    (fun c c' _ hc hacc => ?_) (fun c c' _ hc hm => ?_) (fun _ _ _ h => nomatch h) ht
    ⟨hn, BlockStatus.Le.refl _⟩ h).2
  · cases hacc with
    | keep => exact hc
    | node _ _ hfresh _ =>
        exact ⟨BlockChain.index_addNode_of_index hfresh hc.1,
          by rw [BlockChain.status_addNode_of_index hfresh hc.1]; exact hc.2⟩
  · exact ⟨by rw [hm.index]; exact hc.1, hc.2.trans (hm.status_le k)⟩

theorem index_status_persist_sampleForkChain :
    sampleForkChain.index sampleGenesis.hash = some (.genesis sampleGenesis) ∧
      ((BlockChain.ofGenesis sampleGenesis 0 0).status sampleGenesis.hash).Le
        (sampleForkChain.status sampleGenesis.hash) :=
  index_status_persist_of_run (Tree.ofGenesis sampleGenesis 0 0) reachable_sampleForkChain
    (Tree.ofGenesis sampleGenesis 0 0).consistent.tip

theorem dataStored_of_run {b : BlockChain}
    (h : Reachable env allowed (BlockChain.ofGenesis g t0 s0) b) :
    ∀ k n, b.index k = some n -> (b.status k).dataStored = true := by
  refine (Reachable.invariant env (s := false)
    (I := fun c => ∀ k n, c.index k = some n -> (c.status k).dataStored = true)
    (fun c c' _ hc hacc => ?_) (fun c c' _ hc hm => ?_) (fun _ _ _ h => nomatch h)
    (Tree.ofGenesis g t0 s0) (fun k n hn => ?_) h).2
  · cases hacc with
    | keep => exact hc
    | node _ _ _ _ =>
        intro k n hn
        rw [BlockChain.index_addNode] at hn
        rw [BlockChain.status_addNode]
        split_ifs at hn ⊢
        · rfl
        · exact hc k n hn
  · intro k n hn
    rw [hm.index] at hn
    exact (hm.status_le k).dataStored (hc k n hn)
  · obtain ⟨rfl, -⟩ := BlockChain.index_ofGenesis hn
    simp [BlockChain.ofGenesis]

/-!
## The snapshot describes the tip
-/

section Snapshot

variable {b b' : BlockChain}

theorem BestState.Describes.move {s : Bool} (hd : b.stateSnapshot.Describes b.bestChain.tip)
    (h : Move env s b b') : b'.stateSnapshot.Describes b'.bestChain.tip := by
  cases h with
  | bookkeeping hb => rw [hb.stateSnapshot, hb.bestChain]; exact hd
  | connect => exact describes_newBestState ..
  | disconnect => exact describes_newBestState ..
  | _ => exact hd

theorem snapshot_describes_tip_of_run {b b1 b' : BlockChain}
    (h : Reachable env allowed (BlockChain.ofGenesis g t0 s0) b) (hacc : Accept b b1)
    (hm : Moves env false b1 b') : b'.stateSnapshot.Describes b'.bestChain.tip := by
  have haccept : ∀ c c', Tree c -> c.stateSnapshot.Describes c.bestChain.tip -> Accept c c' ->
      c'.stateSnapshot.Describes c'.bestChain.tip := fun _ _ _ hd hacc => by
    cases hacc with
    | keep => exact hd
    | node => exact hd
  have hmove : ∀ c c', Tree c -> c.stateSnapshot.Describes c.bestChain.tip ->
      Move env false c c' -> c'.stateSnapshot.Describes c'.bestChain.tip :=
    fun _ _ _ hd hm => hd.move hm
  obtain ⟨ht, hd⟩ := Reachable.invariant env haccept hmove (fun _ _ _ h => nomatch h)
    (Tree.ofGenesis g t0 s0) (describes_newBestState ..) h
  exact (Accept.invariant env haccept hmove ht hd hacc hm).2

theorem snapshot_describes_tip_sampleForkChain :
    sampleForkChain.stateSnapshot.Describes sampleForkChain.bestChain.tip :=
  snapshot_describes_tip_of_run reachable_sampleForkChain .keep .refl

end Snapshot

/-!
## The cache agrees with the database
-/

theorem fetchBlockByNode_of_consistent {o : Oracle} {w : World} {n : BlockNode}
    (hc : Consistent w.chain) (hst : StoreAnswers o) (hn : w.chain.index n.hash = some n) :
    ∃ w', fetchBlockByNode o n w = .ok n.block w' ∧ w'.chain = w.chain := by
  obtain ⟨k, hk⟩ := Option.ne_none_iff_exists'.mp (hst.store w.calls)
  unfold fetchBlockByNode
  simp only [getChain_bind]
  cases hl : w.chain.mainchainBlockCache.lookup n.hash with
  | some blk => exact ⟨w, by rw [hc.cache n blk hn hl]; rfl, rfl⟩
  | none =>
      cases ho : w.chain.orphans.lookup n.hash with
      | some ob => exact ⟨w, by dsimp only; rw [hc.orphans n ob hn ho]; rfl, rfl⟩
      | none =>
          exact ⟨{ w with calls := w.calls + 1 },
            by dsimp only; rw [bind_ok (askStore_apply o hk)]; rfl, rfl⟩

theorem fetch_blocks_of_run {o : Oracle} {w : World} {n : BlockNode}
    (h : Reachable env allowed (BlockChain.ofGenesis g t0 s0) w.chain) (hst : StoreAnswers o)
    (hn : w.chain.index n.hash = some n) :
    (n ∈ w.chain.bestChain.tip.ancestors ->
      ∃ w', fetchMainChainBlockByNode o n w = .ok n.block w' ∧ w'.chain = w.chain) ∧
    (n ∉ w.chain.bestChain.tip.ancestors ->
      fetchMainChainBlockByNode o n w = .error (blockNotInMainChain n.hash) w) ∧
    ∃ w', fetchBlockByNode o n w = .ok n.block w' ∧ w'.chain = w.chain := by
  have hc := (Tree.of_reachable env h).consistent
  obtain ⟨k, hk⟩ := Option.ne_none_iff_exists'.mp (hst.store w.calls)
  have hstore : askStore o w = .ok k { w with calls := w.calls + 1 } := askStore_apply o hk
  refine ⟨fun hm => ?_, fun hm => ?_, fetchBlockByNode_of_consistent hc hst hn⟩
  · unfold fetchMainChainBlockByNode
    simp only [getChain_bind, ChainView.contains_iff.mpr hm, Bool.not_true, Bool.false_eq_true,
      if_false, pure_bind_apply]
    cases hl : w.chain.mainchainBlockCache.lookup n.hash with
    | some blk => exact ⟨w, by rw [hc.cache n blk hn hl]; rfl, rfl⟩
    | none => exact ⟨{ w with calls := w.calls + 1 }, by dsimp only; rw [bind_ok hstore]; rfl, rfl⟩
  · unfold fetchMainChainBlockByNode
    simp only [getChain_bind]
    rw [if_pos (by simpa [← ChainView.contains_iff] using hm)]
    rfl

theorem fetch_blocks_sampleForkChain :
    fetchMainChainBlockByNode Oracle.allOk (.child sampleSibling (.genesis sampleGenesis))
        (World.start sampleForkChain) =
      .error (blockNotInMainChain sampleSibling.hash) (World.start sampleForkChain) ∧
    ∃ w', fetchBlockByNode Oracle.allOk (.child sampleSibling (.genesis sampleGenesis))
      (World.start sampleForkChain) = .ok sampleSibling w' ∧ w'.chain = sampleForkChain :=
  have h := fetch_blocks_of_run (w := World.start sampleForkChain) reachable_sampleForkChain
    NoFailure.allOk.toStoreAnswers (n := .child sampleSibling (.genesis sampleGenesis)) (by decide)
  ⟨h.2.1 (by decide), h.2.2⟩

/-!
## Failures leave the tip
-/

theorem failed_step_keeps_tip {b : BlockChain} {o : Oracle} {op : Op} {e : ChainError}
    {w : World} (h : Reachable env allowed (BlockChain.ofGenesis g t0 s0) b) (hst : StoreAnswers o)
    (hrun : op.run env o b = some (.error e w)) (hpanic : ¬ e.IsPanic) :
    w.chain.bestChain.tip = b.bestChain.tip := by
  have ht := Tree.of_reachable env h
  have hC : ∀ i, o.store i = none -> ChainError.IsPanic .failure := hst.store_failure
  cases op with
  | processBlock block flags =>
      obtain ⟨p, hp, -, hfresh, -, hr⟩ := Op.run_processBlock hrun
      rcases bind_eq_error.mp hr with hr | ⟨_, _, -, hr⟩
      · exact ((connectBestChain_error env hst ht hp hfresh hr).resolve_left hpanic).2.1
      · cases hr
  | forceHeadReorganization f n =>
      have hr := Option.some.inj hrun
      rw [(forceHeadReorganization_error env hst (w := World.start b) ht hr).resolve_left hpanic]
      rfl
  | connectBlock node view stxos =>
      obtain ⟨p, -, -, hr⟩ := Op.run_connectBlock hrun
      rcases bind_eq_error.mp hr with hr | ⟨_, _, -, hr⟩
      · exact absurd (Raises.connectBlock o env hC (fun _ => trivial) _ _ _ _ _ _ _ _ hr) hpanic
      · cases hr
  | disconnectBlock view =>
      obtain ⟨p, -, hr⟩ := Op.run_disconnectBlock hrun
      rcases bind_eq_error.mp hr with hr | ⟨_, _, -, hr⟩
      · exact absurd (Raises.disconnectBlock o env hC (fun _ => trivial) _ _ _ _ _ _ _ hr) hpanic
      · cases hr

/-- Collaborators whose store answers and whose validators fail without a rule violation. -/
def Oracle.validatorFailing : Oracle :=
  ⟨fun _ => some 0, fun _ => .error .failure⟩

theorem failed_step_keeps_tip_validatorFailing :
    ∃ w, (Op.processBlock sampleGrandchild ⟨false⟩).run sampleEnv Oracle.validatorFailing
        sampleForkChain = some (.error .failure w) ∧
      w.chain.bestChain.tip = sampleForkChain.bestChain.tip := by
  obtain ⟨r, hrun, hr⟩ := Option.map_eq_some'.mp (by decide : ((Op.processBlock sampleGrandchild
    ⟨false⟩).run sampleEnv Oracle.validatorFailing sampleForkChain).map raised = some (some .failure))
  rw [eq_error_of_raised hr] at hrun
  exact ⟨_, hrun, failed_step_keeps_tip reachable_sampleForkChain
    ⟨fun _ => Option.some_ne_none 0⟩ hrun id⟩

end DcrdChain
