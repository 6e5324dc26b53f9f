import DcrdChain.Frame
import DcrdChain.BestChain

/-!
# The dry run of a reorganization

The dry run of `reorganizeChain` loads every block the commit phase will need and checks
it on a scratch view.  It changes no part of the chain but the statuses of the blocks it
validates.  Its detach loop leaves, for each node to detach, the block the commit phase
disconnects and the parent block it pairs that block with.  The first has the node's
hash and the second the hash of the node's parent, so the commit phase's own checks
pass, as long as the main-chain cache stores each block under its hash.
-/

namespace DcrdChain

/-- The main-chain block cache stores each block under its own hash. -/
def CacheKeys (b : BlockChain) : Prop :=
  ∀ e ∈ b.mainchainBlockCache.entries, e.2.hash = e.1

instance (b : BlockChain) : Decidable (CacheKeys b) :=
  inferInstanceAs (Decidable (∀ e ∈ b.mainchainBlockCache.entries, e.2.hash = e.1))

theorem CacheKeys.lookup {b : BlockChain} (hc : CacheKeys b) {h : Hash} {blk : Block}
    (hl : b.mainchainBlockCache.lookup h = some blk) : blk.hash = h :=
  hc ⟨h, blk⟩ (AList.mem_lookup_iff.mp hl)

variable (env : Env) (o : Oracle) {w w' : World}

/-!
## Reads
-/

theorem Reads.deref {α : Type} (x : Option α) : Reads (deref x) := by
  cases x
  · exact Reads.panicf _
  · exact Reads.pure _

theorem Reads.sliceIndex {α : Type} (s : List α) (i : Nat) : Reads (sliceIndex s i) := by
  unfold DcrdChain.sliceIndex
  split
  · exact Reads.pure _
  · exact Reads.panicf _

theorem Reads.detachDryRun (nodes : List BlockNode) (st : DetachState) :
    Reads (detachDryRun env o nodes st) := by
  induction nodes generalizing st with
  | nil => exact Reads.pure st
  | cons n rest ih =>
      rw [DcrdChain.detachDryRun]
      refine Reads.bind ?_ fun block => ?_
      · split
        · exact Reads.pure _
        · exact Reads.fetchMainChainBlockByNode o n
      · dsimp only
        refine Reads.ite ((Reads.panicf _).bind fun _ => ?_) ((Reads.pure _).bind fun _ => ?_) <;>
          exact (Reads.deref _).bind fun np => (Reads.fetchMainChainBlockByNode o np).bind
            fun parent => (Reads.askStore o).bind fun stxos =>
            (Reads.countSpentOutputs env _ _).bind fun _ => by
              refine Reads.ite ((Reads.panicf _).bind fun _ => ?_) ((Reads.pure _).bind fun _ => ?_) <;>
                exact (Reads.disconnectTransactions o _ _).bind fun _ => ih _

theorem Reads.checkReorganizeNodes (tip : BlockNode) (detachNodes attachNodes : List BlockNode) :
    Reads (checkReorganizeNodes tip detachNodes attachNodes) := by
  refine Reads.bind ?_ fun _ => ?_
  · split
    · exact Reads.ite (Reads.panicf _) (Reads.pure _)
    · exact Reads.pure _
  · split
    · exact (Reads.deref _).bind fun _ => (Reads.deref _).bind fun _ =>
        Reads.ite (Reads.panicf _) (Reads.pure _)
    · exact Reads.pure _

/-!
## Operations that only mark statuses

The attach loop of the dry run, `getReorganizeNodes`, the validation of a forced target and
the checks of a forced reorganization write the chain only through `setStatusFlags`, so each
has every frame that `setStatusFlags` has.
-/

section Marks

variable {R : BlockChain -> BlockChain -> Prop} [IsRefl BlockChain R] [IsTrans BlockChain R]
  (hs : ∀ (n : BlockNode) (flags : BlockStatus), Frame R (DcrdChain.setStatusFlags n flags))
include hs

theorem Frame.attachDryRun_of_setStatusFlags (forkBlock : Option Block) (i : Nat)
    (nodes : List BlockNode) (st : AttachState) : Frame R (attachDryRun o forkBlock i nodes st) := by
  induction nodes generalizing i st with
  | nil => exact (Reads.pure st).frame
  | cons n rest ih =>
      rw [DcrdChain.attachDryRun]
      refine (Reads.fetchBlockByNode o n).frame.bind fun block => ?_
      refine (Reads.ite (Reads.sliceIndex _ _) (Reads.deref _)).frame.bind fun parent => ?_
      refine (Reads.deref _).frame.bind fun np => Frame.guard fun _ => ?_
      refine Reads.getChain.frame.bind fun b => ?_
      split
      · exact (Reads.connectTransactions o _ _).frame.bind fun _ => ih _ _
      refine (Reads.checkConnectBlock o _ _).frame.bind fun r => ?_
      rcases r with err | ⟨view, _⟩ <;> dsimp only
      · split
        · exact (hs _ _).bind fun _ => (Frame.forM fun _ => hs _ _).bind fun _ =>
            (Reads.throw _).frame
        · exact (Reads.pure _).frame.bind fun _ => (Reads.throw _).frame
      · exact (hs _ _).bind fun _ => ih _ _

theorem Frame.getReorganizeNodes_of_setStatusFlags (node : BlockNode) :
    Frame R (getReorganizeNodes node) := by
  unfold DcrdChain.getReorganizeNodes
  refine Reads.getChain.frame.bind fun b => ?_
  split
  · exact (Reads.panicf _).frame
  · split
    · exact (hs _ _).bind fun _ => (Reads.pure _).frame
    · refine (Reads.pure _).frame.bind fun _ => ?_
      dsimp only
      split
      · exact (Frame.forM fun _ => hs _ _).bind fun _ => (Reads.pure _).frame
      · exact (Reads.pure _).frame

theorem Frame.validateForcedTarget_of_setStatusFlags (formerBestNode newBestNode : BlockNode) :
    Frame R (validateForcedTarget env o formerBestNode newBestNode) := by
  unfold DcrdChain.validateForcedTarget
  refine (Reads.fetchBlockByNode o _).frame.bind fun _ => (Reads.deref _).frame.bind fun _ =>
    (Reads.fetchBlockByNode o _).frame.bind fun _ =>
    (Reads.fetchMainChainBlockByNode o _).frame.bind fun _ =>
    (Reads.askStore o).frame.bind fun _ => (Reads.countSpentOutputs env _ _).frame.bind fun _ =>
    Frame.guard fun _ => (Reads.disconnectTransactions o _ _).frame.bind fun _ => (Reads.checkBlock o).frame.bind
    fun _ => (Reads.checkBlock o).frame.bind fun _ => (Reads.checkConnectBlock o _ _).frame.bind
    fun r => ?_
  rcases r with err | _ <;> dsimp only
  · exact Frame.when (hs _ _) fun _ => (Reads.throw _).frame
  · exact hs _ _

theorem Frame.forceHeadReorganizationNodes_of_setStatusFlags (formerBest newBest : Hash) :
    Frame R (forceHeadReorganizationNodes env o formerBest newBest) := by
  unfold DcrdChain.forceHeadReorganizationNodes
  refine Frame.when (Reads.throw _).frame fun _ => Reads.getChain.frame.bind fun b =>
    Frame.when (Reads.throw _).frame fun _ => Frame.bind ?_ fun n => ?_
  · split
    · exact (Reads.ite (Reads.pure _) (Reads.throw _)).frame
    · exact (Reads.throw _).frame
  · refine Frame.when (Reads.throw _).frame fun _ =>
      Frame.when (Frame.validateForcedTarget_of_setStatusFlags env o hs _ _) fun _ =>
        Frame.getReorganizeNodes_of_setStatusFlags hs _

theorem Frame.reorganizeDryRun_of_setStatusFlags (detachNodes attachNodes : List BlockNode) :
    Frame R (reorganizeDryRun env o detachNodes attachNodes) :=
  Reads.getChain.frame.bind fun _ => (Reads.checkReorganizeNodes _ _ _).frame.bind fun _ =>
    (Reads.detachDryRun env o _ _).frame.bind fun _ => (Reads.ite
      ((Reads.fetchMainChainBlockByNode o _).bind fun _ => Reads.pure _) (Reads.pure _)).frame.bind
    fun _ => (Frame.attachDryRun_of_setStatusFlags o hs _ _ _ _).bind fun _ => (Reads.pure _).frame

end Marks

theorem Frame.attachDryRun (forkBlock : Option Block) (i : Nat) (nodes : List BlockNode)
    (st : AttachState) : Frame StatusOnly (attachDryRun o forkBlock i nodes st) :=
  Frame.attachDryRun_of_setStatusFlags o Frame.setStatusFlags _ _ _ _

theorem Frame.getReorganizeNodes (node : BlockNode) :
    Frame StatusOnly (getReorganizeNodes node) :=
  Frame.getReorganizeNodes_of_setStatusFlags Frame.setStatusFlags _

theorem Frame.validateForcedTarget (formerBestNode newBestNode : BlockNode) :
    Frame StatusOnly (validateForcedTarget env o formerBestNode newBestNode) :=
  Frame.validateForcedTarget_of_setStatusFlags env o Frame.setStatusFlags _ _

theorem Frame.forceHeadReorganizationNodes (formerBest newBest : Hash) :
    Frame StatusOnly (forceHeadReorganizationNodes env o formerBest newBest) :=
  Frame.forceHeadReorganizationNodes_of_setStatusFlags env o Frame.setStatusFlags _ _

theorem Frame.reorganizeDryRun (detachNodes attachNodes : List BlockNode) :
    Frame StatusOnly (reorganizeDryRun env o detachNodes attachNodes) :=
  Frame.reorganizeDryRun_of_setStatusFlags env o Frame.setStatusFlags _ _

/-!
## What the fetches return
-/

/-- The block `fetchMainChainBlockByNode` returns: the cached one, else the node's own. -/
def BlockChain.cachedBlock (b : BlockChain) (node : BlockNode) : Block :=
  (b.mainchainBlockCache.lookup node.hash).getD node.block

theorem CacheKeys.hash_cachedBlock {b : BlockChain} (hc : CacheKeys b) (node : BlockNode) :
    (b.cachedBlock node).hash = node.hash := by
  unfold BlockChain.cachedBlock
  cases hl : b.mainchainBlockCache.lookup node.hash with
  | none => rfl
  | some blk => exact hc.lookup hl

theorem fetchMainChainBlockByNode_ok {node : BlockNode} {blk : Block}
    (h : fetchMainChainBlockByNode o node w = .ok blk w') :
    w.chain.bestChain.contains node ∧ blk = w.chain.cachedBlock node := by
  unfold fetchMainChainBlockByNode at h
  simp only [getChain_bind] at h
  by_cases hm : w.chain.bestChain.contains node
  swap
  · simp [hm] at h
  simp only [hm, Bool.not_true, Bool.false_eq_true, if_false, pure_bind_apply] at h
  refine ⟨hm, ?_⟩
  unfold BlockChain.cachedBlock
  cases hl : w.chain.mainchainBlockCache.lookup node.hash with
  | some b => rw [hl] at h; cases h; rfl
  | none =>
      rw [hl, bind_eq_ok] at h
      obtain ⟨_, _, -, h⟩ := h
      cases h
      rfl

/-!
## The detach loop
-/

/-- The parent of the `i`-th block to detach: the next block loaded, or `nextBlockToDetach`. -/
def DetachState.parentAt (st : DetachState) (i : Nat) : Option Block :=
  if i < st.detachBlocks.length - 1 then st.detachBlocks[i + 1]? else st.nextBlockToDetach

/-- From position `i` on, `st` holds each node's block, journal entry and parent block. -/
def DetachPlanned (st : DetachState) : Nat -> List BlockNode -> Prop
  | _, [] => True
  | i, n :: rest =>
      (exists blk, st.detachBlocks[i]? = some blk ∧ blk.hash = n.hash) ∧
      (exists np par, n.parent = some np ∧ st.parentAt i = some par ∧ par.hash = np.hash) ∧
      (exists s, st.detachSpentTxOuts[i]? = some s) ∧
      DetachPlanned st (i + 1) rest

theorem detachDryRun_cons_ok {n : BlockNode} {rest : List BlockNode} {st st' : DetachState}
    (h : detachDryRun env o (n :: rest) st w = .ok st' w') :
    exists block np stxos view w₁, block.hash = n.hash ∧
      block = st.nextBlockToDetach.getD (w.chain.cachedBlock n) ∧
      (st.nextBlockToDetach = none -> w.chain.bestChain.contains n) ∧ n.parent = some np ∧
      w.chain.bestChain.contains np ∧ w₁.chain = w.chain ∧
      detachDryRun env o rest ⟨some (w.chain.cachedBlock np), st.detachBlocks ++ [block],
        st.detachSpentTxOuts ++ [stxos], np, view⟩ w₁ = .ok st' w' := by
  rw [detachDryRun, bind_eq_ok] at h
  obtain ⟨block, w1, hblock, h⟩ := h
  have hfetch : w1.chain = w.chain ∧ block = st.nextBlockToDetach.getD (w.chain.cachedBlock n) ∧
      (st.nextBlockToDetach = none -> w.chain.bestChain.contains n) := by
    cases hs : st.nextBlockToDetach with
    | some blk => rw [hs] at hblock; cases hblock; exact ⟨rfl, rfl, fun h => nomatch h⟩
    | none =>
        rw [hs] at hblock
        obtain ⟨hm, hb⟩ := fetchMainChainBlockByNode_ok o hblock
        exact ⟨((Reads.fetchMainChainBlockByNode o n).ok hblock).1, hb, fun _ => hm⟩
  obtain ⟨hw1, hblk, hcont⟩ := hfetch
  by_cases hhash : n.hash = block.hash
  swap
  · simp [hhash] at h
  simp only [hhash, ne_eq, not_true_eq_false, if_false, pure_bind_apply] at h
  match hp : n.parent, h with
  | none, h => simp [DcrdChain.deref] at h
  | some np, h =>
      simp only [DcrdChain.deref, pure_bind_apply] at h
      rw [bind_eq_ok] at h
      obtain ⟨parent, w2, hparent, h⟩ := h
      have hw2 := ((Reads.fetchMainChainBlockByNode o np).ok hparent).1
      obtain ⟨hm, rfl⟩ := fetchMainChainBlockByNode_ok o hparent
      rw [bind_eq_ok] at h
      obtain ⟨stxos, w3, hstxos, h⟩ := h
      have hw3 := ((Reads.askStore o).ok hstxos).1
      rw [bind_eq_ok] at h
      obtain ⟨numSpent, w3', hnum, h⟩ := h
      cases countSpentOutputs_ok env hnum
      by_cases hcount : stxos = numSpent
      swap
      · simp [hcount] at h
      simp only [hcount, ne_eq, not_true_eq_false, if_false, pure_bind_apply] at h
      rw [bind_eq_ok] at h
      obtain ⟨view, w4, hview, h⟩ := h
      have hw4 := ((Reads.disconnectTransactions o _ _).ok hview).1
      unfold Same at hw2 hw3 hw4
      rw [hw1] at hm h
      exact ⟨block, np, _, view, w4, hhash.symm, hblk, hcont, rfl, hm,
        by rw [hw4, hw3, hw2, hw1], h⟩

theorem detachDryRun_ok {nodes : List BlockNode} {st st' : DetachState} (hc : CacheKeys w.chain)
    (hs : st.detachSpentTxOuts.length = st.detachBlocks.length)
    (h : detachDryRun env o nodes st w = .ok st' w') :
    w'.chain = w.chain ∧
      (exists bs, st'.detachBlocks = st.detachBlocks ++ bs ∧ bs.length = nodes.length ∧
        ∀ blk, st.nextBlockToDetach = some blk -> nodes ≠ [] -> bs.head? = some blk) ∧
      (exists ss, st'.detachSpentTxOuts = st.detachSpentTxOuts ++ ss ∧
        ss.length = nodes.length) ∧
      (nodes = [] -> st' = st) ∧
      DetachPlanned st' st.detachBlocks.length nodes := by
  induction nodes generalizing st w with
  | nil =>
      cases h
      exact ⟨rfl, ⟨[], by simp, rfl, fun _ _ h => absurd rfl h⟩, ⟨[], by simp, rfl⟩,
        fun _ => rfl, trivial⟩
  | cons n rest ih =>
      obtain ⟨block, np, stxos, view, w1, hhash, hblk, -, hp, -, hw1, h⟩ :=
        detachDryRun_cons_ok env o h
      have hnext : ∀ blk, st.nextBlockToDetach = some blk -> block = blk := fun blk hs => by
        rw [hblk, hs]
        rfl
      have hph := hc.hash_cachedBlock np
      obtain ⟨hw, ⟨bs, hbs, hlen, hhead⟩, ⟨ss, hss, hsl⟩, hnil, hplan⟩ :=
        ih (hw1 ▸ hc) (by simp [hs]) h
      simp only [List.length_append, List.length_singleton] at hplan
      have hparent : st'.parentAt st.detachBlocks.length = some (w.chain.cachedBlock np) := by
        cases rest with
        | nil =>
            cases hnil rfl
            simp [DetachState.parentAt]
        | cons n2 rest2 =>
            obtain ⟨b1, bs', rfl⟩ := List.exists_cons_of_ne_nil
              (List.ne_nil_of_length_pos (by simp [hlen]) : bs ≠ [])
            cases hhead _ rfl (List.cons_ne_nil _ _)
            unfold DetachState.parentAt
            rw [if_pos (by simp [hbs]), hbs, List.append_assoc,
              List.getElem?_append_right (Nat.le_succ _)]
            simp
      refine ⟨hw.trans hw1, ⟨block :: bs, by simp [hbs], by simp [hlen],
        fun blk hs _ => by simp [hnext blk hs]⟩, ⟨stxos :: ss, by simp [hss], by simp [hsl]⟩,
        fun h => absurd h (List.cons_ne_nil _ _),
        ⟨block, by rw [hbs, List.append_assoc, List.getElem?_append_right (le_refl _)]; simp,
          hhash⟩, ⟨np, _, hp, hparent, hph⟩,
        ⟨stxos, by rw [hss, ← hs, List.append_assoc, List.getElem?_append_right (le_refl _)]; simp⟩,
        hplan⟩

/-!
## The whole dry run
-/

theorem reorganizeDryRun_ok {detachNodes attachNodes : List BlockNode} {plan : ReorgPlan}
    (hc : CacheKeys w.chain) (h : reorganizeDryRun env o detachNodes attachNodes w = .ok plan w') :
    plan.oldBest = w.chain.bestChain.tip ∧
      (∀ d ∈ detachNodes.head?, d.hash = w.chain.bestChain.tip.hash) ∧
      DetachPlanned plan.detached 0 detachNodes ∧ StatusOnly w.chain w'.chain := by
  unfold reorganizeDryRun at h
  simp only [getChain_bind] at h
  rw [bind_eq_ok] at h
  obtain ⟨_, w1, hcheck, h⟩ := h
  have hfirst : ∀ d ∈ detachNodes.head?, d.hash = w.chain.bestChain.tip.hash := by
    intro d hd
    unfold checkReorganizeNodes at hcheck
    rw [Option.mem_def.mp hd, bind_eq_ok] at hcheck
    obtain ⟨_, _, hc1, -⟩ := hcheck
    by_contra hne
    simp [hne] at hc1
  have hw1 : w1.chain = w.chain := ((Reads.checkReorganizeNodes _ _ _).ok hcheck).1
  rw [bind_eq_ok] at h
  obtain ⟨d, w2, hdetach, h⟩ := h
  obtain ⟨hw2, -, -, -, hplan⟩ := detachDryRun_ok env o (hw1 ▸ hc) rfl hdetach
  rw [bind_eq_ok] at h
  obtain ⟨fork, w3, hfork, h⟩ := h
  have hw3 : w3.chain = w2.chain := by
    split at hfork
    · exact ((Reads.fetchMainChainBlockByNode o _).bind fun _ => Reads.pure _).ok hfork |>.1
    · cases hfork; rfl
  rw [bind_eq_ok] at h
  obtain ⟨a, w4, hattach, h⟩ := h
  cases h
  have hw4 := ((Frame.attachDryRun o _ _ _ _).ok hattach).1
  rw [hw3, hw2, hw1] at hw4
  exact ⟨rfl, hfirst, hplan, hw4⟩

end DcrdChain
