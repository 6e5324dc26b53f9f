import DcrdChain.Consistent
import DcrdChain.Run
import DcrdChain.TipTransition

/-!
# A successful reorganization

On a consistent chain, the dry run of `reorganizeChain` loads the block of every node to
detach and to attach, and the commit phase pairs each with the block of the node's parent:
the next block loaded down the old branch, `nextBlockToDetach` for the last one, the fork
block for the first block to attach and the previous block after it.  A reorganization that
returns without an error has disconnected the old branch from the tip down and connected the
new one from the fork point up, each call with the block of its node and of the node's
parent, and announced it in that order.
-/

namespace DcrdChain

/-!
## Tip calls and notifications along a path
-/

/-- The `disconnectBlock` calls down a path, each block with the block of the next node. -/
def disconnectCalls : List BlockNode -> List TipCall
  | n :: p :: rest => .disconnectBlock n n.block p.block :: disconnectCalls (p :: rest)
  | _ => []

/-- The `connectBlock` calls up a path, each block after the first with the one before it. -/
def connectCalls : List BlockNode -> List TipCall
  | p :: n :: rest => .connectBlock n n.block p.block :: connectCalls (n :: rest)
  | _ => []

/-- The notifications the `disconnectBlock` calls down a path send. -/
def disconnectNotifications : List BlockNode -> List Notification
  | n :: p :: rest => .blockDisconnected n.block p.block :: disconnectNotifications (p :: rest)
  | _ => []

/-- The notifications of the `connectBlock` calls up a path. -/
def connectNotifications (env : Env) : List BlockNode -> List Notification
  | p :: n :: rest =>
      .blockConnected n.block p.block :: stakeNotifications env n ++ connectNotifications env (n :: rest)
  | _ => []

/-- The notifications of a reorganization from `oldTip` down to `fork` and up to `newTip`. -/
def reorganizationNotifications (env : Env) (oldTip fork newTip : BlockNode)
    (detach attach : List BlockNode) : List Notification :=
  [.reorganization oldTip.hash oldTip.height newTip.hash newTip.height, .chainReorgStarted] ++
    disconnectNotifications (detach ++ [fork]) ++ connectNotifications env (fork :: attach) ++
    [.chainReorgDone]

section Paths

variable {n f : BlockNode} {rest : List BlockNode}

@[simp] theorem disconnectCalls_cons_append :
    disconnectCalls (n :: (rest ++ [f])) =
      .disconnectBlock n n.block (rest.headD f).block :: disconnectCalls (rest ++ [f]) := by
  cases rest <;> rfl

@[simp] theorem disconnectNotifications_cons_append :
    disconnectNotifications (n :: (rest ++ [f])) =
      .blockDisconnected n.block (rest.headD f).block :: disconnectNotifications (rest ++ [f]) := by
  cases rest <;> rfl

theorem DownPath.parent_eq (h : DownPath (n :: (rest ++ [f]))) : n.parent = some (rest.headD f) :=
  (List.chain'_cons'.mp h).1 _ (by cases rest <;> rfl)

end Paths

/-!
## One iteration of each loop
-/

section Steps

variable {w w' : World}

theorem sliceIndex_ok {α : Type} {s : List α} {i : Nat} {x : α} (h : sliceIndex s i w = .ok x w') :
    s[i]? = some x ∧ w' = w := by
  unfold sliceIndex at h
  cases hs : s[i]? with
  | none => rw [hs] at h; cases h
  | some y => rw [hs] at h; cases h; exact ⟨rfl, rfl⟩

theorem deref_ok {α : Type} {x : Option α} {a : α} (h : deref x w = .ok a w') :
    x = some a ∧ w' = w := by
  cases x with
  | none => cases h
  | some y => cases h; exact ⟨rfl, rfl⟩

theorem DetachState.parentAt_ok {st : DetachState} {i : Nat} {par : Block}
    (h : (if i < st.detachBlocks.length - 1 then sliceIndex st.detachBlocks (i + 1)
      else deref st.nextBlockToDetach) w = .ok par w') :
    st.parentAt i = some par ∧ w' = w := by
  unfold DetachState.parentAt
  by_cases hi : i < st.detachBlocks.length - 1
  · rw [if_pos hi] at h ⊢
    exact sliceIndex_ok h
  · rw [if_neg hi] at h ⊢
    exact deref_ok h

/-- The parent of the `i`-th block to attach: the previous block, or the fork block. -/
def ReorgPlan.attachParentAt (plan : ReorgPlan) (i : Nat) : Option Block :=
  if i > 0 then plan.attached.attachBlocks[i - 1]? else plan.forkBlock

theorem ReorgPlan.attachParentAt_ok {plan : ReorgPlan} {i : Nat} {par : Block}
    (h : (if i > 0 then sliceIndex plan.attached.attachBlocks (i - 1)
      else deref plan.forkBlock) w = .ok par w') :
    plan.attachParentAt i = some par ∧ w' = w := by
  unfold ReorgPlan.attachParentAt
  by_cases hi : i > 0
  · rw [if_pos hi] at h ⊢
    exact sliceIndex_ok h
  · rw [if_neg hi] at h ⊢
    exact deref_ok h

theorem deferring_ok {α : Type} {x : ChainM α} {d : ChainM Unit} {a : α}
    (h : deferring x d w = .ok a w') : exists w₁, x w = .ok a w₁ ∧ d w₁ = .ok () w' := by
  unfold deferring at h
  cases hx : x w with
  | ok b w₁ =>
      simp only [hx] at h
      split at h
      next hd => cases h; exact ⟨w₁, rfl, hd⟩
      next => cases h
  | error e w₁ =>
      simp only [hx] at h
      split at h <;> cases h

variable (env : Env) (o : Oracle)

theorem detachCommit_cons_ok {st : DetachState} {i : Nat} {n : BlockNode} {rest : List BlockNode}
    {view v : UtxoViewpoint}
    (h : detachCommit env o st.detachBlocks st.detachSpentTxOuts st.nextBlockToDetach i (n :: rest)
      view w = .ok v w') :
    exists block parent view₀ view₁ w₀ w₁, st.detachBlocks[i]? = some block ∧
      st.parentAt i = some parent ∧ w₀.chain = w.chain ∧ w₀.tipCalls = w.tipCalls ∧
      disconnectBlock env o n block parent view₀ w₀ = .ok view₁ w₁ ∧
      detachCommit env o st.detachBlocks st.detachSpentTxOuts st.nextBlockToDetach (i + 1) rest
        view₁ w₁ = .ok v w' := by
  rw [detachCommit, bind_eq_ok] at h
  obtain ⟨block, _, hb, h⟩ := h
  obtain ⟨hblock, rfl⟩ := sliceIndex_ok hb
  rw [bind_eq_ok] at h
  obtain ⟨parent, _, hp, h⟩ := h
  obtain ⟨hparent, rfl⟩ := DetachState.parentAt_ok hp
  rw [bind_eq_ok] at h
  obtain ⟨np, _, hnp, h⟩ := h
  obtain ⟨-, rfl⟩ := deref_ok hnp
  by_cases hc : np.hash = parent.hash
  swap
  · simp [hc] at h
  simp only [hc, ne_eq, not_true_eq_false, if_false, pure_bind_apply] at h
  rw [bind_eq_ok] at h
  obtain ⟨view₀, w₀, h₀, h⟩ := h
  obtain ⟨hc₀, ht₀⟩ := (Reads.fetchInputUtxos o _).ok h₀
  rw [bind_eq_ok] at h
  obtain ⟨_, _, hs, h⟩ := h
  obtain ⟨-, rfl⟩ := sliceIndex_ok hs
  rw [bind_eq_ok] at h
  obtain ⟨view₁, w₁, h₁, h⟩ := h
  obtain ⟨hc₁, ht₁⟩ := (Reads.disconnectTransactions o _ _).ok h₁
  rw [bind_eq_ok] at h
  obtain ⟨view₂, w₂, h₂, h⟩ := h
  exact ⟨block, parent, view₁, view₂, w₁, w₂, hblock, hparent, hc₁.trans hc₀, ht₁.trans ht₀, h₂, h⟩

theorem attachCommit_cons_ok {plan : ReorgPlan} {i : Nat} {n : BlockNode} {rest : List BlockNode}
    {view v : UtxoViewpoint}
    (h : attachCommit env o plan.attached.attachBlocks plan.forkBlock i (n :: rest) view w =
      .ok v w') :
    exists block parent view₀ stxos view₁ w₀ w₁, plan.attached.attachBlocks[i]? = some block ∧
      plan.attachParentAt i = some parent ∧ w₀.chain = w.chain ∧ w₀.tipCalls = w.tipCalls ∧
      connectBlock env o n block parent view₀ stxos w₀ = .ok view₁ w₁ ∧
      attachCommit env o plan.attached.attachBlocks plan.forkBlock (i + 1) rest view₁ w₁ =
        .ok v w' := by
  rw [attachCommit, bind_eq_ok] at h
  obtain ⟨block, _, hb, h⟩ := h
  obtain ⟨hblock, rfl⟩ := sliceIndex_ok hb
  rw [bind_eq_ok] at h
  obtain ⟨parent, _, hp, h⟩ := h
  obtain ⟨hparent, rfl⟩ := ReorgPlan.attachParentAt_ok hp
  rw [bind_eq_ok] at h
  obtain ⟨np, _, hnp, h⟩ := h
  obtain ⟨-, rfl⟩ := deref_ok hnp
  by_cases hc : np.hash = parent.hash
  swap
  · simp [hc] at h
  simp only [hc, ne_eq, not_true_eq_false, if_false, pure_bind_apply] at h
  rw [bind_eq_ok] at h
  obtain ⟨_, _, hcount, h⟩ := h
  cases countSpentOutputs_ok env hcount
  rw [bind_eq_ok] at h
  obtain ⟨⟨view₀, stxos⟩, w₀, h₀, h⟩ := h
  obtain ⟨hc₀, ht₀⟩ := (Reads.connectTransactions o _ _).ok h₀
  rw [bind_eq_ok] at h
  obtain ⟨view₁, w₁, h₁, h⟩ := h
  exact ⟨block, parent, view₀, stxos, view₁, w₀, w₁, hblock, hparent, hc₀, ht₀, h₁, h⟩

end Steps

/-!
## The commit loops

Each loop, over a path whose blocks it finds from its position on, makes one call per node
of the path and leaves the last node it reaches the tip.
-/

section Loops

variable (env : Env) (o : Oracle) {w w' : World}

theorem getElem?_of_drop {α : Type} {l : List α} {i : Nat} {x : α} {xs : List α}
    (h : l.drop i = x :: xs) : l[i]? = some x := by
  rw [← Nat.add_zero i, ← List.getElem?_drop, h]
  simp

theorem DetachState.parentAt_of_drop {st : DetachState} {i : Nat} {n f : BlockNode}
    {rest : List BlockNode} (hblocks : st.detachBlocks.drop i = (n :: rest).map BlockNode.block)
    (hnext : st.nextBlockToDetach = some f.block) :
    st.parentAt i = some (rest.headD f).block := by
  have hlen := congrArg List.length hblocks
  unfold DetachState.parentAt
  cases rest with
  | nil =>
      simp only [List.length_drop, List.length_map, List.length_singleton] at hlen
      rw [if_neg (by omega)]
      exact hnext
  | cons m r =>
      simp only [List.length_drop, List.length_map, List.length_cons] at hlen
      rw [if_pos (by omega)]
      exact getElem?_of_drop (by rw [← List.tail_drop, hblocks]; rfl)

theorem detachCommit_path {st : DetachState} {i : Nat} {nodes : List BlockNode} {f : BlockNode}
    {view v : UtxoViewpoint} (hpath : DownPath (nodes ++ [f]))
    (hblocks : st.detachBlocks.drop i = nodes.map BlockNode.block)
    (hnext : nodes ≠ [] -> st.nextBlockToDetach = some f.block)
    (h : detachCommit env o st.detachBlocks st.detachSpentTxOuts st.nextBlockToDetach i nodes view
      w = .ok v w') :
    w'.tipCalls = w.tipCalls ++ disconnectCalls (nodes ++ [f]) ∧
      w'.chain.ntfns = w.chain.ntfns ++ disconnectNotifications (nodes ++ [f]) ∧
      (nodes = [] -> w' = w) ∧ (nodes ≠ [] -> w'.chain.bestChain.tip = f) := by
  induction nodes generalizing i view w with
  | nil =>
      cases h
      exact ⟨by simp [disconnectCalls], by simp [disconnectNotifications], fun _ => rfl,
        fun h => absurd rfl h⟩
  | cons n rest ih =>
      obtain ⟨block, parent, view₀, view₁, w₀, w₁, hb, hp, hc₀, ht₀, hd, h⟩ :=
        detachCommit_cons_ok env o h
      have hnext' := hnext (List.cons_ne_nil _ _)
      cases (getElem?_of_drop hblocks).symm.trans hb
      cases (DetachState.parentAt_of_drop hblocks hnext').symm.trans hp
      obtain ⟨ht₁, -, -, prev, hprev, b, -, hc₁⟩ := disconnectBlock_ok env o hd
      have hprev' : prev = rest.headD f := Option.some_injective _ (hprev.symm.trans hpath.parent_eq)
      have hn₁ : w₁.chain.ntfns = w.chain.ntfns ++ [.blockDisconnected n.block (rest.headD f).block] := by
        rw [hc₁, ← hc₀]
        rfl
      have htip₁ : w₁.chain.bestChain.tip = rest.headD f := by
        rw [hc₁, ← hprev']
        rfl
      obtain ⟨ht, hn, hnil, hcons⟩ := ih hpath.tail (by rw [← List.tail_drop, hblocks]; rfl)
        (fun _ => hnext') h
      refine ⟨by simp [ht, ht₁, ht₀], by simp [hn, hn₁], fun h => absurd h (List.cons_ne_nil _ _),
        fun _ => ?_⟩
      cases rest with
      | nil => rw [hnil rfl, htip₁]; rfl
      | cons m r => exact hcons (List.cons_ne_nil _ _)

theorem attachCommit_path {plan : ReorgPlan} {i : Nat} {prev : BlockNode} {nodes : List BlockNode}
    {view v : UtxoViewpoint} (hpath : UpPath (prev :: nodes))
    (hblocks : plan.attached.attachBlocks.drop i = nodes.map BlockNode.block)
    (hprev : nodes ≠ [] -> plan.attachParentAt i = some prev.block)
    (h : attachCommit env o plan.attached.attachBlocks plan.forkBlock i nodes view w = .ok v w') :
    w'.tipCalls = w.tipCalls ++ connectCalls (prev :: nodes) ∧
      w'.chain.ntfns = w.chain.ntfns ++ connectNotifications env (prev :: nodes) ∧
      (nodes = [] -> w' = w) ∧ (∀ last ∈ nodes.getLast?, w'.chain.bestChain.tip = last) := by
  induction nodes generalizing i prev view w with
  | nil =>
      cases h
      exact ⟨by simp [connectCalls], by simp [connectNotifications], fun _ => rfl,
        fun _ h => nomatch h⟩
  | cons n rest ih =>
      obtain ⟨block, parent, view₀, stxos, view₁, w₀, w₁, hb, hp, hc₀, ht₀, hd, h⟩ :=
        attachCommit_cons_ok env o h
      have hb' := getElem?_of_drop hblocks
      cases hb'.symm.trans hb
      cases (hprev (List.cons_ne_nil _ _)).symm.trans hp
      obtain ⟨ht₁, -, -, -, b, sd, -, hc₁⟩ := connectBlock_ok env o hd
      have hn₁ : w₁.chain.ntfns = w.chain.ntfns ++ [.blockConnected n.block prev.block] ++
          stakeNotifications env n := by
        rw [hc₁, ← hc₀]
        rfl
      have htip₁ : w₁.chain.bestChain.tip = n := by
        rw [hc₁]
        rfl
      obtain ⟨ht, hn, hnil, hlast⟩ := ih (List.chain'_cons'.mp hpath).2
        (by rw [← List.tail_drop, hblocks]; rfl) (fun _ => by simp [ReorgPlan.attachParentAt, hb']) h
      refine ⟨by simp [ht, ht₁, ht₀, connectCalls], by simp [hn, hn₁, connectNotifications],
        fun h => absurd h (List.cons_ne_nil _ _), fun last hl => ?_⟩
      cases rest with
      | nil =>
          simp only [List.getLast?_singleton, Option.mem_def, Option.some.injEq] at hl
          rw [hnil rfl, htip₁, hl]
      | cons m r => exact hlast last (by rwa [List.getLast?_cons_cons] at hl)

end Loops

/-!
## The dry run plans the blocks of the paths
-/

section DryRun

variable (env : Env) (o : Oracle) {w w' : World}

/-- `plan` holds the blocks from `tip` down to `fork` and up to `node`, and the fork block. -/
structure Plans (plan : ReorgPlan) (tip fork node : BlockNode) (detach attach : List BlockNode) :
    Prop where
  oldBest : plan.oldBest = tip
  detachBlocks : plan.detached.detachBlocks = detach.map BlockNode.block
  nextBlockToDetach : detach ≠ [] -> plan.detached.nextBlockToDetach = some fork.block
  forkBlock : attach ≠ [] -> plan.forkBlock = some fork.block
  attachBlocks : plan.attached.attachBlocks = attach.map BlockNode.block
  newBest : plan.attached.newBest = node

theorem detachDryRun_blocks {nodes : List BlockNode} {f : BlockNode} {st st' : DetachState}
    (hc : Consistent w.chain) (hpath : DownPath (nodes ++ [f]))
    (hnext : ∀ n ∈ nodes.head?, ∀ blk, st.nextBlockToDetach = some blk -> blk = n.block)
    (h : detachDryRun env o nodes st w = .ok st' w') :
    w'.chain = w.chain ∧ st'.detachBlocks = st.detachBlocks ++ nodes.map BlockNode.block ∧
      (nodes = [] -> st' = st) ∧
      (nodes ≠ [] -> st'.nextBlockToDetach = some f.block ∧ st'.newBest = f) := by
  induction nodes generalizing st w with
  | nil => cases h; exact ⟨rfl, by simp, fun _ => rfl, fun h => absurd rfl h⟩
  | cons n rest ih =>
      obtain ⟨block, np, stxos, view, w₁, -, hblk, hcont, hp, hm, hw₁, h⟩ :=
        detachDryRun_cons_ok env o h
      have hblock : block = n.block := by
        cases hs : st.nextBlockToDetach with
        | some blk => rw [hblk, hs]; exact hnext n rfl blk hs
        | none =>
            rw [hblk, hs]
            exact hc.cachedBlock_eq (hc.index_of_mem_tip (ChainView.contains_iff.mp (hcont hs)))
      have hnp : np = rest.headD f := Option.some_injective _ (hp.symm.trans hpath.parent_eq)
      rw [hc.cachedBlock_eq (hc.index_of_mem_tip (ChainView.contains_iff.mp hm)), hnp] at h
      obtain ⟨hw, hbl, hnil, hcons⟩ := ih (hw₁ ▸ hc) hpath.tail (fun m hm blk hs => by
        cases rest with
        | nil => cases hm
        | cons m' r => cases hm; cases hs; rfl) h
      refine ⟨hw.trans hw₁, by simp [hbl, hblock], fun h => absurd h (List.cons_ne_nil _ _),
        fun _ => ?_⟩
      cases rest with
      | nil => rw [hnil rfl]; exact ⟨rfl, rfl⟩
      | cons m r => exact hcons (List.cons_ne_nil _ _)

theorem attachDryRun_cons_ok {fb : Option Block} {i : Nat} {n : BlockNode} {rest : List BlockNode}
    {st st' : AttachState} (h : attachDryRun o fb i (n :: rest) st w = .ok st' w') :
    exists block w₀ view w₁, fetchBlockByNode o n w = .ok block w₀ ∧
      StatusOnly w.chain w₁.chain ∧
      attachDryRun o fb (i + 1) rest ⟨st.attachBlocks ++ [block], n, view⟩ w₁ = .ok st' w' := by
  rw [attachDryRun, bind_eq_ok] at h
  obtain ⟨block, w₀, hblock, h⟩ := h
  have hc₀ := ((Reads.fetchBlockByNode o n).ok hblock).1
  rw [bind_eq_ok] at h
  obtain ⟨parent, w₁, hparent, h⟩ := h
  have hc₁ := ((Reads.ite (Reads.sliceIndex _ _) (Reads.deref _)).ok hparent).1
  rw [bind_eq_ok] at h
  obtain ⟨np, _, hnp, h⟩ := h
  obtain ⟨-, hw⟩ := deref_ok hnp
  rw [hw] at h
  by_cases hc : np.hash = parent.hash
  swap
  · simp [hc] at h
  simp only [hc, ne_eq, not_true_eq_false, if_false, pure_bind_apply, getChain_bind] at h
  have hsame : StatusOnly w.chain w₁.chain := by
    rw [show w₁.chain = w.chain from Eq.trans hc₁ hc₀]
    exact refl_of StatusOnly _
  by_cases hv : (w₁.chain.status n.hash).KnownValid
  · rw [if_pos hv, bind_eq_ok] at h
    obtain ⟨⟨view, _⟩, w₂, h₂, h⟩ := h
    have hc₂ := ((Reads.connectTransactions o _ _).ok h₂).1
    unfold Same at hc₂
    exact ⟨block, w₀, view, w₂, hblock, hc₂ ▸ hsame, h⟩
  · rw [if_neg hv, bind_eq_ok] at h
    obtain ⟨r, w₂, h₂, h⟩ := h
    have hc₂ := ((Reads.checkConnectBlock o _ _).ok h₂).1
    unfold Same at hc₂
    rcases r with err | ⟨view, _⟩
    · by_cases hr : err.isRuleError = true
      · simp only [hr, if_true, bind_eq_ok] at h
        obtain ⟨_, _, -, _, _, -, h⟩ := h
        cases h
      · simp only [hr, Bool.false_eq_true, if_false, pure_bind_apply] at h
        cases h
    · dsimp only at h
      rw [bind_eq_ok] at h
      obtain ⟨_, w₃, h₃, h⟩ := h
      have hc₃ := ((Frame.setStatusFlags _ _).ok h₃).1
      exact ⟨block, w₀, view, w₃, hblock, trans_of StatusOnly hsame (hc₂ ▸ hc₃), h⟩

theorem attachDryRun_blocks {fb : Option Block} {i : Nat} {nodes : List BlockNode}
    {st st' : AttachState} (hc : Consistent w.chain)
    (hidx : ∀ n ∈ nodes, w.chain.index n.hash = some n)
    (h : attachDryRun o fb i nodes st w = .ok st' w') :
    st'.attachBlocks = st.attachBlocks ++ nodes.map BlockNode.block ∧
      (st.newBest :: nodes).getLast? = some st'.newBest := by
  induction nodes generalizing i st w with
  | nil => cases h; simp
  | cons n rest ih =>
      obtain ⟨block, w₀, view, w₁, hblock, hso, h⟩ := attachDryRun_cons_ok o h
      rw [fetchBlockByNode_block o hc (hidx n (List.mem_cons_self _ _)) hblock] at h
      obtain ⟨hbl, hlast⟩ := ih (hc.of_statusOnly hso) (fun m hm => by
        rw [hso.index]
        exact hidx m (List.mem_cons_of_mem _ hm)) h
      exact ⟨by simp [hbl], by rw [List.getLast?_cons_cons]; exact hlast⟩

theorem reorganizeDryRun_plans {detach attach : List BlockNode} {fork node : BlockNode}
    {plan : ReorgPlan} (hc : Consistent w.chain) (hn : w.chain.index node.hash = some node)
    (hdown : w.chain.bestChain.tip.ancestors = detach ++ fork.ancestors)
    (hup : node.ancestors = attach.reverse ++ fork.ancestors)
    (h : reorganizeDryRun env o detach attach w = .ok plan w') :
    Plans plan w.chain.bestChain.tip fork node detach attach ∧ StatusOnly w.chain w'.chain := by
  unfold reorganizeDryRun at h
  simp only [getChain_bind] at h
  rw [bind_eq_ok] at h
  obtain ⟨_, w₁, hcheck, h⟩ := h
  have hw₁ : w₁.chain = w.chain := ((Reads.checkReorganizeNodes _ _ _).ok hcheck).1
  rw [bind_eq_ok] at h
  obtain ⟨d, w₂, hdetach, h⟩ := h
  obtain ⟨hw₂, hdb, hnil, hcons⟩ := detachDryRun_blocks env o (hw₁ ▸ hc)
    (downPath_of_ancestors hdown) (fun _ _ _ h => by cases h) hdetach
  have hnew : d.newBest = fork := by
    by_cases hd : detach = []
    · rw [hnil hd]
      subst hd
      exact BlockNode.eq_of_ancestors_eq hdown
    · exact (hcons hd).2
  have hc₂ : Consistent w₂.chain := by rw [hw₂, hw₁]; exact hc
  rw [bind_eq_ok] at h
  obtain ⟨fb, w₃, hfork, h⟩ := h
  have hfb : w₃.chain = w₂.chain ∧ (attach ≠ [] -> fb = some fork.block) := by
    by_cases ha : attach.length > 0
    · rw [if_pos ha] at hfork
      have hfork' : (fetchMainChainBlockByNode o d.newBest >>= fun blk => pure (some blk)) w₂ =
          .ok fb w₃ := hfork
      rw [bind_eq_ok] at hfork'
      obtain ⟨blk, _, hblk, hfb⟩ := hfork'
      cases hfb
      rw [fetchMainChainBlockByNode_block o hc₂ hblk, hnew]
      exact ⟨((Reads.fetchMainChainBlockByNode o _).ok hblk).1, fun _ => rfl⟩
    · rw [if_neg ha] at hfork
      cases hfork
      exact ⟨rfl, fun hne => absurd (List.length_pos.mpr hne) ha⟩
  rw [bind_eq_ok] at h
  obtain ⟨a, w₄, hattach, h⟩ := h
  cases h
  have hso := ((Frame.attachDryRun o _ _ _ _).ok hattach).1
  obtain ⟨hab, hlast⟩ := attachDryRun_blocks o (hfb.1 ▸ hc₂) (fun m hm => by
    rw [hfb.1, hw₂, hw₁]
    exact hc.closed _ _ hn m (hup ▸ List.mem_append_left _ (List.mem_reverse.mpr hm))) hattach
  rw [hnew, getLast?_of_ancestors hup] at hlast
  rw [hfb.1, hw₂, hw₁] at hso
  exact ⟨⟨rfl, by simpa using hdb, fun hd => (hcons hd).1, hfb.2, by simpa using hab,
    (Option.some_injective _ hlast).symm⟩, hso⟩

end DryRun

/-!
## The whole reorganization
-/

section Reorganization

variable (env : Env) (o : Oracle) {w w' : World}

theorem reorganizeCommit_path {detach attach : List BlockNode} {tip fork node : BlockNode}
    {plan : ReorgPlan} (hdown : tip.ancestors = detach ++ fork.ancestors)
    (hup : node.ancestors = attach.reverse ++ fork.ancestors)
    (hplan : Plans plan tip fork node detach attach) (htip : w.chain.bestChain.tip = tip)
    (h : reorganizeCommit env o detach attach plan w = .ok () w') :
    w'.tipCalls = w.tipCalls ++ disconnectCalls (detach ++ [fork]) ++ connectCalls (fork :: attach) ∧
      w'.chain.ntfns = w.chain.ntfns ++ disconnectNotifications (detach ++ [fork]) ++
        connectNotifications env (fork :: attach) ++ [.chainReorgDone] ∧
      w'.chain.bestChain.tip = node := by
  obtain ⟨w₁, h, hd⟩ := deferring_ok h
  rw [bind_eq_ok] at h
  obtain ⟨view, w₂, hdetach, h⟩ := h
  rw [bind_eq_ok] at h
  obtain ⟨_, w₃, hattach, h⟩ := h
  cases h
  cases hd
  obtain ⟨ht₂, hn₂, hnil₂, hcons₂⟩ := detachCommit_path env o (downPath_of_ancestors hdown)
    (by rw [List.drop_zero, hplan.detachBlocks]) hplan.nextBlockToDetach hdetach
  obtain ⟨ht₃, hn₃, hnil₃, hlast₃⟩ := attachCommit_path env o (upPath_of_ancestors hup)
    (by rw [List.drop_zero, hplan.attachBlocks])
    (fun hne => by simp [ReorgPlan.attachParentAt, hplan.forkBlock hne]) hattach
  refine ⟨by simp [ht₃, ht₂], by simp [sendNotification, modifyChain, hn₃, hn₂], ?_⟩
  have hfork : w₂.chain.bestChain.tip = fork := by
    by_cases hd : detach = []
    · subst hd
      rw [hnil₂ rfl, htip]
      exact BlockNode.eq_of_ancestors_eq hdown
    · exact hcons₂ hd
  show w₁.chain.bestChain.tip = node
  by_cases ha : attach = []
  · subst ha
    rw [hnil₃ rfl, hfork]
    exact (BlockNode.eq_of_ancestors_eq hup).symm
  · obtain ⟨last, hl⟩ := Option.isSome_iff_exists.mp (List.getLast?_isSome.mpr ha)
    have hnode := getLast?_of_ancestors hup
    rw [List.getLast?_cons, hl] at hnode
    rw [hlast₃ last hl]
    exact Option.some_injective _ hnode

theorem reorganizeChain_ok {node : BlockNode} {detach attach : List BlockNode}
    {w₁ w₂ : World} (hc : Consistent w.chain) (hn : w.chain.index node.hash = some node)
    (hnodes : getReorganizeNodes node w = .ok (detach, attach) w₁)
    (hne : (detach.isEmpty && attach.isEmpty) = false)
    (h : reorganizeChain env o detach attach w₁ = .ok () w₂) :
    exists fork : BlockNode, w.chain.bestChain.tip.ancestors = detach ++ fork.ancestors ∧
      node.ancestors = attach.reverse ++ fork.ancestors ∧
      w₂.tipCalls = w.tipCalls ++ disconnectCalls (detach ++ [fork]) ++
        connectCalls (fork :: attach) ∧
      w₂.chain.ntfns = w.chain.ntfns ++
        reorganizationNotifications env w.chain.bestChain.tip fork node detach attach ∧
      w₂.chain.bestChain.tip = node := by
  obtain ⟨fork, hdown, hup⟩ := getReorganizeNodes_ok hc hn hnodes hne
  obtain ⟨hso, ht₁⟩ := (Frame.getReorganizeNodes node).ok hnodes
  unfold reorganizeChain at h
  simp only [hne, Bool.false_eq_true, if_false, pure_bind_apply] at h
  rw [bind_eq_ok] at h
  obtain ⟨plan, w₃, hdry, h⟩ := h
  have hdown₁ : w₁.chain.bestChain.tip.ancestors = detach ++ fork.ancestors := by
    rw [hso.bestChain]
    exact hdown
  obtain ⟨hplan, hso₃⟩ := reorganizeDryRun_plans env o (hc.of_statusOnly hso)
    (by rw [hso.index]; exact hn) hdown₁ hup hdry
  have ht₃ := ((Frame.reorganizeDryRun env o _ _).ok hdry).2
  simp only [sendNotification, modifyChain_bind] at h
  obtain ⟨hcalls, hntfns, htip⟩ := reorganizeCommit_path env o hdown₁ hup hplan
    (by simp only [hso₃.bestChain]) h
  refine ⟨fork, hdown, hup, ?_, ?_, htip⟩
  · rw [hcalls]
    simp only [ht₃, ht₁]
  · rw [hntfns]
    simp [reorganizationNotifications, hso₃.ntfns, hso.ntfns, hplan.oldBest, hplan.newBest,
      hso.bestChain]

theorem reorganizeChain_success {node : BlockNode} {detach attach : List BlockNode}
    {w₁ w₂ : World} (hc : Consistent w.chain) (hn : w.chain.index node.hash = some node)
    (hnodes : getReorganizeNodes node w = .ok (detach, attach) w₁)
    (hne : (detach.isEmpty && attach.isEmpty) = false)
    (h : reorganizeChain env o detach attach w₁ = .ok () w₂) :
    exists fork : BlockNode, w.chain.bestChain.tip.ancestors = detach ++ fork.ancestors ∧
      node.ancestors = attach.reverse ++ fork.ancestors ∧
      w₂.tipCalls = w.tipCalls ++ disconnectCalls (detach ++ [fork]) ++
        connectCalls (fork :: attach) ∧
      w₂.chain.ntfns = w.chain.ntfns ++
        reorganizationNotifications env w.chain.bestChain.tip fork node detach attach ∧
      w₂.chain.bestChain.tip = node :=
  reorganizeChain_ok env o hc hn hnodes hne h

/-- The genesis block and its two children, `sampleChild` the tip, all stored and valid. -/
def sampleSiblingsChain : BlockChain :=
  { BlockChain.ofGenesis sampleGenesis 0 0 with
    index := fun h => if h = sampleGenesis.hash then some (.genesis sampleGenesis)
      else if h = sampleChild.hash then some (.child sampleChild (.genesis sampleGenesis))
      else if h = sampleSibling.hash then some (.child sampleSibling (.genesis sampleGenesis))
      else none
    status := fun _ => ⟨true, true, false, false⟩
    bestChain := ⟨.child sampleChild (.genesis sampleGenesis)⟩ }

theorem consistent_sampleSiblingsChain : Consistent sampleSiblingsChain where
  closed h n hn := by
    simp only [sampleSiblingsChain] at hn
    split_ifs at hn <;> cases hn <;> decide
  root h n hn := by
    simp only [sampleSiblingsChain] at hn
    split_ifs at hn <;> cases hn <;> rfl
  tip := rfl
  cache _ _ _ h := nomatch h
  orphans _ _ _ h := nomatch h

theorem reorganizeChain_success_siblings :
    exists w₁ w₂, getReorganizeNodes (.child sampleSibling (.genesis sampleGenesis))
        (World.start sampleSiblingsChain) = .ok ([.child sampleChild (.genesis sampleGenesis)],
          [.child sampleSibling (.genesis sampleGenesis)]) w₁ ∧
      reorganizeChain sampleEnv Oracle.allOk [.child sampleChild (.genesis sampleGenesis)]
        [.child sampleSibling (.genesis sampleGenesis)] w₁ = .ok () w₂ ∧
      exists fork : BlockNode, sampleSiblingsChain.bestChain.tip.ancestors =
          [.child sampleChild (.genesis sampleGenesis)] ++ fork.ancestors ∧
        (BlockNode.child sampleSibling (.genesis sampleGenesis)).ancestors =
          [BlockNode.child sampleSibling (.genesis sampleGenesis)].reverse ++ fork.ancestors ∧
        w₂.tipCalls = [] ++ disconnectCalls ([.child sampleChild (.genesis sampleGenesis)] ++ [fork]) ++
          connectCalls (fork :: [.child sampleSibling (.genesis sampleGenesis)]) ∧
        w₂.chain.ntfns = [] ++ reorganizationNotifications sampleEnv sampleSiblingsChain.bestChain.tip
          fork (.child sampleSibling (.genesis sampleGenesis))
          [.child sampleChild (.genesis sampleGenesis)] [.child sampleSibling (.genesis sampleGenesis)] ∧
        w₂.chain.bestChain.tip = .child sampleSibling (.genesis sampleGenesis) := by
  have hnodes : getReorganizeNodes (.child sampleSibling (.genesis sampleGenesis))
      (World.start sampleSiblingsChain) = .ok ([.child sampleChild (.genesis sampleGenesis)],
        [.child sampleSibling (.genesis sampleGenesis)]) (World.start sampleSiblingsChain) := rfl
  have hdry : reorganizeDryRun sampleEnv Oracle.allOk [.child sampleChild (.genesis sampleGenesis)]
      [.child sampleSibling (.genesis sampleGenesis)] (World.start sampleSiblingsChain) =
        .ok ⟨.child sampleChild (.genesis sampleGenesis),
          ⟨some sampleGenesis, [sampleChild], [0], .genesis sampleGenesis, ⟨2, [.disconnect 2]⟩⟩,
          some sampleGenesis, ⟨[sampleSibling], .child sampleSibling (.genesis sampleGenesis),
            ⟨2, [.disconnect 2, .connect 4]⟩⟩⟩ ⟨sampleSiblingsChain, 7, []⟩ := rfl
  have h : returned (reorganizeChain sampleEnv Oracle.allOk [.child sampleChild (.genesis sampleGenesis)]
      [.child sampleSibling (.genesis sampleGenesis)] (World.start sampleSiblingsChain)) = some () := by
    unfold reorganizeChain
    simp only [List.isEmpty_cons, Bool.false_and, Bool.false_eq_true, if_false, pure_bind_apply]
    rw [bind_ok hdry]
    simp only [sendNotification, modifyChain_bind, reorganizeCommit]
    unfold deferring
    rw [bind_ok (eq_ok_of_returned (a := ⟨2, []⟩) ?hd), bind_ok (eq_ok_of_returned (a := ⟨2, []⟩) ?ha)]
    · rfl
    · simp only [attachCommit, detachCommit]
      decide
    · simp only [detachCommit]
      decide
  exact ⟨_, _, hnodes, eq_ok_of_returned h, reorganizeChain_success sampleEnv Oracle.allOk
    consistent_sampleSiblingsChain rfl hnodes rfl (eq_ok_of_returned h)⟩

end Reorganization

end DcrdChain
