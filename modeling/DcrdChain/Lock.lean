import DcrdChain.Run
import DcrdChain.DryRun

/-!
# The chain lock

Writers hold the chain lock, but `connectBlock`, `disconnectBlock` and `reorganizeChain`
release it to send their notifications and take it again afterwards.  Another writer can
run in such a window.  The window after the dry run of `reorganizeChain` is modelled by
an argument `other`, the effect of the writers that run in it: with `other = id` the
operation is the one of the source.  A forced reorganization whose window lets another
block extend the tip then disconnects a block that is no longer the tip, and panics.
-/

namespace DcrdChain

variable (env : Env) (o : Oracle)

/-- `reorganizeChain` with the writers `other` run in the window after its dry run. -/
def reorganizeChainWithWindow (other : BlockChain -> BlockChain)
    (detachNodes attachNodes : List BlockNode) : ChainM Unit := do
  if detachNodes.isEmpty && attachNodes.isEmpty then
    return
  let plan ← reorganizeDryRun env o detachNodes attachNodes
  modifyChain other
  sendNotification (.reorganization plan.oldBest.hash plan.oldBest.height
    plan.attached.newBest.hash plan.attached.newBest.height)
  sendNotification .chainReorgStarted
  reorganizeCommit env o detachNodes attachNodes plan

theorem reorganizeChainWithWindow_id :
    reorganizeChainWithWindow env o id = reorganizeChain env o :=
  rfl

/-- `forceHeadReorganization` with `other` writing in the window after the dry run. -/
def forceHeadReorganizationWithWindow (other : BlockChain -> BlockChain)
    (formerBest newBest : Hash) : ChainM Unit := do
  let (attach, detach) ← forceHeadReorganizationNodes env o formerBest newBest
  let err ← attempt (reorganizeChainWithWindow env o other attach detach)
  flushBlockIndexWarnOnly o
  match err with
  | .error e => throw e
  | .ok () => pure ()

theorem forceHeadReorganizationWithWindow_id :
    forceHeadReorganizationWithWindow env o id = forceHeadReorganization env o :=
  rfl

/-!
## The first step of the commit phase
-/

section Commit

variable {w : World}

theorem sliceIndex_apply {α : Type} {s : List α} {i : Nat} {x : α} (h : s[i]? = some x) :
    sliceIndex s i w = .ok x w := by
  unfold sliceIndex
  rw [h]
  rfl

theorem parentAt_apply {st : DetachState} {i : Nat} {par : Block} (h : st.parentAt i = some par) :
    (if i < st.detachBlocks.length - 1 then sliceIndex st.detachBlocks (i + 1)
      else deref st.nextBlockToDetach) w = .ok par w := by
  unfold DetachState.parentAt at h
  split
  · rw [if_pos ‹_›] at h
    exact sliceIndex_apply h
  · rw [if_neg ‹_›] at h
    rw [h]
    rfl

theorem askStore_apply {k : Nat} (h : o.store w.calls = some k) :
    askStore o w = .ok k { w with calls := w.calls + 1 } := by
  unfold askStore
  rw [h]

theorem fetchInputUtxos_bind {β : Type} {view : UtxoViewpoint} {f : UtxoViewpoint -> ChainM β}
    (h : (o.store w.calls).isSome) :
    (fetchInputUtxos o view >>= f) w = f view { w with calls := w.calls + 1 } := by
  obtain ⟨k, hk⟩ := Option.isSome_iff_exists.mp h
  rw [fetchInputUtxos, bind_assoc, bind_ok (askStore_apply o hk)]
  rfl

theorem disconnectTransactions_bind {β : Type} {view : UtxoViewpoint} {block : Block}
    {f : UtxoViewpoint -> ChainM β} (h : (o.store w.calls).isSome) :
    (disconnectTransactions o view block >>= f) w =
      f { view with ops := view.ops ++ [.disconnect block.hash] } { w with calls := w.calls + 1 } := by
  obtain ⟨k, hk⟩ := Option.isSome_iff_exists.mp h
  rw [disconnectTransactions, bind_assoc, bind_ok (askStore_apply o hk)]
  rfl

theorem disconnectBlock_bind_not_tip {β : Type} {node : BlockNode} {block parent : Block}
    {view : UtxoViewpoint} {f : UtxoViewpoint -> ChainM β}
    (h : node.hash ≠ w.chain.bestChain.tip.hash) :
    (disconnectBlock env o node block parent view >>= f) w = .error (.panic .disconnectNotTip)
      { w with tipCalls := w.tipCalls ++ [.disconnectBlock node block parent] } := by
  unfold disconnectBlock disconnectBlockCommit
  simp [recordTipCall_bind, h]

theorem detachCommit_panics {st : DetachState} {i : Nat} {n : BlockNode} {rest : List BlockNode}
    {view : UtxoViewpoint} (hplan : DetachPlanned st i (n :: rest))
    (hstore : ∀ k, (o.store k).isSome) (htip : n.hash ≠ w.chain.bestChain.tip.hash) :
    panicSite (detachCommit env o st.detachBlocks st.detachSpentTxOuts st.nextBlockToDetach i
      (n :: rest) view w) = some .disconnectNotTip := by
  obtain ⟨⟨blk, hblk, -⟩, ⟨np, par, hp, hpar, hph⟩, ⟨s, hs⟩, -⟩ := hplan
  rw [detachCommit, bind_ok (sliceIndex_apply hblk), bind_ok (parentAt_apply hpar)]
  simp only [hp, deref, pure_bind_apply, hph, ne_eq, not_true_eq_false, if_false]
  rw [fetchInputUtxos_bind o (hstore _), bind_ok (sliceIndex_apply hs),
    disconnectTransactions_bind o (hstore _)]
  simp only [disconnectBlock_bind_not_tip env o, htip, ne_eq, not_false_eq_true]
  rfl

theorem panicSite_bind {α β : Type} {x : ChainM α} {f : α -> ChainM β} {s : PanicSite}
    (h : panicSite (x w) = some s) : panicSite ((x >>= f) w) = some s := by
  cases hx : x w with
  | ok a w' => rw [hx] at h; cases h
  | error e w' => rw [bind_error hx]; rw [hx] at h; cases e <;> exact h

theorem panicSite_deferring {α : Type} {x : ChainM α} {n : Notification} {s : PanicSite}
    (h : panicSite (x w) = some s) : panicSite (deferring x (sendNotification n) w) = some s := by
  unfold deferring
  cases hx : x w with
  | ok a w' => rw [hx] at h; cases h
  | error e w' => rw [hx] at h; cases e <;> exact h

theorem reorganizeChainWithWindow_panics {other : BlockChain -> BlockChain} {d : BlockNode}
    {ds attachNodes : List BlockNode} {plan : ReorgPlan} {w₁ : World}
    (hc : CacheKeys w.chain) (hstore : ∀ k, (o.store k).isSome)
    (hdry : reorganizeDryRun env o (d :: ds) attachNodes w = .ok plan w₁)
    (hmoved : d.hash ≠ (other w₁.chain).bestChain.tip.hash) :
    panicSite (reorganizeChainWithWindow env o other (d :: ds) attachNodes w) =
      some .disconnectNotTip := by
  obtain ⟨-, -, hplan, -⟩ := reorganizeDryRun_ok env o hc hdry
  unfold reorganizeChainWithWindow
  simp only [List.isEmpty_cons, Bool.false_and, Bool.false_eq_true, if_false, pure_bind_apply]
  rw [bind_ok hdry]
  simp only [modifyChain_bind, sendNotification, reorganizeCommit]
  exact panicSite_deferring (panicSite_bind (detachCommit_panics env o hplan hstore hmoved))

theorem panicSite_attempt {α : Type} {x : ChainM α} {s : PanicSite}
    (h : panicSite (x w) = some s) : panicSite (attempt x w) = some s := by
  unfold attempt
  cases hx : x w with
  | ok a w' => rw [hx] at h; cases h
  | error e w' => rw [hx] at h; cases e <;> exact h

theorem forceHeadReorganizationWithWindow_panics {other : BlockChain -> BlockChain}
    {formerBest newBest : Hash} {d : BlockNode} {ds attachNodes : List BlockNode}
    {plan : ReorgPlan} {w₁ w₂ : World} (hc : CacheKeys w.chain) (hstore : ∀ k, (o.store k).isSome)
    (hnodes : forceHeadReorganizationNodes env o formerBest newBest w = .ok (d :: ds, attachNodes) w₁)
    (hdry : reorganizeDryRun env o (d :: ds) attachNodes w₁ = .ok plan w₂)
    (hmoved : d.hash ≠ (other w₂.chain).bestChain.tip.hash) :
    panicSite (forceHeadReorganizationWithWindow env o other formerBest newBest w) =
      some .disconnectNotTip := by
  have hc₁ : CacheKeys w₁.chain := by
    rw [((Frame.forceHeadReorganizationNodes env o _ _).ok hnodes).1.eq]
    exact hc
  unfold forceHeadReorganizationWithWindow
  rw [bind_ok hnodes]
  exact panicSite_bind (panicSite_attempt
    (reorganizeChainWithWindow_panics env o hc₁ hstore hdry hmoved))

end Commit

theorem forced_reorganization_interleaved_panics :
    exists b0, Reachable sampleEnv (fun _ _ => True) (BlockChain.ofGenesis sampleGenesis 0 0) b0 ∧
      b0.bestChain.tip.hash = sampleChild.hash ∧
      panicSite (forceHeadReorganizationWithWindow sampleEnv Oracle.allOk
        (Op.apply sampleEnv Oracle.allOk (.processBlock sampleGrandchild ⟨false⟩))
        sampleChild.hash sampleSibling.hash (World.start b0)) = some .disconnectNotTip := by
  refine ⟨sampleForkChain, reachable_sampleForkChain, by decide, ?_⟩
  have hnodes := eq_ok_of_returned (by decide : returned (forceHeadReorganizationNodes sampleEnv
    Oracle.allOk sampleChild.hash sampleSibling.hash (World.start sampleForkChain)) =
      some ([.child sampleChild (.genesis sampleGenesis)], [.child sampleSibling (.genesis sampleGenesis)]))
  obtain ⟨plan, hplan⟩ := Option.isSome_iff_exists.mp (by decide : (returned (reorganizeDryRun
    sampleEnv Oracle.allOk [.child sampleChild (.genesis sampleGenesis)]
    [.child sampleSibling (.genesis sampleGenesis)] (finalWorld (forceHeadReorganizationNodes
      sampleEnv Oracle.allOk sampleChild.hash sampleSibling.hash (World.start sampleForkChain))))).isSome)
  exact forceHeadReorganizationWithWindow_panics sampleEnv Oracle.allOk (by decide) (fun _ => rfl)
    hnodes (eq_ok_of_returned hplan) (by decide)

end DcrdChain
