import DcrdChain.RefineReorganize

/-!
# Operations are runs of moves

`connectBestChain` and `forceHeadReorganization` are runs of moves from every tree, and so
is each operation of a run: processing a block from the chain with its new node added, a
forced reorganization, and the direct calls of `connectBlock` and `disconnectBlock`.  In
the first two a block joins the best chain only once it is known valid: `connectExtend`
marks it valid before it connects it, and a reorganization connects only the blocks its
dry run validated.
-/

namespace DcrdChain

open BlockStatus

variable (env : Env) (o : Oracle) {s : Bool}

/-!
## connectBestChain
-/

theorem Spec.attemptFlush {P : BlockChain -> Prop} {α : Type} {a : α} {x : ChainM Unit}
    (hx : Spec (Moves env s) P x (fun _ _ => True) (fun _ _ => True)) :
    Spec (Moves env s) P
      (do
        let err ← DcrdChain.attempt x
        flushBlockIndexWarnOnly o
        match err with
        | .error e => MonadExcept.throw e
        | .ok () => Pure.pure a) (fun _ _ => True) (fun _ _ => True) := by
  refine Spec.bind (Spec.attempt hx) fun err => ?_
  refine Spec.bind (Spec.bookkeeping (S := fun _ => True) (Frame.flushBlockIndexWarnOnly o)
    fun _ _ _ _ => trivial) fun _ => ?_
  rcases err with e | u
  · exact Spec.throw fun _ _ => trivial
  · exact Spec.pure fun _ _ => trivial

section ConnectBestChain

variable {node p : BlockNode} {block parent : Block}

theorem Spec.of_marks {P : BlockChain -> Prop} {α : Type} {x : ChainM α}
    {Q : α -> BlockChain -> Prop} {E : ChainError -> BlockChain -> Prop}
    (hx : Spec (MarkMoves env s) P x Q E) : Spec (Moves env s) P x Q E :=
  Spec.weaken (fun _ _ h => h.1) hx

theorem Spec.connectExtend_connect (hp : node.parent = some p) (hparent : parent = p.block)
    (y : UtxoViewpoint × Nat) (fastAdd : Bool) :
    Spec (Moves env s)
      (fun b => b.index node.hash = some node ∧ (b.status node.hash).KnownValid)
      (if fastAdd = true then do
          let view ← fetchInputUtxos o y.1
          let y ← connectTransactions o view node.block
          let _ ← DcrdChain.connectBlock env o node node.block parent y.1 y.2
          Pure.pure PUnit.unit
        else do
          let y ← Pure.pure (y.1, y.2)
          let _ ← DcrdChain.connectBlock env o node node.block parent y.1 y.2
          Pure.pure PUnit.unit) (fun _ b => b.bestChain.tip = node) (fun _ _ => True) := by
  have hc : ∀ (view : UtxoViewpoint) (stxos : Nat), Spec (Moves env s)
      (fun b => b.index node.hash = some node ∧ (b.status node.hash).KnownValid)
      (DcrdChain.connectBlock env o node node.block parent view stxos >>= fun _ =>
        Pure.pure PUnit.unit)
      (fun _ b => b.bestChain.tip = node) (fun _ _ => True) := fun _ _ =>
    Spec.bind (Spec.and_ok (Spec.mono (Spec.connectBlock env o hp rfl hparent)
      (fun _ h => ⟨h.1, fun _ => h.2⟩) (fun _ _ h => h) fun _ _ h => h)
      fun _ _ _ _ h => connectBlock_tip env o h) fun _ => Spec.pure fun _ h => h.2
  refine Spec.ite (fun _ => ?_) fun _ => Spec.bind_of_eq (fun _ => rfl) (hc _ _)
  exact Spec.bind (Spec.of_reads (Reads.fetchInputUtxos o _)) fun _ =>
    Spec.bind (Spec.of_reads (Reads.connectTransactions o _ _)) fun _ => hc _ _

theorem Spec.connectExtend_tail {b0 : BlockChain} (ht : Tree b0)
    (hn : b0.index node.hash = some node) (hprev : node.block.header.prevBlock = b0.bestChain.tip.hash)
    (hinv : ¬ (b0.status node.hash).KnownInvalid) (hp : node.parent = some p)
    (hparent : parent = p.block) (y : UtxoViewpoint × Nat) (fastAdd : Bool) :
    Spec (Moves env s) (fun b => b = b0) (do
      let y ← Pure.pure y
      if (!decide (b0.status node.hash).KnownValid) = true then
        setStatusFlags node statusValid
        flushBlockIndexWarnOnly o
      let (view, stxos) ← if (fastAdd || decide (b0.status node.hash).KnownValid) = true then do
          let view ← fetchInputUtxos o y.1
          connectTransactions o view node.block
        else Pure.pure (y.1, y.2)
      let _ ← DcrdChain.connectBlock env o node node.block parent view stxos)
      (fun _ b => b.bestChain.tip = node) (fun _ _ => True) := by
  refine Spec.bind_of_eq (fun _ => rfl) (Spec.ite (fun hkv => ?_) fun hkv => ?_)
  · refine Spec.mono (P := fun b => Tree b ∧ b.index node.hash = some node ∧
      ¬ (b.status node.hash).KnownInvalid ∧ node.block.header.prevBlock = b.bestChain.tip.hash)
      ?_ (fun b hb => hb ▸ ⟨ht, hn, hinv, hprev⟩) (fun _ _ h => h) fun _ _ h => h
    refine Spec.bind (Spec.of_marks env (Spec.validate (fun _ h => ⟨h.1.setStatusFlags _ _, h.2.1,
      BlockChain.not_knownInvalid_setStatusFlags_valid h.2.2.1, h.2.2.2⟩) fun b hb =>
        ⟨hb.2.1, hb.2.2.1, fun q hq => .inr ?_⟩)) fun _ => ?_
    · rw [hp] at hq
      cases hq
      rw [hb.1.parent_eq_tip hb.2.1 hp hb.2.2.2]
      exact BlockNode.self_mem_ancestors _
    exact Spec.bind (Spec.bookkeeping (Frame.flushBlockIndexWarnOnly o)
      fun _ _ h hb => ⟨by rw [hb.index]; exact h.1.2.1, by rw [hb.status]; exact h.2⟩) fun _ =>
      Spec.connectExtend_connect env o hp hparent _ _
  · exact Spec.bind_of_eq (fun _ => rfl) (Spec.mono (Spec.connectExtend_connect env o hp hparent _ _)
      (fun b hb => hb ▸ ⟨hn, by simpa using hkv⟩) (fun _ _ h => h) fun _ _ h => h)

theorem Spec.connectExtend {fastAdd : Bool} (hp : node.parent = some p)
    (hblock : block = node.block) (hparent : parent = p.block) :
    Spec (Moves env s) (fun b => Tree b ∧ b.index node.hash = some node ∧
        block.header.prevBlock = b.bestChain.tip.hash ∧ ¬ (b.status node.hash).KnownInvalid)
      (connectExtend env o node block parent fastAdd) (fun _ b => b.bestChain.tip = node)
      (fun _ _ => True) := by
  subst hblock
  unfold DcrdChain.connectExtend
  refine Spec.getChain_bind fun b0 ⟨ht, hn, hprev, hinv⟩ => ?_
  refine Spec.ite (fun hcheck => Spec.bind (Spec.of_reads (Reads.checkConnectBlock o _ _))
    fun r => ?_) fun _ => Spec.connectExtend_tail env o ht hn hprev hinv hp hparent _ _
  rcases r with err | result
  · /- A rule violation marks the block failed. -/
    refine Spec.ite (fun _ => ?_) fun _ => Spec.bind (Spec.pure (Q := fun _ _ => True)
      fun _ _ => trivial) fun _ => Spec.bind (Spec.throw (Q := fun _ _ => False)
        fun _ _ => trivial) fun _ _ h => h.elim
    refine Spec.mono (P := fun b => b.index node.hash = some node ∧
      ¬ (b.status node.hash).KnownValid) ?_ (fun b hb => hb ▸ ⟨hn, by simp at hcheck; exact hcheck.2⟩)
      (fun _ _ h => h) fun _ _ h => h
    exact Spec.bind (Spec.of_marks env (Spec.invalidate (by simp) (fun _ h => ⟨h.1, by
      rw [BlockChain.status_setStatusFlags, if_pos rfl]; simpa using h.2⟩)
      fun b hb => ⟨hb.1, node, BlockNode.self_mem_ancestors _, .inl hb.2⟩)) fun _ =>
      Spec.bind (Spec.bookkeeping (S := fun _ => True) (Frame.flushBlockIndexWarnOnly o)
        fun _ _ _ _ => trivial) fun _ => Spec.bind (Spec.throw (Q := fun _ _ => False)
          fun _ _ => trivial) fun _ _ h => h.elim
  · exact Spec.connectExtend_tail env o ht hn hprev hinv hp hparent _ _

theorem Spec.connectBestChain {flags : BehaviorFlags} (hp : node.parent = some p)
    (hblock : block = node.block) (hparent : parent = p.block) :
    Spec (Moves env s)
      (fun b => Tree b ∧ b.index node.hash = some node ∧ ¬ (b.status node.hash).KnownInvalid)
      (connectBestChain env o node block parent flags) (fun _ _ => True) (fun _ _ => True) := by
  subst hblock
  unfold DcrdChain.connectBestChain
  refine Spec.bind_of_eq (a := p) (fun _ => by rw [hp]; rfl) ?_
  refine Spec.guard (fun _ _ => trivial) fun _ => Spec.getChain_bind fun b0 ⟨ht, hn, hinv⟩ => ?_
  refine Spec.ite (fun hext => ?_) fun _ => Spec.ite (fun _ => ?_) fun _ => ?_
  · exact Spec.bind (Spec.mono (Spec.connectExtend env o hp rfl hparent)
      (fun b hb => hb ▸ ⟨ht, hn, hext, hinv⟩) (fun _ _ h => h) fun _ _ h => h) fun _ =>
      Spec.pure fun _ _ => trivial
  · exact Spec.bind (Spec.of_reads (Reads.deref _)) fun _ => Spec.pure fun _ _ => trivial
  · /- The reorganization to a heavier branch. -/
    refine Spec.bind_of_eq (fun _ => rfl) ?_
    refine Spec.bind (Spec.mono (Spec.frame (Spec.of_marks env (Spec.getReorganizeNodes node))
      (F := fun b => Tree b ∧ b.index node.hash = some node)
      fun _ _ h hb => ⟨hb.1.moves h, h.indexed hb.2⟩) (fun b hb => by subst hb; exact ⟨⟨ht, hn⟩, ht, hn⟩)
      (fun _ _ h => h) fun _ _ _ => trivial) fun r => ?_
    obtain ⟨detach, attach⟩ := r
    exact Spec.attemptFlush env o (Spec.of_forall fun b1 hb1 =>
      Spec.reorganizeChain env o hb1.2.1 hb1.2.2 hb1.1)

end ConnectBestChain

/-!
## forceHeadReorganization
-/

section ForceHead

variable {formerBestNode newBestNode : BlockNode}

theorem BlockChain.not_knownValid_setStatusFlags_failed {b : BlockChain} {n : BlockNode} {k : Hash}
    (h : ¬ (b.status k).KnownValid) :
    ¬ ((b.setStatusFlags n statusValidateFailed).status k).KnownValid := by
  rw [BlockChain.status_setStatusFlags]
  split <;> simp [h]

theorem Spec.validateForcedTarget {b0 : BlockChain} (htip : formerBestNode = b0.bestChain.tip)
    (hn : b0.index newBestNode.hash = some newBestNode)
    (hpar : newBestNode.parent = formerBestNode.parent)
    (hinv : ¬ (b0.status newBestNode.hash).KnownInvalid)
    (hv : ¬ (b0.status newBestNode.hash).KnownValid) :
    Spec (MarkMoves env s) (fun b => b = b0)
      (validateForcedTarget env o formerBestNode newBestNode)
      (fun _ b => (b.status newBestNode.hash).KnownValid) (fun _ _ => True) := by
  unfold DcrdChain.validateForcedTarget
  refine Spec.bind (Spec.of_reads (Reads.fetchBlockByNode o _)) fun _ =>
    Spec.bind (Spec.of_reads (Reads.deref _)) fun _ =>
    Spec.bind (Spec.of_reads (Reads.fetchBlockByNode o _)) fun _ =>
    Spec.bind (Spec.of_reads (Reads.fetchMainChainBlockByNode o _)) fun _ =>
    Spec.bind (Spec.of_reads (Reads.askStore o)) fun _ =>
    Spec.bind (Spec.of_reads (Reads.countSpentOutputs env _ _)) fun _ =>
    Spec.guard (fun _ _ => trivial) fun _ =>
    Spec.bind (Spec.of_reads (Reads.disconnectTransactions o _ _)) fun _ =>
    Spec.bind (Spec.of_reads (Reads.checkBlock o)) fun _ =>
    Spec.bind (Spec.of_reads (Reads.checkBlock o)) fun _ =>
    Spec.bind (Spec.of_reads (Reads.checkConnectBlock o _ _)) fun r => ?_
  rcases r with err | _ <;> dsimp only
  · refine Spec.ite (fun _ => ?_) fun _ => Spec.bind (Spec.pure (Q := fun _ _ => True)
      fun _ _ => trivial) fun _ => Spec.throw fun _ _ => trivial
    refine Spec.mono (P := fun b => b.index newBestNode.hash = some newBestNode ∧
      ¬ (b.status newBestNode.hash).KnownValid) ?_ (fun b hb => hb ▸ ⟨hn, hv⟩) (fun _ _ h => h)
      fun _ _ h => h
    exact Spec.bind (Spec.invalidate (by simp)
      (fun _ h => ⟨h.1, BlockChain.not_knownValid_setStatusFlags_failed h.2⟩)
      fun b hb => ⟨hb.1, newBestNode, BlockNode.self_mem_ancestors _, .inl hb.2⟩) fun _ =>
      Spec.throw fun _ _ => trivial
  · exact Spec.mono (Spec.validate (P := fun b => b.index newBestNode.hash = some newBestNode ∧
      ¬ (b.status newBestNode.hash).KnownInvalid ∧ b.bestChain = b0.bestChain)
      (fun _ h => ⟨h.1, BlockChain.not_knownInvalid_setStatusFlags_valid h.2.1, h.2.2⟩)
      fun b hb => ⟨hb.1, hb.2.1, fun p hp => .inr (by
        rw [hb.2.2, ← htip]; exact BlockNode.parent_mem_ancestors (hpar ▸ hp))⟩)
      (fun b hb => by subst hb; exact ⟨hn, hinv, rfl⟩) (fun _ _ h => h.2) fun _ _ h => h

theorem Spec.forceHeadReorganizationNodes {formerBest newBest : Hash} :
    Spec (MarkMoves env s) Tree (forceHeadReorganizationNodes env o formerBest newBest)
      (fun r b => Tree b ∧ ∃ node, b.index node.hash = some node ∧ ReorganizeNodes node r b)
      (fun _ _ => True) := by
  unfold DcrdChain.forceHeadReorganizationNodes
  refine Spec.guard_throw (fun _ _ => trivial) fun _ => Spec.getChain_bind fun b0 ht => ?_
  refine Spec.guard_throw (fun _ _ => trivial) fun _ => ?_
  refine Spec.bind_with (fun n b => b = b0 ∧ b0.index n.hash = some n ∧
    n.parent = b0.bestChain.tip.parent) ?_ fun n => ?_
  · split
    · rename_i n hn
      exact Spec.ite (fun hpar => Spec.pure fun b hb => ⟨hb, by rw [ht.keys _ _ hn]; exact hn, hpar⟩)
        fun _ => Spec.throw fun _ _ => trivial
    · exact Spec.throw fun _ _ => trivial
  refine Spec.pure_pre fun ⟨hn, hpar⟩ => ?_
  have hget : Spec (MarkMoves env s) (fun b => Tree b ∧ b.index n.hash = some n)
      (DcrdChain.getReorganizeNodes n)
      (fun r b => Tree b ∧ ∃ node, b.index node.hash = some node ∧ ReorganizeNodes node r b)
      (fun _ _ => True) :=
    Spec.mono (Spec.frame (Spec.getReorganizeNodes n) (F := fun b => Tree b ∧ b.index n.hash = some n)
      fun _ _ h hb => ⟨h.tree hb.1, h.indexed hb.2⟩) (fun _ hb => ⟨hb, hb⟩)
      (fun _ _ h => ⟨h.2.1, n, h.2.2, h.1⟩) fun _ _ _ => trivial
  refine Spec.guard_throw (fun _ _ => trivial) fun hinv => Spec.mono (P := fun b => b = b0 ∧
    (Tree b ∧ b.index n.hash = some n)) (Spec.ite (fun hv => ?_) fun _ => Spec.bind_of_eq
    (fun _ => rfl) (Spec.mono hget (fun _ hb => hb.2) (fun _ _ h => h) fun _ _ h => h))
    (fun b hb => by subst hb; exact ⟨rfl, ht, hn⟩) (fun _ _ h => h) fun _ _ h => h
  exact Spec.bind (Spec.mono (Spec.frame (Spec.validateForcedTarget env o rfl hn hpar hinv hv)
    fun _ _ h hb => ⟨h.tree hb.1, h.indexed hb.2⟩) (fun _ h => h) (fun _ _ h => h)
    fun _ _ _ => trivial) fun _ => Spec.mono hget (fun _ hb => hb.2) (fun _ _ h => h) fun _ _ h => h

theorem Spec.forceHeadReorganization {formerBest newBest : Hash} :
    Spec (Moves env s) Tree (forceHeadReorganization env o formerBest newBest)
      (fun _ _ => True) (fun _ _ => True) := by
  unfold DcrdChain.forceHeadReorganization
  refine Spec.bind (Spec.of_marks env (Spec.forceHeadReorganizationNodes env o)) fun r => ?_
  obtain ⟨detach, attach⟩ := r
  exact Spec.attemptFlush env o (Spec.of_forall fun _ ⟨ht, _, hn, hr⟩ =>
    Spec.reorganizeChain env o ht hn hr)

end ForceHead

/-!
## Operations

A new block's node joins the index as a fresh leaf under an indexed parent that is not
known invalid, which keeps the index a tree.  Every operation is then a run of moves from
the chain it starts on, whatever its oracle answers and however it ends; the runs of
`processBlock` and `forceHeadReorganization` are strict, since they connect only blocks
they know valid.
-/

section Operations

variable {b b' : BlockChain} {block : Block} {p : BlockNode}

theorem BlockChain.index_addNode (n : BlockNode) (k : Hash) :
    (b.addNode n).index k = if k = n.hash then some n else b.index k := by
  simp only [BlockChain.addNode, Function.update_apply]

theorem BlockChain.status_addNode (n : BlockNode) (k : Hash) :
    (b.addNode n).status k = if k = n.hash then statusDataStored else b.status k := by
  simp only [BlockChain.addNode, Function.update_apply]

theorem BlockChain.index_addNode_self (n : BlockNode) : (b.addNode n).index n.hash = some n := by
  rw [BlockChain.index_addNode, if_pos rfl]

theorem BlockChain.status_addNode_self (n : BlockNode) :
    (b.addNode n).status n.hash = statusDataStored := by
  rw [BlockChain.status_addNode, if_pos rfl]

theorem BlockChain.not_knownInvalid_addNode_self (n : BlockNode) :
    ¬ ((b.addNode n).status n.hash).KnownInvalid := by
  rw [BlockChain.status_addNode_self]
  decide

theorem BlockChain.index_addNode_of_index {n a : BlockNode} {k : Hash}
    (hfresh : b.index n.hash = none) (ha : b.index k = some a) :
    (b.addNode n).index k = some a := by
  have hk : k ≠ n.hash := by rintro rfl; rw [hfresh] at ha; cases ha
  rw [BlockChain.index_addNode, if_neg hk, ha]

theorem BlockChain.status_addNode_of_index {n a : BlockNode} {k : Hash}
    (hfresh : b.index n.hash = none) (ha : b.index k = some a) :
    (b.addNode n).status k = b.status k := by
  have hk : k ≠ n.hash := by rintro rfl; rw [hfresh] at ha; cases ha
  rw [BlockChain.status_addNode, if_neg hk]

theorem BlockChain.index_addNode_cases {n a : BlockNode} {k : Hash}
    (h : (b.addNode n).index k = some a) : (k = n.hash ∧ a = n) ∨ b.index k = some a := by
  rw [BlockChain.index_addNode] at h
  split at h
  · exact .inl ⟨‹_›, (Option.some_injective _ h).symm⟩
  · exact .inr h

/-- How the node of a new block joins the index before `connectBestChain`, if it does. -/
inductive Accept (b : BlockChain) : BlockChain -> Prop
  | keep : Accept b b
  | node {block : Block} {p : BlockNode} : b.index block.header.prevBlock = some p ->
      ¬ (b.status p.hash).KnownInvalid -> b.index block.hash = none ->
      block.header.height = p.height + 1 -> Accept b (b.addNode (.child block p))

theorem Tree.addNode (ht : Tree b) (hp : b.index block.header.prevBlock = some p)
    (hfresh : b.index block.hash = none) : Tree (b.addNode (.child block p)) := by
  obtain ⟨⟨closed, root, tip, cache, _⟩, keys, linked, cached, noOrphans⟩ := ht
  have hN := BlockChain.index_addNode_self (b := b) (.child block p)
  have hold : ∀ {k a}, b.index k = some a -> (b.addNode (.child block p)).index k = some a :=
    BlockChain.index_addNode_of_index hfresh
  refine ⟨⟨fun h n hn a ha => ?_, fun h n hn => ?_, hold tip, fun n blk hn hl => ?_,
    fun n ob _ hl => ?_⟩, fun h n hn => ?_, fun h n q hn hq => ?_, fun h blk hl => ?_, noOrphans⟩
  · rcases BlockChain.index_addNode_cases hn with ⟨-, rfl⟩ | hn
    · rcases List.mem_cons.mp ha with rfl | ha
      · exact hN
      · exact hold (closed _ _ hp a ha)
    · exact hold (closed _ _ hn a ha)
  · rcases BlockChain.index_addNode_cases hn with ⟨-, rfl⟩ | hn
    · exact (BlockNode.root_child block p).trans (root _ _ hp)
    · exact root _ _ hn
  · rcases BlockChain.index_addNode_cases hn with ⟨hh, -⟩ | hn
    · exact absurd (hh ▸ hfresh) (cached _ _ hl)
    · exact cache n blk hn hl
  · simp [BlockChain.addNode, noOrphans] at hl
  · rcases BlockChain.index_addNode_cases hn with ⟨rfl, rfl⟩ | hn
    · rfl
    · exact keys _ _ hn
  · rcases BlockChain.index_addNode_cases hn with ⟨-, rfl⟩ | hn
    · cases hq
      exact (keys _ _ hp).symm
    · exact linked _ _ _ hn hq
  · obtain ⟨a, ha⟩ := Option.ne_none_iff_exists'.mp (cached h blk hl)
    rw [hold ha]
    exact Option.some_ne_none a

theorem Tree.accept (ht : Tree b) (h : Accept b b') : Tree b' := by
  cases h with
  | keep => exact ht
  | node hp _ hfresh _ => exact ht.addNode hp hfresh

/-- The operations that connect only blocks they know valid. -/
def Op.Strict : Op -> Bool
  | .processBlock .. | .forceHeadReorganization .. => true
  | .connectBlock .. | .disconnectBlock .. => false

theorem Step.moves {o : Oracle} {op : Op} (ht : Tree b) (h : Step env o op b b')
    (hs : s = true -> op.Strict = true) : exists b1, Accept b b1 ∧ Moves env s b1 b' := by
  obtain ⟨r, hr, -, rfl⟩ := h
  cases op with
  | processBlock block flags =>
      obtain ⟨p, hp, hinv, hfresh, hheight, rfl⟩ := Op.run_processBlock hr
      exact ⟨_, .node hp hinv hfresh hheight, Spec.final (Spec.bind
        (Spec.connectBestChain env o rfl rfl rfl) fun _ =>
          Spec.pure (Q := fun _ _ => True) fun _ _ => trivial)
        ⟨ht.addNode hp hfresh, BlockChain.index_addNode_self _,
          BlockChain.not_knownInvalid_addNode_self _⟩⟩
  | forceHeadReorganization f n =>
      cases hr
      exact ⟨b, .keep, Spec.final (Spec.forceHeadReorganization env o) ht⟩
  | connectBlock node view stxos =>
      simp only [Op.run] at hr
      split at hr
      · rename_i p hp
        split at hr
        · cases hr
          exact ⟨b, .keep, Spec.final (Spec.bind (Spec.connectBlock env o hp rfl rfl) fun _ =>
            Spec.pure (Q := fun _ _ => True) fun _ _ => trivial) ⟨‹_›, fun h1 => nomatch hs h1⟩⟩
        · cases hr
      · cases hr
  | disconnectBlock view =>
      simp only [Op.run] at hr
      split at hr
      · rename_i p hp
        cases hr
        exact ⟨b, .keep, Spec.final (Spec.bind (Spec.disconnectBlock env o hp rfl rfl) fun _ =>
          Spec.pure (Q := fun _ _ => True) fun _ _ => trivial) ht.consistent.tip⟩
      · cases hr

section Invariant

variable {I : BlockChain -> Prop} (haccept : ∀ b b', Tree b -> I b -> Accept b b' -> I b')
  (hmove : ∀ b b', Tree b -> I b -> Move env s b b' -> I b')
include haccept hmove

theorem Accept.invariant {b1 : BlockChain} (ht : Tree b) (hI : I b) (hacc : Accept b b1)
    (hm : Moves env s b1 b') : Tree b' ∧ I b' :=
  Moves.induction (I := fun c => Tree c ∧ I c)
    (fun c c' hm hc => ⟨hc.1.move hm, hmove c c' hc.1 hc.2 hm⟩) hm
    ⟨ht.accept hacc, haccept _ _ ht hI hacc⟩

theorem Reachable.invariant {allowed : Oracle -> Op -> Prop} {b0 : BlockChain}
    (hs : ∀ o op, allowed o op -> s = true -> op.Strict = true) (ht : Tree b0) (hI : I b0)
    (h : Reachable env allowed b0 b) : Tree b ∧ I b := by
  induction h with
  | init => exact ⟨ht, hI⟩
  | step _ hallowed hstep ih =>
      obtain ⟨b1, hacc, hm⟩ := Step.moves env ih.1 hstep (hs _ _ hallowed)
      exact Accept.invariant env haccept hmove ih.1 ih.2 hacc hm

end Invariant

theorem BlockChain.index_ofGenesis {g : Block} {totalTxns totalSubsidy : BitVec 64} {h : Hash}
    {n : BlockNode} (hn : (BlockChain.ofGenesis g totalTxns totalSubsidy).index h = some n) :
    h = g.hash ∧ n = .genesis g := by
  simp only [BlockChain.ofGenesis] at hn
  split at hn
  · exact ⟨‹_›, (Option.some_injective _ hn).symm⟩
  · cases hn

theorem Tree.ofGenesis (g : Block) (totalTxns totalSubsidy : BitVec 64) :
    Tree (BlockChain.ofGenesis g totalTxns totalSubsidy) := by
  have hidx := @BlockChain.index_ofGenesis g totalTxns totalSubsidy
  refine ⟨⟨fun h n hn a ha => ?_, fun h n hn => ?_, if_pos rfl, fun n blk _ hl => ?_,
    fun n ob _ hl => ?_⟩, fun h n hn => ?_, fun h n q hn hq => ?_, fun h blk hl => ?_, rfl⟩
  · obtain ⟨-, rfl⟩ := hidx hn
    rw [List.mem_singleton.mp ha]
    exact if_pos rfl
  · obtain ⟨-, rfl⟩ := hidx hn
    rfl
  · simp [BlockChain.ofGenesis] at hl
  · simp [BlockChain.ofGenesis] at hl
  · obtain ⟨rfl, rfl⟩ := hidx hn
    rfl
  · obtain ⟨-, rfl⟩ := hidx hn
    cases hq
  · simp [BlockChain.ofGenesis] at hl

end Operations

end DcrdChain
