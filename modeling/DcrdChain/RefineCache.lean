import DcrdChain.BlockCache

/-!
# Operations that return are runs of the cache

Every operation that returns nil is a run of `CacheStep`s: its `connectBlock` and
`disconnectBlock` calls return, each made on an indexed node with its own block and its
parent's, and everything else it does adds the new block's node to the index, marks
statuses, keeps books or sends notifications.  So the cache stays in its window below the
tip along every run of operations that return, from a new chain.

A `connectBlock` that fails after it moved the tip leaves the cache out of the window, so
what is said here is about the outcomes that return only.  `Returns` is the triple for
that: it says nothing of an outcome with an error, and its rules need nothing of the
branches that throw.
-/

namespace DcrdChain

open BlockStatus

/-- From every chain satisfying `P`, a returning `x` ends `R`-related, satisfying `Q`. -/
def Returns (R : BlockChain -> BlockChain -> Prop) (P : BlockChain -> Prop) {α : Type}
    (x : ChainM α) (Q : α -> BlockChain -> Prop) : Prop :=
  ∀ w a w', P w.chain -> x w = .ok a w' -> R w.chain w'.chain ∧ Q a w'.chain

section Rules

variable {R : BlockChain -> BlockChain -> Prop} {α β : Type} {P : BlockChain -> Prop}
  {Q : α -> BlockChain -> Prop}

theorem Returns.of_spec {R' : BlockChain -> BlockChain -> Prop} {E : ChainError -> BlockChain -> Prop}
    {x : ChainM α} (hx : Spec R' P x Q E) (hR : ∀ b b', R' b b' -> R b b') : Returns R P x Q :=
  fun _ _ _ hP h => (hx.ok hP h).imp_left (hR _ _)

theorem Returns.of_frame {R' : BlockChain -> BlockChain -> Prop} {x : ChainM α}
    (hx : Frame R' x) (hR : ∀ b b', R' b b' -> R b b') (hQ : ∀ a b b', P b -> R' b b' -> Q a b') :
    Returns R P x Q := fun w a w' hP h => by
  have h0 := (hx w).1
  rw [h] at h0
  exact ⟨hR _ _ h0, hQ a _ _ hP h0⟩

theorem Returns.pure [IsRefl BlockChain R] {a : α} (h : ∀ b, P b -> Q a b) :
    Returns R P (Pure.pure a) Q := fun _ _ _ hP h' => by
  cases h'
  exact ⟨refl_of R _, h _ hP⟩

theorem Returns.throw_bind {e : ChainError} {f : α -> ChainM β} {Q : β -> BlockChain -> Prop} :
    Returns R P (MonadExcept.throw e >>= f) Q := fun _ _ _ _ h => by cases h

theorem Returns.bind [IsTrans BlockChain R] {x : ChainM α} {f : α -> ChainM β}
    {M : α -> BlockChain -> Prop} {Q : β -> BlockChain -> Prop} (hx : Returns R P x M)
    (hf : ∀ a, Returns R (M a) (f a) Q) : Returns R P (x >>= f) Q := fun w b w' hP h => by
  obtain ⟨a, w₁, h₁, h₂⟩ := bind_eq_ok.mp h
  obtain ⟨hR₁, hM⟩ := hx w a w₁ hP h₁
  exact (hf a w₁ b w' hM h₂).imp_left (trans_of R hR₁)

theorem Returns.ite {c : Prop} [Decidable c] {x y : ChainM α} (hx : c -> Returns R P x Q)
    (hy : ¬ c -> Returns R P y Q) : Returns R P (if c then x else y) Q := by
  split
  · exact hx ‹_›
  · exact hy ‹_›

theorem Returns.getChain_bind {f : BlockChain -> ChainM α}
    (h : ∀ b, P b -> Returns R (fun c => c = b) (f b) Q) : Returns R P (getChain >>= f) Q :=
  fun w _ _ hP => h w.chain hP w _ _ rfl

theorem Returns.bind_of_eq {x : ChainM α} {f : α -> ChainM β} {Q : β -> BlockChain -> Prop}
    {a : α} (hx : ∀ w, x w = .ok a w) (hf : Returns R P (f a) Q) : Returns R P (x >>= f) Q :=
  fun w _ _ hP h => by
    rw [bind_ok (hx w)] at h
    exact hf w _ _ hP h

theorem Returns.guard {c : Prop} [Decidable c] {s : PanicSite} {k : PUnit -> ChainM α}
    (hk : ¬ c -> Returns R P (k PUnit.unit) Q) :
    Returns R P (if c then DcrdChain.panicf s >>= k else Pure.pure PUnit.unit >>= k) Q :=
  Returns.ite (fun _ _ _ _ _ h => by cases h) fun hc => Returns.bind_of_eq (fun _ => rfl) (hk hc)

theorem Returns.mono {P' : BlockChain -> Prop} {Q' : α -> BlockChain -> Prop} {x : ChainM α}
    (hx : Returns R P x Q) (hP : ∀ b, P' b -> P b) (hQ : ∀ a b, Q a b -> Q' a b) :
    Returns R P' x Q' := fun _ _ _ hP' h => (hx _ _ _ (hP _ hP') h).imp_right (hQ _ _)

theorem Returns.of_forall {x : ChainM α}
    (h : ∀ b0, P b0 -> Returns R (fun b => b = b0) x Q) : Returns R P x Q :=
  fun w _ _ hP => h w.chain hP w _ _ rfl

theorem Returns.pure_pre {G : Prop} {x : ChainM α} (hx : G -> Returns R P x Q) :
    Returns R (fun b => P b ∧ G) x Q := fun w _ _ hP => hx hP.2 w _ _ hP.1

theorem Returns.frame {F : BlockChain -> Prop} {x : ChainM α} (hx : Returns R P x Q)
    (hF : ∀ b b', R b b' -> F b -> F b') :
    Returns R (fun b => P b ∧ F b) x (fun a b => Q a b ∧ F b) := fun _ _ _ hP h =>
  have h0 := hx _ _ _ hP.1 h
  ⟨h0.1, h0.2, hF _ _ h0.1 hP.2⟩

end Rules

/-!
## Runs of the cache that keep the index
-/

variable (env : Env) (o : Oracle)

/-- A run of cache steps that keeps the index, as after a new node joined it. -/
def CacheMoves (b b' : BlockChain) : Prop :=
  CacheRun env b b' ∧ b'.index = b.index

instance : IsRefl BlockChain (CacheMoves env) :=
  ⟨fun _ => ⟨.refl, rfl⟩⟩

instance : IsTrans BlockChain (CacheMoves env) :=
  ⟨fun _ _ _ h1 h2 => ⟨h1.1.trans h2.1, h2.2.trans h1.2⟩⟩

section Leaves

variable {env} {b b' : BlockChain}

theorem CacheMoves.indexed {k : Hash} {n : BlockNode} (h : CacheMoves env b b')
    (hn : b.index k = some n) : b'.index k = some n := by
  rw [h.2, hn]

theorem CacheMoves.of_statusOnly (h : StatusOnly b b') : CacheMoves env b b' :=
  ⟨.single (.mark h), h.index⟩

theorem CacheMoves.of_bookkeeping (h : Bookkeeping b b') : CacheMoves env b b' :=
  ⟨.single (.keep h), h.index⟩

theorem CacheMoves.of_markMoves {s : Bool} (h : MarkMoves env s b b') : CacheMoves env b b' :=
  .of_statusOnly h.2

variable {P : BlockChain -> Prop} {α : Type}

theorem Returns.of_reads {x : ChainM α} (hx : Reads x) : Returns (CacheMoves env) P x (fun _ => P) :=
  Returns.of_frame hx (fun b _ h => h ▸ refl_of (CacheMoves env) b) fun _ _ _ hP h => h ▸ hP

theorem Returns.bookkeeping {x : ChainM α} (hx : Frame Bookkeeping x)
    (hP : ∀ b b', P b -> Bookkeeping b b' -> P b') : Returns (CacheMoves env) P x (fun _ => P) :=
  Returns.of_frame hx (fun _ _ => .of_bookkeeping) fun _ => hP

theorem Returns.setStatusFlags (n : BlockNode) (f : BlockStatus)
    (hP : ∀ b b', P b -> StatusOnly b b' -> P b') :
    Returns (CacheMoves env) P (setStatusFlags n f) (fun _ => P) :=
  Returns.of_frame (Frame.setStatusFlags n f) (fun _ _ => .of_statusOnly) fun _ => hP

theorem Returns.sendNotification {n : Notification} {Q : Unit -> BlockChain -> Prop}
    (h : ∀ b, P b -> Q () { b with ntfns := b.ntfns ++ [n] }) :
    Returns (CacheMoves env) P (sendNotification n) Q := fun _ _ _ hP h' => by
  cases h'
  exact ⟨⟨.single (.notify n), rfl⟩, h _ hP⟩

end Leaves

/-!
## The tip calls
-/

section TipCalls

variable {node p : BlockNode} {block parent : Block} {view : UtxoViewpoint}

theorem Returns.connectBlock {stxos : Nat} (hp : node.parent = some p) (hblock : block = node.block)
    (hparent : parent = p.block) :
    Returns (CacheMoves env) (fun b => b.index node.hash = some node)
      (DcrdChain.connectBlock env o node block parent view stxos) (fun _ _ => True) := by
  subst hblock hparent
  intro w _ _ hn h
  have hm := ((Spec.connectBlock env o (s := false) hp rfl rfl).ok ⟨hn, fun h => nomatch h⟩ h).1
  exact ⟨⟨.single (.connect o hn hp h), hm.index⟩, trivial⟩

theorem Returns.disconnectBlock (hp : node.parent = some p) (hblock : block = node.block)
    (hparent : parent = p.block) :
    Returns (CacheMoves env) (fun b => b.index node.hash = some node)
      (DcrdChain.disconnectBlock env o node block parent view) (fun _ _ => True) := by
  subst hblock hparent
  intro w _ _ hn h
  have hm := ((Spec.disconnectBlock env o (s := false) hp rfl rfl).ok hn h).1
  exact ⟨⟨.single (.disconnect o hn hp h), hm.index⟩, trivial⟩

end TipCalls

/-!
## Reorganizations
-/

section Reorganize

theorem Returns.detachCommit {st : DetachState} {i : Nat} {nodes : List BlockNode} {f : BlockNode}
    {view : UtxoViewpoint} (hpath : DownPath (nodes ++ [f]))
    (hblocks : st.detachBlocks.drop i = nodes.map BlockNode.block)
    (hnext : nodes ≠ [] -> st.nextBlockToDetach = some f.block) :
    Returns (CacheMoves env) (fun b => ∀ a ∈ nodes, b.index a.hash = some a)
      (detachCommit env o st.detachBlocks st.detachSpentTxOuts st.nextBlockToDetach i nodes view)
      (fun _ _ => True) := by
  induction nodes generalizing i view with
  | nil => exact Returns.pure fun _ _ => trivial
  | cons n rest ih =>
      have hnext' := hnext (List.cons_ne_nil _ _)
      rw [DcrdChain.detachCommit]
      refine Returns.bind_of_eq (fun _ => sliceIndex_apply (getElem?_of_drop hblocks)) ?_
      refine Returns.bind_of_eq
        (fun _ => parentAt_apply (DetachState.parentAt_of_drop hblocks hnext')) ?_
      refine Returns.bind_of_eq (a := rest.headD f) (fun _ => by rw [DownPath.parent_eq hpath]; rfl) ?_
      refine Returns.guard fun _ => ?_
      refine Returns.bind (Returns.of_reads (Reads.fetchInputUtxos o _)) fun _ =>
        Returns.bind (Returns.of_reads (Reads.sliceIndex _ _)) fun _ =>
        Returns.bind (Returns.of_reads (Reads.disconnectTransactions o _ _)) fun _ =>
        Returns.bind (Returns.mono (Returns.frame (Returns.disconnectBlock env o
          (DownPath.parent_eq hpath) rfl rfl) (F := fun b => ∀ a ∈ rest, b.index a.hash = some a)
          fun _ _ h hr a ha => h.indexed (hr a ha))
          (fun b hb => ⟨hb n (List.mem_cons_self _ _), fun a ha => hb a (List.mem_cons_of_mem _ ha)⟩)
          fun _ _ h => h.2) fun _ => ?_
      exact ih hpath.tail (by rw [← List.tail_drop, hblocks]; rfl) fun _ => hnext'

theorem Returns.attachCommit {plan : ReorgPlan} {i : Nat} {prev : BlockNode}
    {nodes : List BlockNode} {view : UtxoViewpoint} (hpath : UpPath (prev :: nodes))
    (hblocks : plan.attached.attachBlocks.drop i = nodes.map BlockNode.block)
    (hprev : nodes ≠ [] -> plan.attachParentAt i = some prev.block) :
    Returns (CacheMoves env) (fun b => ∀ a ∈ nodes, b.index a.hash = some a)
      (attachCommit env o plan.attached.attachBlocks plan.forkBlock i nodes view)
      (fun _ _ => True) := by
  induction nodes generalizing i prev view with
  | nil => exact Returns.pure fun _ _ => trivial
  | cons n rest ih =>
      obtain ⟨hn, hrest⟩ := List.chain'_cons.mp hpath
      rw [DcrdChain.attachCommit]
      refine Returns.bind_of_eq (fun _ => sliceIndex_apply (getElem?_of_drop hblocks)) ?_
      refine Returns.bind_of_eq (fun _ => ReorgPlan.attachParentAt_apply
        (hprev (List.cons_ne_nil _ _))) ?_
      refine Returns.bind_of_eq (a := prev) (fun _ => by rw [hn]; rfl) ?_
      refine Returns.guard fun _ => ?_
      refine Returns.bind (Returns.of_reads (Reads.countSpentOutputs env _ _)) fun _ =>
        Returns.bind (Returns.of_reads (Reads.connectTransactions o _ _)) fun r => ?_
      obtain ⟨view, stxos⟩ := r
      refine Returns.bind (Returns.mono (Returns.frame (Returns.connectBlock env o hn rfl rfl)
          (F := fun b => ∀ a ∈ rest, b.index a.hash = some a)
          fun _ _ h hr a ha => h.indexed (hr a ha))
          (fun b hb => ⟨hb n (List.mem_cons_self _ _), fun a ha => hb a (List.mem_cons_of_mem _ ha)⟩)
          fun _ _ h => h.2) fun _ => ?_
      exact ih hrest (by rw [← List.tail_drop, hblocks]; rfl)
        fun _ => by simp [ReorgPlan.attachParentAt, getElem?_of_drop hblocks]

variable {R : BlockChain -> BlockChain -> Prop} {P : BlockChain -> Prop}

theorem Returns.deferring [IsTrans BlockChain R] {α : Type} {x : ChainM α} {d : ChainM Unit}
    (hx : Returns R P x (fun _ _ => True)) (hd : Returns R (fun _ => True) d (fun _ _ => True)) :
    Returns R P (deferring x d) (fun _ _ => True) := fun w a w' hP h => by
  unfold DcrdChain.deferring at h
  cases hx' : x w with
  | ok a₁ w₁ =>
      cases hd' : d w₁ with
      | ok _ w₂ =>
          simp only [hx', hd', EStateM.Result.ok.injEq] at h
          obtain ⟨rfl, rfl⟩ := h
          exact ⟨trans_of R (hx w a₁ w₁ hP hx').1 (hd w₁ _ _ trivial hd').1, trivial⟩
      | error e w₂ => simp only [hx', hd', reduceCtorEq] at h
  | error e w₁ => cases hd' : d w₁ <;> simp only [hx', hd', reduceCtorEq] at h

theorem Returns.reorganizeCommit {plan : ReorgPlan} {tip fork node : BlockNode}
    {detach attach : List BlockNode} (hplan : Plans plan tip fork node detach attach)
    (hdown : DownPath (detach ++ [fork])) (hup : UpPath (fork :: attach)) :
    Returns (CacheMoves env) (fun b => ∀ a ∈ detach ++ attach, b.index a.hash = some a)
      (reorganizeCommit env o detach attach plan) (fun _ _ => True) := by
  refine Returns.deferring ?_ (Returns.sendNotification fun _ _ => trivial)
  refine Returns.bind (Returns.mono (Returns.frame (Returns.detachCommit env o (i := 0) hdown
      (by rw [hplan.detachBlocks]; rfl) hplan.nextBlockToDetach)
      (F := fun b => ∀ a ∈ attach, b.index a.hash = some a)
      fun _ _ h hr a ha => h.indexed (hr a ha))
    (fun _ h => ⟨fun a ha => h a (List.mem_append_left _ ha),
      fun a ha => h a (List.mem_append_right _ ha)⟩) fun _ _ h => h.2) fun _ => ?_
  exact Returns.bind (Returns.attachCommit env o (i := 0) hup (by rw [hplan.attachBlocks]; rfl)
    fun ha => by simp [ReorgPlan.attachParentAt, hplan.forkBlock ha]) fun _ =>
    Returns.pure fun _ _ => trivial

theorem Returns.reorganizeChain {b0 : BlockChain} {node : BlockNode}
    {detach attach : List BlockNode} (ht : Tree b0) (hn : b0.index node.hash = some node)
    (hnodes : ReorganizeNodes node (detach, attach) b0) :
    Returns (CacheMoves env) (fun b => b = b0) (reorganizeChain env o detach attach)
      (fun _ _ => True) := by
  unfold DcrdChain.reorganizeChain
  refine Returns.ite (fun _ => Returns.pure fun _ _ => trivial) fun hne => ?_
  obtain ⟨fork, hdown, hup, hinv⟩ := hnodes.resolve_left hne
  have hidx : ∀ a ∈ detach ++ attach, b0.index a.hash = some a := fun a ha =>
    (List.mem_append.mp ha).elim
      (fun ha => ht.consistent.index_of_mem_tip (hdown ▸ List.mem_append_left _ ha))
      fun ha => ht.consistent.closed _ _ hn a (hup ▸ List.mem_append_left _ (List.mem_reverse.mpr ha))
  refine Returns.bind_of_eq (fun _ => rfl) ?_
  refine Returns.bind (Returns.of_spec (Spec.mono (Spec.frame (Spec.reorganizeDryRun (s := false)
    o ht hn hdown hup hinv) (F := fun b => ∀ a ∈ detach ++ attach, b.index a.hash = some a)
    fun _ _ h hb a ha => h.indexed (hb a ha)) (fun b hb => ⟨hb, hb ▸ hidx⟩) (fun _ _ h => h)
    fun _ _ _ => trivial) fun _ _ => CacheMoves.of_markMoves) fun plan => ?_
  refine Returns.mono (P := fun b => (∀ a ∈ detach ++ attach, b.index a.hash = some a) ∧
    Plans plan b0.bestChain.tip fork node detach attach) ?_ (fun _ h => ⟨h.2, h.1.2⟩)
    fun _ _ h => h
  refine Returns.pure_pre fun hplan => ?_
  exact Returns.bind (Returns.sendNotification fun _ h => h) fun _ =>
    Returns.bind (Returns.sendNotification fun _ h => h) fun _ =>
    Returns.reorganizeCommit env o hplan (downPath_of_ancestors hdown) (upPath_of_ancestors hup)

theorem Returns.attemptFlush {α : Type} {a : α} {x : ChainM Unit}
    (hx : Returns (CacheMoves env) P x (fun _ _ => True)) :
    Returns (CacheMoves env) P
      (do
        let err ← DcrdChain.attempt x
        flushBlockIndexWarnOnly o
        match err with
        | .error e => MonadExcept.throw e
        | .ok () => Pure.pure a) (fun _ _ => True) := fun w _ _ hP h => by
  obtain ⟨-, w₁, hx₁, hb, -⟩ := attemptFlush_ok o h
  exact ⟨trans_of _ (hx w () w₁ hP hx₁).1 (CacheMoves.of_bookkeeping hb), trivial⟩

end Reorganize

/-!
## The best chain
-/

section ConnectBestChain

variable {node p : BlockNode} {block parent : Block}

theorem Returns.connectExtend_connect (hp : node.parent = some p) (hparent : parent = p.block)
    (y : UtxoViewpoint × Nat) (fastAdd : Bool) :
    Returns (CacheMoves env) (fun b => b.index node.hash = some node)
      (if fastAdd = true then do
          let view ← fetchInputUtxos o y.1
          let y ← connectTransactions o view node.block
          let _ ← DcrdChain.connectBlock env o node node.block parent y.1 y.2
          Pure.pure PUnit.unit
        else do
          let y ← Pure.pure (y.1, y.2)
          let _ ← DcrdChain.connectBlock env o node node.block parent y.1 y.2
          Pure.pure PUnit.unit) (fun _ _ => True) := by
  have hc : ∀ (view : UtxoViewpoint) (stxos : Nat), Returns (CacheMoves env)
      (fun b => b.index node.hash = some node)
      (DcrdChain.connectBlock env o node node.block parent view stxos >>= fun _ =>
        Pure.pure PUnit.unit) (fun _ _ => True) := fun _ _ =>
    Returns.bind (Returns.connectBlock env o hp rfl hparent) fun _ => Returns.pure fun _ _ => trivial
  refine Returns.ite (fun _ => ?_) fun _ => Returns.bind_of_eq (fun _ => rfl) (hc _ _)
  exact Returns.bind (Returns.of_reads (Reads.fetchInputUtxos o _)) fun _ =>
    Returns.bind (Returns.of_reads (Reads.connectTransactions o _ _)) fun _ => hc _ _

theorem Returns.connectExtend_tail {b0 : BlockChain} (hn : b0.index node.hash = some node)
    (hp : node.parent = some p) (hparent : parent = p.block) (y : UtxoViewpoint × Nat)
    (fastAdd : Bool) :
    Returns (CacheMoves env) (fun b => b = b0) (do
      let y ← Pure.pure y
      if (!decide (b0.status node.hash).KnownValid) = true then
        DcrdChain.setStatusFlags node statusValid
        flushBlockIndexWarnOnly o
      let (view, stxos) ← if (fastAdd || decide (b0.status node.hash).KnownValid) = true then do
          let view ← fetchInputUtxos o y.1
          connectTransactions o view node.block
        else Pure.pure (y.1, y.2)
      let _ ← DcrdChain.connectBlock env o node node.block parent view stxos)
      (fun _ _ => True) := by
  refine Returns.bind_of_eq (fun _ => rfl) (Returns.mono (P := fun b => b.index node.hash = some node)
    ?_ (fun b hb => hb ▸ hn) fun _ _ h => h)
  refine Returns.ite (fun _ => ?_) fun _ =>
    Returns.bind_of_eq (fun _ => rfl) (Returns.connectExtend_connect env o hp hparent _ _)
  exact Returns.bind (Returns.setStatusFlags node statusValid fun _ _ h hs => by rwa [hs.index])
    fun _ => Returns.bind (Returns.bookkeeping (Frame.flushBlockIndexWarnOnly o)
      fun _ _ h hb => by rwa [hb.index]) fun _ => Returns.connectExtend_connect env o hp hparent _ _

theorem Returns.connectExtend {fastAdd : Bool} (hp : node.parent = some p)
    (hblock : block = node.block) (hparent : parent = p.block) :
    Returns (CacheMoves env) (fun b => b.index node.hash = some node)
      (connectExtend env o node block parent fastAdd) (fun _ _ => True) := by
  subst hblock
  unfold DcrdChain.connectExtend
  refine Returns.getChain_bind fun b0 hn => ?_
  refine Returns.ite (fun _ => Returns.bind (Returns.of_reads (Reads.checkConnectBlock o _ _))
    fun r => ?_) fun _ => Returns.connectExtend_tail env o hn hp hparent _ _
  rcases r with err | result
  · /- A rule violation is thrown, whatever is marked before. -/
    refine Returns.mono (P := fun _ => True) ?_ (fun _ _ => trivial) fun _ _ h => h
    exact Returns.ite (fun _ => Returns.bind (Returns.setStatusFlags _ _ fun _ _ _ _ => trivial)
      fun _ => Returns.bind (Returns.bookkeeping (Frame.flushBlockIndexWarnOnly o)
        fun _ _ _ _ => trivial) fun _ => Returns.throw_bind)
      fun _ => Returns.bind_of_eq (fun _ => rfl) Returns.throw_bind
  · exact Returns.connectExtend_tail env o hn hp hparent _ _

theorem Returns.connectBestChain {flags : BehaviorFlags} (hp : node.parent = some p)
    (hblock : block = node.block) (hparent : parent = p.block) :
    Returns (CacheMoves env) (fun b => Tree b ∧ b.index node.hash = some node)
      (connectBestChain env o node block parent flags) (fun _ _ => True) := by
  subst hblock
  unfold DcrdChain.connectBestChain
  refine Returns.bind_of_eq (a := p) (fun _ => by rw [hp]; rfl) ?_
  refine Returns.guard fun _ => Returns.getChain_bind fun b0 ⟨ht, hn⟩ => ?_
  refine Returns.ite (fun _ => ?_) fun _ => Returns.ite (fun _ => ?_) fun _ => ?_
  · exact Returns.bind (Returns.mono (Returns.connectExtend env o hp rfl hparent)
      (fun b hb => hb ▸ hn) fun _ _ h => h) fun _ => Returns.pure fun _ _ => trivial
  · exact Returns.bind (Returns.of_reads (Reads.deref _)) fun _ => Returns.pure fun _ _ => trivial
  · /- The reorganization to a heavier branch. -/
    refine Returns.bind_of_eq (fun _ => rfl) ?_
    refine Returns.bind (Returns.of_spec (Spec.mono (Spec.frame
      (Spec.getReorganizeNodes (s := false) node) (F := fun b => Tree b ∧ b.index node.hash = some node)
      fun _ _ h hb => ⟨h.tree hb.1, h.indexed hb.2⟩) (fun b hb => by subst hb; exact ⟨⟨ht, hn⟩, ht, hn⟩)
      (fun _ _ h => h) fun _ _ _ => trivial) fun _ _ => CacheMoves.of_markMoves) fun r => ?_
    obtain ⟨detach, attach⟩ := r
    exact Returns.attemptFlush env o (Returns.of_forall fun _ hb1 =>
      Returns.reorganizeChain env o hb1.2.1 hb1.2.2 hb1.1)

end ConnectBestChain

theorem Returns.forceHeadReorganization {formerBest newBest : Hash} :
    Returns (CacheMoves env) Tree (forceHeadReorganization env o formerBest newBest)
      (fun _ _ => True) := by
  unfold DcrdChain.forceHeadReorganization
  refine Returns.bind (Returns.of_spec (Spec.forceHeadReorganizationNodes (s := false) env o)
    fun _ _ => CacheMoves.of_markMoves) fun r => ?_
  obtain ⟨detach, attach⟩ := r
  exact Returns.attemptFlush env o (Returns.of_forall fun _ ⟨ht, _, hn, hr⟩ =>
    Returns.reorganizeChain env o ht hn hr)

/-!
## Operations
-/

section Operations

variable {b b' : BlockChain}

/-- `op`, answered by `o`, returns and takes the chain from `b` to `b'`. -/
def OkStep (op : Op) (b b' : BlockChain) : Prop :=
  ∃ w', op.run env o b = some (.ok () w') ∧ w'.chain = b'

theorem OkStep.cacheRun {op : Op} (ht : Tree b) (h : OkStep env o op b b') : CacheRun env b b' := by
  obtain ⟨w', hr, rfl⟩ := h
  cases op with
  | processBlock block flags =>
      obtain ⟨p, hp, hinv, hfresh, hheight, hr⟩ := Op.run_processBlock hr
      obtain ⟨_, w₁, hc, hpure⟩ := bind_eq_ok.mp hr
      cases hpure
      exact .head (.accept (.node hp hinv hfresh hheight)) (Returns.connectBestChain env o
        (BlockNode.parent_child block p) rfl rfl _ _ _
        ⟨ht.addNode hp hfresh, BlockChain.index_addNode_self _⟩ hc).1.1
  | forceHeadReorganization f n =>
      exact (Returns.forceHeadReorganization env o _ _ _ ht (Option.some_injective _ hr)).1.1
  | connectBlock node view stxos =>
      simp only [Op.run] at hr
      split at hr
      · rename_i p hp
        split at hr
        · obtain ⟨_, w₁, hc, hpure⟩ := bind_eq_ok.mp (Option.some_injective _ hr)
          cases hpure
          exact .single (.connect o ‹_› hp hc)
        · cases hr
      · cases hr
  | disconnectBlock view =>
      simp only [Op.run] at hr
      split at hr
      · rename_i p hp
        obtain ⟨_, w₁, hc, hpure⟩ := bind_eq_ok.mp (Option.some_injective _ hr)
        cases hpure
        exact .single (.disconnect o ht.consistent.tip hp hc)
      · cases hr

/-- The chains a run of returning operations reaches from `b0`, for any collaborators. -/
def OkRun : BlockChain -> BlockChain -> Prop :=
  Relation.ReflTransGen fun b b' => ∃ o op, OkStep env o op b b'

theorem OkRun.cacheRun {b0 : BlockChain} (ht : Tree b0) (h : OkRun env b0 b) : CacheRun env b0 b := by
  induction h with
  | refl => exact .refl
  | tail _ hs ih =>
      obtain ⟨o, op, hs⟩ := hs
      exact ih.trans (OkStep.cacheRun env o (ht.cacheRun env ih) hs)

theorem OkRun.cacheWindow {b0 : BlockChain} (ht : Tree b0) (hh : HeightsOK b0)
    (hempty : b0.mainchainBlockCache = ∅) (h : OkRun env b0 b) :
    CacheWindow b ∧ b.mainchainBlockCache.keys.length ≤ b.mainchainBlockCacheSize :=
  have hI := (CacheInv.empty ht hh hempty).run (h.cacheRun env ht)
  ⟨hI.window, hI.length_keys_le⟩

end Operations

end DcrdChain
