import DcrdChain.RefineRun

/-!
# What the operations write

Every operation of `chain.go` changes the chain by a sequence of writes, each exactly as the
code makes it: it marks a status, changes stake data, commits the transaction of a flush,
queues a notification, commits a tip change together with its database record, or updates
the block cache.  `Write` lists these writes; `OnlyWrites x` says that `x` is a run of them,
whatever the collaborators answer and however it ends.  Unlike the moves of
`DcrdChain.Moves`, a write carries no guard, but it says exactly what changes, so invariants
of the data the chain keeps in memory and in its database follow from one lemma per write.

Two such invariants are proved over every run.  No status is lost: `SetStatusFlags` and the
acceptance of a new block put a node in the modified set, and `flushBlockIndex` writes the
status of every modified node to the database and clears the set only once its transaction
succeeds, so the status of each indexed block is the one the database holds or waits in the
modified set; a failed flush, which `flushBlockIndexWarnOnly` only logs, leaves its nodes
queued.  And the database's best-state record is the snapshot, with the stake database's
best node the tip, since `connectBlock` and `disconnectBlock` write all three together.
-/

namespace DcrdChain

open BlockStatus

/-!
## Writes
-/

/-- The writes the operations make to the chain. -/
inductive Write : BlockChain -> BlockChain -> Prop
  | mark {b : BlockChain} (node : BlockNode) (flags : BlockStatus) :
      Write b (b.setStatusFlags node flags)
  | stake {b : BlockChain} (stakeData : Hash -> StakeFields) : Write b { b with stakeData := stakeData }
  | flush {b : BlockChain} : Write b { b with
      db := { b.db with
        blockIndex := fun h => if h ∈ b.modified then some (b.status h) else b.db.blockIndex h }
      modified := [] }
  | notify {b : BlockChain} (n : Notification) : Write b { b with ntfns := b.ntfns ++ [n] }
  | commit {b : BlockChain} (state : BestState) (tip : BlockNode) (workSum : Nat)
      (utxoSet : List UtxoOp) (spendJournal : Hash -> Option Nat) : Write b { b with
        db := { b.db with
          bestState := state
          workSum := workSum
          utxoSet := utxoSet
          spendJournal := spendJournal
          stakeTip := tip.hash }
        bestChain := b.bestChain.setTip tip
        stateSnapshot := state }
  | pushCache {b : BlockChain} (block : Block) : Write b (pushMainChainBlockCache block b)
  | dropCache {b : BlockChain} (block : Block) : Write b (dropMainChainBlockCache block b)

/-- Runs of writes. -/
def Writes : BlockChain -> BlockChain -> Prop :=
  Relation.ReflTransGen Write

instance : IsRefl BlockChain Writes :=
  ⟨fun _ => .refl⟩

instance : IsTrans BlockChain Writes :=
  ⟨fun _ _ _ => .trans⟩

theorem Writes.induction {I : BlockChain -> Prop} (hI : ∀ b b', Write b b' -> I b -> I b')
    {b b' : BlockChain} (h : Writes b b') (hb : I b) : I b' := by
  induction h with
  | refl => exact hb
  | tail _ hw ih => exact hI _ _ hw ih

/-!
## Operations made of writes
-/

/-- However `x` ends and whatever the collaborators answer, it changes the chain by writes. -/
abbrev OnlyWrites {α : Type} (x : ChainM α) : Prop :=
  Spec Writes (fun _ => True) x (fun _ _ => True) (fun _ _ => True)

section Rules

variable {α β : Type} {x : ChainM α} {f : α -> ChainM β}

theorem OnlyWrites.of_frame (hx : Frame Writes x) : OnlyWrites x :=
  Spec.of_frame hx (fun _ _ h => h) fun _ _ _ _ => trivial

theorem OnlyWrites.of_reads (hx : Reads x) : OnlyWrites x :=
  Spec.of_reads hx

theorem OnlyWrites.bind (hx : OnlyWrites x) (hf : ∀ a, OnlyWrites (f a)) :
    OnlyWrites (x >>= f) :=
  Spec.bind hx hf

theorem OnlyWrites.write {g : BlockChain -> BlockChain} (h : ∀ b, Write b (g b)) :
    OnlyWrites (DcrdChain.modifyChain g) :=
  Spec.modifyChain fun b _ => ⟨.single (h b), trivial⟩

theorem OnlyWrites.ite {c : Prop} [Decidable c] {y : ChainM α} (hx : OnlyWrites x)
    (hy : OnlyWrites y) : OnlyWrites (if c then x else y) :=
  Spec.ite (fun _ => hx) fun _ => hy

theorem OnlyWrites.guard {c : Prop} [Decidable c] {s : PanicSite} {k : PUnit -> ChainM α}
    (hk : OnlyWrites (k PUnit.unit)) :
    OnlyWrites (if c then DcrdChain.panicf s >>= k else Pure.pure PUnit.unit >>= k) :=
  Spec.guard (fun _ _ => trivial) fun _ => hk

theorem OnlyWrites.attempt (hx : OnlyWrites x) : OnlyWrites (DcrdChain.attempt x) :=
  (Spec.attempt hx).mono (fun _ h => h) (fun _ _ _ => trivial) fun _ _ h => h

theorem OnlyWrites.throw_bind {e : ChainError} : OnlyWrites (MonadExcept.throw e >>= f) :=
  Spec.bind (Spec.throw (Q := fun _ _ => False) fun _ _ => trivial) fun _ _ hw => hw.elim

theorem OnlyWrites.sendNotification (n : Notification) :
    OnlyWrites (DcrdChain.sendNotification n) :=
  OnlyWrites.write fun _ => .notify n

theorem OnlyWrites.recordTipCall (c : TipCall) : OnlyWrites (DcrdChain.recordTipCall c) :=
  Spec.recordTipCall fun _ h => h

end Rules

/-!
## The flush and the stake data
-/

section Flush

variable (env : Env) (o : Oracle)

theorem Frame.writes_setStatusFlags (node : BlockNode) (flags : BlockStatus) :
    Frame Writes (DcrdChain.setStatusFlags node flags) := by
  rw [setStatusFlags_eq]
  exact Frame.modifyChain fun _ => .single (.mark _ _)

theorem Frame.writes_setStakeFields (hash : Hash) (f : StakeFields -> StakeFields) :
    Frame Writes (DcrdChain.setStakeFields hash f) :=
  Frame.modifyChain fun _ => .single (.stake _)

theorem Frame.writes_flushBlockIndex : Frame Writes (DcrdChain.flushBlockIndex o) :=
  Reads.getChain.frame.bind fun _ =>
    (Frame.forM fun _ => Reads.getChain.frame.bind fun _ => Frame.ite (Reads.pure _).frame
      ((Reads.askStore o).frame.bind fun _ => Frame.writes_setStakeFields _ _)).bind
    fun _ => (Reads.askStore o).frame.bind fun _ => Frame.modifyChain fun _ => .single .flush

theorem OnlyWrites.setStatusFlags (node : BlockNode) (flags : BlockStatus) :
    OnlyWrites (DcrdChain.setStatusFlags node flags) :=
  OnlyWrites.of_frame (Frame.writes_setStatusFlags node flags)

theorem OnlyWrites.fetchStakeNode (node : BlockNode) :
    OnlyWrites (DcrdChain.fetchStakeNode env o node) :=
  OnlyWrites.of_frame ((Reads.askStore o).frame.bind fun _ =>
    (Frame.writes_setStakeFields _ _).bind fun _ => (Reads.pure _).frame)

theorem OnlyWrites.flushBlockIndex : OnlyWrites (DcrdChain.flushBlockIndex o) :=
  OnlyWrites.of_frame (Frame.writes_flushBlockIndex o)

theorem OnlyWrites.flushBlockIndexWarnOnly : OnlyWrites (DcrdChain.flushBlockIndexWarnOnly o) :=
  OnlyWrites.of_frame (Frame.writes_flushBlockIndex o).warnOnly

end Flush

/-!
## Connecting and disconnecting the tip
-/

section Tip

variable (env : Env) (o : Oracle) {node prevNode : BlockNode} {block parent : Block}
  {view : UtxoViewpoint} {stxos : Nat} {state : BestState} {db : Database} {w w' : World}

theorem connectBlockDbUpdate_ok
    (h : connectBlockDbUpdate env o node block view stxos state w = .ok db w') :
    db = { w'.chain.db with
      bestState := state
      workSum := node.workSum
      utxoSet := w'.chain.db.utxoSet ++ view.ops
      spendJournal := Function.update w'.chain.db.spendJournal block.hash (some stxos)
      stakeTip := node.hash } := by
  have hw : w'.chain = w.chain := ((Reads.connectBlockDbUpdate env o _ _ _ _ _).ok h).1
  unfold connectBlockDbUpdate at h
  rw [getChain_bind] at h
  rw [dbTransaction_ok env o h, hw]

theorem disconnectBlockDbUpdate_ok
    (h : disconnectBlockDbUpdate env o node prevNode block view state w = .ok db w') :
    db = { w'.chain.db with
      bestState := state
      workSum := node.workSum
      utxoSet := w'.chain.db.utxoSet ++ view.ops
      spendJournal := Function.update w'.chain.db.spendJournal block.hash none
      stakeTip := prevNode.hash } := by
  have hw : w'.chain = w.chain := ((Reads.disconnectBlockDbUpdate env o _ _ _ _ _).ok h).1
  unfold disconnectBlockDbUpdate at h
  rw [getChain_bind] at h
  rw [dbTransaction_ok env o h, hw]

theorem OnlyWrites.commitRecord {x : ChainM Database} {tip : BlockNode} {α : Type} {a : α}
    (hx : Reads x) (hdb : ∀ w db w', x w = .ok db w' -> ∃ workSum utxoSet spendJournal,
      db = { w'.chain.db with
        bestState := state
        workSum := workSum
        utxoSet := utxoSet
        spendJournal := spendJournal
        stakeTip := tip.hash }) :
    OnlyWrites (x >>= fun db => DcrdChain.modifyChain (fun b =>
      { b with db := db, bestChain := b.bestChain.setTip tip, stateSnapshot := state }) >>=
        fun _ => Pure.pure a) := by
  refine Spec.bind (Spec.and_ok (G := fun db c => ∃ workSum utxoSet spendJournal,
      db = { c.db with
        bestState := state
        workSum := workSum
        utxoSet := utxoSet
        spendJournal := spendJournal
        stakeTip := tip.hash }) (Spec.of_reads hx) fun _ _ _ _ h => hdb _ _ _ h) fun _ =>
    Spec.bind (Spec.modifyChain (Q := fun _ _ => True) fun _ hc => ?_) fun _ =>
      Spec.pure fun _ _ => trivial
  obtain ⟨_, _, _, rfl⟩ := hc.2
  exact ⟨.single (.commit _ _ _ _ _), trivial⟩

theorem OnlyWrites.connectBlock :
    OnlyWrites (DcrdChain.connectBlock env o node block parent view stxos) := by
  refine (OnlyWrites.recordTipCall _).bind fun _ => OnlyWrites.bind ?_ fun _ =>
    (OnlyWrites.sendNotification _).bind fun _ => OnlyWrites.bind ?_ fun _ =>
      Spec.pure fun _ _ => trivial
  · refine OnlyWrites.of_reads Reads.getChain |>.bind fun _ => OnlyWrites.guard <|
      (OnlyWrites.of_reads (Reads.countSpentOutputs env _ _)).bind fun _ =>
      OnlyWrites.guard <| (OnlyWrites.flushBlockIndex o).bind fun _ =>
      (OnlyWrites.fetchStakeNode env o _).bind fun _ => (OnlyWrites.of_reads Reads.getChain).bind
      fun _ => (OnlyWrites.of_reads (Reads.calcNextRequiredStakeDifficulty env o _)).bind fun _ =>
      OnlyWrites.commitRecord (Reads.connectBlockDbUpdate env o _ _ _ _ _)
        fun _ _ _ h => ⟨_, _, _, connectBlockDbUpdate_ok env o h⟩
  · refine (OnlyWrites.ite ((OnlyWrites.of_reads
      (Reads.calcNextRequiredStakeDifficulty env o _)).bind fun _ =>
        (OnlyWrites.sendNotification _).bind fun _ => OnlyWrites.sendNotification _)
      (Spec.pure fun _ _ => trivial)).bind fun _ => OnlyWrites.bind ?_ fun _ =>
        OnlyWrites.write fun _ => .pushCache _
    refine OnlyWrites.ite ((OnlyWrites.of_reads Reads.getChain).bind fun _ => ?_)
      (Spec.pure fun _ _ => trivial)
    split
    · exact Spec.panicf fun _ _ => trivial
    · exact OnlyWrites.of_frame (Frame.writes_setStakeFields _ _)

theorem OnlyWrites.disconnectBlock :
    OnlyWrites (DcrdChain.disconnectBlock env o node block parent view) := by
  refine (OnlyWrites.recordTipCall _).bind fun _ => OnlyWrites.bind ?_ fun _ =>
    (OnlyWrites.sendNotification _).bind fun _ => (OnlyWrites.write
      (g := dropMainChainBlockCache block) fun _ => .dropCache _).bind fun _ =>
        Spec.pure fun _ _ => trivial
  refine (OnlyWrites.of_reads Reads.getChain).bind fun _ => OnlyWrites.guard <|
    (OnlyWrites.flushBlockIndex o).bind fun _ => (OnlyWrites.fetchStakeNode env o _).bind fun _ => ?_
  split
  · exact Spec.panicf fun _ _ => trivial
  · exact (OnlyWrites.fetchStakeNode env o _).bind fun _ => (OnlyWrites.of_reads Reads.getChain).bind
      fun _ => OnlyWrites.commitRecord (Reads.disconnectBlockDbUpdate env o _ _ _ _ _)
        fun _ _ _ h => ⟨_, _, _, disconnectBlockDbUpdate_ok env o h⟩

end Tip

/-!
## Reorganizations and the best chain
-/

section BestChain

variable (env : Env) (o : Oracle)

theorem OnlyWrites.getReorganizeNodes (node : BlockNode) :
    OnlyWrites (DcrdChain.getReorganizeNodes node) :=
  OnlyWrites.of_frame (Frame.getReorganizeNodes_of_setStatusFlags
    Frame.writes_setStatusFlags node)

theorem OnlyWrites.detachCommit (detachBlocks : List Block) (detachSpentTxOuts : List Nat)
    (nextBlockToDetach : Option Block) (i : Nat) (nodes : List BlockNode) (view : UtxoViewpoint) :
    OnlyWrites (DcrdChain.detachCommit env o detachBlocks detachSpentTxOuts nextBlockToDetach i
      nodes view) := by
  induction nodes generalizing i view with
  | nil => exact Spec.pure fun _ _ => trivial
  | cons n rest ih =>
      rw [DcrdChain.detachCommit]
      exact (OnlyWrites.of_reads (Reads.sliceIndex _ _)).bind fun _ =>
        (OnlyWrites.of_reads (Reads.ite (Reads.sliceIndex _ _) (Reads.deref _))).bind fun _ =>
        (OnlyWrites.of_reads (Reads.deref _)).bind fun _ => OnlyWrites.guard <|
        (OnlyWrites.of_reads (Reads.fetchInputUtxos o _)).bind fun _ =>
        (OnlyWrites.of_reads (Reads.sliceIndex _ _)).bind fun _ =>
        (OnlyWrites.of_reads (Reads.disconnectTransactions o _ _)).bind fun _ =>
        (OnlyWrites.disconnectBlock env o).bind fun _ => ih _ _

theorem OnlyWrites.attachCommit (attachBlocks : List Block) (forkBlock : Option Block) (i : Nat)
    (nodes : List BlockNode) (view : UtxoViewpoint) :
    OnlyWrites (DcrdChain.attachCommit env o attachBlocks forkBlock i nodes view) := by
  induction nodes generalizing i view with
  | nil => exact Spec.pure fun _ _ => trivial
  | cons n rest ih =>
      rw [DcrdChain.attachCommit]
      exact (OnlyWrites.of_reads (Reads.sliceIndex _ _)).bind fun _ =>
        (OnlyWrites.of_reads (Reads.ite (Reads.sliceIndex _ _) (Reads.deref _))).bind fun _ =>
        (OnlyWrites.of_reads (Reads.deref _)).bind fun _ => OnlyWrites.guard <|
        (OnlyWrites.of_reads (Reads.countSpentOutputs env _ _)).bind fun _ =>
        (OnlyWrites.of_reads (Reads.connectTransactions o _ _)).bind fun _ =>
        (OnlyWrites.connectBlock env o).bind fun _ => ih _ _

theorem OnlyWrites.reorganizeChain (detachNodes attachNodes : List BlockNode) :
    OnlyWrites (DcrdChain.reorganizeChain env o detachNodes attachNodes) := by
  unfold DcrdChain.reorganizeChain
  refine OnlyWrites.ite (Spec.pure fun _ _ => trivial) (Spec.bind_of_eq (fun _ => rfl) ?_)
  refine OnlyWrites.of_frame (Frame.reorganizeDryRun_of_setStatusFlags env o
    Frame.writes_setStatusFlags _ _) |>.bind fun _ =>
    (OnlyWrites.sendNotification _).bind fun _ => (OnlyWrites.sendNotification _).bind fun _ => ?_
  exact Spec.deferring ((OnlyWrites.detachCommit env o _ _ _ _ _ _).bind fun _ =>
    (OnlyWrites.attachCommit env o _ _ _ _ _).bind fun _ => Spec.pure fun _ _ => trivial)
    (OnlyWrites.sendNotification _)

theorem OnlyWrites.attemptFlush {α : Type} {a : α} {x : ChainM Unit} (hx : OnlyWrites x) :
    OnlyWrites (do
      let err ← DcrdChain.attempt x
      DcrdChain.flushBlockIndexWarnOnly o
      match err with
      | .error e => MonadExcept.throw e
      | .ok () => Pure.pure a) :=
  hx.attempt.bind fun err => (OnlyWrites.flushBlockIndexWarnOnly o).bind fun _ => by
    rcases err with e | u
    · exact Spec.throw fun _ _ => trivial
    · exact Spec.pure fun _ _ => trivial

theorem OnlyWrites.connectExtend_connect (node : BlockNode) (block parent : Block)
    (y : UtxoViewpoint × Nat) (fastAdd : Bool) :
    OnlyWrites (if fastAdd = true then do
        let view ← fetchInputUtxos o y.1
        let y ← connectTransactions o view block
        let _ ← DcrdChain.connectBlock env o node block parent y.1 y.2
        Pure.pure PUnit.unit
      else do
        let y ← Pure.pure (y.1, y.2)
        let _ ← DcrdChain.connectBlock env o node block parent y.1 y.2
        Pure.pure PUnit.unit) :=
  OnlyWrites.ite ((OnlyWrites.of_reads (Reads.fetchInputUtxos o _)).bind fun _ =>
    (OnlyWrites.of_reads (Reads.connectTransactions o _ _)).bind fun _ =>
    (OnlyWrites.connectBlock env o).bind fun _ => Spec.pure fun _ _ => trivial)
    (Spec.bind_of_eq (fun _ => rfl) ((OnlyWrites.connectBlock env o).bind fun _ =>
      Spec.pure fun _ _ => trivial))

theorem OnlyWrites.connectExtend_tail (b : BlockChain) (node : BlockNode) (block parent : Block)
    (y : UtxoViewpoint × Nat) (fastAdd : Bool) :
    OnlyWrites (do
      let y ← Pure.pure y
      if (!decide (b.status node.hash).KnownValid) = true then
        DcrdChain.setStatusFlags node statusValid
        DcrdChain.flushBlockIndexWarnOnly o
      let (view, stxos) ← if (fastAdd || decide (b.status node.hash).KnownValid) = true then do
          let view ← fetchInputUtxos o y.1
          connectTransactions o view block
        else Pure.pure (y.1, y.2)
      let _ ← DcrdChain.connectBlock env o node block parent view stxos) :=
  Spec.bind_of_eq (fun _ => rfl) (OnlyWrites.ite ((OnlyWrites.setStatusFlags _ _).bind fun _ =>
    (OnlyWrites.flushBlockIndexWarnOnly o).bind fun _ => OnlyWrites.connectExtend_connect env o _ _ _ _ _)
    (Spec.bind_of_eq (fun _ => rfl) (OnlyWrites.connectExtend_connect env o _ _ _ _ _)))

theorem OnlyWrites.connectExtend (node : BlockNode) (block parent : Block) (fastAdd : Bool) :
    OnlyWrites (DcrdChain.connectExtend env o node block parent fastAdd) := by
  unfold DcrdChain.connectExtend
  refine (OnlyWrites.of_reads Reads.getChain).bind fun b => OnlyWrites.ite
    ((OnlyWrites.of_reads (Reads.checkConnectBlock o _ _)).bind fun r => ?_)
    (OnlyWrites.connectExtend_tail env o b node block parent _ _)
  rcases r with err | result
  · exact OnlyWrites.ite ((OnlyWrites.setStatusFlags _ _).bind fun _ =>
      (OnlyWrites.flushBlockIndexWarnOnly o).bind fun _ => OnlyWrites.throw_bind)
      (Spec.bind_of_eq (fun _ => rfl) OnlyWrites.throw_bind)
  · exact OnlyWrites.connectExtend_tail env o b node block parent _ _

theorem OnlyWrites.connectBestChain (node : BlockNode) (block parent : Block)
    (flags : BehaviorFlags) : OnlyWrites (DcrdChain.connectBestChain env o node block parent flags) := by
  unfold DcrdChain.connectBestChain
  refine (OnlyWrites.of_reads (Reads.deref _)).bind fun _ => OnlyWrites.guard <|
    (OnlyWrites.of_reads Reads.getChain).bind fun b => OnlyWrites.ite
      ((OnlyWrites.connectExtend env o _ _ _ _).bind fun _ => Spec.pure fun _ _ => trivial)
      (OnlyWrites.ite ((OnlyWrites.of_reads (Reads.deref _)).bind fun _ => Spec.pure fun _ _ => trivial)
        (Spec.bind_of_eq (fun _ => rfl) ((OnlyWrites.getReorganizeNodes _).bind fun r => ?_)))
  obtain ⟨detach, attach⟩ := r
  exact OnlyWrites.attemptFlush o (OnlyWrites.reorganizeChain env o detach attach)

theorem OnlyWrites.forceHeadReorganization (formerBest newBest : Hash) :
    OnlyWrites (DcrdChain.forceHeadReorganization env o formerBest newBest) := by
  unfold DcrdChain.forceHeadReorganization
  refine (OnlyWrites.of_frame (Frame.forceHeadReorganizationNodes_of_setStatusFlags env o
    Frame.writes_setStatusFlags formerBest newBest)).bind fun r => ?_
  obtain ⟨detach, attach⟩ := r
  exact OnlyWrites.attemptFlush o (OnlyWrites.reorganizeChain env o detach attach)

end BestChain

/-!
## Runs
-/

section Runs

variable (env : Env) {b b' b1 : BlockChain}

theorem Step.writes {o : Oracle} {op : Op} (h : Step env o op b b') :
    ∃ b1, Accept b b1 ∧ Writes b1 b' := by
  have hunit : ∀ {α : Type} {x : ChainM α}, OnlyWrites x ->
      OnlyWrites (x >>= fun _ => Pure.pure ()) :=
    fun hx => hx.bind fun _ => Spec.pure fun _ _ => trivial
  obtain ⟨r, hr, -, rfl⟩ := h
  cases op with
  | processBlock block flags =>
      obtain ⟨p, hp, hinv, hfresh, hheight, rfl⟩ := Op.run_processBlock hr
      exact ⟨_, .node hp hinv hfresh hheight,
        Spec.final (hunit (OnlyWrites.connectBestChain env o _ _ _ _)) trivial⟩
  | forceHeadReorganization f n =>
      cases hr
      exact ⟨b, .keep, Spec.final (OnlyWrites.forceHeadReorganization env o f n) trivial⟩
  | connectBlock node view stxos =>
      obtain ⟨p, -, -, rfl⟩ := Op.run_connectBlock hr
      exact ⟨b, .keep, Spec.final (hunit (OnlyWrites.connectBlock env o)) trivial⟩
  | disconnectBlock view =>
      obtain ⟨p, -, rfl⟩ := Op.run_disconnectBlock hr
      exact ⟨b, .keep, Spec.final (hunit (OnlyWrites.disconnectBlock env o)) trivial⟩

theorem Reachable.of_writes {I : BlockChain -> Prop} {allowed : Oracle -> Op -> Prop}
    {b0 : BlockChain} (h0 : I b0) (haccept : ∀ b b1, Accept b b1 -> I b -> I b1)
    (hwrite : ∀ b b', Write b b' -> I b -> I b') (h : Reachable env allowed b0 b) : I b := by
  induction h with
  | init => exact h0
  | step _ _ hstep ih =>
      obtain ⟨b1, hacc, hw⟩ := Step.writes env hstep
      exact hw.induction hwrite (haccept _ _ hacc ih)

end Runs

/-!
## No status is lost
-/

/-- The status of `h` is the stored one, or `h` waits in the modified set for the flush. -/
def BlockChain.Persisted (b : BlockChain) (h : Hash) : Prop :=
  h ∈ b.modified ∨ b.db.blockIndex h = some (b.status h)

/-- The status of every indexed block is persisted. -/
def BlockChain.StatusesPersisted (b : BlockChain) : Prop :=
  ∀ h, b.index h ≠ none -> b.Persisted h

section Persisted

variable {b b' b1 : BlockChain} {k : Hash}

theorem Write.index (h : Write b b') : b'.index = b.index := by
  cases h <;> rfl

theorem BlockChain.mem_modified_setStatusFlags {node : BlockNode} {flags : BlockStatus} :
    k ∈ (b.setStatusFlags node flags).modified ↔ k = node.hash ∨ k ∈ b.modified := by
  unfold BlockChain.setStatusFlags
  split_ifs with hm
  · exact ⟨.inr, fun h => h.elim (fun e => e ▸ hm) id⟩
  · exact List.mem_cons

theorem Write.persisted (h : Write b b') (hk : b.Persisted k) : b'.Persisted k := by
  cases h with
  | mark node flags =>
      by_cases hh : k = node.hash
      · exact .inl (BlockChain.mem_modified_setStatusFlags.mpr (.inl hh))
      · rcases hk with hm | hdb
        · exact .inl (BlockChain.mem_modified_setStatusFlags.mpr (.inr hm))
        · exact .inr (by rw [BlockChain.status_setStatusFlags_of_ne _ _ _ hh]; exact hdb)
  | flush =>
      refine .inr ?_
      show (if k ∈ b.modified then some (b.status k) else b.db.blockIndex k) = some (b.status k)
      split_ifs with hm
      · rfl
      · exact hk.resolve_left hm
  | _ => exact hk

theorem Write.statusesPersisted (h : Write b b') (hb : b.StatusesPersisted) :
    b'.StatusesPersisted := fun k hk =>
  h.persisted (hb k (h.index ▸ hk))

theorem Accept.statusesPersisted (h : Accept b b1) (hb : b.StatusesPersisted) :
    b1.StatusesPersisted := by
  cases h with
  | keep => exact hb
  | @node block p _ _ _ _ =>
      intro k hk
      by_cases hn : k = (BlockNode.child block p).hash
      · exact .inl (hn ▸ List.mem_cons_self _ _)
      · rw [BlockChain.index_addNode, if_neg hn] at hk
        rcases hb k hk with hm | hdb
        · exact .inl (List.mem_cons_of_mem _ hm)
        · exact .inr (by rw [BlockChain.status_addNode, if_neg hn]; exact hdb)

theorem BlockChain.StatusesPersisted.ofGenesis (g : Block) (t0 s0 : BitVec 64) :
    (BlockChain.ofGenesis g t0 s0).StatusesPersisted := fun h hh => by
  obtain ⟨n, hn⟩ := Option.ne_none_iff_exists'.mp hh
  obtain ⟨rfl, -⟩ := BlockChain.index_ofGenesis hn
  exact .inr (by simp [BlockChain.ofGenesis])

end Persisted

theorem statuses_persisted_of_run {env : Env} {allowed : Oracle -> Op -> Prop} {g : Block}
    {t0 s0 : BitVec 64} {b : BlockChain}
    (hr : Reachable env allowed (BlockChain.ofGenesis g t0 s0) b) :
    ∀ h, b.index h ≠ none -> h ∈ b.modified ∨ b.db.blockIndex h = some (b.status h) :=
  Reachable.of_writes env (BlockChain.StatusesPersisted.ofGenesis g t0 s0)
    (fun _ _ hacc hb => hacc.statusesPersisted hb) (fun _ _ hw hb => hw.statusesPersisted hb) hr

theorem statuses_persisted_sampleForkChain :
    sampleSibling.hash ∈ sampleForkChain.modified ∨
      sampleForkChain.db.blockIndex sampleSibling.hash =
        some (sampleForkChain.status sampleSibling.hash) :=
  statuses_persisted_of_run reachable_sampleForkChain _ (by decide)

/-!
## The database record describes the tip
-/

/-- The stored best state is the snapshot, and the best node of the stake database the tip. -/
structure BlockChain.RecordMatches (b : BlockChain) : Prop where
  bestState : b.db.bestState = b.stateSnapshot
  stakeTip : b.db.stakeTip = b.bestChain.tip.hash

section Record

variable {b b' b1 : BlockChain}

theorem Write.recordMatches (h : Write b b') (hb : b.RecordMatches) : b'.RecordMatches := by
  cases h with
  | commit => exact ⟨rfl, rfl⟩
  | _ => exact ⟨hb.bestState, hb.stakeTip⟩

theorem Accept.recordMatches (h : Accept b b1) (hb : b.RecordMatches) : b1.RecordMatches := by
  cases h with
  | keep => exact hb
  | node _ _ _ _ => exact ⟨hb.bestState, hb.stakeTip⟩

end Record

theorem record_matches_of_run {env : Env} {allowed : Oracle -> Op -> Prop} {g : Block}
    {t0 s0 : BitVec 64} {b : BlockChain}
    (hr : Reachable env allowed (BlockChain.ofGenesis g t0 s0) b) :
    b.db.bestState = b.stateSnapshot ∧ b.db.stakeTip = b.bestChain.tip.hash :=
  have h := Reachable.of_writes env (I := BlockChain.RecordMatches) ⟨rfl, rfl⟩
    (fun _ _ hacc hb => hacc.recordMatches hb) (fun _ _ hw hb => hw.recordMatches hb) hr
  ⟨h.bestState, h.stakeTip⟩

theorem record_matches_sampleForkChain :
    sampleForkChain.db.bestState = sampleForkChain.stateSnapshot ∧
      sampleForkChain.db.stakeTip = sampleForkChain.bestChain.tip.hash :=
  record_matches_of_run reachable_sampleForkChain

end DcrdChain
