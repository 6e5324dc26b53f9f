import DcrdChain.RefineCache

/-!
# The notifications follow the best chain

A subscriber to the notifications of the chain, a wallet or an index, keeps the main chain
as the list of its hashes, the tip first: `blockConnected` pushes the connected block on its
parent, `blockDisconnected` pops the disconnected block off down to its parent, and the
other notifications leave the list.  Along every run of operations that return, from the
chain of a new database, replaying the notifications in the order they were sent gives the
hashes of the best chain: each change of the tip is announced, in order, and nothing else
moves the list.

Each operation is taken through the lemma that says what it leaves when it returns: a
`connectBlock` announces the block it connects on the tip, a `disconnectBlock` the tip it
disconnects, a reorganization its path down to the fork point and then its path up from
it, and all else an operation does leaves the notifications and the best chain alone.
-/

namespace DcrdChain

/-!
## The subscriber
-/

/-- One notification applied to a subscriber's hashes, tip first; `none` if it does not fit. -/
def followNotification (hs : List Hash) : Notification -> Option (List Hash)
  | .blockConnected block parent =>
      if hs.head? = some parent.hash then some (block.hash :: hs) else none
  | .blockDisconnected block parent =>
      if hs.head? = some block.hash ∧ hs.tail.head? = some parent.hash then some hs.tail else none
  | _ => some hs

/-- The notifications, applied in the order they were sent. -/
def followNotifications (hs : List Hash) (ns : List Notification) : Option (List Hash) :=
  ns.foldlM followNotification hs

/-- The hashes of the best chain, the tip first. -/
def BlockChain.mainChainHashes (b : BlockChain) : List Hash :=
  b.bestChain.tip.ancestors.map BlockNode.hash

theorem followNotifications_append (hs : List Hash) (ns ms : List Notification) :
    followNotifications hs (ns ++ ms) =
      followNotifications hs ns >>= fun hs' => followNotifications hs' ms :=
  List.foldlM_append _ _ _ _

theorem head?_map_hash_ancestors (n : BlockNode) :
    (n.ancestors.map BlockNode.hash).head? = some n.hash := by
  rw [List.head?_map, BlockNode.head?_ancestors]
  rfl

theorem followNotifications_stakeNotifications (env : Env) (n : BlockNode) (hs : List Hash) :
    followNotifications hs (stakeNotifications env n) = some hs := by
  unfold stakeNotifications
  split_ifs <;> rfl

theorem followNotifications_connected (env : Env) {hs : List Hash} {n p : BlockNode}
    (hp : hs.head? = some p.hash) :
    followNotifications hs (.blockConnected n.block p.block :: stakeNotifications env n) =
      some (n.hash :: hs) := by
  have hp' : hs.head? = some p.block.hash := hp
  rw [followNotifications, List.foldlM_cons]
  simp only [followNotification, if_pos hp']
  exact followNotifications_stakeNotifications env n _

theorem followNotifications_disconnectNotifications (f : BlockNode) :
    ∀ detach : List BlockNode, followNotifications ((detach ++ f.ancestors).map BlockNode.hash)
      (disconnectNotifications (detach ++ [f])) = some (f.ancestors.map BlockNode.hash)
  | [] => rfl
  | n :: rest => by
      have htop : ((rest ++ f.ancestors).map BlockNode.hash).head? =
          some (rest.headD f).block.hash := by
        cases rest with
        | nil => exact head?_map_hash_ancestors f
        | cons r _ => rfl
      rw [List.cons_append, List.cons_append, disconnectNotifications_cons_append,
        followNotifications, List.foldlM_cons]
      simp only [List.map_cons, followNotification, List.head?_cons, List.tail_cons]
      rw [if_pos ⟨rfl, htop⟩]
      exact followNotifications_disconnectNotifications f rest

theorem followNotifications_connectNotifications (env : Env) :
    ∀ (prev : BlockNode) (attach : List BlockNode) (hs : List Hash), hs.head? = some prev.hash ->
      followNotifications hs (connectNotifications env (prev :: attach)) =
        some (attach.reverse.map BlockNode.hash ++ hs)
  | _, [], _, _ => rfl
  | prev, n :: rest, hs, htop => by
      rw [connectNotifications, followNotifications_append, followNotifications_connected env htop]
      refine (followNotifications_connectNotifications env n rest (n.hash :: hs) rfl).trans ?_
      simp

theorem followNotifications_reorganization (env : Env) {t f n : BlockNode}
    {detach attach : List BlockNode} (hdown : t.ancestors = detach ++ f.ancestors)
    (hup : n.ancestors = attach.reverse ++ f.ancestors) :
    followNotifications (t.ancestors.map BlockNode.hash)
      (reorganizationNotifications env t f n detach attach) =
        some (n.ancestors.map BlockNode.hash) := by
  rw [reorganizationNotifications, followNotifications_append, followNotifications_append,
    followNotifications_append, hdown]
  show (followNotifications ((detach ++ f.ancestors).map BlockNode.hash)
    (disconnectNotifications (detach ++ [f])) >>= _) >>= _ = _
  rw [followNotifications_disconnectNotifications]
  show followNotifications _ (connectNotifications env (f :: attach)) >>= _ = _
  rw [followNotifications_connectNotifications env f attach _ (head?_map_hash_ancestors f), hup,
    List.map_append]
  rfl

/-!
## Steps that keep the subscriber in step
-/

/-- The notifications `b'` adds take a subscriber from the best chain of `b` to that of `b'`. -/
def Notified (b b' : BlockChain) : Prop :=
  ∃ L, b'.ntfns = b.ntfns ++ L ∧ followNotifications b.mainChainHashes L = some b'.mainChainHashes

section Notified

variable {b b₁ b' : BlockChain}

theorem Notified.of_eq (hn : b'.ntfns = b.ntfns) (hb : b'.bestChain = b.bestChain) :
    Notified b b' :=
  ⟨[], by rw [hn, List.append_nil], by simp only [BlockChain.mainChainHashes, hb]; rfl⟩

theorem Notified.trans (h₁ : Notified b b₁) (h₂ : Notified b₁ b') : Notified b b' := by
  obtain ⟨L₁, hn₁, hf₁⟩ := h₁
  obtain ⟨L₂, hn₂, hf₂⟩ := h₂
  exact ⟨L₁ ++ L₂, by rw [hn₂, hn₁, List.append_assoc], by
    rw [followNotifications_append, hf₁]
    exact hf₂⟩

end Notified

variable (env : Env) (o : Oracle)

section Calls

variable {w w' : World} {node p : BlockNode} {view v : UtxoViewpoint}

theorem Notified.connectBlock {stxos : Nat} (hp : node.parent = some p)
    (htip : p = w.chain.bestChain.tip)
    (h : DcrdChain.connectBlock env o node node.block p.block view stxos w = .ok v w') :
    Notified w.chain w'.chain := by
  obtain ⟨-, -, -, -, _, _, -, hw'⟩ := connectBlock_ok env o h
  refine ⟨.blockConnected node.block p.block :: stakeNotifications env node, ?_, ?_⟩
  · rw [hw', List.append_assoc]
    rfl
  · have hhash : w'.chain.mainChainHashes = node.ancestors.map BlockNode.hash := by
      rw [hw']
      rfl
    rw [hhash, BlockNode.ancestors_of_parent hp, List.map_cons, BlockChain.mainChainHashes, ← htip]
    exact followNotifications_connected env (head?_map_hash_ancestors p)

theorem Notified.disconnectBlock (hp : w.chain.bestChain.tip.parent = some p)
    (h : DcrdChain.disconnectBlock env o w.chain.bestChain.tip w.chain.bestChain.tip.block p.block
      view w = .ok v w') :
    Notified w.chain w'.chain := by
  obtain ⟨-, -, -, prevNode, hprev, _, -, hw'⟩ := disconnectBlock_ok env o h
  obtain rfl : prevNode = p := Option.some_injective _ (hprev.symm.trans hp)
  refine ⟨[.blockDisconnected w.chain.bestChain.tip.block prevNode.block], ?_, ?_⟩
  · rw [hw']
    rfl
  · have hhash : w'.chain.mainChainHashes = prevNode.ancestors.map BlockNode.hash := by
      rw [hw']
      rfl
    rw [hhash, BlockChain.mainChainHashes, BlockNode.ancestors_of_parent hp, List.map_cons,
      followNotifications, List.foldlM_cons]
    simp only [followNotification, List.head?_cons, List.tail_cons]
    rw [if_pos ⟨rfl, head?_map_hash_ancestors prevNode⟩]
    rfl

theorem Notified.reorganize {detach attach : List BlockNode} {w₁ w₂ : World}
    (hc : Consistent w.chain) (hn : w.chain.index node.hash = some node)
    (hnodes : getReorganizeNodes node w = .ok (detach, attach) w₁)
    (h : reorganizeChain env o detach attach w₁ = .ok () w₂) : Notified w.chain w₂.chain := by
  by_cases hne : (detach.isEmpty && attach.isEmpty) = false
  · obtain ⟨fork, hdown, hup, -, hntfns, htip⟩ := reorganizeChain_ok env o hc hn hnodes hne h
    refine ⟨_, hntfns, ?_⟩
    rw [BlockChain.mainChainHashes, BlockChain.mainChainHashes, htip]
    exact followNotifications_reorganization env hdown hup
  · simp only [Bool.not_eq_false, Bool.and_eq_true, List.isEmpty_iff] at hne
    obtain ⟨rfl, rfl⟩ := hne
    rw [reorganizeChain_nil] at h
    cases h
    have hso := ((Frame.getReorganizeNodes node).ok hnodes).1
    exact .of_eq hso.ntfns hso.bestChain

end Calls

/-!
## What each operation that returns announces
-/

/-- A change that sends nothing and keeps the best chain. -/
structure Quiet (b b' : BlockChain) : Prop where
  ntfns : b'.ntfns = b.ntfns
  bestChain : b'.bestChain = b.bestChain

instance : IsRefl BlockChain Quiet :=
  ⟨fun _ => ⟨rfl, rfl⟩⟩

instance : IsTrans BlockChain Quiet :=
  ⟨fun _ _ _ h₁ h₂ => ⟨h₂.ntfns.trans h₁.ntfns, h₂.bestChain.trans h₁.bestChain⟩⟩

theorem Frame.quiet_of_statusOnly {α : Type} {x : ChainM α} (hx : Frame StatusOnly x) :
    Frame Quiet x :=
  hx.mono fun _ _ h => ⟨h.ntfns, h.bestChain⟩

theorem Frame.quiet_of_bookkeeping {α : Type} {x : ChainM α} (hx : Frame Bookkeeping x) :
    Frame Quiet x :=
  hx.mono fun _ _ h => ⟨h.ntfns, h.bestChain⟩

theorem Notified.of_quiet {b b' : BlockChain} (h : Quiet b b') : Notified b b' :=
  .of_eq h.ntfns h.bestChain

instance : IsRefl BlockChain Notified :=
  ⟨fun _ => .of_eq rfl rfl⟩

instance : IsTrans BlockChain Notified :=
  ⟨fun _ _ _ => Notified.trans⟩

section Extend

open BlockStatus

variable {node p : BlockNode}

theorem Returns.notified_of_reads {α : Type} {P : BlockChain -> Prop} {x : ChainM α} (hx : Reads x) :
    Returns Notified P x (fun _ => P) :=
  Returns.of_frame hx (fun b _ h => h ▸ refl_of Notified b) fun _ _ _ hP h => h ▸ hP

theorem Returns.notified_quiet {α : Type} {x : ChainM α} (hx : Frame Quiet x) :
    Returns Notified (fun b => b.bestChain.tip = p) x (fun _ b => b.bestChain.tip = p) :=
  Returns.of_frame hx (fun _ _ h => .of_quiet h) fun _ _ _ hP h => by rw [h.bestChain]; exact hP

theorem Returns.notified_connectBlock {view : UtxoViewpoint} {stxos : Nat}
    (hp : node.parent = some p) :
    Returns Notified (fun b => b.bestChain.tip = p)
      (DcrdChain.connectBlock env o node node.block p.block view stxos) (fun _ _ => True) :=
  fun _ _ _ hP h => ⟨Notified.connectBlock env o hp hP.symm h, trivial⟩

theorem Returns.notified_connectExtend_connect (hp : node.parent = some p)
    (y : UtxoViewpoint × Nat) (fastAdd : Bool) :
    Returns Notified (fun b => b.bestChain.tip = p)
      (if fastAdd = true then do
          let view ← fetchInputUtxos o y.1
          let y ← connectTransactions o view node.block
          let _ ← DcrdChain.connectBlock env o node node.block p.block y.1 y.2
          Pure.pure PUnit.unit
        else do
          let y ← Pure.pure (y.1, y.2)
          let _ ← DcrdChain.connectBlock env o node node.block p.block y.1 y.2
          Pure.pure PUnit.unit) (fun _ _ => True) := by
  have hc : ∀ (view : UtxoViewpoint) (stxos : Nat), Returns Notified
      (fun b => b.bestChain.tip = p)
      (DcrdChain.connectBlock env o node node.block p.block view stxos >>= fun _ =>
        Pure.pure PUnit.unit) (fun _ _ => True) := fun _ _ =>
    Returns.bind (Returns.notified_connectBlock env o hp) fun _ => Returns.pure fun _ _ => trivial
  refine Returns.ite (fun _ => ?_) fun _ => Returns.bind_of_eq (fun _ => rfl) (hc _ _)
  exact Returns.bind (Returns.notified_quiet (Reads.fetchInputUtxos o _).frame) fun _ =>
    Returns.bind (Returns.notified_quiet (Reads.connectTransactions o _ _).frame) fun _ => hc _ _

theorem Returns.notified_connectExtend_tail {b0 : BlockChain} (hp : node.parent = some p)
    (htip : b0.bestChain.tip = p) (y : UtxoViewpoint × Nat) (fastAdd : Bool) :
    Returns Notified (fun b => b = b0) (do
      let y ← Pure.pure y
      if (!decide (b0.status node.hash).KnownValid) = true then
        DcrdChain.setStatusFlags node statusValid
        flushBlockIndexWarnOnly o
      let (view, stxos) ← if (fastAdd || decide (b0.status node.hash).KnownValid) = true then do
          let view ← fetchInputUtxos o y.1
          connectTransactions o view node.block
        else Pure.pure (y.1, y.2)
      let _ ← DcrdChain.connectBlock env o node node.block p.block view stxos)
      (fun _ _ => True) := by
  refine Returns.bind_of_eq (fun _ => rfl) (Returns.mono (P := fun b => b.bestChain.tip = p)
    ?_ (fun b hb => hb ▸ htip) fun _ _ h => h)
  refine Returns.ite (fun _ => ?_) fun _ =>
    Returns.bind_of_eq (fun _ => rfl) (Returns.notified_connectExtend_connect env o hp _ _)
  exact Returns.bind (Returns.notified_quiet (Frame.setStatusFlags node statusValid).quiet_of_statusOnly)
    fun _ => Returns.bind (Returns.notified_quiet (Frame.flushBlockIndexWarnOnly o).quiet_of_bookkeeping)
      fun _ => Returns.notified_connectExtend_connect env o hp _ _

theorem Returns.notified_connectExtend {fastAdd : Bool} (hp : node.parent = some p) :
    Returns Notified (fun b => b.bestChain.tip = p)
      (DcrdChain.connectExtend env o node node.block p.block fastAdd) (fun _ _ => True) := by
  unfold DcrdChain.connectExtend
  refine Returns.getChain_bind fun b0 htip => ?_
  refine Returns.ite (fun _ => Returns.bind (Returns.notified_of_reads (Reads.checkConnectBlock o _ _))
    fun r => ?_) fun _ => Returns.notified_connectExtend_tail env o hp htip _ _
  rcases r with err | result
  · /- A rule violation marks the block and is thrown. -/
    refine Returns.mono (P := fun b => b.bestChain.tip = p) ?_ (fun b hb => hb ▸ htip)
      fun _ _ h => h
    exact Returns.ite (fun _ => Returns.bind (Returns.notified_quiet
      (Frame.setStatusFlags _ _).quiet_of_statusOnly) fun _ => Returns.bind (Returns.notified_quiet
        (Frame.flushBlockIndexWarnOnly o).quiet_of_bookkeeping) fun _ => Returns.throw_bind)
      fun _ => Returns.bind_of_eq (fun _ => rfl) Returns.throw_bind
  · exact Returns.notified_connectExtend_tail env o hp htip _ _

theorem Returns.notified_connectBestChain {flags : BehaviorFlags} (hp : node.parent = some p) :
    Returns Notified (fun b => Tree b ∧ b.index node.hash = some node)
      (DcrdChain.connectBestChain env o node node.block p.block flags) (fun _ _ => True) := by
  unfold DcrdChain.connectBestChain
  refine Returns.bind_of_eq (a := p) (fun _ => by rw [hp]; rfl) ?_
  refine Returns.guard fun _ => Returns.getChain_bind fun b0 ⟨ht, hn⟩ => ?_
  refine Returns.ite (fun hext => ?_) fun _ => Returns.ite (fun _ => ?_) fun _ => ?_
  · /- The node extends the tip, its parent. -/
    have htip := (ht.parent_eq_tip hn hp hext).symm
    exact Returns.bind (Returns.mono (Returns.notified_connectExtend env o hp)
      (fun b hb => hb ▸ htip) fun _ _ h => h) fun _ => Returns.pure fun _ _ => trivial
  · exact Returns.bind (Returns.notified_of_reads (Reads.deref _)) fun _ =>
      Returns.pure fun _ _ => trivial
  · /- The reorganization to a heavier branch, and the flush after it. -/
    refine Returns.bind_of_eq (fun _ => rfl) fun w _ w' hw h => ?_
    obtain ⟨⟨detach, attach⟩, w₁, hnodes, h⟩ := bind_eq_ok.mp h
    obtain ⟨-, w₂, hre, hbk, -⟩ := attemptFlush_ok o h
    subst hw
    exact ⟨(Notified.reorganize env o ht.consistent hn hnodes hre).trans
      (.of_eq hbk.ntfns hbk.bestChain), trivial⟩

end Extend

theorem Notified.forceHeadReorganization {f n : Hash} {w w' : World} (ht : Tree w.chain)
    (h : DcrdChain.forceHeadReorganization env o f n w = .ok () w') : Notified w.chain w'.chain := by
  unfold DcrdChain.forceHeadReorganization at h
  obtain ⟨⟨detach, attach⟩, w₁, hnodes, h⟩ := bind_eq_ok.mp h
  obtain ⟨-, w₂, hre, hbk, -⟩ := attemptFlush_ok o h
  obtain ⟨-, -, N, hN, -, -, w₃, hm, -, hg⟩ := forceHeadReorganizationNodes_ok env o ht hnodes
  have hN₃ : w₃.chain.index N.hash = some N := by
    rw [ht.keys _ _ hN]
    exact hm.indexed hN
  exact (Notified.of_eq hm.2.ntfns hm.bestChain).trans
    ((Notified.reorganize env o (hm.tree ht).consistent hN₃ hg hre).trans
      (.of_eq hbk.ntfns hbk.bestChain))

theorem Notified.okStep {op : Op} {b b' : BlockChain} (ht : Tree b) (h : OkStep env o op b b') :
    Notified b b' := by
  obtain ⟨w', hr, rfl⟩ := h
  cases op with
  | processBlock block flags =>
      obtain ⟨p, hp, -, hfresh, -, hr⟩ := Op.run_processBlock hr
      obtain ⟨_, w₁, hc, hpure⟩ := bind_eq_ok.mp hr
      cases hpure
      exact (Notified.of_eq rfl rfl : Notified b (b.addNode (.child block p))).trans
        (Returns.notified_connectBestChain env o (BlockNode.parent_child block p) _ _ _
          ⟨ht.addNode hp hfresh, BlockChain.index_addNode_self _⟩ hc).1
  | forceHeadReorganization f n =>
      exact Notified.forceHeadReorganization env o ht (Option.some_injective _ hr)
  | connectBlock node view stxos =>
      obtain ⟨p, hp, hn, hr⟩ := Op.run_connectBlock hr
      obtain ⟨_, w₁, hc, hpure⟩ := bind_eq_ok.mp hr
      cases hpure
      exact Notified.connectBlock env o hp (ht.parent_eq_tip hn hp (connectBlock_ok env o hc).2.1) hc
  | disconnectBlock view =>
      obtain ⟨p, hp, hr⟩ := Op.run_disconnectBlock hr
      obtain ⟨_, w₁, hc, hpure⟩ := bind_eq_ok.mp hr
      cases hpure
      exact Notified.disconnectBlock env o (w := World.start b) hp hc

/-!
## Runs
-/

theorem notifications_follow_best_chain {g : Block} {t0 s0 : BitVec 64} {b : BlockChain}
    (h : OkRun env (BlockChain.ofGenesis g t0 s0) b) :
    followNotifications [g.hash] b.ntfns = some b.mainChainHashes := by
  have ht := Tree.ofGenesis g t0 s0
  have hn : Notified (BlockChain.ofGenesis g t0 s0) b := by
    induction h with
    | refl => exact .of_eq rfl rfl
    | tail hrun hs ih =>
        obtain ⟨o, op, hs⟩ := hs
        exact ih.trans (Notified.okStep env o (ht.cacheRun env (OkRun.cacheRun env ht hrun)) hs)
  obtain ⟨L, hL, hf⟩ := hn
  rw [hL]
  exact hf

theorem notifications_follow_best_chain_sampleChild :
    followNotifications [sampleGenesis.hash]
        ((Op.processBlock sampleChild ⟨false⟩).apply sampleEnv Oracle.allOk
          (BlockChain.ofGenesis sampleGenesis 0 0)).ntfns =
      some ((Op.processBlock sampleChild ⟨false⟩).apply sampleEnv Oracle.allOk
          (BlockChain.ofGenesis sampleGenesis 0 0)).mainChainHashes :=
  notifications_follow_best_chain sampleEnv
    (.single ⟨Oracle.allOk, .processBlock sampleChild ⟨false⟩, _, rfl, rfl⟩)

end DcrdChain
