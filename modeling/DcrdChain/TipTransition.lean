import DcrdChain.Frame
import DcrdChain.Connect

/-!
# Tip transitions

What a successful `connectBlock` and `disconnectBlock` leave behind: the new tip, the
snapshot and the best-state record they publish and the work sum written beside the
record, the rest of the chain only as the flush and the stake nodes leave it.  A call
that fails before its database transaction commits changes only that bookkeeping.
-/

namespace DcrdChain

open BlockStatus

variable (env : Env) (o : Oracle) {w w' : World}

/-!
## The collaborators' answers
-/

theorem fetchStakeNode_ok {node : BlockNode} {s : StakeNode}
    (h : fetchStakeNode env o node w = .ok s w') : s = env.stakeNode node := by
  unfold fetchStakeNode at h
  rw [bind_eq_ok] at h
  obtain ⟨_, _, -, h⟩ := h
  rw [bind_eq_ok] at h
  obtain ⟨_, _, -, h⟩ := h
  cases h
  rfl

theorem calcNextRequiredStakeDifficulty_ok {node : BlockNode} {d : Int}
    (h : calcNextRequiredStakeDifficulty env o node w = .ok d w') :
    d = env.nextRequiredStakeDifficulty node := by
  unfold calcNextRequiredStakeDifficulty at h
  rw [bind_eq_ok] at h
  obtain ⟨_, _, -, h⟩ := h
  cases h
  rfl

theorem dbTransaction_ok {db db' : Database} (h : (do
      let _ ← askStore o
      let _ ← askStore o
      let _ ← askStore o
      let _ ← askStore o
      if env.hasIndexManager then
        let _ ← askStore o
      pure db : ChainM Database) w = .ok db' w') : db' = db := by
  rw [bind_eq_ok] at h
  obtain ⟨_, _, -, h⟩ := h
  rw [bind_eq_ok] at h
  obtain ⟨_, _, -, h⟩ := h
  rw [bind_eq_ok] at h
  obtain ⟨_, _, -, h⟩ := h
  rw [bind_eq_ok] at h
  obtain ⟨_, _, -, h⟩ := h
  split at h
  · rw [bind_eq_ok] at h
    obtain ⟨_, _, -, h⟩ := h
    rw [bind_eq_ok] at h
    obtain ⟨_, _, -, h⟩ := h
    cases h
    rfl
  · rw [bind_eq_ok] at h
    obtain ⟨_, _, -, h⟩ := h
    cases h
    rfl

theorem Reads.dbTransaction {db : Database} : Reads (do
      let _ ← DcrdChain.askStore o
      let _ ← DcrdChain.askStore o
      let _ ← DcrdChain.askStore o
      let _ ← DcrdChain.askStore o
      if env.hasIndexManager then
        let _ ← DcrdChain.askStore o
      Pure.pure db : ChainM Database) := by
  refine (Reads.askStore o).bind fun _ => (Reads.askStore o).bind fun _ =>
    (Reads.askStore o).bind fun _ => (Reads.askStore o).bind fun _ => ?_
  split
  · exact (Reads.askStore o).bind fun _ => (Reads.pure _).bind fun _ => Reads.pure _
  · exact (Reads.pure _).bind fun _ => Reads.pure _

theorem Reads.connectBlockDbUpdate (node : BlockNode) (block : Block) (view : UtxoViewpoint)
    (stxos : Nat) (state : BestState) :
    Reads (connectBlockDbUpdate env o node block view stxos state) :=
  Reads.getChain.bind fun _ => Reads.dbTransaction env o

theorem Reads.disconnectBlockDbUpdate (node prevNode : BlockNode) (block : Block)
    (view : UtxoViewpoint) (state : BestState) :
    Reads (disconnectBlockDbUpdate env o node prevNode block view state) :=
  Reads.getChain.bind fun _ => Reads.dbTransaction env o

/-!
## connectBlock
-/

/-- The chain `connectBlock` commits: its transaction written, `node` the tip, the snapshot `state`. -/
def connectCommitted (node : BlockNode) (block : Block) (view : UtxoViewpoint) (stxos : Nat)
    (state : BestState) (b : BlockChain) : BlockChain :=
  { b with
    db := { b.db with
      bestState := state
      workSum := node.workSum
      utxoSet := b.db.utxoSet ++ view.ops
      spendJournal := Function.update b.db.spendJournal block.hash (some stxos)
      stakeTip := node.hash }
    bestChain := b.bestChain.setTip node
    stateSnapshot := state }

variable {node : BlockNode} {block parent : Block} {view v : UtxoViewpoint} {stxos : Nat}

theorem connectBlockCommit_ok
    (h : connectBlockCommit env o node block parent view stxos w = .ok v w') :
    block.header.prevBlock = w.chain.bestChain.tip.hash ∧
      countSpentOutputs env block parent w = .ok stxos w ∧ v = view.commit ∧
      w'.tipCalls = w.tipCalls ∧
      exists b, Bookkeeping w.chain b ∧
        w'.chain = connectCommitted node block view stxos
          (connectBestState env node block parent w.chain.stateSnapshot (env.stakeNode node)
            (env.nextRequiredStakeDifficulty node)) b := by
  unfold connectBlockCommit at h
  by_cases hprev : block.header.prevBlock = w.chain.bestChain.tip.hash
  swap
  · simp [hprev] at h
  simp only [getChain_bind, hprev, ne_eq, not_true_eq_false, if_false, pure_bind_apply] at h
  rw [bind_eq_ok] at h
  obtain ⟨numSpent, w0, hcount, h⟩ := h
  cases countSpentOutputs_ok env hcount
  by_cases hstxos : stxos = numSpent
  swap
  · simp [hstxos] at h
  subst hstxos
  simp only [ne_eq, not_true_eq_false, if_false, pure_bind_apply] at h
  rw [bind_eq_ok] at h
  obtain ⟨_, w1, hflush, h⟩ := h
  rw [bind_eq_ok] at h
  obtain ⟨sn, w2, hstake, h⟩ := h
  simp only [getChain_bind] at h
  rw [bind_eq_ok] at h
  obtain ⟨nd, w3, hdiff, h⟩ := h
  rw [bind_eq_ok] at h
  obtain ⟨db, w4, hdb, h⟩ := h
  simp only [modifyChain_bind] at h
  cases h
  obtain ⟨hb1, ht1⟩ := (Frame.flushBlockIndex o).ok hflush
  obtain ⟨hb2, ht2⟩ := (Frame.fetchStakeNode env o node).ok hstake
  obtain ⟨hc3, ht3⟩ := (Reads.calcNextRequiredStakeDifficulty env o node).ok hdiff
  obtain ⟨hc4, ht4⟩ := (Reads.connectBlockDbUpdate env o _ _ _ _ _).ok hdb
  unfold connectBlockDbUpdate at hdb
  simp only [getChain_bind] at hdb
  unfold Same at hc3 hc4
  rw [dbTransaction_ok env o hdb, fetchStakeNode_ok env o hstake,
    calcNextRequiredStakeDifficulty_ok env o hdiff, hc4, hc3, hb2.stateSnapshot, hb1.stateSnapshot]
  exact ⟨hprev, hcount, rfl, ht4.trans (ht3.trans (ht2.trans ht1)), w2.chain,
    trans_of Bookkeeping hb1 hb2, rfl⟩

/-- The stake notifications `connectBlock` sends for `node` once stake is enabled. -/
def stakeNotifications (node : BlockNode) : List Notification :=
  if env.stakeEnabledHeight ≤ node.height then
    [.spentAndMissedTickets ⟨node.hash, node.height, env.nextRequiredStakeDifficulty node,
        (env.stakeNode node).spentByBlock, (env.stakeNode node).missedByBlock, []⟩,
      .newTickets ⟨node.hash, node.height, env.nextRequiredStakeDifficulty node, [], [],
        (env.stakeNode node).newTickets⟩]
  else []

theorem sendStakeNotifications_ok {u : Unit}
    (h : sendStakeNotifications env o node w = .ok u w') :
    w'.tipCalls = w.tipCalls ∧
      w'.chain = { w.chain with ntfns := w.chain.ntfns ++ stakeNotifications env node } := by
  unfold sendStakeNotifications at h
  unfold stakeNotifications
  split_ifs at h ⊢
  · rw [bind_eq_ok] at h
    obtain ⟨d, w1, hd, h⟩ := h
    obtain ⟨hc1, ht1⟩ := (Reads.calcNextRequiredStakeDifficulty env o node).ok hd
    rw [calcNextRequiredStakeDifficulty_ok env o hd] at h
    unfold Same at hc1
    cases h
    exact ⟨ht1, by rw [hc1]; simp [sendNotification, modifyChain]⟩
  · cases h
    exact ⟨rfl, by simp⟩

theorem dropParentStakeData_ok {u : Unit} (h : dropParentStakeData env node w = .ok u w') :
    w'.tipCalls = w.tipCalls ∧ exists sd, w'.chain = { w.chain with stakeData := sd } := by
  unfold dropParentStakeData at h
  split_ifs at h
  · simp only [getChain_bind] at h
    match w.chain.bestChain.tip.parent, h with
    | none, h => simp at h
    | some _, h =>
        cases h
        exact ⟨rfl, _, rfl⟩
  · cases h
    exact ⟨rfl, _, rfl⟩

theorem connectBlockAfterNotify_ok {u : Unit}
    (h : connectBlockAfterNotify env o node block w = .ok u w') :
    w'.tipCalls = w.tipCalls ∧ exists sd, w'.chain = pushMainChainBlockCache block
      { w.chain with ntfns := w.chain.ntfns ++ stakeNotifications env node, stakeData := sd } := by
  unfold connectBlockAfterNotify at h
  rw [bind_eq_ok] at h
  obtain ⟨_, w1, h1, h⟩ := h
  rw [bind_eq_ok] at h
  obtain ⟨_, w2, h2, h⟩ := h
  cases h
  obtain ⟨ht1, hc1⟩ := sendStakeNotifications_ok env o h1
  obtain ⟨ht2, sd, hc2⟩ := dropParentStakeData_ok env h2
  exact ⟨ht2.trans ht1, sd, by rw [hc2, hc1]⟩

theorem connectBlock_ok (h : connectBlock env o node block parent view stxos w = .ok v w') :
    w'.tipCalls = w.tipCalls ++ [.connectBlock node block parent] ∧
      block.header.prevBlock = w.chain.bestChain.tip.hash ∧
      (exists w₀, countSpentOutputs env block parent w₀ = .ok stxos w₀) ∧ v = view.commit ∧
      exists b sd, Bookkeeping w.chain b ∧
        w'.chain = pushMainChainBlockCache block
          { connectCommitted node block view stxos
              (connectBestState env node block parent w.chain.stateSnapshot (env.stakeNode node)
                (env.nextRequiredStakeDifficulty node)) b with
            ntfns := w.chain.ntfns ++ [.blockConnected block parent] ++ stakeNotifications env node
            stakeData := sd } := by
  unfold connectBlock at h
  rw [bind_eq_ok] at h
  obtain ⟨_, w1, h1, h⟩ := h
  cases h1
  rw [bind_eq_ok] at h
  obtain ⟨v1, w2, h2, h⟩ := h
  rw [bind_eq_ok] at h
  obtain ⟨_, w3, h3, h⟩ := h
  cases h3
  rw [bind_eq_ok] at h
  obtain ⟨_, w4, h4, h⟩ := h
  cases h
  obtain ⟨hprev, hstxos, rfl, ht2, b, hb, hc2⟩ := connectBlockCommit_ok env o h2
  obtain ⟨ht4, sd, hc4⟩ := connectBlockAfterNotify_ok env o h4
  refine ⟨by rw [ht4]; exact ht2, hprev, ⟨_, hstxos⟩, rfl, b, sd, hb, ?_⟩
  rw [hc4, hc2]
  simp only [sendNotification, modifyChain, connectCommitted, hb.ntfns]

theorem connectBlock_tip (h : connectBlock env o node block parent view stxos w = .ok v w') :
    w'.chain.bestChain.tip = node := by
  obtain ⟨-, -, -, -, _, _, -, hw⟩ := connectBlock_ok env o h
  rw [hw]
  rfl

/-!
## disconnectBlock
-/

/-- The chain `disconnectBlock` commits: its transaction written, `prevNode` the tip. -/
def disconnectCommitted (node prevNode : BlockNode) (block : Block) (view : UtxoViewpoint)
    (state : BestState) (b : BlockChain) : BlockChain :=
  { b with
    db := { b.db with
      bestState := state
      workSum := node.workSum
      utxoSet := b.db.utxoSet ++ view.ops
      spendJournal := Function.update b.db.spendJournal block.hash none
      stakeTip := prevNode.hash }
    bestChain := b.bestChain.setTip prevNode
    stateSnapshot := state }

theorem disconnectBlockCommit_ok
    (h : disconnectBlockCommit env o node block parent view w = .ok v w') :
    node.hash = w.chain.bestChain.tip.hash ∧ v = view.commit ∧ w'.tipCalls = w.tipCalls ∧
      exists prevNode, node.parent = some prevNode ∧ exists b, Bookkeeping w.chain b ∧
        w'.chain = disconnectCommitted node prevNode block view
          (disconnectBestState env node prevNode block parent w.chain.stateSnapshot
            (env.stakeNode prevNode)) b := by
  unfold disconnectBlockCommit at h
  by_cases hnode : node.hash = w.chain.bestChain.tip.hash
  swap
  · simp [hnode] at h
  simp only [getChain_bind, hnode, ne_eq, not_true_eq_false, if_false, pure_bind_apply] at h
  rw [bind_eq_ok] at h
  obtain ⟨_, w1, hflush, h⟩ := h
  rw [bind_eq_ok] at h
  obtain ⟨_, w2, hstake, h⟩ := h
  obtain ⟨hb1, ht1⟩ := (Frame.flushBlockIndex o).ok hflush
  obtain ⟨hb2, ht2⟩ := (Frame.fetchStakeNode env o node).ok hstake
  match hparent : node.parent, h with
  | none, h => simp at h
  | some prevNode, h =>
      rw [bind_eq_ok] at h
      obtain ⟨sn, w3, hstake', h⟩ := h
      simp only [getChain_bind] at h
      rw [bind_eq_ok] at h
      obtain ⟨db, w4, hdb, h⟩ := h
      simp only [modifyChain_bind] at h
      cases h
      obtain ⟨hb3, ht3⟩ := (Frame.fetchStakeNode env o prevNode).ok hstake'
      obtain ⟨hc4, ht4⟩ := (Reads.disconnectBlockDbUpdate env o _ _ _ _ _).ok hdb
      unfold disconnectBlockDbUpdate at hdb
      simp only [getChain_bind] at hdb
      unfold Same at hc4
      rw [dbTransaction_ok env o hdb, fetchStakeNode_ok env o hstake', hc4, hb3.stateSnapshot,
        hb2.stateSnapshot, hb1.stateSnapshot]
      exact ⟨hnode, rfl, ht4.trans (ht3.trans (ht2.trans ht1)), prevNode, rfl, w3.chain,
        trans_of Bookkeeping (trans_of Bookkeeping hb1 hb2) hb3, rfl⟩

theorem disconnectBlock_ok (h : disconnectBlock env o node block parent view w = .ok v w') :
    w'.tipCalls = w.tipCalls ++ [.disconnectBlock node block parent] ∧
      node.hash = w.chain.bestChain.tip.hash ∧ v = view.commit ∧
      exists prevNode, node.parent = some prevNode ∧ exists b, Bookkeeping w.chain b ∧
        w'.chain = dropMainChainBlockCache block
          { disconnectCommitted node prevNode block view
              (disconnectBestState env node prevNode block parent w.chain.stateSnapshot
                (env.stakeNode prevNode)) b with
            ntfns := w.chain.ntfns ++ [.blockDisconnected block parent] } := by
  unfold disconnectBlock at h
  rw [bind_eq_ok] at h
  obtain ⟨_, w1, h1, h⟩ := h
  cases h1
  rw [bind_eq_ok] at h
  obtain ⟨v1, w2, h2, h⟩ := h
  rw [bind_eq_ok] at h
  obtain ⟨_, w3, h3, h⟩ := h
  cases h3
  rw [bind_eq_ok] at h
  obtain ⟨_, w4, h4, h⟩ := h
  cases h4
  cases h
  obtain ⟨hnode, rfl, ht2, prevNode, hparent, b, hb, hc2⟩ := disconnectBlockCommit_ok env o h2
  refine ⟨ht2, hnode, rfl, prevNode, hparent, b, hb, ?_⟩
  show dropMainChainBlockCache block { w2.chain with ntfns := w2.chain.ntfns ++ _ } = _
  rw [hc2]
  simp only [disconnectCommitted, hb.ntfns]

end DcrdChain
