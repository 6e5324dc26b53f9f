import DcrdChain.Moves
import DcrdChain.TipTransition

/-!
# Tip transitions are moves

`connectBlock` and `disconnectBlock` are runs of moves, whatever the collaborators answer:
bookkeeping, at most one change of the tip, notifications and the cache update.  The
change of the tip is a `Move.connect` because `connectBlock` checks that the block
extends the tip and its callers pass an indexed node with its own block and its parent's;
it is a `Move.disconnect` because `disconnectBlock` checks that the node is the tip.
-/

namespace DcrdChain

open BlockStatus

section Rules

variable {env : Env} {s : Bool} {P : BlockChain -> Prop} {E : ChainError -> BlockChain -> Prop}

theorem Spec.sendNotification {n : Notification} {Q : Unit -> BlockChain -> Prop}
    (h : ∀ b, P b -> Q () { b with ntfns := b.ntfns ++ [n] }) :
    Spec (Moves env s) P (sendNotification n) Q E :=
  Spec.move fun b hb => ⟨.notify n, h b hb⟩

theorem Moves.indexed {b b' : BlockChain} {k : Hash} {n : BlockNode} (h : Moves env s b b')
    (hn : b.index k = some n) : b'.index k = some n := by
  rw [h.index, hn]

end Rules

variable (env : Env) (o : Oracle) {s : Bool} {node p : BlockNode} {block parent : Block}
  {view : UtxoViewpoint} {stxos : Nat}

/-!
## connectBlock
-/

theorem Spec.connectBlockCommit (hp : node.parent = some p) (hblock : block = node.block)
    (hparent : parent = p.block) :
    Spec (Moves env s)
      (fun b => b.index node.hash = some node ∧ (s = true -> (b.status node.hash).KnownValid))
      (connectBlockCommit env o node block parent view stxos)
      (fun _ b => b.index node.hash = some node) (fun _ _ => True) := by
  unfold DcrdChain.connectBlockCommit
  refine Spec.getChain_bind fun b0 hP => Spec.guard (fun _ _ => trivial) fun hprev =>
    Spec.bind (Spec.of_reads (Reads.countSpentOutputs env _ _)) fun _ =>
    Spec.guard (fun _ _ => trivial) fun _ => ?_
  refine Spec.bind (Spec.bookkeeping (S := fun c => Bookkeeping b0 c) (Frame.flushBlockIndex o)
    fun _ _ h1 h2 => by subst h1; exact h2) fun _ => ?_
  refine Spec.bind (Spec.bookkeeping (S := fun c => Bookkeeping b0 c)
    (Frame.fetchStakeNode env o node) fun _ _ h1 h2 => trans_of Bookkeeping h1 h2) fun sn => ?_
  refine Spec.getChain_bind fun b2 hb => ?_
  refine Spec.bind (Spec.of_reads (Reads.calcNextRequiredStakeDifficulty env o node)) fun nsd =>
    Spec.bind (Spec.of_reads (Reads.connectBlockDbUpdate env o _ _ _ _ _)) fun db =>
    Spec.bind (Spec.move fun c hc => ?_) fun _ => Spec.pure fun _ h => h
  subst hc
  have hidx : c.index node.hash = some node := by rw [hb.index]; exact hP.1
  exact ⟨.connect db sn nsd (by rw [hb.bestChain]; exact not_not.mp hprev) hidx hp hblock hparent
    fun hs => by rw [hb.status]; exact hP.2 hs, hidx⟩

theorem Spec.sendStakeNotifications :
    Spec (Moves env s) (fun _ => True) (sendStakeNotifications env o node) (fun _ _ => True)
      (fun _ _ => True) := by
  unfold DcrdChain.sendStakeNotifications
  refine Spec.ite (fun _ => ?_) fun _ => Spec.pure fun _ h => h
  exact Spec.bind (Spec.of_reads (Reads.calcNextRequiredStakeDifficulty env o node)) fun _ =>
    Spec.bind (Spec.sendNotification fun _ h => h) fun _ => Spec.sendNotification fun _ h => h

theorem Spec.dropParentStakeData :
    Spec (Moves env s) (fun _ => True) (dropParentStakeData env node) (fun _ _ => True)
      (fun _ _ => True) := by
  unfold DcrdChain.dropParentStakeData
  refine Spec.ite (fun _ => Spec.getChain_bind fun _ _ => ?_) fun _ => Spec.pure fun _ h => h
  split
  · exact Spec.panicf fun _ _ => trivial
  · exact Spec.bookkeeping (Frame.setStakeFields _ _) fun _ _ _ _ => trivial

theorem Spec.connectBlockAfterNotify :
    Spec (Moves env s) (fun b => b.index node.hash = some node)
      (connectBlockAfterNotify env o node node.block) (fun _ _ => True) (fun _ _ => True) := by
  have hI : ∀ b b', Moves env s b b' -> b.index node.hash = some node ->
      b'.index node.hash = some node := fun _ _ h hn => h.indexed hn
  exact Spec.bind (Spec.keep (Spec.sendStakeNotifications env o) hI) fun _ =>
    Spec.bind (Spec.keep (Spec.dropParentStakeData env) hI) fun _ =>
    Spec.move fun _ hb => ⟨.pushCache hb, trivial⟩

theorem Spec.connectBlock (hp : node.parent = some p) (hblock : block = node.block)
    (hparent : parent = p.block) :
    Spec (Moves env s)
      (fun b => b.index node.hash = some node ∧ (s = true -> (b.status node.hash).KnownValid))
      (connectBlock env o node block parent view stxos) (fun _ _ => True) (fun _ _ => True) := by
  unfold DcrdChain.connectBlock
  subst hblock
  exact Spec.bind (Spec.recordTipCall fun _ h => h) fun _ =>
    Spec.bind (Spec.connectBlockCommit env o hp rfl hparent) fun _ =>
    Spec.bind (Spec.keep (Spec.sendNotification fun _ _ => trivial) fun _ _ h hn => h.indexed hn)
    fun _ => Spec.bind (Spec.connectBlockAfterNotify env o) fun _ => Spec.pure fun _ _ => trivial

/-!
## disconnectBlock
-/

theorem Spec.disconnectBlockCommit (hp : node.parent = some p) (hblock : block = node.block)
    (hparent : parent = p.block) :
    Spec (Moves env s) (fun b => b.index node.hash = some node)
      (disconnectBlockCommit env o node block parent view) (fun _ _ => True) (fun _ _ => True) := by
  unfold DcrdChain.disconnectBlockCommit
  refine Spec.getChain_bind fun b0 hP => Spec.guard (fun _ _ => trivial) fun hnode => ?_
  refine Spec.bind (Spec.bookkeeping (S := fun c => Bookkeeping b0 c) (Frame.flushBlockIndex o)
    fun _ _ h1 h2 => by subst h1; exact h2) fun _ => ?_
  refine Spec.bind (Spec.bookkeeping (S := fun c => Bookkeeping b0 c)
    (Frame.fetchStakeNode env o node) fun _ _ h1 h2 => trans_of Bookkeeping h1 h2) fun _ => ?_
  rw [hp]
  refine Spec.bind (Spec.bookkeeping (S := fun c => Bookkeeping b0 c)
    (Frame.fetchStakeNode env o p) fun _ _ h1 h2 => trans_of Bookkeeping h1 h2) fun psn => ?_
  refine Spec.getChain_bind fun b2 hb => ?_
  refine Spec.bind (Spec.of_reads (Reads.disconnectBlockDbUpdate env o _ _ _ _ _)) fun db =>
    Spec.bind (Spec.move (Q := fun _ _ => True) fun c hc => ?_) fun _ => Spec.pure fun _ _ => trivial
  subst hc
  exact ⟨.disconnect db psn (by rw [hb.bestChain]; exact not_not.mp hnode)
    (by rw [hb.index]; exact hP) hp hblock hparent, trivial⟩

theorem Spec.disconnectBlock (hp : node.parent = some p) (hblock : block = node.block)
    (hparent : parent = p.block) :
    Spec (Moves env s) (fun b => b.index node.hash = some node)
      (disconnectBlock env o node block parent view) (fun _ _ => True) (fun _ _ => True) := by
  unfold DcrdChain.disconnectBlock
  exact Spec.bind (Spec.recordTipCall fun _ h => h) fun _ =>
    Spec.bind (Spec.disconnectBlockCommit env o hp hblock hparent) fun _ =>
    Spec.bind (Spec.sendNotification (Q := fun _ _ => True) fun _ _ => trivial) fun _ =>
    Spec.bind (Spec.move (Q := fun _ _ => True) fun _ _ => ⟨.dropCache block, trivial⟩) fun _ =>
    Spec.pure fun _ _ => trivial

end DcrdChain
