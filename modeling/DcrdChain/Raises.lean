import DcrdChain.Frame
import DcrdChain.BestChain

/-!
# The errors an operation raises

`Raises C x` says that every error `x` fails with, from any world, satisfies `C`.  The
errors of the engine come from its panics, from the store, from the validators and from a
few checks that throw; a class of errors holding for the panics and for a failed store call
holds for every operation built from them alone.  Two classes are used: the errors that are
not rule violations, and, for an oracle whose store never fails, the panics.
-/

namespace DcrdChain

/-- Every error `x` fails with satisfies `C`. -/
def Raises (C : ChainError -> Prop) {α : Type} (x : ChainM α) : Prop :=
  ∀ w e w', x w = .error e w' -> C e

/-- The error of a panic. -/
def ChainError.IsPanic : ChainError -> Prop
  | .panic _ => True
  | _ => False

/-- An oracle whose store answers every call. -/
structure StoreAnswers (o : Oracle) : Prop where
  store : ∀ i, o.store i ≠ none

/-- An oracle whose store answers and whose validators fail only on a rule violation. -/
structure NoFailure (o : Oracle) extends StoreAnswers o : Prop where
  verdict : ∀ i, o.verdict i ≠ .error .failure

/-- A call of the oracle to a validator fails with an error that is not a rule violation. -/
def Oracle.VerdictFails (o : Oracle) : Prop :=
  ∃ i, o.verdict i = .error .failure

theorem NoFailure.not_verdictFails {o : Oracle} (h : NoFailure o) : ¬ o.VerdictFails :=
  fun ⟨i, hi⟩ => h.verdict i hi

/-!
## Operations that raise nothing of their own
-/

section Compose

variable {α β γ : Type} {C : ChainError -> Prop} (o : Oracle)

theorem Raises.mono {C' : ChainError -> Prop} {x : ChainM α} (h : ∀ e, C e -> C' e)
    (hx : Raises C x) : Raises C' x := fun _ _ _ hw => h _ (hx _ _ _ hw)

theorem Raises.pure (a : α) : Raises C (Pure.pure a : ChainM α) := fun _ _ _ h => by
  cases h

theorem Raises.throw {e : ChainError} (he : C e) : Raises C (throw e : ChainM α) :=
  fun _ _ _ h => by
    cases h
    exact he

theorem Raises.getChain : Raises C getChain := fun _ _ _ h => by
  cases h

theorem Raises.modifyChain (g : BlockChain -> BlockChain) : Raises C (modifyChain g) :=
  fun _ _ _ h => by cases h

theorem Raises.recordTipCall (c : TipCall) : Raises C (recordTipCall c) := fun _ _ _ h => by
  cases h

theorem Raises.askValidator : Raises C (askValidator o) := fun _ _ _ h => by
  cases h

theorem Raises.bind {x : ChainM α} {f : α -> ChainM β} (hx : Raises C x)
    (hf : ∀ a, Raises C (f a)) : Raises C (x >>= f) := fun _ _ _ h => by
  rcases bind_eq_error.mp h with h | ⟨a, _, -, h⟩
  · exact hx _ _ _ h
  · exact hf a _ _ _ h

theorem Raises.ite {c : Prop} [Decidable c] {x y : ChainM α} (hx : Raises C x)
    (hy : Raises C y) : Raises C (if c then x else y) := by
  split <;> assumption

theorem Raises.forM {xs : List γ} {f : γ -> ChainM PUnit} (h : ∀ a ∈ xs, Raises C (f a)) :
    Raises C (xs.forM f) := by
  induction xs with
  | nil => exact Raises.pure _
  | cons a rest ih =>
      exact (h a (List.mem_cons_self _ _)).bind fun _ =>
        ih fun b hb => h b (List.mem_cons_of_mem _ hb)

theorem Raises.deferring {x : ChainM α} {d : ChainM Unit} (hx : Raises C x)
    (hd : Raises C d) : Raises C (deferring x d) := fun w e w' h => by
  unfold DcrdChain.deferring at h
  split at h <;> split at h <;> cases h
  · exact hd _ _ _ ‹_›
  · exact hx _ _ _ ‹_›
  · exact hd _ _ _ ‹_›

theorem Raises.checkConnectBlock (view : UtxoViewpoint) (block : Block) :
    Raises C (checkConnectBlock o view block) :=
  (Raises.askValidator o).bind fun _ => Raises.pure _

end Compose

/-!
## Panics and the store
-/

section Sources

variable {α : Type} {C : ChainError -> Prop} (o : Oracle) (env : Env)

section Panics

variable (hpanic : ∀ s, C (.panic s))
include hpanic

theorem Raises.panicf (s : PanicSite) : Raises C (panicf s : ChainM α) :=
  Raises.throw (hpanic s)

theorem Raises.attempt (x : ChainM α) : Raises C (attempt x) := fun w e w' h => by
  unfold DcrdChain.attempt at h
  split at h <;> cases h
  exact hpanic _

theorem Raises.flushBlockIndexWarnOnly : Raises C (flushBlockIndexWarnOnly o) :=
  (Raises.attempt hpanic _).bind fun _ => Raises.pure _

theorem Raises.guard {β : Type} {c : Prop} [Decidable c] {s : PanicSite} {k : PUnit -> ChainM β}
    (hk : Raises C (k PUnit.unit)) :
    Raises C (if c then DcrdChain.panicf s >>= k else Pure.pure PUnit.unit >>= k) :=
  Raises.ite ((Raises.panicf hpanic s).bind fun _ => hk) ((Raises.pure _).bind fun _ => hk)

theorem Raises.deref (x : Option α) : Raises C (deref x) := by
  cases x
  · exact Raises.panicf hpanic _
  · exact Raises.pure _

theorem Raises.sliceIndex (s : List α) (i : Nat) : Raises C (sliceIndex s i) := by
  unfold DcrdChain.sliceIndex
  split
  · exact Raises.pure _
  · exact Raises.panicf hpanic _

theorem Raises.sliceFrom (s : List α) (i : Nat) : Raises C (sliceFrom s i) :=
  Raises.ite (Raises.pure _) (Raises.panicf hpanic _)

theorem Raises.countSpentOutputs (block parent : Block) :
    Raises C (countSpentOutputs env block parent) :=
  (Raises.ite ((Raises.sliceFrom hpanic _ _).bind fun _ => Raises.pure _) (Raises.pure _)).bind
    fun _ => Raises.pure _

theorem Raises.checkReorganizeNodes (tip : BlockNode) (detachNodes attachNodes : List BlockNode) :
    Raises C (checkReorganizeNodes tip detachNodes attachNodes) := by
  refine Raises.bind ?_ fun _ => ?_
  · split
    · exact Raises.ite (Raises.panicf hpanic _) (Raises.pure _)
    · exact Raises.pure _
  · split
    · exact (Raises.deref hpanic _).bind fun _ => (Raises.deref hpanic _).bind fun _ =>
        Raises.ite (Raises.panicf hpanic _) (Raises.pure _)
    · exact Raises.pure _

end Panics

section Store

variable (hstore : ∀ i, o.store i = none -> C .failure)
include hstore

theorem Raises.askStore : Raises C (askStore o) := fun w _ _ h => by
  unfold DcrdChain.askStore at h
  split at h <;> cases h
  exact hstore _ ‹_›

theorem Raises.fetchInputUtxos (view : UtxoViewpoint) : Raises C (fetchInputUtxos o view) :=
  (Raises.askStore o hstore).bind fun _ => Raises.pure _

theorem Raises.connectTransactions (view : UtxoViewpoint) (block : Block) :
    Raises C (connectTransactions o view block) :=
  (Raises.askStore o hstore).bind fun _ => Raises.pure _

theorem Raises.disconnectTransactions (view : UtxoViewpoint) (block : Block) :
    Raises C (disconnectTransactions o view block) :=
  (Raises.askStore o hstore).bind fun _ => Raises.pure _

theorem Raises.fetchBlockByNode (n : BlockNode) : Raises C (fetchBlockByNode o n) :=
  Raises.getChain.bind fun _ => by
    split
    · exact Raises.pure _
    · split
      · exact Raises.pure _
      · exact (Raises.askStore o hstore).bind fun _ => Raises.pure _

theorem Raises.flushBlockIndex : Raises C (flushBlockIndex o) :=
  Raises.getChain.bind fun _ => (Raises.forM fun _ _ => Raises.getChain.bind fun _ =>
    Raises.ite (Raises.pure _) ((Raises.askStore o hstore).bind fun _ => Raises.modifyChain _))
    |>.bind fun _ => (Raises.askStore o hstore).bind fun _ => Raises.modifyChain _

theorem Raises.fetchStakeNode (n : BlockNode) : Raises C (fetchStakeNode env o n) :=
  (Raises.askStore o hstore).bind fun _ => (Raises.modifyChain _).bind fun _ => Raises.pure _

theorem Raises.calcNextRequiredStakeDifficulty (n : BlockNode) :
    Raises C (calcNextRequiredStakeDifficulty env o n) :=
  (Raises.askStore o hstore).bind fun _ => Raises.pure _

theorem Raises.dbTransaction {db : Database} : Raises C (do
      let _ ← DcrdChain.askStore o
      let _ ← DcrdChain.askStore o
      let _ ← DcrdChain.askStore o
      let _ ← DcrdChain.askStore o
      if env.hasIndexManager then
        let _ ← DcrdChain.askStore o
      Pure.pure db : ChainM Database) :=
  (Raises.askStore o hstore).bind fun _ => (Raises.askStore o hstore).bind fun _ =>
    (Raises.askStore o hstore).bind fun _ => (Raises.askStore o hstore).bind fun _ =>
    Raises.ite ((Raises.askStore o hstore).bind fun _ => Raises.pure _) (Raises.pure _)

theorem Raises.connectBlockDbUpdate (node : BlockNode) (block : Block) (view : UtxoViewpoint)
    (stxos : Nat) (state : BestState) :
    Raises C (connectBlockDbUpdate env o node block view stxos state) :=
  Raises.getChain.bind fun _ => Raises.dbTransaction o env hstore

theorem Raises.disconnectBlockDbUpdate (node prevNode : BlockNode) (block : Block)
    (view : UtxoViewpoint) (state : BestState) :
    Raises C (disconnectBlockDbUpdate env o node prevNode block view state) :=
  Raises.getChain.bind fun _ => Raises.dbTransaction o env hstore

variable (hpanic : ∀ s, C (.panic s))
include hpanic

theorem Raises.connectBlockCommit (node : BlockNode) (block parent : Block)
    (view : UtxoViewpoint) (stxos : Nat) :
    Raises C (connectBlockCommit env o node block parent view stxos) :=
  Raises.getChain.bind fun _ => Raises.guard hpanic <|
    (Raises.countSpentOutputs env hpanic _ _).bind fun _ => Raises.guard hpanic <|
    (Raises.flushBlockIndex o hstore).bind fun _ =>
    (Raises.fetchStakeNode o env hstore _).bind fun _ => Raises.getChain.bind fun _ =>
    (Raises.calcNextRequiredStakeDifficulty o env hstore _).bind fun _ =>
    (Raises.connectBlockDbUpdate o env hstore _ _ _ _ _).bind fun _ =>
    (Raises.modifyChain _).bind fun _ => Raises.pure _

theorem Raises.connectBlock (node : BlockNode) (block parent : Block) (view : UtxoViewpoint)
    (stxos : Nat) : Raises C (connectBlock env o node block parent view stxos) := by
  have hafter : Raises C (connectBlockAfterNotify env o node block) := by
    refine (Raises.ite ((Raises.calcNextRequiredStakeDifficulty o env hstore _).bind fun _ =>
      (Raises.modifyChain _).bind fun _ => Raises.modifyChain _) (Raises.pure _)).bind fun _ =>
      (Raises.ite (Raises.getChain.bind fun _ => ?_) (Raises.pure _)).bind fun _ =>
      Raises.modifyChain _
    split
    · exact Raises.panicf hpanic _
    · exact Raises.modifyChain _
  exact (Raises.recordTipCall _).bind fun _ =>
    (Raises.connectBlockCommit o env hstore hpanic _ _ _ _ _).bind fun _ =>
    (Raises.modifyChain _).bind fun _ => hafter.bind fun _ => Raises.pure _

theorem Raises.disconnectBlock (node : BlockNode) (block parent : Block) (view : UtxoViewpoint) :
    Raises C (disconnectBlock env o node block parent view) := by
  have hcommit : Raises C (disconnectBlockCommit env o node block parent view) := by
    refine Raises.getChain.bind fun _ => Raises.guard hpanic <|
      (Raises.flushBlockIndex o hstore).bind fun _ =>
      (Raises.fetchStakeNode o env hstore _).bind fun _ => ?_
    split
    · exact Raises.panicf hpanic _
    · exact (Raises.fetchStakeNode o env hstore _).bind fun _ => Raises.getChain.bind fun _ =>
        (Raises.disconnectBlockDbUpdate o env hstore _ _ _ _ _).bind fun _ =>
        (Raises.modifyChain _).bind fun _ => Raises.pure _
  exact (Raises.recordTipCall _).bind fun _ => hcommit.bind fun _ =>
    (Raises.modifyChain _).bind fun _ => (Raises.modifyChain _).bind fun _ => Raises.pure _

theorem Raises.detachCommit (detachBlocks : List Block) (detachSpentTxOuts : List Nat)
    (nextBlockToDetach : Option Block) (i : Nat) (nodes : List BlockNode) (view : UtxoViewpoint) :
    Raises C (detachCommit env o detachBlocks detachSpentTxOuts nextBlockToDetach i nodes view) := by
  induction nodes generalizing i view with
  | nil => exact Raises.pure _
  | cons n rest ih =>
      rw [DcrdChain.detachCommit]
      exact (Raises.sliceIndex hpanic _ _).bind fun _ =>
        (Raises.ite (Raises.sliceIndex hpanic _ _) (Raises.deref hpanic _)).bind fun _ =>
        (Raises.deref hpanic _).bind fun _ => Raises.guard hpanic <|
        (Raises.fetchInputUtxos o hstore _).bind fun _ => (Raises.sliceIndex hpanic _ _).bind fun _ =>
        (Raises.disconnectTransactions o hstore _ _).bind fun _ =>
        (Raises.disconnectBlock o env hstore hpanic _ _ _ _).bind fun _ => ih _ _

theorem Raises.attachCommit (attachBlocks : List Block) (forkBlock : Option Block) (i : Nat)
    (nodes : List BlockNode) (view : UtxoViewpoint) :
    Raises C (attachCommit env o attachBlocks forkBlock i nodes view) := by
  induction nodes generalizing i view with
  | nil => exact Raises.pure _
  | cons n rest ih =>
      rw [DcrdChain.attachCommit]
      exact (Raises.sliceIndex hpanic _ _).bind fun _ =>
        (Raises.ite (Raises.sliceIndex hpanic _ _) (Raises.deref hpanic _)).bind fun _ =>
        (Raises.deref hpanic _).bind fun _ => Raises.guard hpanic <|
        (Raises.countSpentOutputs env hpanic _ _).bind fun _ =>
        (Raises.connectTransactions o hstore _ _).bind fun _ =>
        (Raises.connectBlock o env hstore hpanic _ _ _ _ _).bind fun _ => ih _ _

theorem Raises.reorganizeCommit (detachNodes attachNodes : List BlockNode) (plan : ReorgPlan) :
    Raises C (reorganizeCommit env o detachNodes attachNodes plan) :=
  Raises.deferring ((Raises.detachCommit o env hstore hpanic _ _ _ _ _ _).bind fun _ =>
    (Raises.attachCommit o env hstore hpanic _ _ _ _ _).bind fun _ => Raises.pure _)
    (Raises.modifyChain _)

variable (hmain : ∀ s, C (.notInMainChain s))
include hmain

omit hpanic in
theorem Raises.fetchMainChainBlockByNode (n : BlockNode) :
    Raises C (fetchMainChainBlockByNode o n) := by
  unfold DcrdChain.fetchMainChainBlockByNode
  refine Raises.getChain.bind fun b => ?_
  have hfetch : Raises C (match b.mainchainBlockCache.lookup n.hash with
      | some block => Pure.pure block
      | none => do
          let _ ← DcrdChain.askStore o
          Pure.pure n.block : ChainM Block) := by
    split
    · exact Raises.pure _
    · exact (Raises.askStore o hstore).bind fun _ => Raises.pure _
  exact Raises.ite ((Raises.throw (hmain _)).bind fun _ => hfetch)
    ((Raises.pure _).bind fun _ => hfetch)

theorem Raises.detachDryRun (nodes : List BlockNode) (st : DetachState) :
    Raises C (detachDryRun env o nodes st) := by
  induction nodes generalizing st with
  | nil => exact Raises.pure st
  | cons n rest ih =>
      rw [DcrdChain.detachDryRun]
      refine Raises.bind ?_ fun block => ?_
      · split
        · exact Raises.pure _
        · exact Raises.fetchMainChainBlockByNode o hstore hmain n
      · exact Raises.guard hpanic <| (Raises.deref hpanic _).bind fun np =>
          (Raises.fetchMainChainBlockByNode o hstore hmain np).bind fun parent =>
          (Raises.askStore o hstore).bind fun stxos =>
          (Raises.countSpentOutputs env hpanic _ _).bind fun _ => Raises.guard hpanic <|
          (Raises.disconnectTransactions o hstore _ _).bind fun _ => ih _

end Store

end Sources

end DcrdChain
