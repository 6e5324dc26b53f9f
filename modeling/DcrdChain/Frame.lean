import DcrdChain.Effects

/-!
# What an operation may change

`Frame R x` says that every world `x` ends in, with a result or an error, holds a chain
related by `R` to the chain `x` started from.  For a reflexive and transitive `R` frames
compose along `>>=`, so each function of the model gets its frame once, from the frames
of the functions it calls.

Three frames are used.  `Reads`: the chain is not changed at all (the fetches, the
validators, the UTXO view).  `StatusOnly`: only statuses gain flags and the modified
set changes (the marking of `getReorganizeNodes` and of the dry run).  `Bookkeeping`:
besides, the stake data and the flushed index entries change (the flush, the stake
nodes).
-/

namespace DcrdChain

open BlockStatus

/-!
## Evaluating binds
-/

section Bind

variable {α β : Type} {x : ChainM α} {f : α -> ChainM β} {w w' : World}

theorem bind_ok {a : α} (h : x w = .ok a w') : (x >>= f) w = f a w' := by
  show EStateM.bind x f w = _
  simp only [EStateM.bind, h]

theorem bind_error {e : ChainError} (h : x w = .error e w') : (x >>= f) w = .error e w' := by
  show EStateM.bind x f w = _
  simp only [EStateM.bind, h]

@[simp] theorem getChain_bind {g : BlockChain -> ChainM β} : (getChain >>= g) w = g w.chain w :=
  rfl

@[simp] theorem pure_bind_apply {a : α} : (pure a >>= f) w = f a w := rfl

@[simp] theorem panicf_bind {s : PanicSite} : (panicf s >>= f) w = .error (.panic s) w := rfl

@[simp] theorem panicf_apply {s : PanicSite} : (panicf s : ChainM α) w = .error (.panic s) w :=
  rfl

@[simp] theorem throw_bind {e : ChainError} : (throw e >>= f) w = .error e w := rfl

@[simp] theorem modifyChain_bind {g : BlockChain -> BlockChain} {y : ChainM β} :
    (modifyChain g >>= fun _ => y) w = y { w with chain := g w.chain } := rfl

@[simp] theorem recordTipCall_bind {c : TipCall} {y : ChainM β} :
    (recordTipCall c >>= fun _ => y) w = y { w with tipCalls := w.tipCalls ++ [c] } := rfl

theorem bind_eq_ok {b : β} :
    (x >>= f) w = .ok b w' ↔ exists a w₁, x w = .ok a w₁ ∧ f a w₁ = .ok b w' := by
  cases hx : x w with
  | ok a w₁ => rw [bind_ok hx]; exact ⟨fun h => ⟨a, w₁, rfl, h⟩, fun ⟨_, _, he, h⟩ => by cases he; exact h⟩
  | error e w₁ => rw [bind_error hx]; simp

theorem bind_eq_error {e : ChainError} :
    (x >>= f) w = .error e w' ↔
      x w = .error e w' ∨ exists a w₁, x w = .ok a w₁ ∧ f a w₁ = .error e w' := by
  cases hx : x w with
  | ok a w₁ =>
      rw [bind_ok hx]
      exact ⟨fun h => .inr ⟨a, w₁, rfl, h⟩, fun h => h.elim (fun he => by cases he)
        fun ⟨_, _, he, h⟩ => by cases he; exact h⟩
  | error e₁ w₁ => rw [bind_error hx]; simp

end Bind

/-!
## Frames and their composition
-/

/-- Every world `x` ends in has a chain `R`-related to the start, and the same tip calls. -/
def Frame (R : BlockChain -> BlockChain -> Prop) {α : Type} (x : ChainM α) : Prop :=
  ∀ w, R w.chain (finalWorld (x w)).chain ∧ (finalWorld (x w)).tipCalls = w.tipCalls

/-- The chain is left as it is. -/
def Same (b b' : BlockChain) : Prop :=
  b' = b

instance : IsRefl BlockChain Same :=
  ⟨fun _ => rfl⟩

instance : IsTrans BlockChain Same :=
  ⟨fun _ _ _ h1 h2 => h2.trans h1⟩

/-- `x` leaves the chain and the tip calls as they are. -/
abbrev Reads {α : Type} (x : ChainM α) : Prop :=
  Frame Same x

section Compose

variable {α β γ : Type} {R : BlockChain -> BlockChain -> Prop}

theorem Reads.pure (a : α) : Reads (pure a : ChainM α) := fun _ => ⟨rfl, rfl⟩

theorem Reads.throw (e : ChainError) : Reads (throw e : ChainM α) := fun _ => ⟨rfl, rfl⟩

theorem Reads.getChain : Reads getChain := fun _ => ⟨rfl, rfl⟩

theorem Reads.panicf (s : PanicSite) : Reads (panicf s : ChainM α) := fun _ => ⟨rfl, rfl⟩

theorem Reads.askStore (o : Oracle) : Reads (askStore o) := fun w => by
  unfold DcrdChain.askStore
  split <;> exact ⟨rfl, rfl⟩

theorem Reads.askValidator (o : Oracle) : Reads (askValidator o) := fun _ => ⟨rfl, rfl⟩

theorem Reads.frame [IsRefl BlockChain R] {x : ChainM α} (h : Reads x) : Frame R x := fun w =>
  ⟨(h w).1 ▸ refl_of R w.chain, (h w).2⟩

theorem Frame.modifyChain {g : BlockChain -> BlockChain} (h : ∀ b, R b (g b)) :
    Frame R (modifyChain g) := fun w => ⟨h w.chain, rfl⟩

theorem Frame.bind [IsTrans BlockChain R] {x : ChainM α} {f : α -> ChainM β} (hx : Frame R x)
    (hf : ∀ a, Frame R (f a)) : Frame R (x >>= f) := fun w => by
  have h0 := hx w
  cases h : x w with
  | ok a w' =>
      rw [h] at h0
      rw [bind_ok h]
      exact ⟨trans_of R h0.1 (hf a w').1, (hf a w').2.trans h0.2⟩
  | error e w' =>
      rw [h] at h0
      rw [bind_error h]
      exact h0

theorem Reads.bind {x : ChainM α} {f : α -> ChainM β} (hx : Reads x) (hf : ∀ a, Reads (f a)) :
    Reads (x >>= f) :=
  Frame.bind hx hf

theorem Frame.ite {c : Prop} [Decidable c] {x y : ChainM α} (hx : Frame R x) (hy : Frame R y) :
    Frame R (if c then x else y) := by
  split <;> assumption

theorem Reads.ite {c : Prop} [Decidable c] {x y : ChainM α} (hx : Reads x) (hy : Reads y) :
    Reads (if c then x else y) :=
  Frame.ite hx hy

theorem Frame.when [IsRefl BlockChain R] [IsTrans BlockChain R] {c : Prop} [Decidable c]
    {x : ChainM PUnit} {k : PUnit -> ChainM α} (hx : Frame R x) (hk : ∀ u, Frame R (k u)) :
    Frame R (if c then x >>= k else Pure.pure PUnit.unit >>= k) :=
  Frame.ite (hx.bind hk) ((Reads.pure _).frame.bind hk)

theorem Frame.guard [IsRefl BlockChain R] [IsTrans BlockChain R] {c : Prop} [Decidable c]
    {s : PanicSite} {k : PUnit -> ChainM α} (hk : ∀ u, Frame R (k u)) :
    Frame R (if c then DcrdChain.panicf s >>= k else Pure.pure PUnit.unit >>= k) :=
  Frame.when (Reads.panicf s).frame hk

theorem Frame.forM [IsRefl BlockChain R] [IsTrans BlockChain R] {xs : List γ}
    {f : γ -> ChainM PUnit} (hf : ∀ a, Frame R (f a)) : Frame R (xs.forM f) := by
  induction xs with
  | nil => exact (Reads.pure _).frame
  | cons a rest ih => exact Frame.bind (hf a) fun _ => ih

theorem Frame.attempt {x : ChainM α} (hx : Frame R x) : Frame R (attempt x) := fun w => by
  have h0 := hx w
  unfold DcrdChain.attempt
  split <;> rename_i h <;> rw [h] at h0 <;> exact h0

theorem Frame.warnOnly [IsRefl BlockChain R] [IsTrans BlockChain R] {x : ChainM Unit}
    (hx : Frame R x) : Frame R (warnOnly x) :=
  Frame.bind hx.attempt fun _ => (Reads.pure _).frame

theorem Frame.ok {x : ChainM α} {w w' : World} {a : α} (hx : Frame R x) (h : x w = .ok a w') :
    R w.chain w'.chain ∧ w'.tipCalls = w.tipCalls := by
  have h0 := hx w
  rw [h] at h0
  exact h0

theorem Frame.error {x : ChainM α} {w w' : World} {e : ChainError} (hx : Frame R x)
    (h : x w = .error e w') : R w.chain w'.chain ∧ w'.tipCalls = w.tipCalls := by
  have h0 := hx w
  rw [h] at h0
  exact h0

theorem Frame.mono {R' : BlockChain -> BlockChain -> Prop} {x : ChainM α}
    (h : ∀ b b', R b b' -> R' b b') (hx : Frame R x) : Frame R' x := fun w =>
  ⟨h _ _ (hx w).1, (hx w).2⟩

end Compose

/-!
## The collaborators read the chain
-/

section Collaborators

variable (env : Env) (o : Oracle)

theorem Reads.calcNextRequiredStakeDifficulty (node : BlockNode) :
    Reads (calcNextRequiredStakeDifficulty env o node) :=
  (Reads.askStore o).bind fun _ => Reads.pure _

theorem Reads.fetchInputUtxos (view : UtxoViewpoint) : Reads (fetchInputUtxos o view) :=
  (Reads.askStore o).bind fun _ => Reads.pure _

theorem Reads.connectTransactions (view : UtxoViewpoint) (block : Block) :
    Reads (connectTransactions o view block) :=
  (Reads.askStore o).bind fun _ => Reads.pure _

theorem Reads.disconnectTransactions (view : UtxoViewpoint) (block : Block) :
    Reads (disconnectTransactions o view block) :=
  (Reads.askStore o).bind fun _ => Reads.pure _

theorem Reads.checkConnectBlock (view : UtxoViewpoint) (block : Block) :
    Reads (checkConnectBlock o view block) :=
  (Reads.askValidator o).bind fun _ => Reads.pure _

theorem Reads.checkBlock : Reads (checkBlock o) :=
  (Reads.askValidator o).bind fun r => by cases r <;> first | exact Reads.pure _ | exact Reads.throw _

theorem Reads.fetchMainChainBlockByNode (node : BlockNode) :
    Reads (fetchMainChainBlockByNode o node) := by
  unfold DcrdChain.fetchMainChainBlockByNode
  refine Reads.getChain.bind fun b => ?_
  dsimp only
  split
  · refine (Reads.throw _).bind fun _ => ?_
    split
    · exact Reads.pure _
    · exact (Reads.askStore o).bind fun _ => Reads.pure _
  · refine (Reads.pure _).bind fun _ => ?_
    split
    · exact Reads.pure _
    · exact (Reads.askStore o).bind fun _ => Reads.pure _

theorem Reads.fetchBlockByNode (node : BlockNode) : Reads (fetchBlockByNode o node) :=
  Reads.getChain.bind fun b => by
    split
    · exact Reads.pure _
    · split
      · exact Reads.pure _
      · exact (Reads.askStore o).bind fun _ => Reads.pure _

theorem Reads.sliceFrom {α : Type} (s : List α) (i : Nat) : Reads (sliceFrom s i) :=
  Reads.ite (Reads.pure _) (Reads.panicf _)

theorem Reads.countSpentOutputs (block parent : Block) :
    Reads (countSpentOutputs env block parent) :=
  (Reads.ite ((Reads.sliceFrom _ _).bind fun _ => Reads.pure _) (Reads.pure _)).bind fun _ =>
    Reads.pure _

theorem countSpentOutputs_ok {block parent : Block} {w w' : World} {k : Nat}
    (h : countSpentOutputs env block parent w = .ok k w') : w' = w := by
  unfold DcrdChain.countSpentOutputs sliceFrom at h
  split at h
  · split at h <;> cases h
    rfl
  · cases h
    rfl

end Collaborators

/-!
## Marking statuses
-/

/-- `b'` is `b` with statuses that kept every flag, and another modified set. -/
structure StatusOnly (b b' : BlockChain) : Prop where
  eq : b' = { b with status := b'.status, modified := b'.modified }
  le : ∀ h, (b.status h).Le (b'.status h)

instance : IsRefl BlockChain StatusOnly :=
  ⟨fun _ => ⟨rfl, fun _ => Le.refl _⟩⟩

instance : IsTrans BlockChain StatusOnly :=
  ⟨fun _ _ _ h1 h2 => ⟨by rw [h2.eq, h1.eq], fun h => (h1.le h).trans (h2.le h)⟩⟩

theorem Reads.statusOnly {α : Type} {x : ChainM α} (h : Reads x) : Frame StatusOnly x :=
  h.frame

theorem Frame.setStatusFlags (node : BlockNode) (flags : BlockStatus) :
    Frame StatusOnly (setStatusFlags node flags) :=
  Frame.modifyChain fun b => ⟨rfl, fun h => by
    by_cases hh : h = node.hash
    · subst hh
      simp only [Function.update_same]
      exact le_setFlags _ _
    · simp only [Function.update_noteq hh]
      exact Le.refl _⟩

section StatusOnly

variable {b b' : BlockChain}

theorem StatusOnly.index (h : StatusOnly b b') : b'.index = b.index := by
  rw [h.eq]

theorem StatusOnly.bestChain (h : StatusOnly b b') : b'.bestChain = b.bestChain := by
  rw [h.eq]

theorem StatusOnly.ntfns (h : StatusOnly b b') : b'.ntfns = b.ntfns := by
  rw [h.eq]

end StatusOnly

/-!
## Bookkeeping
-/

/-- `b'` is `b` with other stake data, modified set and flushed index entries. -/
structure Bookkeeping (b b' : BlockChain) : Prop where
  eq : b' = { b with
    modified := b'.modified
    stakeData := b'.stakeData
    db := { b.db with blockIndex := b'.db.blockIndex } }

instance : IsRefl BlockChain Bookkeeping :=
  ⟨fun _ => ⟨rfl⟩⟩

instance : IsTrans BlockChain Bookkeeping :=
  ⟨fun _ _ _ h1 h2 => ⟨by rw [h2.eq, h1.eq]⟩⟩

section Bookkeeping

variable {b b' : BlockChain}

theorem Bookkeeping.index (h : Bookkeeping b b') : b'.index = b.index := by
  rw [h.eq]

theorem Bookkeeping.status (h : Bookkeeping b b') : b'.status = b.status := by
  rw [h.eq]

theorem Bookkeeping.bestChain (h : Bookkeeping b b') : b'.bestChain = b.bestChain := by
  rw [h.eq]

theorem Bookkeeping.stateSnapshot (h : Bookkeeping b b') : b'.stateSnapshot = b.stateSnapshot := by
  rw [h.eq]

theorem Bookkeeping.bestState (h : Bookkeeping b b') : b'.db.bestState = b.db.bestState := by
  rw [h.eq]

theorem Bookkeeping.workSum (h : Bookkeeping b b') : b'.db.workSum = b.db.workSum := by
  rw [h.eq]

theorem Bookkeeping.cache (h : Bookkeeping b b') :
    b'.mainchainBlockCache = b.mainchainBlockCache := by
  rw [h.eq]

theorem Bookkeeping.orphans (h : Bookkeeping b b') : b'.orphans = b.orphans := by
  rw [h.eq]

theorem Bookkeeping.cacheSize (h : Bookkeeping b b') :
    b'.mainchainBlockCacheSize = b.mainchainBlockCacheSize := by
  rw [h.eq]

theorem Bookkeeping.ntfns (h : Bookkeeping b b') : b'.ntfns = b.ntfns := by
  rw [h.eq]

end Bookkeeping

section Effects

variable (env : Env) (o : Oracle)

theorem Frame.setStakeFields (hash : Hash) (f : StakeFields -> StakeFields) :
    Frame Bookkeeping (setStakeFields hash f) :=
  Frame.modifyChain fun _ => ⟨rfl⟩

theorem Frame.maybeFetchTicketInfo (hash : Hash) : Frame Bookkeeping (maybeFetchTicketInfo o hash) :=
  Frame.bind (Reads.getChain.frame) fun _ => Frame.ite (Reads.pure _).frame
    (Frame.bind (Reads.askStore o).frame fun _ => Frame.setStakeFields _ _)

theorem Frame.flushBlockIndex : Frame Bookkeeping (flushBlockIndex o) :=
  Frame.bind (Reads.getChain.frame) fun _ =>
    Frame.bind (Frame.forM fun _ => Frame.maybeFetchTicketInfo o _) fun _ =>
      Frame.bind (Reads.askStore o).frame fun _ =>
        Frame.modifyChain fun _ => ⟨rfl⟩

theorem Frame.flushBlockIndexWarnOnly : Frame Bookkeeping (flushBlockIndexWarnOnly o) :=
  (Frame.flushBlockIndex o).warnOnly

theorem Frame.fetchStakeNode (node : BlockNode) : Frame Bookkeeping (fetchStakeNode env o node) :=
  Frame.bind (Reads.askStore o).frame fun _ =>
    Frame.bind (Frame.setStakeFields _ _) fun _ => (Reads.pure _).frame

end Effects

end DcrdChain
