import DcrdChain.DryRun
import DcrdChain.Raises
import DcrdChain.Run

/-!
# A failed dry run

A reorganization whose dry run fails returns that failure before it announces anything.
The chain is as it was, except for the statuses of the blocks to attach: the dry run
marks `Valid` the blocks it validated before the failure and, after a rule violation,
marks the failing block `ValidateFailed` and every later one `InvalidAncestor`.  Only
the validators report rule violations, so a failed load or a failed view update marks
nothing but the blocks validated before it.

A failure of the commit phase before its first `disconnectBlock` is another matter: it
comes after the reorganization, its start and (through the deferred call) its end have
been announced.
-/

namespace DcrdChain

open BlockStatus

/-!
## Failures that are not rule violations
-/

section NoRule

variable {α β : Type} (o : Oracle)

/-- The errors that are not rule violations. -/
def NotRule (e : ChainError) : Prop :=
  e.isRuleError = false

theorem NotRule.panic (s : PanicSite) : NotRule (.panic s) := rfl

theorem NotRule.failure (i : Nat) (_ : o.store i = none) : NotRule .failure := rfl

theorem NotRule.notInMainChain (s : String) : NotRule (.notInMainChain s) := rfl

theorem read_bind_error {x : ChainM α} {f : α -> ChainM β} {w w' : World} {e : ChainError}
    (hr : Reads x) (hn : Raises NotRule x) (h : (x >>= f) w = .error e w') :
    (w'.chain = w.chain ∧ e.isRuleError = false) ∨
      exists a w₁, w₁.chain = w.chain ∧ f a w₁ = .error e w' := by
  rcases bind_eq_error.mp h with h | ⟨a, w₁, hx, h⟩
  · exact .inl ⟨(hr.error h).1, hn _ _ _ h⟩
  · exact .inr ⟨a, w₁, (hr.ok hx).1, h⟩

end NoRule

/-!
## Marking statuses
-/

theorem setStatusFlags_apply (n : BlockNode) (f : BlockStatus) (w : World) :
    setStatusFlags n f w = .ok () { w with chain := { w.chain with
      status := Function.update w.chain.status n.hash ((w.chain.status n.hash).setFlags f)
      modified := if n.hash ∈ w.chain.modified then w.chain.modified
        else n.hash :: w.chain.modified } } :=
  rfl

theorem forM_setStatusFlags (nodes : List BlockNode) (f : BlockStatus) (w : World) :
    exists m, (nodes.forM fun dn => setStatusFlags dn f) w = .ok ()
      { w with chain := { w.chain with
          status := fun h => (w.chain.status h).setFlags
            (if h ∈ nodes.map BlockNode.hash then f else statusNone)
          modified := m } } := by
  induction nodes generalizing w with
  | nil => exact ⟨w.chain.modified, by simp; rfl⟩
  | cons n rest ih =>
      obtain ⟨m, hm⟩ := ih { w with chain := { w.chain with
        status := Function.update w.chain.status n.hash ((w.chain.status n.hash).setFlags f)
        modified := if n.hash ∈ w.chain.modified then w.chain.modified
          else n.hash :: w.chain.modified } }
      refine ⟨m, ?_⟩
      show (setStatusFlags n f >>= fun _ => rest.forM fun dn => setStatusFlags dn f) w = _
      rw [bind_ok (setStatusFlags_apply n f w), hm]
      dsimp only
      congr 3
      funext h
      by_cases hh : h = n.hash
      · subst hh
        by_cases hr : n.hash ∈ rest.map BlockNode.hash <;> simp [hr]
      · simp [hh, Function.update_noteq hh]

/-- The flags a failed attach loop adds to `h`: `Valid` on the first `k` nodes, then the
failure flags after a rule violation at `k`. -/
def attachFailureFlags (nodes : List BlockNode) (k : Nat) (rule : Bool) (h : Hash) :
    BlockStatus :=
  ⟨false, decide (h ∈ (nodes.take k).map BlockNode.hash),
    rule && decide (nodes[k]?.map BlockNode.hash = some h),
    rule && decide (h ∈ (nodes.drop (k + 1)).map BlockNode.hash)⟩

theorem attachFailureFlags_zero (nodes : List BlockNode) (h : Hash) :
    attachFailureFlags nodes 0 false h = statusNone := by
  simp [attachFailureFlags, statusNone]

theorem attachFailureFlags_succ (n : BlockNode) (rest : List BlockNode) (k : Nat) (rule : Bool)
    (h : Hash) : attachFailureFlags (n :: rest) (k + 1) rule h =
      (attachFailureFlags rest k rule h).setFlags (if h = n.hash then statusValid else statusNone) := by
  by_cases hh : h = n.hash <;> simp [attachFailureFlags, setFlags, statusValid, statusNone, hh]

theorem attachFailureFlags_rule (n : BlockNode) (rest : List BlockNode) (h : Hash) :
    attachFailureFlags (n :: rest) 0 true h =
      (if h = n.hash then statusValidateFailed else statusNone).setFlags
        (if h ∈ rest.map BlockNode.hash then statusInvalidAncestor else statusNone) := by
  by_cases hh : n.hash = h
  · subst hh
    by_cases hr : n.hash ∈ rest.map BlockNode.hash <;>
      simp [attachFailureFlags, setFlags, statusValidateFailed, statusInvalidAncestor, statusNone, hr]
  · by_cases hr : h ∈ rest.map BlockNode.hash <;>
      simp [attachFailureFlags, setFlags, statusValidateFailed, statusInvalidAncestor, statusNone, hh,
        Ne.symm hh, hr]

/-- `b'` is `b` with the flags of a failed attach loop that validated `k` nodes. -/
def AttachMarked (nodes : List BlockNode) (k : Nat) (rule : Bool) (b b' : BlockChain) : Prop :=
  b' = { b with
    status := fun h => (b.status h).setFlags (attachFailureFlags nodes k rule h)
    modified := b'.modified }

theorem AttachMarked.of_eq {nodes : List BlockNode} {b b' : BlockChain} (h : b' = b) :
    AttachMarked nodes 0 false b b' := by
  subst h
  simp only [AttachMarked, attachFailureFlags_zero, setFlags_statusNone]

theorem AttachMarked.cons_valid {n : BlockNode} {rest : List BlockNode} {k : Nat} {rule : Bool}
    {b b₁ b' : BlockChain} (hv : (b.status n.hash).KnownValid)
    (h₁ : b₁ = { b with status := b.status, modified := b₁.modified })
    (h : AttachMarked rest k rule b₁ b') : AttachMarked (n :: rest) (k + 1) rule b b' := by
  unfold AttachMarked at *
  rw [h, h₁]
  congr 1
  funext x
  rw [attachFailureFlags_succ]
  by_cases hx : x = n.hash
  · subst hx
    rw [if_pos rfl, ← setFlags_assoc, setFlags_statusValid ((knownValid_setFlags _ _).mpr (.inl hv))]
  · simp [hx]

theorem AttachMarked.cons_validated {n : BlockNode} {rest : List BlockNode} {k : Nat}
    {rule : Bool} {b b₁ b' : BlockChain}
    (h₁ : b₁ = { b with
      status := Function.update b.status n.hash ((b.status n.hash).setFlags statusValid)
      modified := b₁.modified })
    (h : AttachMarked rest k rule b₁ b') : AttachMarked (n :: rest) (k + 1) rule b b' := by
  unfold AttachMarked at *
  rw [h, h₁]
  congr 1
  funext x
  rw [attachFailureFlags_succ]
  by_cases hx : x = n.hash
  · subst hx
    simp only [Function.update_same, if_true]
    rw [setFlags_assoc, setFlags_comm statusValid]
  · simp [hx, Function.update_noteq hx]

theorem AttachMarked.rule {n : BlockNode} {rest : List BlockNode} {b b' : BlockChain}
    {m : List Hash}
    (h : b' = { b with
      status := fun x => (Function.update b.status n.hash
          ((b.status n.hash).setFlags statusValidateFailed) x).setFlags
        (if x ∈ rest.map BlockNode.hash then statusInvalidAncestor else statusNone)
      modified := m }) : AttachMarked (n :: rest) 0 true b b' := by
  unfold AttachMarked
  rw [h]
  congr 1
  funext x
  rw [attachFailureFlags_rule]
  by_cases hx : x = n.hash
  · subst hx
    simp only [Function.update_same, if_true, setFlags_assoc]
  · simp [hx, Function.update_noteq hx]

theorem AttachMarked.bestChain {nodes : List BlockNode} {k : Nat} {rule : Bool}
    {b b' : BlockChain} (h : AttachMarked nodes k rule b b') : b'.bestChain = b.bestChain := by
  rw [h]

theorem AttachMarked.status {nodes : List BlockNode} {k : Nat} {rule : Bool} {b b' : BlockChain}
    (h : AttachMarked nodes k rule b b') (x : Hash) :
    b'.status x = (b.status x).setFlags (attachFailureFlags nodes k rule x) := by
  rw [h]

theorem knownInvalid_attachFailureFlags_last {l : List BlockNode} {n : BlockNode} {k : Nat}
    (hk : k < (l ++ [n]).length) :
    (attachFailureFlags (l ++ [n]) k true n.hash).KnownInvalid := by
  rw [List.length_append, List.length_singleton] at hk
  rcases Nat.lt_or_ge k l.length with hl | hl
  · refine .inr ?_
    simp [attachFailureFlags, List.drop_append_of_le_length hl]
  · obtain rfl : k = l.length := by omega
    exact .inl (by simp [attachFailureFlags])

variable (o : Oracle)

theorem attachDryRun_error {fb : Option Block} {i : Nat} {nodes : List BlockNode}
    {st : AttachState} {e : ChainError} {w w' : World}
    (h : attachDryRun o fb i nodes st w = .error e w') :
    exists k, k ≤ nodes.length ∧ (e.isRuleError = true -> k < nodes.length) ∧
      AttachMarked nodes k e.isRuleError w.chain w'.chain := by
  induction nodes generalizing i st w with
  | nil => cases h
  | cons n rest ih =>
      have unchanged : w'.chain = w.chain -> e.isRuleError = false ->
          exists k, k ≤ (n :: rest).length ∧ (e.isRuleError = true -> k < (n :: rest).length) ∧
            AttachMarked (n :: rest) k e.isRuleError w.chain w'.chain :=
        fun hw he => ⟨0, Nat.zero_le _, fun _ => Nat.succ_pos _, he ▸ AttachMarked.of_eq hw⟩
      rw [attachDryRun] at h
      rcases read_bind_error (Reads.fetchBlockByNode o n)
          (Raises.fetchBlockByNode o (NotRule.failure o) n) h with
        ⟨hw, he⟩ | ⟨block, w₁, hw₁, h⟩
      · exact unchanged hw he
      rcases read_bind_error (Reads.ite (Reads.sliceIndex _ _) (Reads.deref _))
        (Raises.ite (Raises.sliceIndex NotRule.panic _ _) (Raises.deref NotRule.panic _)) h with
        ⟨hw, he⟩ | ⟨parent, w₂, hw₂, h⟩
      · exact unchanged (hw.trans hw₁) he
      rcases read_bind_error (Reads.deref _) (Raises.deref NotRule.panic _) h with
        ⟨hw, he⟩ | ⟨np, w₃, hw₃, h⟩
      · exact unchanged (hw.trans (hw₂.trans hw₁)) he
      obtain ⟨c₃, calls₃, tc₃⟩ := w₃
      obtain rfl : c₃ = w.chain := hw₃.trans (hw₂.trans hw₁)
      split at h
      · simp only [panicf_bind] at h
        cases h
        exact unchanged rfl rfl
      simp only [pure_bind_apply, getChain_bind] at h
      split at h
      next hv =>
        rcases read_bind_error (Reads.connectTransactions o _ _)
          (Raises.connectTransactions o (NotRule.failure o) _ _) h with ⟨hw, he⟩ | ⟨_, w₄, hw₄, h⟩
        · exact unchanged hw he
        obtain ⟨k, hk, hlt, hm⟩ := ih h
        exact ⟨k + 1, by simp [hk], fun hr => by simp [hlt hr],
          AttachMarked.cons_valid hv (by rw [hw₄]) hm⟩
      next =>
        rcases read_bind_error (Reads.checkConnectBlock o _ _)
          (Raises.checkConnectBlock o _ _) h with ⟨hw, he⟩ | ⟨r, w₄, hw₄, h⟩
        · exact unchanged hw he
        obtain ⟨c₄, calls₄, tc₄⟩ := w₄
        obtain rfl : c₄ = w.chain := hw₄
        rcases r with err | ⟨view, _⟩ <;> dsimp only at h
        · split at h
          next hrule =>
            rw [bind_ok (setStatusFlags_apply _ _ _)] at h
            obtain ⟨m, hm⟩ := forM_setStatusFlags rest statusInvalidAncestor _
            rw [bind_ok hm] at h
            cases h
            rw [hrule]
            exact ⟨0, Nat.zero_le _, fun _ => Nat.succ_pos _, AttachMarked.rule rfl⟩
          next hrule =>
            simp only [pure_bind_apply] at h
            cases h
            exact unchanged rfl (by simpa using hrule)
        · rw [bind_ok (setStatusFlags_apply _ _ _)] at h
          obtain ⟨k, hk, hlt, hm⟩ := ih h
          exact ⟨k + 1, by simp [hk], fun hr => by simp [hlt hr], AttachMarked.cons_validated rfl hm⟩

theorem reorganizeChain_dryRun_failure (env : Env) {detachNodes attachNodes : List BlockNode}
    {e : ChainError} {w w' : World} (hne : (detachNodes.isEmpty && attachNodes.isEmpty) = false)
    (h : reorganizeDryRun env o detachNodes attachNodes w = .error e w') :
    reorganizeChain env o detachNodes attachNodes w = .error e w' ∧ w'.tipCalls = w.tipCalls ∧
      exists k, k ≤ attachNodes.length ∧ (e.isRuleError = true -> k < attachNodes.length) ∧
        AttachMarked attachNodes k e.isRuleError w.chain w'.chain := by
  refine ⟨?_, ((Frame.reorganizeDryRun env o _ _).error h).2, ?_⟩
  · unfold reorganizeChain
    simp only [hne, Bool.false_eq_true, if_false, pure_bind_apply]
    exact bind_error h
  have unchanged : w'.chain = w.chain -> e.isRuleError = false ->
      exists k, k ≤ attachNodes.length ∧ (e.isRuleError = true -> k < attachNodes.length) ∧
        AttachMarked attachNodes k e.isRuleError w.chain w'.chain :=
    fun hw he => ⟨0, Nat.zero_le _, fun hr => absurd (he.symm.trans hr) Bool.false_ne_true,
      he ▸ AttachMarked.of_eq hw⟩
  unfold reorganizeDryRun at h
  simp only [getChain_bind] at h
  rcases read_bind_error (Reads.checkReorganizeNodes _ _ _)
    (Raises.checkReorganizeNodes NotRule.panic _ _ _)
    h with ⟨hw, he⟩ | ⟨_, w₁, hw₁, h⟩
  · exact unchanged hw he
  rcases read_bind_error (Reads.detachDryRun env o _ _) (Raises.detachDryRun o env (NotRule.failure o)
    NotRule.panic NotRule.notInMainChain _ _) h with
    ⟨hw, he⟩ | ⟨_, w₂, hw₂, h⟩
  · exact unchanged (hw.trans hw₁) he
  rcases read_bind_error (Reads.ite ((Reads.fetchMainChainBlockByNode o _).bind fun _ => Reads.pure _)
    (Reads.pure _)) (Raises.ite ((Raises.fetchMainChainBlockByNode o
      (NotRule.failure o) NotRule.notInMainChain _).bind fun _ => Raises.pure _) (Raises.pure _)) h with ⟨hw, he⟩ | ⟨_, w₃, hw₃, h⟩
  · exact unchanged (hw.trans (hw₂.trans hw₁)) he
  rcases bind_eq_error.mp h with h | ⟨_, _, -, h⟩
  · obtain ⟨k, hk, hlt, hm⟩ := attachDryRun_error o h
    rw [hw₃, hw₂, hw₁] at hm
    exact ⟨k, hk, hlt, hm⟩
  · cases h

/-- Collaborators whose store always answers and whose validators reject every block. -/
def Oracle.rejecting : Oracle :=
  ⟨fun _ => some 0, fun _ => .error (.ruleError 0)⟩

theorem reorganizeChain_dryRun_failure_rejected :
    exists e w', reorganizeDryRun sampleEnv Oracle.rejecting [.child sampleChild (.genesis sampleGenesis)]
        [.child sampleSibling (.genesis sampleGenesis)] (World.start sampleForkChain) = .error e w' ∧
      reorganizeChain sampleEnv Oracle.rejecting [.child sampleChild (.genesis sampleGenesis)]
        [.child sampleSibling (.genesis sampleGenesis)] (World.start sampleForkChain) = .error e w' ∧
      w'.tipCalls = [] ∧ exists k, k ≤ 1 ∧ (e.isRuleError = true -> k < 1) ∧
        AttachMarked [.child sampleSibling (.genesis sampleGenesis)] k e.isRuleError sampleForkChain
          w'.chain := by
  have h := eq_error_of_raised (by decide : raised (reorganizeDryRun sampleEnv Oracle.rejecting
    [.child sampleChild (.genesis sampleGenesis)] [.child sampleSibling (.genesis sampleGenesis)]
    (World.start sampleForkChain)) = some (.ruleError (.validation 0) ""))
  obtain ⟨h1, h2, h3⟩ := reorganizeChain_dryRun_failure Oracle.rejecting sampleEnv (by decide) h
  exact ⟨_, _, h, h1, h2, h3⟩

/-!
## A failure of the commit phase
-/

/-- Collaborators that all succeed, except the store at call `n`. -/
def Oracle.failingAt (n : Nat) : Oracle :=
  ⟨fun k => if k = n then none else some 0, fun _ => .ok 0⟩

theorem reorganizeChain_commit_failure_announced :
    exists b o, Reachable sampleEnv (fun _ _ => True) (BlockChain.ofGenesis sampleGenesis 0 0) b ∧
      returned (getReorganizeNodes (.child sampleSibling (.genesis sampleGenesis)) (World.start b)) =
        some ([.child sampleChild (.genesis sampleGenesis)], [.child sampleSibling (.genesis sampleGenesis)]) ∧
      raised (reorganizeChain sampleEnv o [.child sampleChild (.genesis sampleGenesis)]
        [.child sampleSibling (.genesis sampleGenesis)] (World.start b)) = some .failure ∧
      (finalWorld (reorganizeChain sampleEnv o [.child sampleChild (.genesis sampleGenesis)]
        [.child sampleSibling (.genesis sampleGenesis)] (World.start b))).tipCalls = [] ∧
      (finalWorld (reorganizeChain sampleEnv o [.child sampleChild (.genesis sampleGenesis)]
        [.child sampleSibling (.genesis sampleGenesis)] (World.start b))).chain.ntfns =
        b.ntfns ++ [.reorganization sampleChild.hash 1 sampleSibling.hash 1, .chainReorgStarted,
          .chainReorgDone] :=
  ⟨sampleForkChain, Oracle.failingAt 6, reachable_sampleForkChain, by decide, by decide, by decide,
    by decide⟩

end DcrdChain
