import DcrdChain.Outcomes

/-!
# Failures with a store that answers

With collaborators whose store always answers (`StoreAnswers`), the errors left are the
panics and the errors of the validators: a rule violation, or a failure of the validator
itself (`Oracle.VerdictFails`).  A dry run from a tree, whose detach loop walks down the best
chain, then fails only with a panic or with an error of its attach loop, which has marked
the blocks it validated `Valid` and, for a rule violation, the failing block
`ValidateFailed` and the later ones `InvalidAncestor`; the extension of the tip fails only
with a panic or with the error of `checkConnectBlock`, which for a rule violation has marked
the new block `ValidateFailed`.  So a `processBlock` step that fails without a panic leaves
the tip where it was, and the new block known invalid after a rule violation, and a
`forceHeadReorganization` that fails without a panic leaves the best chain as it was.
-/

namespace DcrdChain

open BlockStatus

variable (env : Env) {o : Oracle} (hsa : StoreAnswers o)
include hsa

section Leaves

variable {w w' : World}

omit hsa in
theorem panicked_error_iff {α : Type} {e : ChainError} :
    Panicked (EStateM.Result.error e w : EStateM.Result ChainError World α) ↔ e.IsPanic := by
  cases e <;> exact Iff.rfl

theorem StoreAnswers.store_failure {C : ChainError -> Prop} (i : Nat) (h : o.store i = none) :
    C .failure :=
  absurd h (hsa.store i)

omit hsa in
theorem checkConnectBlock_rule {view : UtxoViewpoint} {block : Block}
    {r : Except ChainError (UtxoViewpoint × Nat)} {err : ChainError}
    (h : checkConnectBlock o view block w = .ok r w') (hr : r = .error err) :
    err.isRuleError = true ∨ o.VerdictFails := by
  obtain ⟨a, w₁, ha, h⟩ := bind_eq_ok.mp h
  cases h
  cases ha
  rcases hv : o.verdict w.calls with (c | _) | k <;> simp only [hv, Except.map] at hr
  · cases hr
    exact .inl rfl
  · exact .inr ⟨_, hv⟩
  · cases hr

omit hsa in
theorem Raises.checkConnectBlock_bind {β : Type} {C : ChainError -> Prop} {view : UtxoViewpoint}
    {block : Block} {f : Except ChainError (UtxoViewpoint × Nat) -> ChainM β}
    (hf : ∀ r, (∀ err, r = .error err -> err.isRuleError = true ∨ o.VerdictFails) ->
      Raises C (f r)) :
    Raises C (DcrdChain.checkConnectBlock o view block >>= f) := fun w e w' h => by
  rcases bind_eq_error.mp h with h | ⟨r, w₁, hr, h⟩
  · exact (Raises.checkConnectBlock (C := fun _ => False) o _ _ _ _ _ h).elim
  · exact hf r (fun _ he => checkConnectBlock_rule hr he) _ _ _ h

omit hsa in
theorem fetchMainChainBlockByNode_error {n : BlockNode} {e : ChainError}
    (h : fetchMainChainBlockByNode o n w = .error e w') :
    ¬ w.chain.bestChain.contains n ∨ exists i, o.store i = none := by
  unfold fetchMainChainBlockByNode at h
  simp only [getChain_bind] at h
  by_cases hm : w.chain.bestChain.contains n
  · simp only [hm, Bool.not_true, Bool.false_eq_true, if_false, pure_bind_apply] at h
    cases hl : w.chain.mainchainBlockCache.lookup n.hash <;> simp only [hl] at h
    · rcases bind_eq_error.mp h with h | ⟨_, _, -, h⟩
      · unfold askStore at h
        split at h
        · cases h
        · exact .inr ⟨_, ‹_›⟩
      · cases h
    · cases h
  · exact .inl hm

omit hsa in
theorem Spec.of_reads_errors {R : BlockChain -> BlockChain -> Prop} [IsRefl BlockChain R]
    {P : BlockChain -> Prop} {C : ChainError -> Prop} {α : Type} {x : ChainM α} (hr : Reads x)
    (hx : ∀ w e w', P w.chain -> x w = .error e w' -> C e) :
    Spec R P x (fun _ => P) (fun e _ => C e) := fun w hP => by
  cases h : x w with
  | ok a w₁ =>
      obtain ⟨hw, -⟩ := hr.ok h
      exact ⟨hw ▸ refl_of R _, hw ▸ hP⟩
  | error e w₁ =>
      obtain ⟨hw, -⟩ := hr.error h
      exact ⟨hw ▸ refl_of R _, hx _ _ _ hP h⟩

omit hsa in
theorem Spec.of_raises {R : BlockChain -> BlockChain -> Prop} [IsRefl BlockChain R]
    {P : BlockChain -> Prop} {C : ChainError -> Prop} {α : Type} {x : ChainM α} (hr : Reads x)
    (hx : Raises C x) : Spec R P x (fun _ => P) (fun e _ => C e) :=
  Spec.of_reads_errors hr fun _ _ _ _ h => hx _ _ _ h

theorem Spec.fetchMainChainBlockByNode_main {R : BlockChain -> BlockChain -> Prop}
    [IsRefl BlockChain R] {P : BlockChain -> Prop} {n : BlockNode} (hn : ∀ b, P b -> n ∈ b.bestChain.tip.ancestors) :
    Spec R P (fetchMainChainBlockByNode o n) (fun _ => P) (fun e _ => e.IsPanic) :=
  Spec.of_reads_errors (Reads.fetchMainChainBlockByNode o n) fun _ _ _ hP h => by
    rcases fetchMainChainBlockByNode_error h with hm | ⟨i, hi⟩
    · exact absurd (ChainView.contains_iff.mpr (hn _ hP)) hm
    · exact absurd hi (hsa.store i)

end Leaves

/-!
## The dry run
-/

section DryRun

variable {w w' : World}

theorem Spec.detachDryRun_main {b0 : BlockChain} (nodes : List BlockNode) (st : DetachState)
    (hn : ∀ n ∈ nodes, n ∈ b0.bestChain.tip.ancestors)
    (hst : st.newBest ∈ b0.bestChain.tip.ancestors) :
    Spec Same (fun b => b = b0) (detachDryRun env o nodes st)
      (fun st' b => b = b0 ∧ st'.newBest ∈ b0.bestChain.tip.ancestors)
      (fun e _ => e.IsPanic) := by
  induction nodes generalizing st with
  | nil => exact Spec.pure fun b hb => ⟨hb, hst⟩
  | cons n rest ih =>
      have hn0 := hn n (List.mem_cons_self _ _)
      rw [DcrdChain.detachDryRun]
      refine Spec.bind_with (fun _ b => b = b0) ?_ fun _ =>
        Spec.guard (fun _ _ => trivial) fun _ => ?_
      · split
        · exact Spec.pure fun _ h => h
        · exact Spec.fetchMainChainBlockByNode_main hsa fun b hb => hb ▸ hn0
      cases hp : n.parent with
      | none =>
          exact Spec.bind (Spec.panicf (Q := fun _ _ => False) fun _ _ => trivial)
            fun _ _ h => h.elim
      | some np =>
          have hnp := BlockNode.ancestors_trans (BlockNode.parent_mem_ancestors hp) hn0
          exact Spec.bind_of_eq (fun _ => rfl) <|
            Spec.bind (Spec.fetchMainChainBlockByNode_main hsa fun b hb => hb ▸ hnp) fun _ =>
            Spec.bind (Spec.of_raises (Reads.askStore o) (Raises.askStore o hsa.store_failure))
              fun _ => Spec.bind (Spec.of_raises (Reads.countSpentOutputs env _ _)
                (Raises.countSpentOutputs env (fun _ => trivial) _ _)) fun _ =>
              Spec.guard (fun _ _ => trivial) fun _ =>
            Spec.bind (Spec.of_raises (Reads.disconnectTransactions o _ _)
              (Raises.disconnectTransactions o hsa.store_failure _ _)) fun _ =>
            ih _ (fun m hm => hn m (List.mem_cons_of_mem _ hm)) hnp

theorem Raises.attachDryRun_validator (fb : Option Block) (i : Nat) (nodes : List BlockNode)
    (st : AttachState) :
    Raises (fun e => e.IsPanic ∨ e.isRuleError = true ∨ o.VerdictFails)
      (attachDryRun o fb i nodes st) := by
  have hpanic : ∀ s, (ChainError.panic s).IsPanic ∨ (ChainError.panic s).isRuleError = true ∨
      o.VerdictFails := fun _ => .inl trivial
  induction nodes generalizing i st with
  | nil => exact Raises.pure _
  | cons n rest ih =>
      rw [DcrdChain.attachDryRun]
      refine (Raises.fetchBlockByNode o hsa.store_failure n).bind fun _ =>
        (Raises.ite (Raises.sliceIndex hpanic _ _) (Raises.deref hpanic _)).bind fun _ =>
        (Raises.deref hpanic _).bind fun _ => Raises.guard hpanic <| Raises.getChain.bind fun _ =>
        Raises.ite ((Raises.connectTransactions o hsa.store_failure _ _).bind fun _ => ih _ _)
          (Raises.checkConnectBlock_bind fun r hr => ?_)
      rcases r with err | _
      · have he : err.IsPanic ∨ err.isRuleError = true ∨ o.VerdictFails := .inr (hr _ rfl)
        exact Raises.ite ((Raises.modifyChain _).bind fun _ =>
          (Raises.forM fun _ _ => Raises.modifyChain _).bind fun _ => Raises.throw he)
          ((Raises.pure _).bind fun _ => Raises.throw he)
      · exact (Raises.modifyChain _).bind fun _ => ih _ _

theorem reorganizeDryRun_error {detach attach : List BlockNode} {e : ChainError}
    (hd : ∀ n ∈ detach, n ∈ w.chain.bestChain.tip.ancestors)
    (h : reorganizeDryRun env o detach attach w = .error e w') :
    e.IsPanic ∨ ((e.isRuleError = true ∨ o.VerdictFails) ∧
      ∃ k ≤ attach.length, (e.isRuleError = true -> k < attach.length) ∧
        AttachMarked attach k e.isRuleError w.chain w'.chain) := by
  unfold reorganizeDryRun at h
  simp only [getChain_bind] at h
  rcases bind_eq_error.mp h with h | ⟨_, w₁, hc, h⟩
  · exact .inl (Raises.checkReorganizeNodes (fun _ => trivial) _ _ _ _ _ _ h)
  have hw₁ : w₁.chain = w.chain := ((Reads.checkReorganizeNodes _ _ _).ok hc).1
  have hdetach := Spec.detachDryRun_main env hsa detach
    ⟨none, [], [], w.chain.bestChain.tip, UtxoViewpoint.new w.chain.bestChain.tip.hash⟩ hd
    (BlockNode.self_mem_ancestors _)
  rcases bind_eq_error.mp h with h | ⟨d, w₂, hdr, h⟩
  · exact .inl (hdetach.error hw₁ h).2
  obtain ⟨hw₂, hbest⟩ := (hdetach.ok hw₁ hdr).2
  have hfork : Spec Same (fun b => b = w.chain)
      (if attach.length > 0 then some <$> fetchMainChainBlockByNode o d.newBest
        else Pure.pure none) (fun _ b => b = w.chain) (fun e _ => e.IsPanic) :=
    Spec.ite (fun _ => Spec.bind (Spec.fetchMainChainBlockByNode_main hsa fun b hb => hb ▸ hbest)
      fun _ => Spec.pure fun _ h => h) fun _ => Spec.pure fun _ h => h
  rcases bind_eq_error.mp h with h | ⟨_, w₃, hfb, h⟩
  · exact .inl (hfork.error hw₂ h).2
  have hw₃ : w₃.chain = w.chain := (hfork.ok hw₂ hfb).2
  rcases bind_eq_error.mp h with h | ⟨_, _, -, h⟩
  · rcases Raises.attachDryRun_validator hsa _ _ _ _ _ _ _ h with hp | hr
    · exact .inl hp
    · obtain ⟨k, hk, hlt, hm⟩ := attachDryRun_error o h
      rw [hw₃] at hm
      exact .inr ⟨hr, k, hk, hlt, hm⟩
  · cases h

theorem reorganizeChain_error {detach attach : List BlockNode} {e : ChainError}
    (hd : ∀ n ∈ detach, n ∈ w.chain.bestChain.tip.ancestors)
    (h : reorganizeChain env o detach attach w = .error e w') :
    e.IsPanic ∨ ((e.isRuleError = true ∨ o.VerdictFails) ∧
      ∃ k ≤ attach.length, (e.isRuleError = true -> k < attach.length) ∧
        AttachMarked attach k e.isRuleError w.chain w'.chain) := by
  unfold reorganizeChain at h
  split at h
  · cases h
  rw [pure_bind_apply] at h
  rcases bind_eq_error.mp h with h | ⟨_, _, -, h⟩
  · exact reorganizeDryRun_error env hsa hd h
  · exact .inl (((Raises.modifyChain _).bind fun _ => (Raises.modifyChain _).bind fun _ =>
      Raises.reorganizeCommit o env hsa.store_failure (fun _ => trivial) _ _ _) _ _ _ h)

end DryRun

/-!
## connectBestChain
-/

section Connect

variable {w w' : World}

theorem connectExtend_error {node : BlockNode} {block parent : Block} {fastAdd : Bool}
    {e : ChainError} (h : connectExtend env o node block parent fastAdd w = .error e w') :
    e.IsPanic ∨ ((e.isRuleError = true ∨ o.VerdictFails) ∧
      w'.chain.bestChain = w.chain.bestChain ∧
      (e.isRuleError = true -> (w'.chain.status node.hash).KnownInvalid)) := by
  have hp : ∀ s, (ChainError.panic s).IsPanic := fun _ => trivial
  /- After the validation only panics are raised. -/
  have hconnect : ∀ (fa : Bool) (y : UtxoViewpoint × Nat), Raises ChainError.IsPanic
      (if fa = true then do
          let view ← fetchInputUtxos o y.1
          let y ← connectTransactions o view block
          let _ ← DcrdChain.connectBlock env o node block parent y.1 y.2
          Pure.pure PUnit.unit
        else do
          let y ← Pure.pure (y.1, y.2)
          let _ ← DcrdChain.connectBlock env o node block parent y.1 y.2
          Pure.pure PUnit.unit) := fun _ _ =>
    Raises.ite ((Raises.fetchInputUtxos o hsa.store_failure _).bind fun _ =>
      (Raises.connectTransactions o hsa.store_failure _ _).bind fun _ =>
      (Raises.connectBlock o env hsa.store_failure hp _ _ _ _ _).bind fun _ => Raises.pure _)
      ((Raises.pure _).bind fun _ =>
        (Raises.connectBlock o env hsa.store_failure hp _ _ _ _ _).bind fun _ => Raises.pure _)
  have htail : ∀ y : UtxoViewpoint × Nat, Raises ChainError.IsPanic (do
      let y ← Pure.pure y
      if (!decide (w.chain.status node.hash).KnownValid) = true then
        setStatusFlags node statusValid
        flushBlockIndexWarnOnly o
      let (view, stxos) ←
        if (fastAdd || decide (w.chain.status node.hash).KnownValid) = true then do
          let view ← fetchInputUtxos o y.1
          connectTransactions o view block
        else Pure.pure (y.1, y.2)
      let _ ← DcrdChain.connectBlock env o node block parent view stxos) := fun _ =>
    (Raises.pure _).bind fun y => Raises.ite ((Raises.modifyChain _).bind fun _ =>
      (Raises.flushBlockIndexWarnOnly o hp).bind fun _ => hconnect _ y)
      ((Raises.pure _).bind fun _ => hconnect _ y)
  unfold connectExtend at h
  simp only [getChain_bind] at h
  split at h
  · rcases bind_eq_error.mp h with h | ⟨r, w₁, hr, h⟩
    · exact (Raises.checkConnectBlock (C := fun _ => False) o _ _ _ _ _ h).elim
    have hw₁ : w₁.chain = w.chain := ((Reads.checkConnectBlock o _ _).ok hr).1
    rcases r with err | y
    · have hclass := checkConnectBlock_rule hr rfl
      dsimp only at h
      split at h
      · /- A rule violation: the block is marked failed before the error is passed on. -/
        rw [bind_ok (setStatusFlags_apply _ _ _)] at h
        rcases bind_eq_error.mp h with h | ⟨_, w₃, hf, h⟩
        · exact .inl (Raises.flushBlockIndexWarnOnly o hp _ _ _ h)
        cases h
        have hb := ((Frame.flushBlockIndexWarnOnly o).ok hf).1
        refine .inr ⟨hclass, by rw [hb.bestChain, ← hw₁], fun _ => ?_⟩
        simp only [hb.status, Function.update_same, knownInvalid_setFlags]
        exact .inr knownInvalid_statusValidateFailed
      · /- A failure of the validator is passed on as it is. -/
        rw [pure_bind_apply] at h
        cases h
        exact .inr ⟨hclass, by rw [hw₁], fun hr => absurd hr ‹_›⟩
    · exact .inl (htail y _ _ _ h)
  · exact .inl (htail _ _ _ _ h)

omit hsa in
theorem attemptFlush_error {α : Type} {x : ChainM Unit} {a : α} {e : ChainError}
    (h : (do
        let err ← DcrdChain.attempt x
        flushBlockIndexWarnOnly o
        match err with
        | .error e => MonadExcept.throw e
        | .ok () => Pure.pure a) w = .error e w') :
    e.IsPanic ∨ ∃ w₁, x w = .error e w₁ ∧ Bookkeeping w₁.chain w'.chain := by
  have hp : ∀ s, (ChainError.panic s).IsPanic := fun _ => trivial
  rcases bind_eq_error.mp h with h | ⟨err, w₁, hatt, h⟩
  · exact .inl (Raises.attempt hp x _ _ _ h)
  rcases bind_eq_error.mp h with h | ⟨_, w₂, hflush, h⟩
  · exact .inl (Raises.flushBlockIndexWarnOnly o hp _ _ _ h)
  rcases err with e' | ⟨⟩
  · cases h
    refine .inr ⟨w₁, ?_, ((Frame.flushBlockIndexWarnOnly o).ok hflush).1⟩
    unfold DcrdChain.attempt at hatt
    split at hatt <;> cases hatt
    assumption
  · cases h

theorem connectBestChain_error {b : BlockChain} {block : Block} {p : BlockNode}
    {flags : BehaviorFlags} {e : ChainError} (ht : Tree b)
    (hp : b.index block.header.prevBlock = some p) (hfresh : b.index block.hash = none)
    (h : connectBestChain env o (.child block p) block p.block flags
      (World.start (b.addNode (.child block p))) = .error e w') :
    e.IsPanic ∨ ((e.isRuleError = true ∨ o.VerdictFails) ∧
      w'.chain.bestChain.tip = b.bestChain.tip ∧
      (e.isRuleError = true -> (w'.chain.status block.hash).KnownInvalid)) := by
  obtain ⟨F, hF, hFp⟩ := findFork_fresh ht hp hfresh
  unfold connectBestChain at h
  simp only [BlockNode.parent_child, deref, pure_bind_apply] at h
  rw [if_neg fun hne : p.block.hash ≠ p.hash => hne rfl, pure_bind_apply, getChain_bind] at h
  simp only [World.chain_start, BlockChain.bestChain_addNode] at h
  split at h
  · /- The extend case: its validation failed. -/
    rcases bind_eq_error.mp h with h | ⟨_, _, -, h⟩
    · exact (connectExtend_error env hsa h).imp_right fun ⟨hc, hb, hs⟩ => ⟨hc, by rw [hb]; rfl, hs⟩
    · cases h
  split at h
  · /- A lighter side chain: its fork point is found. -/
    rw [pure_bind_apply, hF] at h
    cases h
  /- A heavier branch: its dry run failed. -/
  rw [pure_bind_apply, pure_bind_apply] at h
  obtain ⟨_, _, _, hg, ⟨rfl, rfl, -, -⟩ | ⟨rfl, hd, rest, rfl⟩⟩ :=
    getReorganizeNodes_fresh hF hFp
  all_goals
    rw [bind_ok hg] at h
    rcases attemptFlush_error h with hpanic | ⟨w₂, hre, hbk⟩
    · exact .inl hpanic
  · rw [reorganizeChain_nil] at hre
    cases hre
  rcases reorganizeChain_error env hsa hd hre with hpanic | ⟨hc, k, -, hk, hm⟩
  · exact .inl hpanic
  refine .inr ⟨hc, by rw [hbk.bestChain, hm.bestChain]; rfl, fun hr => ?_⟩
  rw [hbk.status, hm.status, knownInvalid_setFlags, hr]
  exact .inr (knownInvalid_attachFailureFlags_last (hk hr))

theorem forceHeadReorganization_error {f n : Hash} {e : ChainError} (ht : Tree w.chain)
    (h : forceHeadReorganization env o f n w = .error e w') :
    e.IsPanic ∨ w'.chain.bestChain = w.chain.bestChain := by
  unfold forceHeadReorganization at h
  rcases bind_eq_error.mp h with h | ⟨⟨detach, attach⟩, w₁, hr, h⟩
  · exact .inr ((Frame.forceHeadReorganizationNodes env o f n).error h).1.bestChain
  obtain ⟨hm, -, _, -, hnodes⟩ := (Spec.forceHeadReorganizationNodes env o (s := false)).ok ht hr
  rcases attemptFlush_error h with hpanic | ⟨w₂, hre, hbk⟩
  · exact .inl hpanic
  have hd : ∀ x ∈ detach, x ∈ w₁.chain.bestChain.tip.ancestors := by
    rcases hnodes with hnil | ⟨fork, htip, -, -⟩
    · simp only [Bool.and_eq_true, List.isEmpty_iff] at hnil
      simp [hnil.1]
    · intro x hx
      rw [htip]
      exact List.mem_append_left _ hx
  rcases reorganizeChain_error env hsa hd hre with hpanic | ⟨-, k, -, -, hmk⟩
  · exact .inl hpanic
  exact .inr (by rw [hbk.bestChain, hmk.bestChain, hm.bestChain])

end Connect

end DcrdChain
