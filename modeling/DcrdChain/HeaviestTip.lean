import DcrdChain.Failures

/-!
# The tip is the heaviest valid node

A run that processes blocks from the genesis-only chain, with any verdicts of the validators
but without database or stake-difficulty failures, keeps the tip at least as heavy as every
node of the index whose path to the genesis block holds no known-invalid block, and never
lowers the work of the tip.

A step adds the node of a fresh block and then, by the failure and return lemmas of
`connectBestChain`, ends in one of three ways: the node is the new tip, with at least the
work of the old one; the tip stays and the node is known invalid; or the tip stays and is
at least as heavy as the node.  Every other node keeps its work and, the statuses only
growing, a node valid afterwards was valid before.
-/

namespace DcrdChain

open BlockStatus

variable (env : Env)

/-- No node without a known-invalid block on its path has more work than the tip. -/
def TipHeaviest (b : BlockChain) : Prop :=
  ∀ h n, b.index h = some n -> (∀ a ∈ n.ancestors, ¬ (b.status a.hash).KnownInvalid) ->
    n.workSum ≤ b.bestChain.tip.workSum

/-- `processBlock` calls answered without store or stake-difficulty failures. -/
def ProcessesBlocks (o : Oracle) (op : Op) : Prop :=
  NoFailure o ∧ ∃ block flags, op = .processBlock block flags

/-!
## One step
-/

section Step

variable {o : Oracle} {b b' : BlockChain}

theorem Step.processBlock_cases {block : Block} {flags : BehaviorFlags} (ht : Tree b)
    (hno : NoFailure o) (h : Step env o (.processBlock block flags) b b') :
    ∃ p, b.index block.header.prevBlock = some p ∧ b.index block.hash = none ∧
      Moves env false (b.addNode (.child block p)) b' ∧
      ((b'.bestChain.tip = .child block p ∧
          b.bestChain.tip.workSum ≤ (BlockNode.child block p).workSum) ∨
        (b'.bestChain.tip = b.bestChain.tip ∧ (b'.status block.hash).KnownInvalid) ∨
        (b'.bestChain.tip = b.bestChain.tip ∧
          (BlockNode.child block p).workSum ≤ b.bestChain.tip.workSum)) := by
  obtain ⟨r, hr, hnp, rfl⟩ := h
  obtain ⟨p, hp, -, hfresh, -, rfl⟩ := Op.run_processBlock hr
  refine ⟨p, hp, hfresh, Spec.final (Spec.bind (Spec.connectBestChain env o rfl rfl rfl)
    fun _ => Spec.pure (Q := fun _ _ => True) fun _ _ => trivial)
    ⟨ht.addNode hp hfresh, BlockChain.index_addNode_self _,
      BlockChain.not_knownInvalid_addNode_self _⟩, ?_⟩
  cases hc : connectBestChain env o (.child block p) block p.block flags
    (World.start (b.addNode (.child block p))) with
  | ok k w' =>
      rw [bind_ok hc]
      rcases connectBestChain_ok_cases env o ht hp hfresh hc with
        ⟨htip, -, hle⟩ | ⟨htip, -, hinv⟩ | ⟨htip, hle, -⟩
      exacts [.inl ⟨htip, hle⟩, .inr (.inl ⟨htip, hinv⟩), .inr (.inr ⟨htip, hle⟩)]
  | error e w' =>
      rw [bind_error hc] at hnp ⊢
      rcases connectBestChain_error env hno.toStoreAnswers ht hp hfresh hc with
        hpanic | ⟨hrule, htip, hinv⟩
      · exact absurd (panicked_error_iff.mpr hpanic) hnp
      · exact .inr (.inl ⟨htip, hinv (hrule.resolve_right hno.not_verdictFails)⟩)

theorem TipHeaviest.processBlock {block : Block} {flags : BehaviorFlags} (ht : Tree b)
    (hI : TipHeaviest b) (hno : NoFailure o) (h : Step env o (.processBlock block flags) b b') :
    TipHeaviest b' ∧ b.bestChain.tip.workSum ≤ b'.bestChain.tip.workSum := by
  obtain ⟨p, hp, hfresh, hm, hcases⟩ := Step.processBlock_cases env ht hno h
  have hle : b.bestChain.tip.workSum ≤ b'.bestChain.tip.workSum := by
    rcases hcases with ⟨htip, hw⟩ | ⟨htip, -⟩ | ⟨htip, -⟩ <;> rw [htip]
    exact hw
  refine ⟨fun x n hn hvalid => ?_, hle⟩
  rw [hm.index] at hn
  rcases BlockChain.index_addNode_cases hn with ⟨-, rfl⟩ | hn
  · /- The new node. -/
    rcases hcases with ⟨htip, -⟩ | ⟨-, hinv⟩ | ⟨htip, hw⟩
    · rw [htip]
    · exact absurd hinv (hvalid _ (BlockNode.self_mem_ancestors _))
    · rwa [htip]
  · /- A node of the index before: its path was valid then. -/
    refine (hI x n hn fun a ha hi => hvalid a ha (hm.knownInvalid ?_)).trans hle
    rwa [BlockChain.status_addNode_of_index hfresh (ht.consistent.closed _ _ hn a ha)]

end Step

/-!
## Runs
-/

theorem TipHeaviest.ofGenesis (g : Block) (totalTxns totalSubsidy : BitVec 64) :
    TipHeaviest (BlockChain.ofGenesis g totalTxns totalSubsidy) := fun _ n hn _ => by
  obtain ⟨-, rfl⟩ := BlockChain.index_ofGenesis hn
  obtain ⟨-, htip⟩ :=
    BlockChain.index_ofGenesis (Tree.ofGenesis g totalTxns totalSubsidy).consistent.tip
  rw [htip]

theorem tip_heaviest_of_reachable {g : Block} {totalTxns totalSubsidy : BitVec 64}
    {b : BlockChain}
    (hr : Reachable env ProcessesBlocks (BlockChain.ofGenesis g totalTxns totalSubsidy) b) :
    TipHeaviest b ∧ ∀ o op b', ProcessesBlocks o op -> Step env o op b b' ->
      b.bestChain.tip.workSum ≤ b'.bestChain.tip.workSum := by
  have hI : TipHeaviest b := by
    induction hr with
    | init => exact TipHeaviest.ofGenesis g totalTxns totalSubsidy
    | step hr' hallowed hstep ih =>
        obtain ⟨hno, _, _, rfl⟩ := hallowed
        exact (TipHeaviest.processBlock env (Tree.of_reachable env hr') ih hno hstep).1
  refine ⟨hI, fun o op b' hallowed hstep => ?_⟩
  obtain ⟨hno, _, _, rfl⟩ := hallowed
  exact (TipHeaviest.processBlock env (Tree.of_reachable env hr) hI hno hstep).2

theorem NoFailure.allOk : NoFailure Oracle.allOk :=
  ⟨⟨fun _ => Option.some_ne_none 0⟩, fun _ h => nomatch h⟩

theorem tip_heaviest_sampleForkChain :
    Reachable sampleEnv ProcessesBlocks (BlockChain.ofGenesis sampleGenesis 0 0) sampleForkChain ∧
    TipHeaviest sampleForkChain ∧ ∀ o op b', ProcessesBlocks o op ->
      Step sampleEnv o op sampleForkChain b' ->
      sampleForkChain.bestChain.tip.workSum ≤ b'.bestChain.tip.workSum :=
  have hr : Reachable sampleEnv ProcessesBlocks (BlockChain.ofGenesis sampleGenesis 0 0)
      sampleForkChain :=
    .step (.step .init ⟨NoFailure.allOk, _, _, rfl⟩ (Op.step_apply (by decide)))
      ⟨NoFailure.allOk, _, _, rfl⟩ (Op.step_apply (by decide))
  ⟨hr, tip_heaviest_of_reachable sampleEnv hr⟩

end DcrdChain
