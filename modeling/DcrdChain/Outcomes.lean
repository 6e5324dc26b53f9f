import DcrdChain.ReorganizeNodes
import DcrdChain.StatusSound

/-!
# What `connectBestChain` and `forceHeadReorganization` return

The doc comment of `connectBestChain` reads its result as the fork length: zero when the
block ends on the main chain, the length of the side chain otherwise.  On every chain a run
reaches, a fresh block with a known parent is in one of three cases.  It extends the tip, or
it reorganizes to a heavier branch, and the result is zero with the block the new tip.  Or
its branch is lighter, and the result is the length of the side chain with the tip where it
was.  A fourth case breaks the first reading: a heavier branch holding a known-invalid
block.  There `getReorganizeNodes` returns two empty lists, `reorganizeChain` has nothing to
do, and the result is zero with the tip where it was and the new block marked
`statusInvalidAncestor`.

`forceHeadReorganization` names the lists `getReorganizeNodes` returns in the opposite
order and passes them on in that order, so `reorganizeChain` receives the tip to detach
first and the target to attach second, as it should.  On a chain reached by
`processBlock` and `forceHeadReorganization`, a forced reorganization that returns has
replaced the tip by its sibling, and one that fails in its checks has changed neither the
best chain nor the snapshot.
-/

namespace DcrdChain

open BlockStatus

variable (env : Env) (o : Oracle)

/-!
## The steps of `connectBestChain`
-/

section Steps

variable {w w' : World}

theorem attemptFlush_ok {α : Type} {x : ChainM Unit} {a r : α}
    (h : (do
        let err ← DcrdChain.attempt x
        flushBlockIndexWarnOnly o
        match err with
        | .error e => MonadExcept.throw e
        | .ok () => Pure.pure a) w = .ok r w') :
    r = a ∧ ∃ w₁, x w = .ok () w₁ ∧ Bookkeeping w₁.chain w'.chain ∧ w'.tipCalls = w₁.tipCalls := by
  obtain ⟨err, w₁, hatt, h⟩ := bind_eq_ok.mp h
  obtain ⟨_, w₂, hflush, h⟩ := bind_eq_ok.mp h
  rcases err with e | ⟨⟩
  · cases h
  · cases h
    refine ⟨rfl, w₁, ?_, (Frame.flushBlockIndexWarnOnly o).ok hflush⟩
    unfold DcrdChain.attempt at hatt
    split at hatt <;> cases hatt
    assumption

theorem reorganizeChain_nil : reorganizeChain env o [] [] w = .ok () w :=
  rfl

theorem bestChain_markInvalidAncestor (nodes : List BlockNode) (m : List Hash) :
    (w.markInvalidAncestor nodes m).chain.bestChain = w.chain.bestChain :=
  rfl

theorem knownInvalid_markInvalidAncestor {nodes : List BlockNode} {n : BlockNode} (m : List Hash)
    (hn : n ∈ nodes) : ((w.markInvalidAncestor nodes m).chain.status n.hash).KnownInvalid := by
  show ((w.chain.status n.hash).setFlags
    (if n.hash ∈ nodes.map BlockNode.hash then statusInvalidAncestor else statusNone)).KnownInvalid
  rw [if_pos (List.mem_map_of_mem _ hn), knownInvalid_setFlags]
  exact .inr knownInvalid_statusInvalidAncestor

end Steps

/-!
## The result
-/

theorem Tree.of_reachable {g : Block} {totalTxns totalSubsidy : BitVec 64}
    {allowed : Oracle -> Op -> Prop} {b : BlockChain}
    (hr : Reachable env allowed (BlockChain.ofGenesis g totalTxns totalSubsidy) b) : Tree b :=
  (Reachable.invariant env (s := false) (I := fun _ => True) (fun _ _ _ _ _ => trivial)
    (fun _ _ _ _ _ => trivial) (fun _ _ _ h => nomatch h) (Tree.ofGenesis g totalTxns totalSubsidy)
    trivial hr).1

theorem not_mem_tip_ancestors_of_fresh {b : BlockChain} {block : Block} {p : BlockNode}
    (ht : Tree b) (hfresh : b.index block.hash = none) :
    BlockNode.child block p ∉ b.bestChain.tip.ancestors := fun hm => by
  have hi := ht.consistent.index_of_mem_tip hm
  rw [BlockNode.hash_child, hfresh] at hi
  cases hi

theorem findFork_fresh {b : BlockChain} {block : Block} {p : BlockNode} (ht : Tree b)
    (hp : b.index block.header.prevBlock = some p) (hfresh : b.index block.hash = none) :
    ∃ F, b.bestChain.findFork (.child block p) = some F ∧ F ∈ p.ancestors := by
  obtain ⟨F, hF⟩ : ∃ F, b.bestChain.findFork (.child block p) = some F :=
    ChainView.findFork_isSome ((ht.addNode hp hfresh).consistent.root _ _
      (BlockChain.index_addNode_self _))
  obtain ⟨hFn, hFt⟩ := ChainView.findFork_spec hF
  rcases List.mem_cons.mp hFn with rfl | hFp
  · exact absurd hFt (not_mem_tip_ancestors_of_fresh ht hfresh)
  · exact ⟨F, hF, hFp⟩

theorem getReorganizeNodes_fresh {b : BlockChain} {block : Block} {p F : BlockNode}
    (hF : b.bestChain.findFork (.child block p) = some F) (hFp : F ∈ p.ancestors) :
    ∃ detach attach w₁, getReorganizeNodes (.child block p)
        (World.start (b.addNode (.child block p))) = .ok (detach, attach) w₁ ∧
      ((detach = [] ∧ attach = [] ∧ w₁.chain.bestChain = b.bestChain ∧
          (w₁.chain.status block.hash).KnownInvalid) ∨
        (w₁ = World.start (b.addNode (.child block p)) ∧
          (∀ d ∈ detach, d ∈ b.bestChain.tip.ancestors) ∧
          ∃ rest, attach = rest ++ [.child block p])) := by
  have hcases := getReorganizeNodes_of_findFork (World.start (b.addNode (.child block p)))
    (BlockNode.parent_child block p) hF
  have hhead : (BlockNode.child block p).ancestors.take ((BlockNode.child block p).height - F.height) =
      .child block p :: p.ancestors.take ((BlockNode.child block p).height - F.height - 1) := by
    have hFh : F.height < (BlockNode.child block p).height :=
      Nat.lt_succ_of_le (BlockNode.height_le_of_mem_ancestors hFp)
    obtain ⟨j, hj⟩ := Nat.exists_eq_add_of_lt (Nat.sub_pos_of_lt hFh)
    rw [hj, BlockNode.ancestors_child, List.take_succ_cons]
    rfl
  by_cases hq : ((b.addNode (.child block p)).status p.hash).KnownInvalid
  · /- The parent is known invalid. -/
    obtain ⟨m, hm⟩ := hcases.2.1 hq
    exact ⟨[], [], _, hm, .inl ⟨rfl, rfl, rfl,
      knownInvalid_markInvalidAncestor m (List.mem_singleton_self _)⟩⟩
  by_cases hall : ∀ a ∈ (BlockNode.child block p).ancestors.take
      ((BlockNode.child block p).height - F.height),
      ¬ ((b.addNode (.child block p)).status a.hash).KnownInvalid
  · /- No block of the branch is known invalid. -/
    exact ⟨_, _, _, hcases.1 hq hall, .inr ⟨rfl, fun d hd => List.mem_of_mem_take hd, _,
      by rw [hhead, List.reverse_cons]⟩⟩
  · /- A block of the branch is known invalid: the nodes above it are marked, the node first. -/
    push_neg at hall
    obtain ⟨m, hm⟩ := hcases.2.2 hq hall
    refine ⟨[], [], _, hm, .inl ⟨rfl, rfl, rfl,
      knownInvalid_markInvalidAncestor (n := .child block p) m ?_⟩⟩
    rw [hhead, List.takeWhile_cons_of_pos]
    · exact List.mem_cons_self _ _
    · simpa using BlockChain.not_knownInvalid_addNode_self (b := b) (.child block p)

theorem connectBestChain_ok_cases {b : BlockChain} {block : Block} {p : BlockNode}
    {flags : BehaviorFlags} {k : Int} {w' : World} (ht : Tree b)
    (hp : b.index block.header.prevBlock = some p) (hfresh : b.index block.hash = none)
    (h : connectBestChain env o (.child block p) block p.block flags
      (World.start (b.addNode (.child block p))) = .ok k w') :
    (w'.chain.bestChain.tip = .child block p ∧ k = 0 ∧
      b.bestChain.tip.workSum ≤ (BlockNode.child block p).workSum) ∨
    (w'.chain.bestChain.tip = b.bestChain.tip ∧ k = 0 ∧
      (w'.chain.status block.hash).KnownInvalid) ∨
    (w'.chain.bestChain.tip = b.bestChain.tip ∧
      (BlockNode.child block p).workSum ≤ b.bestChain.tip.workSum ∧
      ∃ F, b.bestChain.findFork (.child block p) = some F ∧
        F.height < (BlockNode.child block p).height ∧
        k = ((BlockNode.child block p).height : Int) - F.height) := by
  have ht₁ := ht.addNode hp hfresh
  have hn := BlockChain.index_addNode_self (b := b) (.child block p)
  obtain ⟨F, hF, hFp⟩ := findFork_fresh ht hp hfresh
  unfold connectBestChain at h
  simp only [BlockNode.parent_child, deref, pure_bind_apply] at h
  rw [if_neg fun hne : p.block.hash ≠ p.hash => hne rfl, pure_bind_apply, getChain_bind] at h
  simp only [World.chain_start, BlockChain.bestChain_addNode] at h
  split at h
  · /- The block extends the tip, the parent. -/
    rename_i hext
    obtain ⟨_, w₁, hcon, h⟩ := bind_eq_ok.mp h
    cases h
    have htip := ((Spec.connectExtend env o (s := false) (BlockNode.parent_child block p) rfl rfl).ok
      ⟨ht₁, hn, ‹_›, BlockChain.not_knownInvalid_addNode_self _⟩ hcon).2
    obtain rfl : p = b.bestChain.tip :=
      Option.some_injective _ (hp.symm.trans (hext ▸ ht.consistent.tip))
    exact .inl ⟨htip, rfl, by simp⟩
  split at h
  · /- A side chain no heavier than the main chain. -/
    rename_i hle
    rw [pure_bind_apply, hF] at h
    cases h
    exact .inr (.inr ⟨rfl, hle, F, hF,
      Nat.lt_succ_of_le (BlockNode.height_le_of_mem_ancestors hFp), rfl⟩)
  /- A heavier branch: the nodes of the reorganization, then the reorganization. -/
  rename_i hgt
  rw [pure_bind_apply, pure_bind_apply] at h
  obtain ⟨⟨detach, attach⟩, w₁, hnodes, h⟩ := bind_eq_ok.mp h
  obtain ⟨rfl, w₂, hre, hbk, -⟩ := attemptFlush_ok o h
  obtain ⟨_, _, _, hg, ⟨rfl, rfl, htip, hinv⟩ | ⟨rfl, -, rest, rfl⟩⟩ :=
    getReorganizeNodes_fresh hF hFp
  · /- The branch holds a known-invalid block: nothing to reorganize. -/
    rw [hg] at hnodes
    cases hnodes
    rw [reorganizeChain_nil] at hre
    cases hre
    exact .inr (.inl ⟨by rw [hbk.bestChain, htip], rfl, by rw [hbk.status]; exact hinv⟩)
  · /- The reorganization made the node the tip. -/
    rw [hg] at hnodes
    cases hnodes
    obtain ⟨-, -, -, -, -, htip⟩ := reorganizeChain_ok env o ht₁.consistent hn hg (by simp) hre
    exact .inl ⟨hbk.bestChain ▸ htip, rfl, le_of_lt (not_le.mp hgt)⟩

theorem connectBestChain_returns {g : Block} {totalTxns totalSubsidy : BitVec 64}
    {allowed : Oracle -> Op -> Prop} {b : BlockChain} {block : Block} {p : BlockNode}
    {flags : BehaviorFlags} {k : Int} {w' : World}
    (hr : Reachable env allowed (BlockChain.ofGenesis g totalTxns totalSubsidy) b)
    (hp : b.index block.header.prevBlock = some p) (hfresh : b.index block.hash = none)
    (h : connectBestChain env o (.child block p) block p.block flags
      (World.start (b.addNode (.child block p))) = .ok k w') :
    0 ≤ k ∧
    (k = 0 -> w'.chain.bestChain.tip = .child block p ∨
      (w'.chain.bestChain.tip = b.bestChain.tip ∧ (w'.chain.status block.hash).KnownInvalid)) ∧
    (0 < k -> w'.chain.bestChain.tip = b.bestChain.tip ∧
      BlockNode.child block p ∉ w'.chain.bestChain.tip.ancestors ∧
      ∃ F, b.bestChain.findFork (.child block p) = some F ∧
        k = ((BlockNode.child block p).height : Int) - F.height) := by
  have ht := Tree.of_reachable env hr
  rcases connectBestChain_ok_cases env o ht hp hfresh h with
    ⟨htip, rfl, -⟩ | ⟨htip, rfl, hinv⟩ | ⟨htip, -, F, hF, hlt, rfl⟩
  · exact ⟨le_rfl, fun _ => .inl htip, fun h => absurd h (lt_irrefl 0)⟩
  · exact ⟨le_rfl, fun _ => .inr ⟨htip, hinv⟩, fun h => absurd h (lt_irrefl 0)⟩
  · refine ⟨by omega, fun h0 => by omega, fun _ => ⟨htip, ?_, F, hF, rfl⟩⟩
    rw [htip]
    exact not_mem_tip_ancestors_of_fresh ht hfresh

/-- The chain after processing `sampleChild` from the genesis-only chain. -/
def sampleChildChain : BlockChain :=
  (Op.processBlock sampleChild ⟨false⟩).apply sampleEnv Oracle.allOk
    (BlockChain.ofGenesis sampleGenesis 0 0)

theorem connectBestChain_returns_sampleSibling :
    Reachable sampleEnv (fun _ _ => True) (BlockChain.ofGenesis sampleGenesis 0 0) sampleChildChain ∧
    sampleChildChain.index sampleSibling.header.prevBlock = some (.genesis sampleGenesis) ∧
    sampleChildChain.index sampleSibling.hash = none ∧
    ∃ w', connectBestChain sampleEnv Oracle.allOk (.child sampleSibling (.genesis sampleGenesis))
        sampleSibling (BlockNode.genesis sampleGenesis).block ⟨false⟩
        (World.start (sampleChildChain.addNode (.child sampleSibling (.genesis sampleGenesis)))) =
        .ok 1 w' ∧
      (0 ≤ (1 : Int) ∧
      ((1 : Int) = 0 -> w'.chain.bestChain.tip = .child sampleSibling (.genesis sampleGenesis) ∨
        (w'.chain.bestChain.tip = sampleChildChain.bestChain.tip ∧
          (w'.chain.status sampleSibling.hash).KnownInvalid)) ∧
      (0 < (1 : Int) -> w'.chain.bestChain.tip = sampleChildChain.bestChain.tip ∧
        BlockNode.child sampleSibling (.genesis sampleGenesis) ∉ w'.chain.bestChain.tip.ancestors ∧
        ∃ F, sampleChildChain.bestChain.findFork (.child sampleSibling (.genesis sampleGenesis)) =
            some F ∧
          (1 : Int) = ((BlockNode.child sampleSibling (.genesis sampleGenesis)).height : Int) -
            F.height)) :=
  have h := eq_ok_of_returned (by decide : returned (connectBestChain sampleEnv Oracle.allOk
    (.child sampleSibling (.genesis sampleGenesis)) sampleSibling (BlockNode.genesis sampleGenesis).block
    ⟨false⟩ (World.start (sampleChildChain.addNode (.child sampleSibling (.genesis sampleGenesis))))) =
      some 1)
  have hr : Reachable sampleEnv (fun _ _ => True) (BlockChain.ofGenesis sampleGenesis 0 0)
      sampleChildChain := .step .init trivial (Op.step_apply (by decide))
  ⟨hr, by decide, by decide, _, h, connectBestChain_returns sampleEnv Oracle.allOk hr (by decide)
    (by decide) h⟩

/-!
## forceHeadReorganization
-/

theorem getReorganizeNodes_sibling {w : World} {blk : Block} {q : BlockNode}
    (hq : w.chain.bestChain.tip.parent = some q)
    (hne : BlockNode.child blk q ≠ w.chain.bestChain.tip)
    (hqv : ¬ (w.chain.status q.hash).KnownInvalid)
    (hNv : ¬ (w.chain.status (BlockNode.child blk q).hash).KnownInvalid) :
    getReorganizeNodes (.child blk q) w = .ok ([w.chain.bestChain.tip], [.child blk q]) w := by
  /- The fork point of the sibling is the common parent. -/
  have hoff : BlockNode.child blk q ∉ w.chain.bestChain.tip.ancestors := fun hmem =>
    hne (BlockNode.eq_of_mem_ancestors_of_height_eq hmem (BlockNode.self_mem_ancestors _)
      (by rw [BlockNode.height_child, BlockNode.height_of_parent hq]))
  have hF : w.chain.bestChain.findFork (.child blk q) = some q := by
    simp [ChainView.findFork, hoff, ChainView.findFork_of_mem (BlockNode.parent_mem_ancestors hq)]
  have h := (getReorganizeNodes_of_findFork w (BlockNode.parent_child blk q) hF).1 hqv
    (by simpa using hNv)
  rw [BlockNode.ancestors_of_parent hq, BlockNode.height_of_parent hq, BlockNode.ancestors_child,
    BlockNode.height_child] at h
  simpa using h

theorem forceHeadReorganizationNodes_ok {f n : Hash} {r : List BlockNode × List BlockNode}
    {w w₁ : World} (ht : Tree w.chain) (h : forceHeadReorganizationNodes env o f n w = .ok r w₁) :
    f ≠ n ∧ w.chain.bestChain.tip.hash = f ∧
      ∃ N, w.chain.index n = some N ∧ N.parent = w.chain.bestChain.tip.parent ∧
        ¬ (w.chain.status n).KnownInvalid ∧
        ∃ w₂, MarkMoves env true w.chain w₂.chain ∧ (w₂.chain.status n).KnownValid ∧
          getReorganizeNodes N w₂ = .ok r w₁ := by
  unfold forceHeadReorganizationNodes at h
  split at h
  · simp at h
  rename_i hfn
  simp only [pure_bind_apply, getChain_bind] at h
  split at h
  · simp at h
  rename_i htip
  simp only [pure_bind_apply, bind_eq_ok] at h
  obtain ⟨N, w₂, hN, h⟩ := h
  obtain ⟨hidx, hpar, rfl⟩ : w.chain.index n = some N ∧ N.parent = w.chain.bestChain.tip.parent ∧
      w₂ = w := by
    cases hi : w.chain.index n with
    | none => rw [hi] at hN; cases hN
    | some N' =>
        rw [hi] at hN
        dsimp only at hN
        split at hN
        · cases hN
          exact ⟨rfl, ‹_›, rfl⟩
        · cases hN
  obtain rfl : N.hash = n := ht.keys _ _ hidx
  refine ⟨hfn, not_not.mp htip, N, hidx, hpar, ?_⟩
  split at h
  · simp at h
  rename_i hinv
  simp only [pure_bind_apply] at h
  refine ⟨hinv, ?_⟩
  split at h
  · obtain ⟨_, w₃, hval, h⟩ := bind_eq_ok.mp h
    obtain ⟨hm, hkv⟩ := (Spec.validateForcedTarget env o (s := true) rfl hidx hpar hinv ‹_›).ok
      rfl hval
    exact ⟨w₃, hm, hkv, h⟩
  · rw [pure_bind_apply] at h
    exact ⟨_, refl_of _ _, not_not.mp ‹_›, h⟩

theorem forceHeadReorganization_result {g : Block} {totalTxns totalSubsidy : BitVec 64}
    {b : BlockChain} {f n : Hash} {q : BlockNode}
    (hr : Reachable env (fun _ op => op.Strict = true)
      (BlockChain.ofGenesis g totalTxns totalSubsidy) b)
    (hq : b.bestChain.tip.parent = some q) :
    (∀ w', forceHeadReorganization env o f n (World.start b) = .ok () w' ->
      f = b.bestChain.tip.hash ∧
      ∃ N, b.index n = some N ∧ N ≠ b.bestChain.tip ∧ N.parent = b.bestChain.tip.parent ∧
        ¬ (b.status n).KnownInvalid ∧
        (∃ w₁ w₂, forceHeadReorganizationNodes env o f n (World.start b) =
            .ok ([b.bestChain.tip], [N]) w₁ ∧
          reorganizeChain env o [b.bestChain.tip] [N] w₁ = .ok () w₂) ∧
        w'.tipCalls = [.disconnectBlock b.bestChain.tip b.bestChain.tip.block q.block,
          .connectBlock N N.block q.block] ∧
        w'.chain.bestChain.tip.ancestors = N :: b.bestChain.tip.ancestors.tail) ∧
    (∀ e w₁, forceHeadReorganizationNodes env o f n (World.start b) = .error e w₁ ->
      forceHeadReorganization env o f n (World.start b) = .error e w₁ ∧
      w₁.chain.bestChain = b.bestChain ∧ w₁.chain.stateSnapshot = b.stateSnapshot) := by
  obtain ⟨ht, hs⟩ := StatusSound.of_reachable hr
  refine ⟨fun w' h => ?_, fun e w₁ he => ⟨bind_error he, ?_⟩⟩
  · unfold forceHeadReorganization at h
    obtain ⟨⟨d, a⟩, w₁, hnodes, h⟩ := bind_eq_ok.mp h
    obtain ⟨-, w₂, hre, hbk, htc⟩ := attemptFlush_ok o h
    obtain ⟨hfn, hf, N, hidx, hpar, hinv, w₃, hm, hkv, hget⟩ :=
      forceHeadReorganizationNodes_ok env o ht hnodes
    simp only [World.chain_start] at hf hpar hm hidx hinv
    obtain ⟨ht₃, hs₃⟩ := StatusSound.moves ht hs hm.1
    obtain rfl : N.hash = n := ht.keys _ _ hidx
    rw [hq] at hpar
    obtain ⟨blk, rfl⟩ : ∃ blk, N = .child blk q := by
      cases N with
      | genesis => cases hpar
      | child blk p => cases hpar; exact ⟨blk, rfl⟩
    have hT := BlockNode.ancestors_of_parent hq
    have hne : BlockNode.child blk q ≠ b.bestChain.tip := fun he => hfn (he ▸ hf).symm
    have hq₃ : ¬ (w₃.chain.status q.hash).KnownInvalid :=
      (hs₃.tip_ancestors ht₃ (by rw [hm.bestChain]; exact BlockNode.parent_mem_ancestors hq)).2
    /- The lists are the tip and the target. -/
    have hnodes₃ := getReorganizeNodes_sibling (by rw [hm.bestChain]; exact hq)
      (by rw [hm.bestChain]; exact hne) hq₃ (hs₃.exclusive _ hkv)
    rw [hm.bestChain] at hnodes₃
    rw [hnodes₃] at hget
    cases hget
    obtain ⟨fork, hdown, -, hcalls, -, htip⟩ := reorganizeChain_ok env o ht₃.consistent
      (hm.1.indexed hidx) hnodes₃ rfl hre
    rw [hm.bestChain, hT] at hdown
    obtain rfl : fork = q := BlockNode.eq_of_ancestors_eq (List.cons_injective hdown).symm
    have htc₃ := ((Frame.forceHeadReorganizationNodes env o f _).ok hnodes).2
    refine ⟨hf.symm, _, hidx, hne, hq.symm ▸ rfl, hinv, ⟨_, _, hnodes, hre⟩, ?_, ?_⟩
    · rw [htc, hcalls, htc₃]
      rfl
    · rw [hbk.bestChain, htip, hT]
      rfl
  · have hso := ((Frame.forceHeadReorganizationNodes env o f n).error he).1
    exact ⟨hso.bestChain, by rw [hso.eq]; rfl⟩

theorem forceHeadReorganization_result_sampleForkChain :
    Reachable sampleEnv (fun _ op => op.Strict = true) (BlockChain.ofGenesis sampleGenesis 0 0)
      sampleForkChain ∧
    sampleForkChain.bestChain.tip.parent = some (BlockNode.genesis sampleGenesis) ∧
    (∀ w', forceHeadReorganization sampleEnv Oracle.allOk sampleChild.hash sampleSibling.hash (World.start sampleForkChain) = .ok () w' ->
      sampleChild.hash = sampleForkChain.bestChain.tip.hash ∧
      ∃ N, sampleForkChain.index sampleSibling.hash = some N ∧ N ≠ sampleForkChain.bestChain.tip ∧
        N.parent = sampleForkChain.bestChain.tip.parent ∧ ¬ (sampleForkChain.status sampleSibling.hash).KnownInvalid ∧
        (∃ w₁ w₂, forceHeadReorganizationNodes sampleEnv Oracle.allOk sampleChild.hash sampleSibling.hash (World.start sampleForkChain) =
            .ok ([sampleForkChain.bestChain.tip], [N]) w₁ ∧
          reorganizeChain sampleEnv Oracle.allOk [sampleForkChain.bestChain.tip] [N] w₁ = .ok () w₂) ∧
        w'.tipCalls = [.disconnectBlock sampleForkChain.bestChain.tip sampleForkChain.bestChain.tip.block
          (BlockNode.genesis sampleGenesis).block, .connectBlock N N.block (BlockNode.genesis sampleGenesis).block] ∧
        w'.chain.bestChain.tip.ancestors = N :: sampleForkChain.bestChain.tip.ancestors.tail) ∧
    (∀ e w₁, forceHeadReorganizationNodes sampleEnv Oracle.allOk sampleChild.hash sampleSibling.hash (World.start sampleForkChain) = .error e w₁ ->
      forceHeadReorganization sampleEnv Oracle.allOk sampleChild.hash sampleSibling.hash (World.start sampleForkChain) = .error e w₁ ∧
      w₁.chain.bestChain = sampleForkChain.bestChain ∧ w₁.chain.stateSnapshot = sampleForkChain.stateSnapshot) :=
  have hr : Reachable sampleEnv (fun _ op => op.Strict = true)
      (BlockChain.ofGenesis sampleGenesis 0 0) sampleForkChain :=
    .step (.step .init (by rfl) (Op.step_apply (by decide))) (by rfl) (Op.step_apply (by decide))
  have hq : sampleForkChain.bestChain.tip.parent = some (BlockNode.genesis sampleGenesis) := by decide
  ⟨hr, hq, forceHeadReorganization_result sampleEnv Oracle.allOk hr hq⟩

/-- A light child of `sampleSibling`. -/
def sampleSiblingChild : Block :=
  ⟨5, ⟨4, 2, 0, 0, 0, 0, 0, 0, 0⟩, [sampleCoinbase], [], 1, []⟩

/-- A heavy child of `sampleSibling`. -/
def sampleHeavySiblingChild : Block :=
  ⟨6, ⟨4, 2, 0, 0, 0, 0, 0, 0, 0⟩, [sampleCoinbase], [], 10, []⟩

/-- A heavy child of `sampleSiblingChild`. -/
def sampleHeavyGrandchild : Block :=
  ⟨7, ⟨5, 3, 0, 0, 0, 0, 0, 0, 0⟩, [sampleCoinbase], [], 10, []⟩

/-- The node of `sampleSiblingChild`. -/
def sampleSiblingChildNode : BlockNode :=
  .child sampleSiblingChild (.child sampleSibling (.genesis sampleGenesis))

/-- `sampleForkChain` after a side-chain block and a heavier branch whose reorganization fails. -/
def sampleInvalidBranchChain : BlockChain :=
  (Op.processBlock sampleHeavySiblingChild ⟨false⟩).apply sampleEnv Oracle.rejecting
    ((Op.processBlock sampleSiblingChild ⟨false⟩).apply sampleEnv Oracle.allOk sampleForkChain)

theorem connectBestChain_zero_off_tip :
    Reachable sampleEnv (fun _ _ => True) (BlockChain.ofGenesis sampleGenesis 0 0)
      sampleInvalidBranchChain ∧
    sampleInvalidBranchChain.index sampleHeavyGrandchild.header.prevBlock =
      some sampleSiblingChildNode ∧
    sampleInvalidBranchChain.index sampleHeavyGrandchild.hash = none ∧
    ∃ w', connectBestChain sampleEnv Oracle.allOk (.child sampleHeavyGrandchild sampleSiblingChildNode)
        sampleHeavyGrandchild sampleSiblingChildNode.block ⟨false⟩
        (World.start (sampleInvalidBranchChain.addNode
          (.child sampleHeavyGrandchild sampleSiblingChildNode))) = .ok 0 w' ∧
      w'.chain.bestChain.tip ≠ .child sampleHeavyGrandchild sampleSiblingChildNode :=
  ⟨.step (.step reachable_sampleForkChain trivial (Op.step_apply (by decide))) trivial
    (Op.step_apply (by decide)), by decide, by decide, _, eq_ok_of_returned (by decide), by decide⟩

end DcrdChain
