import DcrdChain.DryRun

/-!
# Consistent chains

The block index of `chain.go` is a tree: it holds every ancestor of each of its nodes, all
of them descend from the genesis block of the best chain, and the tip of the best chain is
in it.  The main-chain block cache and the orphan pool hold, under a hash of the index, the
block of its node.  On such a chain every fetch returns the block of the node it is asked
for, and `getReorganizeNodes` returns the path from the tip down to the fork point and the
path from the fork point up to the new node.
-/

namespace DcrdChain

/-- A tree index holding the best chain, with a cache and an orphan pool that agree with it. -/
structure Consistent (b : BlockChain) : Prop where
  closed : ∀ h n, b.index h = some n -> ∀ a ∈ n.ancestors, b.index a.hash = some a
  root : ∀ h n, b.index h = some n -> n.root = b.bestChain.tip.root
  tip : b.index b.bestChain.tip.hash = some b.bestChain.tip
  cache : ∀ n blk, b.index n.hash = some n -> b.mainchainBlockCache.lookup n.hash = some blk ->
    blk = n.block
  orphans : ∀ n ob, b.index n.hash = some n -> b.orphans.lookup n.hash = some ob ->
    ob.block = n.block

namespace Consistent

variable {b b' : BlockChain} (hc : Consistent b)
include hc

theorem index_of_mem_tip {a : BlockNode} (ha : a ∈ b.bestChain.tip.ancestors) :
    b.index a.hash = some a :=
  hc.closed _ _ hc.tip a ha

theorem cachedBlock_eq {n : BlockNode} (hn : b.index n.hash = some n) : b.cachedBlock n = n.block := by
  unfold BlockChain.cachedBlock
  cases hl : b.mainchainBlockCache.lookup n.hash with
  | none => rfl
  | some blk => exact hc.cache n blk hn hl

theorem of_statusOnly (h : StatusOnly b b') : Consistent b' := by
  obtain ⟨h1, h2, h3, h4, h5⟩ := hc
  rw [h.eq]
  exact ⟨h1, h2, h3, h4, h5⟩

end Consistent

/-!
## What the fetches return
-/

section Fetch

variable (o : Oracle) {w w' : World} {n : BlockNode} {blk : Block}

theorem fetchMainChainBlockByNode_block (hc : Consistent w.chain)
    (h : fetchMainChainBlockByNode o n w = .ok blk w') : blk = n.block := by
  obtain ⟨hm, rfl⟩ := fetchMainChainBlockByNode_ok o h
  exact hc.cachedBlock_eq (hc.index_of_mem_tip (ChainView.contains_iff.mp hm))

theorem fetchBlockByNode_block (hc : Consistent w.chain) (hn : w.chain.index n.hash = some n)
    (h : fetchBlockByNode o n w = .ok blk w') : blk = n.block := by
  unfold fetchBlockByNode at h
  simp only [getChain_bind] at h
  cases hl : w.chain.mainchainBlockCache.lookup n.hash with
  | some b => rw [hl] at h; cases h; exact hc.cache n _ hn hl
  | none =>
      cases ho : w.chain.orphans.lookup n.hash with
      | some ob => rw [hl, ho] at h; cases h; exact hc.orphans n _ hn ho
      | none =>
          rw [hl, ho, bind_eq_ok] at h
          obtain ⟨_, _, -, h⟩ := h
          cases h
          rfl

end Fetch

/-!
## Paths of nodes

A list of nodes each the parent of the one before is a path down the tree.  The ancestors
of a node are such a path, and an ancestor splits it in two.
-/

section Paths

/-- Each node of the list is followed by its parent. -/
abbrev DownPath (l : List BlockNode) : Prop :=
  List.Chain' (fun a p => a.parent = some p) l

/-- Each node of the list is followed by a child of it. -/
abbrev UpPath (l : List BlockNode) : Prop :=
  List.Chain' (fun p a => a.parent = some p) l

theorem BlockNode.head?_ancestors (n : BlockNode) : n.ancestors.head? = some n := by
  cases n <;> rfl

theorem BlockNode.downPath_ancestors (n : BlockNode) : DownPath n.ancestors := by
  induction n with
  | genesis g => exact List.chain'_singleton _
  | child b p ih =>
      exact List.chain'_cons'.mpr ⟨fun y hy => by
        rw [BlockNode.head?_ancestors] at hy
        cases hy
        rfl, ih⟩

theorem BlockNode.eq_of_ancestors_eq {n m : BlockNode} (h : n.ancestors = m.ancestors) : n = m := by
  have := congrArg List.head? h
  rw [BlockNode.head?_ancestors, BlockNode.head?_ancestors] at this
  exact Option.some_injective _ this

variable {n f : BlockNode} {l : List BlockNode}

theorem downPath_of_ancestors (h : n.ancestors = l ++ f.ancestors) : DownPath (l ++ [f]) := by
  have hp := n.downPath_ancestors
  cases f with
  | genesis g => rwa [h] at hp
  | child b p =>
      rw [h, BlockNode.ancestors_child, ← List.singleton_append, ← List.append_assoc] at hp
      exact hp.left_of_append

theorem upPath_of_ancestors (h : n.ancestors = l.reverse ++ f.ancestors) : UpPath (f :: l) := by
  have hp := downPath_of_ancestors h
  rw [← List.reverse_cons] at hp
  exact List.chain'_reverse.mp hp

theorem getLast?_of_ancestors (h : n.ancestors = l.reverse ++ f.ancestors) :
    (f :: l).getLast? = some n := by
  have hn := n.head?_ancestors
  rw [h, List.head?_append, BlockNode.head?_ancestors] at hn
  rw [← List.head?_reverse, List.reverse_cons, List.head?_append]
  exact hn.symm ▸ rfl

end Paths

/-!
## The nodes of a reorganization
-/

section ReorganizeNodes

open BlockStatus

variable {f n : BlockNode}

theorem detachWalk_append (hf : f ∈ n.ancestors) :
    n.ancestors = detachWalk (some f) n ++ f.ancestors := by
  induction n with
  | genesis g =>
      simp only [BlockNode.ancestors, List.mem_singleton] at hf
      subst hf
      simp [detachWalk]
  | child b p ih =>
      by_cases he : BlockNode.child b p = f
      · subst he
        simp [detachWalk]
      · have hp : f ∈ p.ancestors := by
          simpa [Ne.symm he] using hf
        simp [detachWalk, he, ih hp]

theorem attachWalk_eq {status : Hash -> BlockStatus} (hf : f ∈ n.ancestors) (acc : List BlockNode) :
    attachWalk (some f) status n acc =
      if ∀ a ∈ detachWalk (some f) n, ¬ (status a.hash).KnownInvalid then
        .ok ((detachWalk (some f) n).reverse ++ acc)
      else .error (((detachWalk (some f) n).takeWhile
        fun a => !decide (status a.hash).KnownInvalid).reverse ++ acc) := by
  induction n generalizing acc with
  | genesis g =>
      simp only [BlockNode.ancestors, List.mem_singleton] at hf
      subst hf
      simp [attachWalk, detachWalk]
  | child b p ih =>
      by_cases he : BlockNode.child b p = f
      · subst he
        simp [attachWalk, detachWalk]
      · have hp : f ∈ p.ancestors := by
          simpa [Ne.symm he] using hf
        have hne : some (BlockNode.child b p) ≠ some f := fun h => he (Option.some_injective _ h)
        rw [attachWalk, if_neg hne, detachWalk, if_neg hne]
        by_cases hi : (status b.hash).KnownInvalid
        · rw [if_pos hi, if_neg fun h => h _ (List.mem_cons_self _ _) hi]
          simp [hi]
        · rw [if_neg hi, ih hp]
          simp [hi]

theorem attachWalk_ok {status : Hash -> BlockStatus} {acc res : List BlockNode}
    (hf : f ∈ n.ancestors) (h : attachWalk (some f) status n acc = .ok res) :
    res = (detachWalk (some f) n).reverse ++ acc := by
  rw [attachWalk_eq hf] at h
  split at h
  · cases h; rfl
  · cases h

variable {w w' : World} {node : BlockNode} {detach attach : List BlockNode}

theorem getReorganizeNodes_ok (hc : Consistent w.chain) (hn : w.chain.index node.hash = some node)
    (h : getReorganizeNodes node w = .ok (detach, attach) w')
    (hne : (detach.isEmpty && attach.isEmpty) = false) :
    exists fork : BlockNode, w.chain.bestChain.tip.ancestors = detach ++ fork.ancestors ∧
      node.ancestors = attach.reverse ++ fork.ancestors := by
  unfold getReorganizeNodes at h
  simp only [getChain_bind] at h
  obtain ⟨fork, hfork⟩ := ChainView.findFork_isSome (hc.root _ _ hn)
  obtain ⟨hfn, hft⟩ := ChainView.findFork_spec hfork
  cases hp : node.parent with
  | none => rw [hp] at h; cases h
  | some parent =>
      rw [hp] at h
      dsimp only at h
      by_cases hi : (w.chain.status parent.hash).KnownInvalid
      · rw [if_pos hi, bind_eq_ok] at h
        obtain ⟨_, _, -, h⟩ := h
        cases h
        cases hne
      rw [if_neg hi, pure_bind_apply, hfork] at h
      cases hw : attachWalk (some fork) w.chain.status node [] with
      | error acc =>
          rw [hw, bind_eq_ok] at h
          obtain ⟨_, _, -, h⟩ := h
          cases h
          cases hne
      | ok attachNodes =>
          rw [hw] at h
          cases h
          refine ⟨fork, detachWalk_append hft, ?_⟩
          rw [attachWalk_ok hfn hw, List.append_nil, List.reverse_reverse]
          exact detachWalk_append hfn

end ReorganizeNodes

end DcrdChain
