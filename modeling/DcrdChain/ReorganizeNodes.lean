import DcrdChain.Commit
import DcrdChain.Queries
import DcrdChain.Rollback

/-!
# The nodes of a reorganization, exactly

`getReorganizeNodes` for a node with a parent, on a consistent chain.  Let `F` be the fork
point and `p` the nodes from the new node down to `F`, `F` excluded.  When neither the
parent nor a node of `p` is known invalid, the chain is untouched and the lists are the
nodes from the tip down to `F` and `p` from `F` up.  Otherwise both lists are empty and
`statusInvalidAncestor` is added to the node alone, when its parent is known invalid, or
else to the nodes of `p` above the first known-invalid one met walking down.
-/

namespace DcrdChain

open BlockStatus

theorem detachWalk_eq_take {f n : BlockNode} (hf : f ∈ n.ancestors) :
    detachWalk (some f) n = n.ancestors.take (n.height - f.height) := by
  have h := detachWalk_append hf
  have hlen := congrArg List.length h
  simp only [List.length_append, BlockNode.length_ancestors] at hlen
  rw [h, List.take_left' (by omega)]

/-- `w` with `statusInvalidAncestor` added to `nodes`, and `m` the modified set. -/
def World.markInvalidAncestor (w : World) (nodes : List BlockNode) (m : List Hash) : World :=
  { w with chain := { w.chain with
      status := fun h => (w.chain.status h).setFlags
        (if h ∈ nodes.map BlockNode.hash then statusInvalidAncestor else statusNone)
      modified := m } }

theorem setStatusFlags_markInvalidAncestor (w : World) (n : BlockNode) :
    ∃ m, setStatusFlags n statusInvalidAncestor w = .ok () (w.markInvalidAncestor [n] m) := by
  have hst : Function.update w.chain.status n.hash
      ((w.chain.status n.hash).setFlags statusInvalidAncestor) = fun h => (w.chain.status h).setFlags
        (if h ∈ [n].map BlockNode.hash then statusInvalidAncestor else statusNone) := by
    funext h
    by_cases hh : h = n.hash
    · subst hh
      simp
    · simp [hh, Function.update_noteq hh]
  exact ⟨_, by rw [setStatusFlags_apply, hst]; rfl⟩

section

variable (w : World) {n q F : BlockNode}

theorem getReorganizeNodes_of_findFork (hq : n.parent = some q)
    (hF : w.chain.bestChain.findFork n = some F) :
    (¬ (w.chain.status q.hash).KnownInvalid ->
      (∀ a ∈ n.ancestors.take (n.height - F.height), ¬ (w.chain.status a.hash).KnownInvalid) ->
      getReorganizeNodes n w = .ok (w.chain.bestChain.tip.ancestors.take
        (w.chain.bestChain.tip.height - F.height), (n.ancestors.take (n.height - F.height)).reverse)
        w) ∧
    ((w.chain.status q.hash).KnownInvalid ->
      ∃ m, getReorganizeNodes n w = .ok ([], []) (w.markInvalidAncestor [n] m)) ∧
    (¬ (w.chain.status q.hash).KnownInvalid ->
      (∃ a ∈ n.ancestors.take (n.height - F.height), (w.chain.status a.hash).KnownInvalid) ->
      ∃ m, getReorganizeNodes n w = .ok ([], []) (w.markInvalidAncestor
        ((n.ancestors.take (n.height - F.height)).takeWhile
          fun a => !decide (w.chain.status a.hash).KnownInvalid) m)) := by
  obtain ⟨hfn, hft⟩ := ChainView.findFork_spec hF
  unfold getReorganizeNodes
  simp only [getChain_bind, hq]
  refine ⟨fun hi hall => ?_, fun hi => ?_, fun hi hinv => ?_⟩
  · rw [if_neg hi, pure_bind_apply, hF, attachWalk_eq hfn, detachWalk_eq_take hfn, if_pos hall,
      detachWalk_eq_take hft, List.append_nil]
    rfl
  · obtain ⟨m, hm⟩ := setStatusFlags_markInvalidAncestor w n
    exact ⟨m, by rw [if_pos hi, bind_ok hm]; rfl⟩
  · rw [if_neg hi, pure_bind_apply, hF, attachWalk_eq hfn, detachWalk_eq_take hfn,
      if_neg fun hall => let ⟨a, ha, hai⟩ := hinv; hall a ha hai, List.append_nil]
    obtain ⟨m, hm⟩ := forM_setStatusFlags (((n.ancestors.take (n.height - F.height)).takeWhile
      fun a => !decide (w.chain.status a.hash).KnownInvalid).reverse) statusInvalidAncestor w
    refine ⟨m, (bind_ok hm).trans ?_⟩
    simp only [List.map_reverse, List.mem_reverse]
    rfl

end

theorem getReorganizeNodes_eq (w : World) (n q : BlockNode) (hc : Consistent w.chain)
    (hn : w.chain.index n.hash = some n) (hq : n.parent = some q) :
    ∃ F, w.chain.bestChain.findFork n = some F ∧
    (¬ (w.chain.status q.hash).KnownInvalid ->
      (∀ a ∈ n.ancestors.take (n.height - F.height), ¬ (w.chain.status a.hash).KnownInvalid) ->
      getReorganizeNodes n w = .ok (w.chain.bestChain.tip.ancestors.take
        (w.chain.bestChain.tip.height - F.height), (n.ancestors.take (n.height - F.height)).reverse)
        w) ∧
    ((w.chain.status q.hash).KnownInvalid ->
      ∃ m, getReorganizeNodes n w = .ok ([], []) (w.markInvalidAncestor [n] m)) ∧
    (¬ (w.chain.status q.hash).KnownInvalid ->
      (∃ a ∈ n.ancestors.take (n.height - F.height), (w.chain.status a.hash).KnownInvalid) ->
      ∃ m, getReorganizeNodes n w = .ok ([], []) (w.markInvalidAncestor
        ((n.ancestors.take (n.height - F.height)).takeWhile
          fun a => !decide (w.chain.status a.hash).KnownInvalid) m)) :=
  let ⟨F, hF⟩ := ChainView.findFork_isSome (hc.root _ _ hn)
  ⟨F, hF, getReorganizeNodes_of_findFork w hq hF⟩

/-- `sampleSibling` as a node of `sampleSiblingsChain`, off the best chain. -/
def sampleSiblingNode : BlockNode :=
  .child sampleSibling (.genesis sampleGenesis)

theorem getReorganizeNodes_eq_siblings :
    Consistent sampleSiblingsChain ∧
    (World.start sampleSiblingsChain).chain.index sampleSiblingNode.hash = some sampleSiblingNode ∧
    sampleSiblingNode.parent = some (.genesis sampleGenesis) ∧
    ∃ F, (World.start sampleSiblingsChain).chain.bestChain.findFork sampleSiblingNode = some F ∧
    (¬ ((World.start sampleSiblingsChain).chain.status sampleGenesis.hash).KnownInvalid ->
      (∀ a ∈ sampleSiblingNode.ancestors.take (sampleSiblingNode.height - F.height),
        ¬ ((World.start sampleSiblingsChain).chain.status a.hash).KnownInvalid) ->
      getReorganizeNodes sampleSiblingNode (World.start sampleSiblingsChain) =
        .ok ((World.start sampleSiblingsChain).chain.bestChain.tip.ancestors.take
            ((World.start sampleSiblingsChain).chain.bestChain.tip.height - F.height),
          (sampleSiblingNode.ancestors.take (sampleSiblingNode.height - F.height)).reverse)
          (World.start sampleSiblingsChain)) ∧
    (((World.start sampleSiblingsChain).chain.status sampleGenesis.hash).KnownInvalid ->
      ∃ m, getReorganizeNodes sampleSiblingNode (World.start sampleSiblingsChain) = .ok ([], [])
        ((World.start sampleSiblingsChain).markInvalidAncestor [sampleSiblingNode] m)) ∧
    (¬ ((World.start sampleSiblingsChain).chain.status sampleGenesis.hash).KnownInvalid ->
      (∃ a ∈ sampleSiblingNode.ancestors.take (sampleSiblingNode.height - F.height),
        ((World.start sampleSiblingsChain).chain.status a.hash).KnownInvalid) ->
      ∃ m, getReorganizeNodes sampleSiblingNode (World.start sampleSiblingsChain) = .ok ([], [])
        ((World.start sampleSiblingsChain).markInvalidAncestor
          ((sampleSiblingNode.ancestors.take (sampleSiblingNode.height - F.height)).takeWhile
            fun a => !decide ((World.start sampleSiblingsChain).chain.status a.hash).KnownInvalid)
          m)) :=
  ⟨consistent_sampleSiblingsChain, rfl, rfl,
    getReorganizeNodes_eq _ _ _ consistent_sampleSiblingsChain rfl rfl⟩

end DcrdChain
