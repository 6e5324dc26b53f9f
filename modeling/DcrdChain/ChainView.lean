import DcrdChain.Block

/-!
# The best-chain view

`chainView` (chainview.go, not under src/) is a dense array holding, for every height
up to its tip, the node of the current branch at that height.  Its contents are the
ancestor path of its tip, so the view is modelled by its tip; every query of the spec
(section 4.2) is answered from that path.
-/

namespace DcrdChain

/-- Modelled from the spec: the `chainView` of chainview.go, the branch ending at `tip`. -/
structure ChainView where
  tip : BlockNode
  deriving DecidableEq, Repr

namespace ChainView

variable (v : ChainView)

/-- Modelled from the spec: `Genesis()`. -/
def genesis : BlockNode :=
  v.tip.root

/-- Modelled from the spec: `NodeByHeight(h)`, the node of the view at height `h`. -/
def nodeByHeight (h : Nat) : Option BlockNode :=
  v.tip.ancestor h

/-- Modelled from the spec: `Contains(node)`, true iff `view[node.height] == node`. -/
def contains (n : BlockNode) : Bool :=
  v.nodeByHeight n.height = some n

/-- Modelled from the spec: `Next(node)`, the successor of a node of the view. -/
def next (n : BlockNode) : Option BlockNode :=
  if v.contains n then v.nodeByHeight (n.height + 1) else none

/-- Modelled from the spec: `FindFork(node)`, the first ancestor of the node on the view. -/
def findFork : BlockNode -> Option BlockNode
  | .genesis b => if v.contains (.genesis b) then some (.genesis b) else none
  | .child b p => if v.contains (.child b p) then some (.child b p) else findFork p

variable {v}

/-- Modelled from the spec: `SetTip(node)`. -/
def setTip (_v : ChainView) (n : BlockNode) : ChainView :=
  ⟨n⟩

@[simp] theorem tip_setTip (n : BlockNode) : (v.setTip n).tip = n := rfl

@[simp] theorem contains_iff {n : BlockNode} : v.contains n = true ↔ n ∈ v.tip.ancestors := by
  simp [contains, nodeByHeight, BlockNode.ancestor_eq_some_iff]

theorem tip_contains : v.contains v.tip = true :=
  contains_iff.mpr (BlockNode.self_mem_ancestors _)

theorem findFork_eq_find (n : BlockNode) :
    v.findFork n = n.ancestors.find? (fun a => v.contains a) := by
  induction n with
  | genesis b =>
      by_cases h : v.contains (.genesis b) <;> simp [findFork, BlockNode.ancestors, h]
  | child b p ih =>
      by_cases h : v.contains (.child b p) <;> simp [findFork, h, ih]

theorem findFork_spec {n f : BlockNode} (h : v.findFork n = some f) :
    f ∈ n.ancestors ∧ f ∈ v.tip.ancestors := by
  rw [findFork_eq_find] at h
  exact ⟨List.mem_of_find?_eq_some h, contains_iff.mp (List.find?_some h)⟩

theorem findFork_of_mem {n : BlockNode} (h : n ∈ v.tip.ancestors) : v.findFork n = some n := by
  cases n <;> simp [findFork, h]

theorem findFork_isSome {n : BlockNode} (h : n.root = v.tip.root) :
    ∃ f, v.findFork n = some f := by
  induction n with
  | genesis b =>
      have hmem : BlockNode.genesis b ∈ v.tip.ancestors := by
        rw [show BlockNode.genesis b = v.tip.root from h]
        exact BlockNode.root_mem_ancestors _
      exact ⟨_, findFork_of_mem hmem⟩
  | child b p ih =>
      by_cases hc : v.contains (.child b p)
      · exact ⟨.child b p, by simp [findFork, hc]⟩
      · obtain ⟨f, hf⟩ := ih (by simpa using h)
        exact ⟨f, by simp [findFork, hc, hf]⟩

end ChainView

end DcrdChain
