import DcrdChain.RefineRun
import DcrdChain.Versions

/-!
# Pruning stake nodes

`pruneStakeNodes` drops the stake data of the best-chain blocks that lie too far below the
tip: it walks `minMemoryStakeNodes - 1` parents down from the tip, lists every node below
that one down to the genesis block, and clears those of them still within
`minMemoryNodes` of the tip.  On a consistent chain this clears exactly one band of the
best chain and leaves every other node's stake data as it was.
-/

namespace DcrdChain

/-- `minMemoryNodes`. -/
def minMemoryNodes : Nat := 2880

/-- `minMemoryStakeNodes`. -/
def minMemoryStakeNodes : Nat := 288

/-- The first loop of `pruneStakeNodes`: step to the parent `k` times, or until `nil`. -/
def walkBack : Nat -> Option BlockNode -> Option BlockNode
  | 0, node => node
  | _ + 1, none => none
  | k + 1, some node => walkBack k node.parent

/-- One pass of the last loop: clear the four stake fields of a node near enough the tip. -/
def pruneStep (b : BlockChain) (node : BlockNode) : BlockChain :=
  if (node.height : Int) > (b.bestChain.tip.height : Int) - minMemoryNodes then
    { b with stakeData := Function.update b.stakeData node.hash StakeFields.cleared }
  else b

/-- `pruneStakeNodes()`: prune, genesis first, the nodes below the last `minMemoryStakeNodes`. -/
def pruneStakeNodes (b : BlockChain) : BlockChain :=
  match walkBack (minMemoryStakeNodes - 1) (some b.bestChain.tip) with
  | none => b
  | some pruneToNode =>
      match pruneToNode.parent with
      | none => b
      | some parent => parent.ancestors.reverse.foldl pruneStep b

theorem walkBack_none (k : Nat) : walkBack k none = none := by
  cases k <;> rfl

theorem walkBack_eq (k : Nat) (n : BlockNode) : walkBack k (some n) = n.ancestors[k]? := by
  induction k generalizing n with
  | zero => cases n <;> simp [walkBack, BlockNode.ancestors]
  | succ k ih =>
      cases n with
      | genesis g => exact walkBack_none k
      | child c p => simpa [walkBack] using ih p

theorem bestChain_pruneStep (b : BlockChain) (n : BlockNode) :
    (pruneStep b n).bestChain = b.bestChain := by
  unfold pruneStep
  split <;> rfl

theorem stakeData_pruneStep (b : BlockChain) (n : BlockNode) (k : Hash) :
    (pruneStep b n).stakeData k = if n.hash = k ∧
      (n.height : Int) > (b.bestChain.tip.height : Int) - minMemoryNodes
    then StakeFields.cleared else b.stakeData k := by
  unfold pruneStep
  split <;> rename_i hn
  · by_cases hk : n.hash = k
    · subst hk
      simp [hn]
    · simp [Function.update_noteq (Ne.symm hk), hk]
  · exact (if_neg fun h => hn h.2).symm

theorem foldl_pruneStep_frame (l : List BlockNode) (b : BlockChain) :
    ∃ sd, l.foldl pruneStep b = { b with stakeData := sd } := by
  induction l generalizing b with
  | nil => exact ⟨b.stakeData, rfl⟩
  | cons n rest ih =>
      obtain ⟨sd, hsd⟩ := ih (pruneStep b n)
      rw [List.foldl_cons, hsd]
      unfold pruneStep
      split
      · exact ⟨sd, rfl⟩
      · exact ⟨sd, rfl⟩

theorem stakeData_foldl_pruneStep (l : List BlockNode) (b : BlockChain) (k : Hash) :
    (l.foldl pruneStep b).stakeData k =
      if ∃ n ∈ l, n.hash = k ∧
        (n.height : Int) > (b.bestChain.tip.height : Int) - minMemoryNodes
      then StakeFields.cleared else b.stakeData k := by
  induction l generalizing b with
  | nil => simp
  | cons n rest ih =>
      rw [List.foldl_cons, ih, bestChain_pruneStep, stakeData_pruneStep]
      by_cases hr : ∃ m ∈ rest, m.hash = k ∧
          (m.height : Int) > (b.bestChain.tip.height : Int) - minMemoryNodes
      · rw [if_pos hr, if_pos (let ⟨m, hm, hm'⟩ := hr; ⟨m, List.mem_cons_of_mem _ hm, hm'⟩)]
      · rw [if_neg hr]
        simp only [List.mem_cons, exists_eq_or_imp]
        by_cases hn : n.hash = k ∧
            (n.height : Int) > (b.bestChain.tip.height : Int) - minMemoryNodes
        · rw [if_pos hn, if_pos (.inl hn)]
        · rw [if_neg hn, if_neg fun h => h.elim hn hr]

namespace BlockNode

theorem mem_ancestors_of_height_le {a n t : BlockNode} (ha : a ∈ t.ancestors)
    (hn : n ∈ t.ancestors) (h : a.height ≤ n.height) : a ∈ n.ancestors := by
  obtain ⟨a', ha'⟩ : ∃ a', n.ancestor a.height = some a' := by
    rw [ancestor_eq_getElem?]
    exact ⟨_, List.getElem?_eq_getElem (by simp; omega)⟩
  obtain ⟨hmem, hh⟩ := ancestor_eq_some_iff.mp ha'
  rwa [← eq_of_mem_ancestors_of_height_eq (ancestors_trans hmem hn) ha hh]

theorem mem_ancestors_of_getElem? {t a : BlockNode} {i : Nat} (ha : t.ancestors[i]? = some a) :
    a ∈ t.ancestors ∧ a.height + i = t.height := by
  have hi := (List.getElem?_eq_some_iff.mp ha).1
  rw [length_ancestors] at hi
  obtain ⟨hmem, hah⟩ := ancestor_eq_some_iff.mp ((getElem?_ancestors (by omega)).symm.trans ha)
  exact ⟨hmem, by omega⟩

end BlockNode

/-!
## The two cases of pruneStakeNodes
-/

section Cases

variable {b : BlockChain}

theorem pruneStakeNodes_of_lt (hH : b.bestChain.tip.height < minMemoryStakeNodes) :
    pruneStakeNodes b = b := by
  unfold pruneStakeNodes
  rw [walkBack_eq]
  split
  · rfl
  · rename_i a ha
    have hah := (BlockNode.mem_ancestors_of_getElem? ha).2
    cases a with
    | genesis => rfl
    | child c p =>
        simp only [BlockNode.height_child, minMemoryStakeNodes] at hah hH
        omega

theorem pruneStakeNodes_of_le (hH : minMemoryStakeNodes ≤ b.bestChain.tip.height) :
    ∃ p ∈ b.bestChain.tip.ancestors, p.height + minMemoryStakeNodes = b.bestChain.tip.height ∧
      pruneStakeNodes b = p.ancestors.reverse.foldl pruneStep b := by
  have h288 : minMemoryStakeNodes = 288 := rfl
  obtain ⟨a, ha⟩ : ∃ a, b.bestChain.tip.ancestors[minMemoryStakeNodes - 1]? = some a :=
    ⟨_, List.getElem?_eq_getElem (by simp; omega)⟩
  obtain ⟨hamem, hah⟩ := BlockNode.mem_ancestors_of_getElem? ha
  cases a with
  | genesis g => simp only [BlockNode.height_genesis] at hah; omega
  | child c p =>
      refine ⟨p, BlockNode.ancestors_trans
        (BlockNode.parent_mem_ancestors (BlockNode.parent_child c p)) hamem,
        by simp only [BlockNode.height_child] at hah; omega, ?_⟩
      unfold pruneStakeNodes
      rw [walkBack_eq, ha]
      rfl

theorem pruned_iff_band (hc : Consistent b) {p n : BlockNode} (hp : p ∈ b.bestChain.tip.ancestors)
    (hph : p.height + minMemoryStakeNodes = b.bestChain.tip.height)
    (hn : b.index n.hash = some n) :
    (∃ m ∈ p.ancestors.reverse, m.hash = n.hash ∧
        (m.height : Int) > (b.bestChain.tip.height : Int) - minMemoryNodes) ↔
      n ∈ b.bestChain.tip.ancestors ∧
        (b.bestChain.tip.height : Int) - minMemoryNodes < n.height ∧
        (n.height : Int) ≤ (b.bestChain.tip.height : Int) - minMemoryStakeNodes := by
  constructor
  · rintro ⟨m, hm, hmn, hmh⟩
    rw [List.mem_reverse] at hm
    have hmtip := BlockNode.ancestors_trans hm hp
    obtain rfl := eq_of_index (hc.index_of_mem_tip hmtip) hn hmn
    have := BlockNode.height_le_of_mem_ancestors hm
    exact ⟨hmtip, hmh, by omega⟩
  · rintro ⟨hntip, hlo, hhi⟩
    exact ⟨n, List.mem_reverse.mpr
      (BlockNode.mem_ancestors_of_height_le hntip hp (by omega)), rfl, hlo⟩

end Cases

theorem pruneStakeNodes_band (b : BlockChain) (hc : Consistent b) :
    pruneStakeNodes b = { b with stakeData := (pruneStakeNodes b).stakeData } ∧
      ((b.bestChain.tip.height : Int) < minMemoryStakeNodes -> pruneStakeNodes b = b) ∧
      ∀ n, b.index n.hash = some n ->
        (pruneStakeNodes b).stakeData n.hash =
          if n ∈ b.bestChain.tip.ancestors ∧
              (b.bestChain.tip.height : Int) - minMemoryNodes < n.height ∧
              (n.height : Int) ≤ (b.bestChain.tip.height : Int) - minMemoryStakeNodes
          then StakeFields.cleared else b.stakeData n.hash := by
  by_cases hH : b.bestChain.tip.height < minMemoryStakeNodes
  · have hsame := pruneStakeNodes_of_lt hH
    refine ⟨by rw [hsame], fun _ => hsame, fun n _ => ?_⟩
    rw [hsame, if_neg]
    omega
  · obtain ⟨p, hp, hph, heq⟩ := pruneStakeNodes_of_le (not_lt.mp hH)
    obtain ⟨sd, hsd⟩ := foldl_pruneStep_frame p.ancestors.reverse b
    refine ⟨by rw [heq, hsd], fun h => by omega, fun n hn => ?_⟩
    rw [heq, stakeData_foldl_pruneStep]
    exact if_congr (pruned_iff_band hc hp hph hn) rfl rfl

/-!
## A straight chain
-/

/-- The block at height `k` of a straight chain: hash `k + 1`, one unit of work, a coinbase. -/
def lineBlock (k : Nat) : Block :=
  ⟨k + 1, ⟨k, k, 0, 0, 0, 0, 0, 0, 0⟩, [sampleCoinbase], [], 1, []⟩

/-- The node of `lineBlock k`, on the blocks below it. -/
def lineNode : Nat -> BlockNode
  | 0 => .genesis (lineBlock 0)
  | k + 1 => .child (lineBlock (k + 1)) (lineNode k)

theorem hash_lineNode (k : Nat) : (lineNode k).hash = k + 1 := by
  cases k <;> rfl

theorem mem_ancestors_lineNode {a : BlockNode} {k : Nat} :
    a ∈ (lineNode k).ancestors ↔ ∃ j ≤ k, a = lineNode j := by
  induction k with
  | zero => simp [lineNode, BlockNode.ancestors]
  | succ k ih =>
      simp only [lineNode, BlockNode.ancestors_child, List.mem_cons, ih]
      constructor
      · rintro (rfl | ⟨j, hj, rfl⟩)
        exacts [⟨k + 1, le_rfl, rfl⟩, ⟨j, Nat.le_succ_of_le hj, rfl⟩]
      · rintro ⟨j, hj, rfl⟩
        rcases Nat.lt_or_eq_of_le hj with hlt | rfl
        exacts [.inr ⟨j, Nat.le_of_lt_succ hlt, rfl⟩, .inl rfl]

/-- The straight chain up to height `n`, its blocks indexed and nothing else. -/
def lineChain (n : Nat) : BlockChain :=
  { BlockChain.ofGenesis (lineBlock 0) 0 0 with
    index := fun h => if 0 < h ∧ h ≤ n + 1 then some (lineNode (h - 1)) else none
    bestChain := ⟨lineNode n⟩ }

theorem lineChain_index {n j : Nat} (hj : j ≤ n) :
    (lineChain n).index (j + 1) = some (lineNode j) :=
  if_pos ⟨Nat.succ_pos j, Nat.succ_le_succ hj⟩

theorem index_lineChain {n h : Nat} {m : BlockNode} (hm : (lineChain n).index h = some m) :
    m ∈ (lineNode n).ancestors := by
  simp only [lineChain] at hm
  split_ifs at hm with hh
  cases hm
  have hle : (h : Nat) ≤ n + 1 := hh.2
  exact mem_ancestors_lineNode.mpr ⟨h - 1, by omega, rfl⟩

theorem consistent_lineChain (n : Nat) : Consistent (lineChain n) where
  closed h m hm a ha := by
    obtain ⟨j, hj, rfl⟩ := mem_ancestors_lineNode.mp
      (BlockNode.ancestors_trans ha (index_lineChain hm))
    rw [hash_lineNode]
    exact lineChain_index hj
  root h m hm := BlockNode.root_eq_of_mem_ancestors (index_lineChain hm)
  tip := by
    show (lineChain n).index (lineNode n).hash = some (lineNode n)
    rw [hash_lineNode]
    exact lineChain_index le_rfl
  cache _ _ _ h := by cases h
  orphans _ _ _ h := by cases h

theorem pruneStakeNodes_band_lineChain :
    Consistent (lineChain 300) ∧
      (pruneStakeNodes (lineChain 300) =
        { lineChain 300 with stakeData := (pruneStakeNodes (lineChain 300)).stakeData } ∧
      (((lineChain 300).bestChain.tip.height : Int) < minMemoryStakeNodes ->
        pruneStakeNodes (lineChain 300) = lineChain 300) ∧
      ∀ n, (lineChain 300).index n.hash = some n ->
        (pruneStakeNodes (lineChain 300)).stakeData n.hash =
          if n ∈ (lineChain 300).bestChain.tip.ancestors ∧
              ((lineChain 300).bestChain.tip.height : Int) - minMemoryNodes < n.height ∧
              (n.height : Int) ≤ ((lineChain 300).bestChain.tip.height : Int) - minMemoryStakeNodes
          then StakeFields.cleared else (lineChain 300).stakeData n.hash) :=
  ⟨consistent_lineChain 300, pruneStakeNodes_band _ (consistent_lineChain 300)⟩

end DcrdChain
