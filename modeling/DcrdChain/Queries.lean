import DcrdChain.Run

/-!
# Best-chain queries

`HeightRange`, and `locateInventory` with the two walks that use it, `locateBlocks` and
`locateHeaders`.  They read the best chain and the block index only.  The best chain
`v_0, ..., v_T` is the ancestor path of the tip read from the genesis block up, so that a
node's position in it is its height; each query returns a slice of that list, and no walk
of theirs steps past the tip.
-/

namespace DcrdChain

/-!
## The best chain by height
-/

namespace BlockNode

@[simp] theorem length_ancestors (n : BlockNode) : n.ancestors.length = n.height + 1 := by
  induction n with
  | genesis b => rfl
  | child b p ih => simp [ih]

theorem reverse_ancestors_of_mem {a n : BlockNode} (h : a ∈ n.ancestors) :
    a.ancestors.reverse = n.ancestors.reverse.take (a.height + 1) := by
  induction n with
  | genesis g =>
      obtain rfl := List.mem_singleton.mp h
      rfl
  | child c p ih =>
      rcases List.mem_cons.mp h with rfl | h
      · simp
      · have hle := height_le_of_mem_ancestors h
        rw [ancestors_child, List.reverse_cons, List.take_append_of_le_length (by simpa using hle)]
        exact ih h

theorem ancestor_eq_getElem? (n : BlockNode) (h : Nat) : n.ancestor h = n.ancestors.reverse[h]? := by
  induction n with
  | genesis g => cases h <;> rfl
  | child c p ih =>
      rw [ancestor, ancestors_child, List.reverse_cons, ih]
      rcases Nat.lt_or_ge h (p.height + 1) with hlt | hge
      · rw [if_neg (by omega), List.getElem?_append_left (by simpa using hlt)]
      · rw [List.getElem?_append_right (by simpa using hge),
          List.getElem?_eq_none (by simpa using hge), List.length_reverse, length_ancestors]
        rcases Nat.eq_or_lt_of_le hge with rfl | hgt
        · simp
        · rw [if_neg (by omega), List.getElem?_eq_none (by simp; omega)]

end BlockNode

namespace ChainView

/-- The nodes of the view by height: `v_0, ..., v_T`. -/
def nodes (v : ChainView) : List BlockNode :=
  v.tip.ancestors.reverse

variable {v : ChainView}

@[simp] theorem length_nodes : v.nodes.length = v.tip.height + 1 := by
  simp [nodes]

theorem getElem?_nodes (h : Nat) : v.nodes[h]? = v.nodeByHeight h :=
  (v.tip.ancestor_eq_getElem? h).symm

end ChainView

/-!
## HeightRange
-/

/-- The fill loop of `HeightRange`; a `nil` node or an index out of range panics. -/
def heightRangeFill (endHeight : Int) : Nat -> Int -> Option BlockNode -> List Hash ->
    Except ChainError (List Hash)
  | 0, _, _, hashes => .ok hashes
  | n + 1, i, iterNode, hashes =>
      match iterNode with
      | none => .error (.panic .nilDereference)
      | some node =>
          let idx := endHeight - i - 1
          if 0 ≤ idx ∧ idx < hashes.length then
            heightRangeFill endHeight n (i + 1) node.parent (hashes.set idx.toNat node.hash)
          else .error (.panic .indexOutOfRange)

/-- `HeightRange(startHeight, endHeight)`: the best chain's hashes in the half-open range. -/
def heightRange (v : ChainView) (startHeight endHeight : Int) : Except ChainError (List Hash) :=
  if startHeight < 0 then
    .error (.message ("start height of fetch range must not be less than zero - got " ++
      toString startHeight))
  else if endHeight < startHeight then
    .error (.message ("end height of fetch range must not be less than the start height - " ++
      "got start " ++ toString startHeight ++ ", end " ++ toString endHeight))
  else if startHeight = endHeight then .ok []
  else
    let latestHeight : Int := v.tip.height
    if startHeight > latestHeight then .ok []
    else
      let endHeight := if endHeight > latestHeight + 1 then latestHeight + 1 else endHeight
      heightRangeFill endHeight (endHeight - startHeight).toNat startHeight
        (v.nodeByHeight (endHeight - 1).toNat)
        (List.replicate (endHeight - startHeight).toNat zeroHash)

theorem heightRangeFill_eq {endHeight : Int} (m : Nat) (i : Int) (node : BlockNode)
    (hashes : List Hash) (hm : m ≤ node.height + 1) (hlen : m ≤ hashes.length)
    (hi : i + m = endHeight) :
    heightRangeFill endHeight m i (some node) hashes =
      .ok ((node.ancestors.take m).reverse.map BlockNode.hash ++ hashes.drop m) := by
  induction m generalizing i node hashes with
  | zero => rfl
  | succ m ih =>
      have hidx : endHeight - i - 1 = m := by omega
      have hset : (hashes.set m node.hash).drop m = node.hash :: hashes.drop (m + 1) := by
        rw [List.set_eq_take_cons_drop _ (by omega), List.drop_append_of_le_length (by simp; omega)]
        simp [show min m hashes.length = m by omega]
      simp only [heightRangeFill, hidx]
      rw [if_pos ⟨by omega, by omega⟩, Int.toNat_ofNat]
      cases node with
      | genesis g =>
          obtain rfl : m = 0 := by simp at hm; omega
          have hset0 : hashes.set 0 (BlockNode.genesis g).hash =
              (BlockNode.genesis g).hash :: hashes.drop 1 := by simpa using hset
          simp [heightRangeFill, BlockNode.ancestors, hset0]
      | child c p =>
          rw [BlockNode.parent_child, ih (i + 1) p _ (by simp at hm; omega) (by simp; omega)
            (by omega), hset]
          simp

theorem heightRangeFill_nodes (v : ChainView) {startHeight e : Int} (h0 : 0 ≤ startHeight)
    (hlt : startHeight < e) (htop : e ≤ v.tip.height + 1) :
    heightRangeFill e (e - startHeight).toNat startHeight (v.nodeByHeight (e - 1).toNat)
        (List.replicate (e - startHeight).toNat zeroHash) =
      .ok (((v.nodes.drop startHeight.toNat).take (e - startHeight).toNat).map BlockNode.hash) := by
  obtain ⟨a, ha⟩ : ∃ a, v.nodeByHeight (e - 1).toNat = some a :=
    ⟨_, (ChainView.getElem?_nodes _).symm.trans (List.getElem?_eq_getElem (by simp; omega))⟩
  obtain ⟨hmem, hheight⟩ := BlockNode.ancestor_eq_some_iff.mp ha
  have h1 : a.height + 1 - (e - startHeight).toNat = startHeight.toNat := by omega
  have h2 : a.height + 1 - startHeight.toNat = (e - startHeight).toNat := by omega
  rw [ha, heightRangeFill_eq _ _ _ _ (by omega) (by simp) (by omega), List.drop_replicate,
    Nat.sub_self, List.replicate_zero, List.append_nil, List.reverse_take,
    BlockNode.reverse_ancestors_of_mem hmem, BlockNode.length_ancestors, h1, List.drop_take, h2]
  rfl

theorem heightRange_ok (v : ChainView) {startHeight endHeight : Int} (h0 : 0 ≤ startHeight)
    (hle : startHeight ≤ endHeight) :
    heightRange v startHeight endHeight =
      .ok (((v.nodes.drop startHeight.toNat).take
        (min endHeight (v.tip.height + 1) - startHeight).toNat).map BlockNode.hash) := by
  unfold heightRange
  rw [if_neg (by omega), if_neg (by omega)]
  by_cases heq : startHeight = endHeight
  · rw [if_pos heq]
    simp [heq]
  rw [if_neg heq]
  by_cases htop : startHeight > (v.tip.height : Int)
  · rw [if_pos htop, List.drop_eq_nil_of_le (by simp; omega)]
    simp
  rw [if_neg htop]
  have hend : (if endHeight > (v.tip.height : Int) + 1 then (v.tip.height : Int) + 1
      else endHeight) = min endHeight (v.tip.height + 1) := by
    split <;> omega
  simp only [hend]
  exact heightRangeFill_nodes v h0 (by omega) (min_le_right _ _)

theorem heightRange_eq (v : ChainView) (startHeight endHeight : Int) :
    ((∃ err, heightRange v startHeight endHeight = .error err) ↔
        startHeight < 0 ∨ endHeight < startHeight) ∧
      (0 ≤ startHeight -> startHeight ≤ endHeight ->
        heightRange v startHeight endHeight =
          .ok (((v.nodes.drop startHeight.toNat).take
            (min endHeight (v.tip.height + 1) - startHeight).toNat).map BlockNode.hash)) := by
  refine ⟨⟨fun ⟨err, herr⟩ => ?_, fun h => ?_⟩, heightRange_ok v⟩
  · by_contra hn
    rw [heightRange_ok v (by omega) (by omega)] at herr
    cases herr
  · unfold heightRange
    rcases h with h | h
    · exact ⟨_, if_pos h⟩
    · by_cases h0 : startHeight < 0
      · exact ⟨_, if_pos h0⟩
      · exact ⟨_, by rw [if_neg h0, if_pos h]⟩

/-- The range `[0, 5)` over the two-block best chain of `sampleForkChain`. -/
example : heightRange sampleForkChain.bestChain 0 5 = .ok [sampleGenesis.hash, sampleChild.hash] := by
  rfl

/-!
## Locating inventory
-/

/-- `locateInventory(locator, hashStop, maxEntries)`: the first node to return and how many. -/
def locateInventory (b : BlockChain) (locator : List Hash) (hashStop : Hash)
    (maxEntries : UInt32) : Option BlockNode × UInt32 :=
  let stopNode := b.index hashStop
  if locator.isEmpty then
    match stopNode with
    | none => (none, 0)
    | some stop => (some stop, 1)
  else
    let startNode := (locator.findSome? fun hash =>
      (b.index hash).filter b.bestChain.contains).getD b.bestChain.genesis
    match b.bestChain.next startNode with
    | none => (none, 0)
    | some startNode =>
        let total := UInt32.ofNat (b.bestChain.tip.height - startNode.height + 1)
        let total := match stopNode with
          | some stop =>
              if b.bestChain.contains stop ∧ stop.height ≥ startNode.height then
                UInt32.ofNat (stop.height - startNode.height + 1)
              else total
          | none => total
        (some startNode, if total > maxEntries then maxEntries else total)

/-- The walk of `locateBlocks` and `locateHeaders` along `Next`; a `nil` node panics. -/
def locateWalk {α : Type} (f : BlockNode -> α) (v : ChainView) :
    Nat -> Option BlockNode -> Except ChainError (List α)
  | 0, _ => .ok []
  | _ + 1, none => .error (.panic .nilDereference)
  | total + 1, some node => (f node :: ·) <$> locateWalk f v total (v.next node)

/-- `locateBlocks` and `locateHeaders`, which differ only in what they read of each node. -/
def locateNodes {α : Type} (f : BlockNode -> α) (b : BlockChain) (locator : List Hash)
    (hashStop : Hash) (maxEntries : UInt32) : Except ChainError (List α) :=
  let (node, total) := locateInventory b locator hashStop maxEntries
  if total = 0 then .ok [] else locateWalk f b.bestChain total.toNat node

/-- `locateBlocks(locator, hashStop, maxHashes)`. -/
def locateBlocks (b : BlockChain) (locator : List Hash) (hashStop : Hash) (maxHashes : UInt32) :
    Except ChainError (List Hash) :=
  locateNodes BlockNode.hash b locator hashStop maxHashes

/-- `locateHeaders(locator, hashStop, maxHeaders)`. -/
def locateHeaders (b : BlockChain) (locator : List Hash) (hashStop : Hash)
    (maxHeaders : UInt32) : Except ChainError (List BlockHeader) :=
  locateNodes (fun n => n.block.header) b locator hashStop maxHeaders

/-- The height of the first locator hash on the best chain, `0` when there is none. -/
def locatorHeight (b : BlockChain) (locator : List Hash) : Nat :=
  match locator.findSome? fun hash => (b.index hash).filter b.bestChain.contains with
  | some n => n.height
  | none => 0

/-- The height a located range ends at: the stop node's when above `s`, else the tip's. -/
def locateEnd (b : BlockChain) (hashStop : Hash) (s : Nat) : Nat :=
  match b.index hashStop with
  | some stop => if b.bestChain.contains stop ∧ s < stop.height then stop.height
      else b.bestChain.tip.height
  | none => b.bestChain.tip.height

namespace ChainView

variable {v : ChainView}

theorem getElem?_nodes_height {n : BlockNode} (h : n ∈ v.tip.ancestors) :
    v.nodes[n.height]? = some n := by
  rw [getElem?_nodes]
  exact BlockNode.ancestor_eq_some_iff.mpr ⟨h, rfl⟩

theorem next_of_getElem? {k : Nat} {n : BlockNode} (h : v.nodes[k]? = some n) :
    v.next n = v.nodes[k + 1]? := by
  rw [getElem?_nodes] at h
  obtain ⟨hmem, rfl⟩ := BlockNode.ancestor_eq_some_iff.mp h
  rw [next, if_pos (contains_iff.mpr hmem), getElem?_nodes]

end ChainView

theorem locateWalk_eq {α : Type} (f : BlockNode -> α) (v : ChainView) (total k : Nat)
    (htotal : k + total ≤ v.tip.height + 1) :
    locateWalk f v total v.nodes[k]? = .ok (((v.nodes.drop k).take total).map f) := by
  induction total generalizing k with
  | zero => rfl
  | succ total ih =>
      have hk : k < v.nodes.length := by simp; omega
      rw [List.getElem?_eq_getElem hk, locateWalk,
        ChainView.next_of_getElem? (List.getElem?_eq_getElem hk), ih (k + 1) (by omega),
        List.drop_eq_getElem_cons hk]
      rfl

theorem UInt32.toNat_clamp (t m : UInt32) : (if t > m then m else t).toNat = min m.toNat t.toNat := by
  have h : t > m ↔ m.toNat < t.toNat := by
    simp only [GT.gt, UInt32.lt_def, BitVec.lt_def, UInt32.toNat]
  split
  · have := h.mp ‹_›; omega
  · have := mt h.mpr ‹_›; omega

theorem locatorStart_eq (b : BlockChain) (locator : List Hash) :
    b.bestChain.nodes[locatorHeight b locator]? = some ((locator.findSome? fun hash =>
      (b.index hash).filter b.bestChain.contains).getD b.bestChain.genesis) := by
  unfold locatorHeight
  cases h : locator.findSome? fun hash => (b.index hash).filter b.bestChain.contains with
  | none =>
      rw [Option.getD_none, ChainView.getElem?_nodes]
      exact BlockNode.ancestor_eq_some_iff.mpr
        ⟨BlockNode.root_mem_ancestors _, BlockNode.height_root _⟩
  | some n =>
      obtain ⟨_, -, hf⟩ := List.exists_of_findSome?_eq_some h
      exact ChainView.getElem?_nodes_height
        (ChainView.contains_iff.mp (Option.filter_eq_some.mp hf).2)

theorem locateNodes_eq {α : Type} (f : BlockNode -> α) (b : BlockChain) (locator : List Hash)
    (hashStop : Hash) (maxEntries : UInt32) (hT : b.bestChain.tip.height < 2 ^ 32)
    (hloc : locator ≠ []) :
    locateNodes f b locator hashStop maxEntries =
      .ok (((b.bestChain.nodes.drop (locatorHeight b locator + 1)).take
        (min maxEntries.toNat (locateEnd b hashStop (locatorHeight b locator) -
          locatorHeight b locator))).map f) := by
  have hstart := locatorStart_eq b locator
  have hsT : locatorHeight b locator ≤ b.bestChain.tip.height := by
    have := (List.getElem?_eq_some_iff.mp hstart).1
    simp at this
    omega
  unfold locateNodes locateInventory locateEnd
  simp only [List.isEmpty_iff, hloc, if_false,
    ChainView.next_of_getElem? hstart]
  rcases Nat.lt_or_ge (locatorHeight b locator) b.bestChain.tip.height with hs | hs
  · have hlt : locatorHeight b locator + 1 < b.bestChain.nodes.length := by simp; omega
    have hah : b.bestChain.nodes[locatorHeight b locator + 1].height =
        locatorHeight b locator + 1 := by
      have h := ChainView.getElem?_nodes (v := b.bestChain) (locatorHeight b locator + 1)
      rw [List.getElem?_eq_getElem hlt] at h
      exact (BlockNode.ancestor_eq_some_iff.mp h.symm).2
    have hfin : ∀ (t : UInt32) (e : Nat), t.toNat = e - locatorHeight b locator ->
        e ≤ b.bestChain.tip.height ->
        (if (if t > maxEntries then maxEntries else t) = 0 then Except.ok []
          else locateWalk f b.bestChain (if t > maxEntries then maxEntries else t).toNat
            (some b.bestChain.nodes[locatorHeight b locator + 1])) =
        .ok (((b.bestChain.nodes.drop (locatorHeight b locator + 1)).take
          (min maxEntries.toNat (e - locatorHeight b locator))).map f) := by
      intro t e ht he
      have hc := UInt32.toNat_clamp t maxEntries
      generalize (if t > maxEntries then maxEntries else t) = u at hc ⊢
      by_cases h0 : u = 0
      · subst h0
        rw [if_pos rfl, ← ht, ← hc]
        rfl
      · rw [if_neg h0, ← List.getElem?_eq_getElem hlt, locateWalk_eq _ _ _ _ (by omega), hc, ht]
    rw [List.getElem?_eq_getElem hlt]
    dsimp only
    rw [hah]
    have hof : ∀ n, n < 2 ^ 32 -> (UInt32.ofNat n).toNat = n := fun _ h => UInt32.toNat_ofNat_of_lt h
    cases hstop : b.index hashStop with
    | none =>
        dsimp only
        exact hfin _ _ (by rw [hof _ (by omega)]; omega) le_rfl
    | some stop =>
        dsimp only
        by_cases hin : b.bestChain.contains stop = true ∧ stop.height ≥ locatorHeight b locator + 1
        · have hle := BlockNode.height_le_of_mem_ancestors (ChainView.contains_iff.mp hin.1)
          rw [if_pos hin, if_pos (show b.bestChain.contains stop = true ∧
            locatorHeight b locator < stop.height from ⟨hin.1, by omega⟩)]
          exact hfin _ _ (by rw [hof _ (by omega)]; omega) hle
        · rw [if_neg hin, if_neg (show ¬ (b.bestChain.contains stop = true ∧
            locatorHeight b locator < stop.height) from fun h => hin ⟨h.1, by omega⟩)]
          exact hfin _ _ (by rw [hof _ (by omega)]; omega) le_rfl
  · rw [List.getElem?_eq_none (by simp; omega), List.drop_eq_nil_of_le (by simp; omega)]
    simp

theorem locateBlocks_locateHeaders_eq (b : BlockChain) (locator : List Hash) (hashStop : Hash)
    (maxHashes : UInt32) (hT : b.bestChain.tip.height < 2 ^ 32) (hloc : locator ≠ []) :
    locateBlocks b locator hashStop maxHashes =
        .ok (((b.bestChain.nodes.drop (locatorHeight b locator + 1)).take
          (min maxHashes.toNat (locateEnd b hashStop (locatorHeight b locator) -
            locatorHeight b locator))).map BlockNode.hash) ∧
      locateHeaders b locator hashStop maxHashes =
        .ok (((b.bestChain.nodes.drop (locatorHeight b locator + 1)).take
          (min maxHashes.toNat (locateEnd b hashStop (locatorHeight b locator) -
            locatorHeight b locator))).map fun n => n.block.header) :=
  ⟨locateNodes_eq _ b locator hashStop maxHashes hT hloc,
    locateNodes_eq _ b locator hashStop maxHashes hT hloc⟩

theorem locateBlocks_locateHeaders_sampleForkChain :
    sampleForkChain.bestChain.tip.height < 2 ^ 32 ∧ [sampleGenesis.hash] ≠ [] ∧
      locateBlocks sampleForkChain [sampleGenesis.hash] zeroHash 500 =
        .ok (((sampleForkChain.bestChain.nodes.drop
          (locatorHeight sampleForkChain [sampleGenesis.hash] + 1)).take
          (min (500 : UInt32).toNat (locateEnd sampleForkChain zeroHash
            (locatorHeight sampleForkChain [sampleGenesis.hash]) -
              locatorHeight sampleForkChain [sampleGenesis.hash]))).map BlockNode.hash) ∧
      locateHeaders sampleForkChain [sampleGenesis.hash] zeroHash 500 =
        .ok (((sampleForkChain.bestChain.nodes.drop
          (locatorHeight sampleForkChain [sampleGenesis.hash] + 1)).take
          (min (500 : UInt32).toNat (locateEnd sampleForkChain zeroHash
            (locatorHeight sampleForkChain [sampleGenesis.hash]) -
              locatorHeight sampleForkChain [sampleGenesis.hash]))).map fun n => n.block.header) :=
  have hT : sampleForkChain.bestChain.tip.height < 2 ^ 32 := by decide
  have hloc : [sampleGenesis.hash] ≠ [] := by decide
  ⟨hT, hloc, locateBlocks_locateHeaders_eq _ _ _ _ hT hloc⟩

/-- From the genesis block, the tip of `sampleForkChain` is located. -/
example : locateBlocks sampleForkChain [sampleGenesis.hash] zeroHash 500 = .ok [sampleChild.hash] := by
  rfl

end DcrdChain
