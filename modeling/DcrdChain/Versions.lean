import DcrdChain.Queries

/-!
# Version queries

`GetStakeVersions`, which reports the version data of a block and of its ancestors, and
`isMajorityVersion`, which counts the blocks of a window of ancestors at a minimum version
and stops counting once it has found enough.  Both walk the parent pointers of a node; each
walk is shown to read a prefix of the node's ancestor path.
-/

namespace DcrdChain

namespace BlockNode

theorem getElem?_ancestors {n : BlockNode} {i : Nat} (hi : i ≤ n.height) :
    n.ancestors[i]? = n.ancestor (n.height - i) := by
  rw [ancestor_eq_getElem?, List.getElem?_reverse (by simp; omega), length_ancestors]
  congr 1
  omega

end BlockNode

/-!
## GetStakeVersions
-/

/-- A `StakeVersions` entry. -/
structure StakeVersions where
  hash : Hash
  height : Nat
  blockVersion : Int
  stakeVersion : Nat
  votes : List VoteVersionTuple
  deriving DecidableEq, Repr

/-- The entry of a node: `StakeVersions{prevNode.hash, prevNode.height, ...}`. -/
def StakeVersions.ofNode (n : BlockNode) : StakeVersions :=
  ⟨n.hash, n.height, n.block.header.version, n.block.header.stakeVersion, n.block.votes⟩

/-- `int32(x)`: the two's-complement wrap of an integer to 32 bits. -/
def toInt32 (x : Int) : Int :=
  x.bmod (2 ^ 32)

/-- The loop of `GetStakeVersions`: at most `count` entries down from `prevNode`. -/
def stakeVersionsWalk : Nat -> Option BlockNode -> List StakeVersions
  | 0, _ => []
  | _ + 1, none => []
  | count + 1, some prevNode => StakeVersions.ofNode prevNode :: stakeVersionsWalk count prevNode.parent

/-- `GetStakeVersions(hash, count)`, `count` clamped through an `int32` conversion. -/
def getStakeVersions (b : BlockChain) (hash : Hash) (count : Int) :
    Except ChainError (List StakeVersions) :=
  match b.index hash with
  | none => .error (.message ("block " ++ toString hash ++ " is not known"))
  | some startNode =>
      if ¬ (b.status startNode.hash).KnownValid then
        .error (.message ("block " ++ toString hash ++ " is not known"))
      else if count = 0 then .ok []
      else if count < 0 then
        .error (.message ("count must not be less than zero - got " ++ toString count))
      else
        let count :=
          if count > toInt32 (startNode.height + 1) then toInt32 (startNode.height + 1) else count
        .ok (stakeVersionsWalk count.toNat (some startNode))

theorem stakeVersionsWalk_eq (count : Nat) (n : BlockNode) :
    stakeVersionsWalk count (some n) = (n.ancestors.take count).map StakeVersions.ofNode := by
  induction count generalizing n with
  | zero => rfl
  | succ count ih =>
      cases n with
      | genesis g => cases count <;> rfl
      | child c p => simp [stakeVersionsWalk, ih]

theorem toInt32_of_lt {h : Nat} (hh : h < 2 ^ 31 - 1) : toInt32 (h + 1) = h + 1 := by
  unfold toInt32
  rw [Int.bmod_def, Int.emod_eq_of_lt (by omega) (by omega), if_pos (by omega)]

theorem getStakeVersions_ok {b : BlockChain} {hash : Hash} {s : BlockNode} {count : Int}
    (hs : b.index hash = some s) (hv : (b.status s.hash).KnownValid)
    (hh : s.height < 2 ^ 31 - 1) (h0 : 0 ≤ count) :
    getStakeVersions b hash count =
      .ok ((s.ancestors.take (min count.toNat (s.height + 1))).map StakeVersions.ofNode) := by
  unfold getStakeVersions
  rw [hs]
  dsimp only
  rw [if_neg (not_not.mpr hv)]
  by_cases hz : count = 0
  · subst hz
    simp
  rw [if_neg hz, if_neg (by omega), toInt32_of_lt hh, stakeVersionsWalk_eq]
  congr 3
  split <;> omega

theorem getStakeVersions_eq (b : BlockChain) (hash : Hash) (s : BlockNode) (count : Int)
    (hs : b.index hash = some s) (hv : (b.status s.hash).KnownValid)
    (hh : s.height < 2 ^ 31 - 1) :
    ((∃ err, getStakeVersions b hash count = .error err) ↔ count < 0) ∧
      (0 ≤ count -> ∃ l, getStakeVersions b hash count = .ok l ∧
        l.length = min count.toNat (s.height + 1) ∧
        ∀ i < l.length, ∃ a, s.ancestor (s.height - i) = some a ∧
          l[i]? = some (StakeVersions.ofNode a)) := by
  refine ⟨⟨fun ⟨err, herr⟩ => ?_, fun hn => ?_⟩,
    fun h0 => ⟨_, getStakeVersions_ok hs hv hh h0, by simp, fun i hi => ?_⟩⟩
  · by_contra hn
    rw [getStakeVersions_ok hs hv hh (by omega)] at herr
    cases herr
  · unfold getStakeVersions
    rw [hs]
    dsimp only
    rw [if_neg (not_not.mpr hv), if_neg (by omega), if_pos hn]
    exact ⟨_, rfl⟩
  · simp only [List.length_map, List.length_take, BlockNode.length_ancestors] at hi
    have ha := List.getElem?_eq_getElem (show i < s.ancestors.length by simp; omega)
    refine ⟨_, (BlockNode.getElem?_ancestors (by omega)).symm.trans ha, ?_⟩
    rw [List.getElem?_map, List.getElem?_take_of_lt (by omega), ha]
    rfl

theorem getStakeVersions_sampleChild :
    sampleForkChain.index sampleChild.hash = some (.child sampleChild (.genesis sampleGenesis)) ∧
      (sampleForkChain.status (BlockNode.child sampleChild (.genesis sampleGenesis)).hash).KnownValid ∧
      (BlockNode.child sampleChild (.genesis sampleGenesis)).height < 2 ^ 31 - 1 ∧
      ((∃ err, getStakeVersions sampleForkChain sampleChild.hash 3 = .error err) ↔ (3 : Int) < 0) ∧
      (0 ≤ (3 : Int) -> ∃ l, getStakeVersions sampleForkChain sampleChild.hash 3 = .ok l ∧
        l.length = min (3 : Int).toNat ((BlockNode.child sampleChild (.genesis sampleGenesis)).height + 1) ∧
        ∀ i < l.length, ∃ a, (BlockNode.child sampleChild (.genesis sampleGenesis)).ancestor
          ((BlockNode.child sampleChild (.genesis sampleGenesis)).height - i) = some a ∧
            l[i]? = some (StakeVersions.ofNode a)) :=
  have hs : sampleForkChain.index sampleChild.hash =
      some (.child sampleChild (.genesis sampleGenesis)) := by decide
  have hv : (sampleForkChain.status
      (BlockNode.child sampleChild (.genesis sampleGenesis)).hash).KnownValid := by decide
  have hh : (BlockNode.child sampleChild (.genesis sampleGenesis)).height < 2 ^ 31 - 1 := by decide
  ⟨hs, hv, hh, getStakeVersions_eq _ _ _ 3 hs hv hh⟩

/-!
## isMajorityVersion
-/

/-- The loop of `isMajorityVersion` with `k` iterations left. -/
def majorityLoop (minVer : Int) (numRequired : Nat) : Nat -> Option BlockNode -> Nat -> Nat
  | 0, _, numFound => numFound
  | k + 1, iterNode, numFound =>
      if numFound < numRequired then
        match iterNode with
        | none => numFound
        | some node =>
            majorityLoop minVer numRequired k node.parent
              (if node.block.header.version ≥ minVer then numFound + 1 else numFound)
      else numFound

/-- `isMajorityVersion(minVer, startNode, numRequired)`. -/
def isMajorityVersion (env : Env) (minVer : Int) (startNode : Option BlockNode)
    (numRequired : Nat) : Bool :=
  decide (majorityLoop minVer numRequired env.blockUpgradeNumToCheck startNode 0 ≥ numRequired)

/-- The nodes a walk from `iterNode` down the parents visits. -/
def walkFrom : Option BlockNode -> List BlockNode
  | none => []
  | some n => n.ancestors

theorem walkFrom_some (n : BlockNode) : walkFrom (some n) = n :: walkFrom n.parent := by
  cases n <;> rfl

theorem min_majorityLoop (minVer : Int) (numRequired k : Nat) (iterNode : Option BlockNode)
    (numFound : Nat) :
    min numRequired (majorityLoop minVer numRequired k iterNode numFound) =
      min numRequired (numFound + ((walkFrom iterNode).take k).countP
        fun n => decide (minVer ≤ n.block.header.version)) := by
  induction k generalizing iterNode numFound with
  | zero => simp [majorityLoop]
  | succ k ih =>
      simp only [majorityLoop]
      split
      · cases iterNode with
        | none => simp [walkFrom]
        | some node =>
            rw [ih, walkFrom_some, List.take_succ_cons, List.countP_cons]
            by_cases hv : minVer ≤ node.block.header.version
            · simp [hv]
              omega
            · simp [hv]
      · omega

theorem isMajorityVersion_iff (env : Env) (minVer : Int) (start : BlockNode) (numRequired : Nat) :
    isMajorityVersion env minVer (some start) numRequired = true ↔
      numRequired ≤ (start.ancestors.take (min env.blockUpgradeNumToCheck (start.height + 1))).countP
        fun n => decide (minVer ≤ n.block.header.version) := by
  have h := min_majorityLoop minVer numRequired env.blockUpgradeNumToCheck (some start) 0
  rw [walkFrom, Nat.zero_add] at h
  rw [isMajorityVersion, decide_eq_true_iff, show start.ancestors.take
    (min env.blockUpgradeNumToCheck (start.height + 1)) =
      start.ancestors.take env.blockUpgradeNumToCheck from
    List.take_eq_take.mpr (by simp only [BlockNode.length_ancestors]; omega)]
  omega

/-- Both blocks of `sampleChild`'s path are at version `0`, so two of them are found. -/
example : isMajorityVersion sampleEnv 0 (some (.child sampleChild (.genesis sampleGenesis))) 2 = true := by
  decide

end DcrdChain
