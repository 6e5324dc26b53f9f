import Mathlib.Data.List.Basic
import Mathlib.Order.Basic

/-!
# Blocks and block-index nodes

The data the chain engine of `chain.go` reads from blocks, and the in-memory
block-index entries (`blockNode`).  A `blockNode` is created once with an immutable
parent pointer, height and cumulative work, so a node is modelled as the immutable
path from it down to the genesis block: the parent is the tail of the path, and
`height` and `workSum` are computed along it.  Only the status flags and the
transient stake fields of a node mutate; they live in the chain state, keyed by hash.
-/

namespace DcrdChain

/-- Block hashes (`chainhash.Hash`): opaque identifiers, compared for equality. -/
abbrev Hash := Nat

/-- `zeroHash`, the previous-block hash `newBestState` records for the genesis block. -/
def zeroHash : Hash := 0

/-- The transaction classes `stake.DetermineTxType` distinguishes. -/
inductive TxType
  | regular
  | sstx
  | ssgen
  | ssrtx
  deriving DecidableEq, Repr

/-- The part of a `wire.MsgTx` the engine reads: its number of inputs and its stake class. -/
structure MsgTx where
  numTxIn : Nat
  txType : TxType
  deriving DecidableEq, Repr

/-- A `stake.VoteVersionTuple`. -/
structure VoteVersionTuple where
  version : Nat
  bits : Nat
  deriving DecidableEq, Repr

/-- The `wire.BlockHeader` fields the chain engine reads. -/
structure BlockHeader where
  prevBlock : Hash
  height : Nat
  bits : Nat
  sbits : Int
  voteBits : Nat
  size : Nat
  version : Int
  stakeVersion : Nat
  timestamp : Int
  deriving DecidableEq, Repr

/-- A `dcrutil.Block`; its work (`CalcWork(bits)`) and vote versions are taken as data. -/
structure Block where
  hash : Hash
  header : BlockHeader
  transactions : List MsgTx
  stransactions : List MsgTx
  work : Nat
  votes : List VoteVersionTuple
  deriving DecidableEq, Repr

/-- `block.Height()`. -/
def Block.height (b : Block) : Nat :=
  b.header.height

/-!
## Nodes
-/

/-- A block-index entry together with all of its ancestors. -/
inductive BlockNode
  | genesis (block : Block)
  | child (block : Block) (parent : BlockNode)
  deriving DecidableEq, Repr

namespace BlockNode

/-- The block the node was created from. -/
def block : BlockNode -> Block
  | genesis b => b
  | child b _ => b

/-- `node.parent`, `none` for the genesis block. -/
def parent : BlockNode -> Option BlockNode
  | genesis _ => none
  | child _ p => some p

/-- `node.hash`. -/
def hash (n : BlockNode) : Hash :=
  n.block.hash

/-- `node.height`: the parent's height plus one, zero for the genesis block. -/
def height : BlockNode -> Nat
  | genesis _ => 0
  | child _ p => p.height + 1

/-- `node.workSum`: the cumulative work from the genesis block through the node. -/
def workSum : BlockNode -> Nat
  | genesis b => b.work
  | child b p => p.workSum + b.work

/-- The node, its parent, its parent's parent, ..., down to the genesis block. -/
def ancestors : BlockNode -> List BlockNode
  | genesis b => [genesis b]
  | child b p => child b p :: p.ancestors

/-- The genesis block the node descends from. -/
def root : BlockNode -> BlockNode
  | genesis b => genesis b
  | child _ p => p.root

/-- `node.Ancestor(height)`: the ancestor of the node at the given height. -/
def ancestor : BlockNode -> Nat -> Option BlockNode
  | genesis b, h => if h = 0 then some (genesis b) else none
  | child b p, h => if h = p.height + 1 then some (child b p) else p.ancestor h

/-- The parent hash the header records, the zero hash for the genesis block. -/
def parentHash (n : BlockNode) : Hash :=
  match n.parent with
  | some p => p.hash
  | none => zeroHash

@[simp] theorem block_child (b : Block) (p : BlockNode) : (child b p).block = b := rfl
@[simp] theorem parent_child (b : Block) (p : BlockNode) : (child b p).parent = some p := rfl
@[simp] theorem parent_genesis (b : Block) : (genesis b).parent = none := rfl
@[simp] theorem hash_child (b : Block) (p : BlockNode) : (child b p).hash = b.hash := rfl
@[simp] theorem height_child (b : Block) (p : BlockNode) :
    (child b p).height = p.height + 1 := rfl
@[simp] theorem height_genesis (b : Block) : (genesis b).height = 0 := rfl
@[simp] theorem workSum_child (b : Block) (p : BlockNode) :
    (child b p).workSum = p.workSum + b.work := rfl
@[simp] theorem ancestors_child (b : Block) (p : BlockNode) :
    (child b p).ancestors = child b p :: p.ancestors := rfl
@[simp] theorem root_child (b : Block) (p : BlockNode) : (child b p).root = p.root := rfl

theorem self_mem_ancestors (n : BlockNode) : n ∈ n.ancestors := by
  cases n <;> simp [ancestors]

theorem parent_mem_ancestors {n p : BlockNode} (h : n.parent = some p) :
    p ∈ n.ancestors := by
  cases n with
  | genesis b => cases h
  | child b q =>
      cases h
      simp [self_mem_ancestors]

theorem ancestors_trans {a b n : BlockNode} (hab : a ∈ b.ancestors)
    (hbn : b ∈ n.ancestors) : a ∈ n.ancestors := by
  induction n with
  | genesis g =>
      simp only [ancestors, List.mem_singleton] at hbn
      subst hbn
      exact hab
  | child c p ih =>
      simp only [ancestors_child, List.mem_cons] at hbn ⊢
      rcases hbn with rfl | hbn
      · simpa using hab
      · exact Or.inr (ih hbn)

theorem height_le_of_mem_ancestors {a n : BlockNode} (h : a ∈ n.ancestors) :
    a.height ≤ n.height := by
  induction n with
  | genesis g =>
      simp only [ancestors, List.mem_singleton] at h
      subst h
      rfl
  | child c p ih =>
      simp only [ancestors_child, List.mem_cons] at h
      rcases h with rfl | h
      · rfl
      · exact (ih h).trans (Nat.le_succ _)

theorem workSum_le_of_mem_ancestors {a n : BlockNode} (h : a ∈ n.ancestors) :
    a.workSum ≤ n.workSum := by
  induction n with
  | genesis g =>
      simp only [ancestors, List.mem_singleton] at h
      subst h
      rfl
  | child c p ih =>
      simp only [ancestors_child, List.mem_cons] at h
      rcases h with rfl | h
      · rfl
      · exact (ih h).trans (Nat.le_add_right _ _)

theorem eq_of_mem_ancestors_of_height_eq {a b n : BlockNode} (ha : a ∈ n.ancestors)
    (hb : b ∈ n.ancestors) (h : a.height = b.height) : a = b := by
  induction n with
  | genesis g =>
      simp only [ancestors, List.mem_singleton] at ha hb
      rw [ha, hb]
  | child c p ih =>
      simp only [ancestors_child, List.mem_cons] at ha hb
      rcases ha with rfl | ha <;> rcases hb with rfl | hb
      · rfl
      · have := height_le_of_mem_ancestors hb
        simp at h
        omega
      · have := height_le_of_mem_ancestors ha
        simp at h
        omega
      · exact ih ha hb

theorem ancestor_eq_some_iff {n a : BlockNode} {h : Nat} :
    n.ancestor h = some a ↔ a ∈ n.ancestors ∧ a.height = h := by
  induction n with
  | genesis g =>
      by_cases h0 : h = 0
      · subst h0
        simp only [ancestor, if_true, Option.some.injEq, ancestors, List.mem_singleton]
        constructor
        · rintro rfl
          exact ⟨rfl, rfl⟩
        · rintro ⟨rfl, -⟩
          rfl
      · simp only [ancestor, h0, if_false, ancestors, List.mem_singleton]
        constructor
        · intro hc
          cases hc
        · rintro ⟨rfl, hh⟩
          exact absurd hh.symm h0
  | child c p ih =>
      simp only [ancestor, ancestors_child, List.mem_cons]
      split
      · rename_i hh
        constructor
        · rintro ⟨⟩
          exact ⟨Or.inl rfl, hh.symm⟩
        · rintro ⟨rfl | hmem, hah⟩
          · rfl
          · have := height_le_of_mem_ancestors hmem
            omega
      · rename_i hh
        rw [ih]
        constructor
        · rintro ⟨hmem, hah⟩
          exact ⟨Or.inr hmem, hah⟩
        · rintro ⟨rfl | hmem, hah⟩
          · exact absurd hah.symm (by simpa using hh)
          · exact ⟨hmem, hah⟩

theorem root_mem_ancestors (n : BlockNode) : n.root ∈ n.ancestors := by
  induction n with
  | genesis g => simp [root, ancestors]
  | child c p ih => simp [ih]

theorem height_root (n : BlockNode) : n.root.height = 0 := by
  induction n with
  | genesis g => rfl
  | child c p ih => simpa using ih

theorem root_eq_of_mem_ancestors {a n : BlockNode} (h : a ∈ n.ancestors) :
    a.root = n.root := by
  induction n with
  | genesis g =>
      simp only [ancestors, List.mem_singleton] at h
      rw [h]
  | child c p ih =>
      simp only [ancestors_child, List.mem_cons] at h
      rcases h with rfl | h
      · rfl
      · simpa using ih h

end BlockNode

/-!
## Validation status
-/

/-- Modelled from the spec: the `blockStatus` bit set of `blockindex.go`, not under src/. -/
structure BlockStatus where
  dataStored : Bool
  valid : Bool
  validateFailed : Bool
  invalidAncestor : Bool
  deriving DecidableEq, Repr

namespace BlockStatus

/-- `statusNone`. -/
def statusNone : BlockStatus := ⟨false, false, false, false⟩

/-- `statusDataStored`. -/
def statusDataStored : BlockStatus := ⟨true, false, false, false⟩

/-- `statusValid`. -/
def statusValid : BlockStatus := ⟨false, true, false, false⟩

/-- `statusValidateFailed`. -/
def statusValidateFailed : BlockStatus := ⟨false, false, true, false⟩

/-- `statusInvalidAncestor`. -/
def statusInvalidAncestor : BlockStatus := ⟨false, false, false, true⟩

/-- `status |= flags`. -/
def setFlags (s flags : BlockStatus) : BlockStatus :=
  ⟨s.dataStored || flags.dataStored, s.valid || flags.valid,
    s.validateFailed || flags.validateFailed, s.invalidAncestor || flags.invalidAncestor⟩

/-- `KnownValid`. -/
def KnownValid (s : BlockStatus) : Prop :=
  s.valid = true

/-- `KnownInvalid`: validation failed, or an ancestor failed. -/
def KnownInvalid (s : BlockStatus) : Prop :=
  s.validateFailed = true ∨ s.invalidAncestor = true

instance (s : BlockStatus) : Decidable s.KnownValid :=
  inferInstanceAs (Decidable (s.valid = true))

instance (s : BlockStatus) : Decidable s.KnownInvalid :=
  inferInstanceAs (Decidable (s.validateFailed = true ∨ s.invalidAncestor = true))

@[simp] theorem knownValid_setFlags (s f : BlockStatus) :
    (s.setFlags f).KnownValid ↔ s.KnownValid ∨ f.KnownValid := by
  simp [setFlags, KnownValid]

@[simp] theorem knownInvalid_setFlags (s f : BlockStatus) :
    (s.setFlags f).KnownInvalid ↔ s.KnownInvalid ∨ f.KnownInvalid := by
  simp only [setFlags, KnownInvalid, Bool.or_eq_true]
  tauto

@[simp] theorem knownValid_statusValid : statusValid.KnownValid := rfl
@[simp] theorem not_knownValid_statusValidateFailed : ¬ statusValidateFailed.KnownValid :=
  Bool.false_ne_true
@[simp] theorem not_knownValid_statusInvalidAncestor : ¬ statusInvalidAncestor.KnownValid :=
  Bool.false_ne_true
@[simp] theorem not_knownValid_statusDataStored : ¬ statusDataStored.KnownValid :=
  Bool.false_ne_true
@[simp] theorem knownInvalid_statusValidateFailed : statusValidateFailed.KnownInvalid :=
  Or.inl rfl
@[simp] theorem knownInvalid_statusInvalidAncestor : statusInvalidAncestor.KnownInvalid :=
  Or.inr rfl
@[simp] theorem not_knownInvalid_statusValid : ¬ statusValid.KnownInvalid := by
  simp [KnownInvalid, statusValid]
@[simp] theorem not_knownInvalid_statusDataStored : ¬ statusDataStored.KnownInvalid := by
  simp [KnownInvalid, statusDataStored]

theorem setFlags_assoc (s f g : BlockStatus) :
    (s.setFlags f).setFlags g = s.setFlags (f.setFlags g) := by
  simp [setFlags, Bool.or_assoc]

@[simp] theorem setFlags_statusNone (s : BlockStatus) : s.setFlags statusNone = s := by
  simp [setFlags, statusNone]

@[simp] theorem statusNone_setFlags (f : BlockStatus) : statusNone.setFlags f = f := by
  simp [setFlags, statusNone]

theorem setFlags_comm (f g : BlockStatus) : f.setFlags g = g.setFlags f := by
  simp [setFlags, Bool.or_comm]

@[simp] theorem setFlags_idem (s f : BlockStatus) : (s.setFlags f).setFlags f = s.setFlags f := by
  simp [setFlags]

theorem setFlags_statusValid {s : BlockStatus} (h : s.KnownValid) : s.setFlags statusValid = s := by
  cases s
  simp_all [setFlags, statusValid, KnownValid]

/-- Every flag of `s` is set in `t`. -/
def Le (s t : BlockStatus) : Prop :=
  t.setFlags s = t

theorem Le.refl (s : BlockStatus) : s.Le s := by
  simp [Le, setFlags]

theorem Le.trans {s t u : BlockStatus} (hst : s.Le t) (htu : t.Le u) : s.Le u := by
  unfold Le at *
  rw [← htu, setFlags_assoc, hst]

theorem le_setFlags (s f : BlockStatus) : s.Le (s.setFlags f) := by
  unfold Le
  rw [setFlags_assoc]
  cases s; cases f
  simp [setFlags, Bool.or_comm, Bool.or_left_comm]

theorem Le.knownValid {s t : BlockStatus} (h : s.Le t) (hs : s.KnownValid) : t.KnownValid := by
  rw [← h]
  exact (knownValid_setFlags t s).mpr (Or.inr hs)

theorem Le.knownInvalid {s t : BlockStatus} (h : s.Le t) (hs : s.KnownInvalid) :
    t.KnownInvalid := by
  rw [← h]
  exact (knownInvalid_setFlags t s).mpr (Or.inr hs)

theorem Le.dataStored {s t : BlockStatus} (h : s.Le t) (hs : s.dataStored = true) :
    t.dataStored = true := by
  rw [← h]
  simp [setFlags, hs]

end BlockStatus

end DcrdChain
