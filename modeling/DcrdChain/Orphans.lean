import DcrdChain.Run

/-!
# The orphan pool

`removeOrphanBlock` and `addOrphanBlock` of `chain.go`, over the two maps `orphans`
(hash to record) and `prevOrphans` (parent hash to the records waiting for it) and the
`oldestOrphan` pointer kept between calls.  Go ranges over a map in an unspecified
order, so the expiry sweep takes the order it visits the records in as an argument.  Go
reads `time.Now()` at each visit and again for the new expiration; the model reads the
clock once per call, as one time `now`.
-/

namespace DcrdChain

/-- `maxOrphanBlocks`. -/
def maxOrphanBlocks : Nat := 500

/-- `time.Hour`, in nanoseconds. -/
def hour : Nat := 3600 * 1000000000

/-- `b.prevOrphans[p]`, empty when absent. -/
def BlockChain.prevOrphansAt (b : BlockChain) (p : Hash) : List OrphanBlock :=
  (b.prevOrphans.lookup p).getD []

/-- The records of the pool, in the order of the map's entries. -/
def BlockChain.orphanRecords (b : BlockChain) : List OrphanBlock :=
  b.orphans.entries.map Sigma.snd

/-- Go's `copy(dst, src)` on two windows of one array, as a `memmove`: what `dst` holds after. -/
def copySlice {α : Type} (dst src : List α) : List α :=
  src.take dst.length ++ dst.drop src.length

/-- The indexing loop of `removeOrphanBlock` from `i`: cut a match and look at `i` again. -/
def removeMatching (orphanHash : Hash) (orphans : List OrphanBlock) (i : Nat) :
    List OrphanBlock :=
  if h : i < orphans.length then
    if orphans[i].block.hash = orphanHash then
      removeMatching orphanHash (orphans.eraseIdx i) i
    else
      removeMatching orphanHash orphans (i + 1)
  else
    orphans
termination_by orphans.length - i
decreasing_by
  all_goals simp_wf
  · rw [List.length_eraseIdx, if_pos h]
    omega
  · omega

/-- `removeOrphanBlock(orphan)`: delete the record, its bucket entry and an emptied bucket. -/
def removeOrphanBlock (orphan : OrphanBlock) (b : BlockChain) : BlockChain :=
  let orphanHash := orphan.block.hash
  let prevHash := orphan.block.header.prevBlock
  let orphans := removeMatching orphanHash (b.prevOrphansAt prevHash) 0
  let prevOrphans := b.prevOrphans.insert prevHash orphans
  { b with
    orphans := b.orphans.erase orphanHash
    prevOrphans :=
      if ((prevOrphans.lookup prevHash).getD []).length = 0 then prevOrphans.erase prevHash
      else prevOrphans }

/-- The sweep of `addOrphanBlock` over the given records, all tested against one time `now`. -/
def sweepOrphans (now : Nat) : List OrphanBlock -> BlockChain -> BlockChain
  | [], b => b
  | oBlock :: rest, b =>
      if now > oBlock.expiration then
        sweepOrphans now rest (removeOrphanBlock oBlock b)
      else
        let oldest := match b.oldestOrphan with
          | none => some oBlock
          | some o => if oBlock.expiration < o.expiration then some oBlock else some o
        sweepOrphans now rest { b with oldestOrphan := oldest }

/-- At capacity, remove the record `oldestOrphan` points to; `none`: a nil dereference. -/
def evictOldestOrphan (b : BlockChain) : Option BlockChain :=
  if b.orphans.keys.length + 1 > maxOrphanBlocks then
    match b.oldestOrphan with
    | some oldest => some { removeOrphanBlock oldest b with oldestOrphan := none }
    | none => none
  else
    some b

/-- Insert a record under its block's hash and append it to its parent's bucket. -/
def insertOrphan (oBlock : OrphanBlock) (b : BlockChain) : BlockChain :=
  let prevHash := oBlock.block.header.prevBlock
  { b with
    orphans := b.orphans.insert oBlock.block.hash oBlock
    prevOrphans := b.prevOrphans.insert prevHash (b.prevOrphansAt prevHash ++ [oBlock]) }

/-- `addOrphanBlock(block)`, the clock read once as `now` (Go reads it per visit); `none`: a panic. -/
def addOrphanBlock (order : List OrphanBlock) (now : Nat) (block : Block) (b : BlockChain) :
    Option BlockChain :=
  (evictOldestOrphan (sweepOrphans now order b)).map (insertOrphan ⟨block, now + hour⟩)

/-- `IsKnownOrphan(hash)`. -/
def BlockChain.isKnownOrphan (b : BlockChain) (hash : Hash) : Bool :=
  (b.orphans.lookup hash).isSome

/-!
## Runs of the pool
-/

/-- The pool operations: `addOrphanBlock`, and the `removeOrphanBlock` of a promotion. -/
inductive OrphanOp
  | add (order : List OrphanBlock) (now : Nat) (block : Block)
  | remove (orphan : OrphanBlock)

/-- One pool operation: the sweep visits exactly the pool; a removed record is pooled. -/
inductive OrphanStep : OrphanOp -> BlockChain -> BlockChain -> Prop
  | add {order : List OrphanBlock} {now : Nat} {block : Block} {b b' : BlockChain} :
      order.Perm b.orphanRecords -> addOrphanBlock order now block b = some b' ->
      OrphanStep (.add order now block) b b'
  | remove {r : OrphanBlock} {b : BlockChain} :
      b.orphans.lookup r.block.hash = some r ->
      OrphanStep (.remove r) b (removeOrphanBlock r b)

/-- The pool is empty. -/
def BlockChain.NoOrphans (b : BlockChain) : Prop :=
  b.orphans = ∅ ∧ b.prevOrphans = ∅ ∧ b.oldestOrphan = none

/-- The chains reached from `b0` by runs of the operations `allowed` admits. -/
inductive OrphanReachable (allowed : BlockChain -> OrphanOp -> Prop) (b0 : BlockChain) :
    BlockChain -> Prop
  | init : OrphanReachable allowed b0 b0
  | step {b b' : BlockChain} {op : OrphanOp} :
      OrphanReachable allowed b0 b -> allowed b op -> OrphanStep op b b' ->
      OrphanReachable allowed b0 b'

end DcrdChain
