import DcrdChain.Orphans

/-!
# The two orphan indexes correspond

`orphans` and `prevOrphans` describe the same records: a record is stored under its own
hash, and a parent's bucket lists, once each, exactly the stored records waiting for
that parent.  Every removal, expiry sweep, capacity eviction and insertion keeps this,
provided an added block is not pooled yet (`ProcessBlock` rejects a known orphan) and
blocks are content addressed, which the stale `oldestOrphan` pointer relies on: the
record it evicts may have been replaced by a newer record for the same block.
-/

namespace DcrdChain

/-!
## The filter loop of removeOrphanBlock
-/

theorem copySlice_truncate_eq_eraseIdx {α : Type} (xs : List α) {i : Nat} (hi : i < xs.length) :
    (xs.take i ++ copySlice (xs.drop i) (xs.drop (i + 1))).take (xs.length - 1) =
      xs.eraseIdx i := by
  have hlen : (xs.take i ++ xs.drop (i + 1)).length = xs.length - 1 := by simp; omega
  rw [copySlice, List.take_of_length_le (l := xs.drop (i + 1)) (by simp only [List.length_drop]; omega),
    ← List.append_assoc, List.take_left' hlen,
    List.eraseIdx_eq_take_drop_succ]

theorem removeMatching_eq (h : Hash) (xs : List OrphanBlock) (i : Nat) :
    removeMatching h xs i = xs.take i ++ (xs.drop i).filter (fun r => r.block.hash ≠ h) := by
  induction xs, i using removeMatching.induct h with
  | case1 xs i hi hm ih =>
      have hlen : (xs.take i).length = i := by simp; omega
      rw [removeMatching, dif_pos hi, if_pos hm, ih, List.eraseIdx_eq_take_drop_succ,
        List.take_left' hlen, List.drop_left' hlen, List.drop_eq_getElem_cons hi,
        List.filter_cons_of_neg (by simpa using hm)]
  | case2 xs i hi hm ih =>
      rw [removeMatching, dif_pos hi, if_neg hm, ih, List.drop_eq_getElem_cons hi,
        List.filter_cons_of_pos (by simpa using hm), List.take_succ,
        List.getElem?_eq_getElem hi, Option.toList_some, List.append_assoc,
        List.singleton_append]
  | case3 xs i hi =>
      rw [removeMatching, dif_neg hi, List.drop_eq_nil_of_le (Nat.le_of_not_lt hi),
        List.take_of_length_le (Nat.le_of_not_lt hi)]
      simp

theorem removeMatching_zero (h : Hash) (xs : List OrphanBlock) :
    removeMatching h xs 0 = xs.filter (fun r => r.block.hash ≠ h) := by
  simp [removeMatching_eq]

/-!
## The operations on the maps
-/

variable {o r0 : OrphanBlock} {b : BlockChain} {p : Hash}

@[simp] theorem orphans_removeOrphanBlock :
    (removeOrphanBlock o b).orphans = b.orphans.erase o.block.hash := rfl

@[simp] theorem oldestOrphan_removeOrphanBlock :
    (removeOrphanBlock o b).oldestOrphan = b.oldestOrphan := rfl

theorem lookup_prevOrphans_removeOrphanBlock_self :
    (removeOrphanBlock o b).prevOrphans.lookup o.block.header.prevBlock =
      let kept := (b.prevOrphansAt o.block.header.prevBlock).filter
        (fun r => r.block.hash ≠ o.block.hash)
      if kept = [] then none else some kept := by
  unfold removeOrphanBlock
  simp only [AList.lookup_insert, Option.getD_some, removeMatching_zero, List.length_eq_zero]
  split_ifs <;> simp [AList.lookup_erase, AList.lookup_insert]

theorem lookup_prevOrphans_removeOrphanBlock_of_ne (hp : p ≠ o.block.header.prevBlock) :
    (removeOrphanBlock o b).prevOrphans.lookup p = b.prevOrphans.lookup p := by
  unfold removeOrphanBlock
  dsimp only
  split_ifs <;> simp [AList.lookup_erase_ne hp, AList.lookup_insert_ne hp]

theorem prevOrphansAt_removeOrphanBlock :
    (removeOrphanBlock o b).prevOrphansAt p =
      if p = o.block.header.prevBlock then
        (b.prevOrphansAt p).filter (fun r => r.block.hash ≠ o.block.hash)
      else b.prevOrphansAt p := by
  split_ifs with hp
  · subst hp
    rw [BlockChain.prevOrphansAt, lookup_prevOrphans_removeOrphanBlock_self]
    dsimp only
    split_ifs with h
    exacts [h.symm, rfl]
  · rw [BlockChain.prevOrphansAt, lookup_prevOrphans_removeOrphanBlock_of_ne hp]
    rfl

theorem removeOrphanBlock_filters_bucket (o : OrphanBlock) (b : BlockChain) :
    let kept := (b.prevOrphansAt o.block.header.prevBlock).filter
      (fun r => r.block.hash ≠ o.block.hash)
    removeMatching o.block.hash (b.prevOrphansAt o.block.header.prevBlock) 0 = kept ∧
      (removeOrphanBlock o b).prevOrphansAt o.block.header.prevBlock = kept ∧
      (o.block.header.prevBlock ∉ (removeOrphanBlock o b).prevOrphans ↔ kept = []) := by
  refine ⟨removeMatching_zero _ _, by rw [prevOrphansAt_removeOrphanBlock, if_pos rfl], ?_⟩
  rw [← AList.lookup_eq_none, lookup_prevOrphans_removeOrphanBlock_self]
  dsimp only
  split_ifs with h
  exacts [iff_of_true rfl h, iff_of_false id h]

theorem lookup_prevOrphans_removeOrphanBlock {rs : List OrphanBlock}
    (h : (removeOrphanBlock o b).prevOrphans.lookup p = some rs) :
    rs ≠ [] ∨ b.prevOrphans.lookup p = some rs := by
  by_cases hp : p = o.block.header.prevBlock
  · subst hp
    rw [lookup_prevOrphans_removeOrphanBlock_self] at h
    dsimp only at h
    split_ifs at h with hk
    cases h
    exact .inl hk
  · rw [lookup_prevOrphans_removeOrphanBlock_of_ne hp] at h
    exact .inr h

@[simp] theorem orphans_insertOrphan :
    (insertOrphan r0 b).orphans = b.orphans.insert r0.block.hash r0 := rfl

@[simp] theorem oldestOrphan_insertOrphan :
    (insertOrphan r0 b).oldestOrphan = b.oldestOrphan := rfl

theorem prevOrphansAt_insertOrphan :
    (insertOrphan r0 b).prevOrphansAt p =
      if p = r0.block.header.prevBlock then b.prevOrphansAt p ++ [r0]
      else b.prevOrphansAt p := by
  unfold insertOrphan BlockChain.prevOrphansAt
  split_ifs with hp
  · subst hp
    simp [AList.lookup_insert]
  · simp [AList.lookup_insert_ne hp]

theorem lookup_prevOrphans_insertOrphan {rs : List OrphanBlock}
    (h : (insertOrphan r0 b).prevOrphans.lookup p = some rs) :
    rs ≠ [] ∨ b.prevOrphans.lookup p = some rs := by
  unfold insertOrphan at h
  by_cases hp : p = r0.block.header.prevBlock
  · subst hp
    rw [AList.lookup_insert] at h
    cases h
    exact Or.inl (by simp)
  · rw [AList.lookup_insert_ne hp] at h
    exact Or.inr h

theorem lookup_orphans_removeOrphanBlock_none {h : Hash} (hn : b.orphans.lookup h = none) :
    (removeOrphanBlock o b).orphans.lookup h = none := by
  rw [orphans_removeOrphanBlock]
  by_cases hh : h = o.block.hash
  · subst hh
    exact AList.lookup_erase _ _
  · rw [AList.lookup_erase_ne hh, hn]

/-!
## The invariant
-/

/-- The pool is well indexed over the blocks `blocks` names, `oldestOrphan` among them. -/
structure OrphanPoolInv (blocks : Hash -> Block) (b : BlockChain) : Prop where
  stored : ∀ h r, b.orphans.lookup h = some r -> r.block = blocks h ∧ r.block.hash = h
  bucket_mem : ∀ p r, r ∈ b.prevOrphansAt p ↔
    b.orphans.lookup r.block.hash = some r ∧ r.block.header.prevBlock = p
  bucket_nodup : ∀ p, (b.prevOrphansAt p).Nodup
  bucket_ne_nil : ∀ p rs, b.prevOrphans.lookup p = some rs -> rs ≠ []
  oldest : ∀ r, b.oldestOrphan = some r -> r.block = blocks r.block.hash

variable {blocks : Hash -> Block} {order : List OrphanBlock} {now : Nat} {block : Block}
  {b' : BlockChain}

theorem OrphanPoolInv.of_noOrphans (h : b.NoOrphans) : OrphanPoolInv blocks b := by
  obtain ⟨ho, hp, hold⟩ := h
  refine ⟨?_, ?_, ?_, ?_, ?_⟩ <;> simp [ho, hp, hold, BlockChain.prevOrphansAt]

theorem OrphanPoolInv.stored_block (hinv : OrphanPoolInv blocks b) {h : Hash} {r : OrphanBlock}
    (hr : b.orphans.lookup h = some r) : r.block = blocks r.block.hash := by
  rw [(hinv.stored h r hr).2]
  exact (hinv.stored h r hr).1

theorem OrphanPoolInv.removeOrphanBlock (hinv : OrphanPoolInv blocks b)
    (ho : o.block = blocks o.block.hash) : OrphanPoolInv blocks (removeOrphanBlock o b) where
  stored h r hr := by
    rw [orphans_removeOrphanBlock] at hr
    by_cases hh : h = o.block.hash
    · subst hh
      simp [AList.lookup_erase] at hr
    · rw [AList.lookup_erase_ne hh] at hr
      exact hinv.stored h r hr
  bucket_mem p r := by
    rw [prevOrphansAt_removeOrphanBlock, orphans_removeOrphanBlock]
    by_cases hk : r.block.hash = o.block.hash
    · rw [hk, AList.lookup_erase]
      split_ifs with hp
      · simp [hk]
      · simp only [reduceCtorEq, false_and, iff_false]
        intro hmem
        obtain ⟨hl, hprev⟩ := (hinv.bucket_mem p r).mp hmem
        rw [hk] at hl
        have := (hinv.stored _ r hl).1
        exact hp (by rw [← hprev, this, ← ho])
    · rw [AList.lookup_erase_ne hk, ← hinv.bucket_mem]
      split_ifs <;> simp [hk]
  bucket_nodup p := by
    rw [prevOrphansAt_removeOrphanBlock]
    split_ifs
    · exact (hinv.bucket_nodup p).filter _
    · exact hinv.bucket_nodup p
  bucket_ne_nil p rs h := (lookup_prevOrphans_removeOrphanBlock h).elim id (hinv.bucket_ne_nil p rs)
  oldest r h := hinv.oldest r h

theorem OrphanPoolInv.insertOrphan (hinv : OrphanPoolInv blocks b)
    (hr0 : r0.block = blocks r0.block.hash) (hfresh : b.orphans.lookup r0.block.hash = none) :
    OrphanPoolInv blocks (insertOrphan r0 b) where
  stored h r hr := by
    rw [orphans_insertOrphan] at hr
    by_cases hh : h = r0.block.hash
    · subst hh
      rw [AList.lookup_insert] at hr
      cases hr
      exact ⟨hr0, rfl⟩
    · rw [AList.lookup_insert_ne hh] at hr
      exact hinv.stored h r hr
  bucket_mem p r := by
    have hnot : r ∈ b.prevOrphansAt p -> r.block.hash ≠ r0.block.hash := by
      intro hmem hk
      rw [← hk, ((hinv.bucket_mem p r).mp hmem).1] at hfresh
      cases hfresh
    rw [prevOrphansAt_insertOrphan, orphans_insertOrphan]
    by_cases hk : r.block.hash = r0.block.hash
    · rw [hk, AList.lookup_insert, Option.some.injEq]
      constructor
      · intro hmem
        split_ifs at hmem with hp
        · rcases List.mem_append.mp hmem with hmem | hmem
          · exact absurd hk (hnot hmem)
          · rw [List.mem_singleton.mp hmem]
            exact ⟨rfl, hp.symm⟩
        · exact absurd hk (hnot hmem)
      · rintro ⟨rfl, hp⟩
        rw [if_pos hp.symm]
        simp
    · rw [AList.lookup_insert_ne hk, ← hinv.bucket_mem]
      split_ifs
      · simp only [List.mem_append, List.mem_singleton, or_iff_left_iff_imp]
        rintro rfl
        exact absurd rfl hk
      · rfl
  bucket_nodup p := by
    rw [prevOrphansAt_insertOrphan]
    split_ifs
    · refine List.nodup_append.mpr ⟨hinv.bucket_nodup p, List.nodup_singleton _, ?_⟩
      intro r hmem hmem'
      rw [List.mem_singleton.mp hmem'] at hmem
      rw [((hinv.bucket_mem p r0).mp hmem).1] at hfresh
      cases hfresh
    · exact hinv.bucket_nodup p
  bucket_ne_nil p rs h := (lookup_prevOrphans_insertOrphan h).elim id (hinv.bucket_ne_nil p rs)
  oldest r h := hinv.oldest r h

theorem OrphanPoolInv.setOldest (hinv : OrphanPoolInv blocks b) {r : Option OrphanBlock}
    (hr : ∀ x, r = some x -> x.block = blocks x.block.hash) :
    OrphanPoolInv blocks { b with oldestOrphan := r } :=
  { hinv with oldest := hr }

theorem OrphanPoolInv.sweepOrphans (now : Nat) :
    ∀ (order : List OrphanBlock) {b : BlockChain},
      OrphanPoolInv blocks b -> (∀ r ∈ order, r.block = blocks r.block.hash) ->
      OrphanPoolInv blocks (sweepOrphans now order b) ∧
        (∀ h, b.orphans.lookup h = none -> (sweepOrphans now order b).orphans.lookup h = none)
  | [], b, hinv, _ => ⟨hinv, fun _ h => h⟩
  | oBlock :: rest, b, hinv, hord => by
      have ho := hord oBlock (List.mem_cons_self _ _)
      have hrest : ∀ r ∈ rest, r.block = blocks r.block.hash :=
        fun r hr => hord r (List.mem_cons_of_mem _ hr)
      unfold DcrdChain.sweepOrphans
      split_ifs
      · obtain ⟨h1, h2⟩ := OrphanPoolInv.sweepOrphans now rest (hinv.removeOrphanBlock ho) hrest
        exact ⟨h1, fun h hn => h2 h (lookup_orphans_removeOrphanBlock_none hn)⟩
      · refine OrphanPoolInv.sweepOrphans now rest (hinv.setOldest ?_) hrest
        intro x hx
        split at hx
        · cases hx
          exact ho
        · split_ifs at hx <;> cases hx
          · exact ho
          · exact hinv.oldest _ (by assumption)

theorem OrphanPoolInv.evictOldestOrphan (hinv : OrphanPoolInv blocks b)
    (h : evictOldestOrphan b = some b') :
    OrphanPoolInv blocks b' ∧ (∀ k, b.orphans.lookup k = none -> b'.orphans.lookup k = none) := by
  unfold DcrdChain.evictOldestOrphan at h
  split_ifs at h
  · split at h
    · cases h
      exact ⟨(hinv.removeOrphanBlock (hinv.oldest _ ‹_›)).setOldest (by simp),
        fun k hk => lookup_orphans_removeOrphanBlock_none hk⟩
    · cases h
  · cases h
    exact ⟨hinv, fun _ h => h⟩

theorem OrphanPoolInv.addOrphanBlock (hinv : OrphanPoolInv blocks b)
    (hord : ∀ r ∈ order, r.block = blocks r.block.hash) (hblock : block = blocks block.hash)
    (hfresh : b.orphans.lookup block.hash = none)
    (h : addOrphanBlock order now block b = some b') : OrphanPoolInv blocks b' := by
  obtain ⟨hswept, hsweptFresh⟩ := hinv.sweepOrphans now order hord
  obtain ⟨b2, hevict, rfl⟩ := Option.map_eq_some'.mp h
  obtain ⟨hevicted, hevictedFresh⟩ := hswept.evictOldestOrphan hevict
  exact hevicted.insertOrphan hblock (hevictedFresh _ (hsweptFresh _ hfresh))

theorem mem_orphanRecords {r : OrphanBlock} :
    r ∈ b.orphanRecords ↔ ∃ h, b.orphans.lookup h = some r := by
  simp only [BlockChain.orphanRecords, List.mem_map]
  constructor
  · rintro ⟨⟨h, r⟩, hmem, rfl⟩
    exact ⟨h, AList.mem_lookup_iff.mpr hmem⟩
  · rintro ⟨h, hr⟩
    exact ⟨⟨h, r⟩, AList.mem_lookup_iff.mp hr, rfl⟩

/-!
## Runs
-/

/-- The pool operations of `ProcessBlock`: an added block is named by its hash and not pooled. -/
def AddsFreshBlocks (blocks : Hash -> Block) (b : BlockChain) : OrphanOp -> Prop
  | .add _ _ block => block = blocks block.hash ∧ b.orphans.lookup block.hash = none
  | .remove _ => True

theorem OrphanPoolInv.step {op : OrphanOp} (hinv : OrphanPoolInv blocks b)
    (hop : AddsFreshBlocks blocks b op) (h : OrphanStep op b b') : OrphanPoolInv blocks b' := by
  cases h with
  | add hperm hadd =>
      refine hinv.addOrphanBlock (fun r hr => ?_) hop.1 hop.2 hadd
      obtain ⟨k, hk⟩ := mem_orphanRecords.mp (hperm.subset hr)
      exact hinv.stored_block hk
  | remove hr => exact hinv.removeOrphanBlock (hinv.stored_block hr)

theorem OrphanPoolInv.of_reachable {b0 : BlockChain} (hb0 : b0.NoOrphans)
    (h : OrphanReachable (AddsFreshBlocks blocks) b0 b) : OrphanPoolInv blocks b := by
  induction h with
  | init => exact .of_noOrphans hb0
  | step _ hop hs ih => exact ih.step hop hs

/-!
## The correspondence
-/

/-- The two indexes correspond: each record once in its parent's bucket, no bucket empty. -/
structure OrphanIndexOK (b : BlockChain) : Prop where
  stored_hash : ∀ h r, b.orphans.lookup h = some r -> r.block.hash = h
  stored_once : ∀ h r, b.orphans.lookup h = some r ->
    (b.prevOrphansAt r.block.header.prevBlock).count r = 1
  bucket_prev : ∀ p rs, b.prevOrphans.lookup p = some rs -> ∀ r ∈ rs,
    r.block.header.prevBlock = p
  bucket_stored : ∀ p rs, b.prevOrphans.lookup p = some rs -> ∀ r ∈ rs,
    b.orphans.lookup r.block.hash = some r
  bucket_ne_nil : ∀ p rs, b.prevOrphans.lookup p = some rs -> rs ≠ []

theorem OrphanPoolInv.orphanIndexOK (hinv : OrphanPoolInv blocks b) : OrphanIndexOK b := by
  have hbucket : ∀ p rs, b.prevOrphans.lookup p = some rs -> ∀ r ∈ rs,
      b.orphans.lookup r.block.hash = some r ∧ r.block.header.prevBlock = p := by
    intro p rs hp r hr
    rw [← hinv.bucket_mem, BlockChain.prevOrphansAt, hp]
    exact hr
  refine ⟨fun h r hr => (hinv.stored h r hr).2, fun h r hr => ?_,
    fun p rs hp r hr => (hbucket p rs hp r hr).2, fun p rs hp r hr => (hbucket p rs hp r hr).1,
    hinv.bucket_ne_nil⟩
  refine List.count_eq_one_of_mem (hinv.bucket_nodup _) ((hinv.bucket_mem _ r).mpr ⟨?_, rfl⟩)
  rwa [(hinv.stored h r hr).2]

theorem orphanIndexes_correspond {b0 : BlockChain} (hb0 : b0.NoOrphans)
    (h : OrphanReachable (AddsFreshBlocks blocks) b0 b) : OrphanIndexOK b :=
  (OrphanPoolInv.of_reachable hb0 h).orphanIndexOK

/-- The orphans of the examples: the block named `h`, waiting for the unknown block `5`. -/
def orphanOf (h : Hash) : Block :=
  ⟨h, ⟨5, 3, 0, 0, 0, 0, 0, 0, 0⟩, [], [], 1, []⟩

/-- The orphan of the examples. -/
def sampleOrphan : Block :=
  orphanOf 7

/-- Two orphans of one parent added at time 0, then `sampleOrphan` promoted. -/
def samplePromotedPool : BlockChain :=
  removeOrphanBlock ⟨sampleOrphan, hour⟩ (insertOrphan ⟨orphanOf 8, hour⟩
    { insertOrphan ⟨sampleOrphan, hour⟩ (BlockChain.ofGenesis sampleGenesis 0 0) with
      oldestOrphan := some ⟨sampleOrphan, hour⟩ })

theorem orphanIndexes_correspond_samplePromotedPool :
    (BlockChain.ofGenesis sampleGenesis 0 0).NoOrphans ∧
      OrphanReachable (AddsFreshBlocks orphanOf) (BlockChain.ofGenesis sampleGenesis 0 0)
        samplePromotedPool ∧
      OrphanIndexOK samplePromotedPool :=
  have hrun : OrphanReachable (AddsFreshBlocks orphanOf) (BlockChain.ofGenesis sampleGenesis 0 0)
      samplePromotedPool :=
    @OrphanReachable.step _ _ _ _ (.remove ⟨sampleOrphan, hour⟩)
      (@OrphanReachable.step _ _ _ _ (.add [⟨sampleOrphan, hour⟩] 0 (orphanOf 8))
        (@OrphanReachable.step _ _ _ _ (.add [] 0 sampleOrphan) .init ⟨rfl, rfl⟩
          (.add (List.Perm.refl _) rfl)) ⟨rfl, rfl⟩ (.add (List.Perm.refl _) rfl))
      trivial (.remove rfl)
  ⟨⟨rfl, rfl, rfl⟩, hrun, orphanIndexes_correspond ⟨rfl, rfl, rfl⟩ hrun⟩

theorem orphanIndex_broken_by_duplicate_add :
    ∃ b, OrphanReachable (fun _ _ => True) (BlockChain.ofGenesis sampleGenesis 0 0) b ∧
      ¬ OrphanIndexOK b := by
  let r : OrphanBlock := ⟨sampleOrphan, hour⟩
  let b1 := insertOrphan r (BlockChain.ofGenesis sampleGenesis 0 0)
  refine ⟨insertOrphan r { b1 with oldestOrphan := some r }, ?_, fun h => ?_⟩
  · exact .step (.step .init trivial (@OrphanStep.add [] 0 sampleOrphan _ _ (List.Perm.refl _) rfl))
      trivial (@OrphanStep.add [r] 0 sampleOrphan _ _ (List.Perm.refl _) rfl)
  · exact absurd (h.stored_once sampleOrphan.hash r rfl) (by decide)

end DcrdChain
