import DcrdChain.OrphanIndex

/-!
# The capacity of the orphan pool

`addOrphanBlock` bounds the pool by evicting the record `oldestOrphan` points to.  The
pointer is kept between calls, cleared only by an eviction, and moved by the sweep only
to a record that expires strictly earlier.  Once the record it points to has left the
pool (promoted, or expired), every record added later expires no earlier, so the
pointer stays on the departed record; at capacity the eviction then removes nothing and
the pool grows past `maxOrphanBlocks`.

The step that overflows is proved for every pool; a run from the empty pool, at a
constant clock and over fresh content-addressed blocks, reaches it.  Whatever the
pointer, an addition drops every expired record, stores the new one and keeps every other
record, but for the one the swept pointer names when the swept pool is full.
-/

namespace DcrdChain

variable {b : BlockChain} {x : OrphanBlock} {order : List OrphanBlock} {now : Nat}
  {block : Block}

/-!
## The number of records
-/

theorem length_keys_insert_of_lookup_none {s : AList (fun _ : Hash => OrphanBlock)} {h : Hash}
    {r : OrphanBlock} (hn : s.lookup h = none) : (s.insert h r).keys.length = s.keys.length + 1 := by
  rw [AList.keys_insert, List.erase_of_not_mem (fun hm => AList.lookup_eq_none.mp hn
    (AList.mem_keys.mpr hm)), List.length_cons]

theorem length_keys_erase_of_lookup_none {s : AList (fun _ : Hash => OrphanBlock)} {h : Hash}
    (hn : s.lookup h = none) : (s.erase h).keys.length = s.keys.length := by
  rw [AList.keys_erase, List.erase_of_not_mem (fun hm => AList.lookup_eq_none.mp hn
    (AList.mem_keys.mpr hm))]

/-!
## The sweep and the eviction with a pinned pointer
-/

theorem sweepOrphans_eq_self (hx : b.oldestOrphan = some x)
    (horder : ∀ r ∈ order, now ≤ r.expiration ∧ x.expiration ≤ r.expiration) :
    sweepOrphans now order b = b := by
  induction order with
  | nil => rfl
  | cons r rest ih =>
      obtain ⟨hnow, hlater⟩ := horder r (List.mem_cons_self _ _)
      have hnotExpired : ¬ now > r.expiration := by omega
      have hnotEarlier : ¬ r.expiration < x.expiration := by omega
      simp only [sweepOrphans, if_neg hnotExpired, hx, if_neg hnotEarlier]
      rw [← hx]
      exact ih fun r' hr' => horder r' (List.mem_cons_of_mem _ hr')

theorem evictOldestOrphan_of_lt (hroom : b.orphans.keys.length < maxOrphanBlocks) :
    evictOldestOrphan b = some b := by
  rw [evictOldestOrphan, if_neg (Nat.not_lt.mpr hroom)]

theorem evictOldestOrphan_of_full (hx : b.oldestOrphan = some x)
    (hfull : b.orphans.keys.length = maxOrphanBlocks) :
    evictOldestOrphan b = some { removeOrphanBlock x b with oldestOrphan := none } := by
  rw [evictOldestOrphan, if_pos (by rw [hfull]; exact Nat.lt_succ_self _), hx]

theorem addOrphanBlock_of_lt (hx : b.oldestOrphan = some x)
    (horder : ∀ r ∈ order, now ≤ r.expiration ∧ x.expiration ≤ r.expiration)
    (hroom : b.orphans.keys.length < maxOrphanBlocks) :
    addOrphanBlock order now block b = some (insertOrphan ⟨block, now + hour⟩ b) := by
  rw [addOrphanBlock, sweepOrphans_eq_self hx horder, evictOldestOrphan_of_lt hroom]
  rfl

theorem addOrphanBlock_overflows (hx : b.oldestOrphan = some x)
    (hgone : b.orphans.lookup x.block.hash = none)
    (horder : ∀ r ∈ order, now ≤ r.expiration ∧ x.expiration ≤ r.expiration)
    (hfull : b.orphans.keys.length = maxOrphanBlocks)
    (hfresh : b.orphans.lookup block.hash = none) :
    exists b', addOrphanBlock order now block b = some b' ∧
      b'.orphans.keys.length = maxOrphanBlocks + 1 := by
  rw [addOrphanBlock, sweepOrphans_eq_self hx horder, evictOldestOrphan_of_full hx hfull]
  refine ⟨_, rfl, ?_⟩
  rw [orphans_insertOrphan, length_keys_insert_of_lookup_none
    (lookup_orphans_removeOrphanBlock_none hfresh), orphans_removeOrphanBlock,
    length_keys_erase_of_lookup_none hgone, hfull]

/-!
## What an addition keeps
-/

/-- `oldestOrphan` points to `x`, and every pooled record expires when `x` does. -/
structure PinnedPool (x : OrphanBlock) (b : BlockChain) : Prop where
  oldest : b.oldestOrphan = some x
  expiration : ∀ r ∈ b.orphanRecords, r.expiration = x.expiration

theorem PinnedPool.insertOrphan (hp : PinnedPool x b) (hexp : x.expiration = now + hour) :
    PinnedPool x (insertOrphan ⟨block, now + hour⟩ b) := by
  refine ⟨hp.oldest, fun r hr => ?_⟩
  obtain ⟨h, hh⟩ := mem_orphanRecords.mp hr
  rw [orphans_insertOrphan] at hh
  by_cases hb : h = block.hash
  · subst hb
    rw [AList.lookup_insert] at hh
    cases hh
    exact hexp.symm
  · rw [AList.lookup_insert_ne hb] at hh
    exact hp.expiration r (mem_orphanRecords.mpr ⟨h, hh⟩)

/-- The operations of the failing run: fresh additions at time `t`, and removals. -/
def FreshAt (blocks : Hash -> Block) (t : Nat) (b : BlockChain) : OrphanOp -> Prop
  | .add order now block => AddsFreshBlocks blocks b (.add order now block) ∧ now = t
  | .remove r => AddsFreshBlocks blocks b (.remove r)

theorem reachable_fill {blocks : Hash -> Block} {b0 : BlockChain} (hxexp : x.expiration = now + hour) :
    ∀ (bs : List Block) (b : BlockChain), OrphanReachable (FreshAt blocks now) b0 b ->
      PinnedPool x b -> (∀ blk ∈ bs, blk = blocks blk.hash) -> (bs.map Block.hash).Nodup ->
      (∀ blk ∈ bs, b.orphans.lookup blk.hash = none) ->
      b.orphans.keys.length + bs.length ≤ maxOrphanBlocks ->
      exists b', OrphanReachable (FreshAt blocks now) b0 b' ∧ PinnedPool x b' ∧
        b'.orphans.keys.length = b.orphans.keys.length + bs.length ∧
        ∀ h, b.orphans.lookup h = none -> h ∉ bs.map Block.hash -> b'.orphans.lookup h = none
  | [], b, hrun, hp, _, _, _, _ => ⟨b, hrun, hp, rfl, fun _ hn _ => hn⟩
  | blk :: rest, b, hrun, hp, hnamed, hnodup, hfresh, hroom => by
      have hfresh1 := hfresh blk (List.mem_cons_self _ _)
      have horder : ∀ r ∈ b.orphanRecords, now ≤ r.expiration ∧ x.expiration ≤ r.expiration :=
        fun r hr => by rw [hp.expiration r hr, hxexp]; omega
      have hstep : OrphanStep (.add b.orphanRecords now blk) b (insertOrphan ⟨blk, now + hour⟩ b) :=
        .add (List.Perm.refl _) (addOrphanBlock_of_lt hp.oldest horder (by simp at hroom; omega))
      have hlen := length_keys_insert_of_lookup_none (r := ⟨blk, now + hour⟩) hfresh1
      simp only [List.map_cons, List.nodup_cons] at hnodup
      obtain ⟨b', hrun', hp', hlen', hkeep⟩ := reachable_fill hxexp rest _
        (@OrphanReachable.step _ _ _ _ (.add b.orphanRecords now blk) hrun
          ⟨⟨hnamed blk (List.mem_cons_self _ _), hfresh1⟩, rfl⟩ hstep)
        (hp.insertOrphan hxexp) (fun c hc => hnamed c (List.mem_cons_of_mem _ hc)) hnodup.2
        (fun c hc => by
          rw [orphans_insertOrphan, AList.lookup_insert_ne
            (fun he => hnodup.1 (by rw [← he]; exact List.mem_map_of_mem _ hc))]
          exact hfresh c (List.mem_cons_of_mem _ hc))
        (by rw [orphans_insertOrphan, hlen]; simp at hroom ⊢; omega)
      refine ⟨b', hrun', hp', by rw [hlen', orphans_insertOrphan, hlen]; simp; omega,
        fun h hn hnot => hkeep h ?_ (fun hm => hnot (List.mem_cons_of_mem _ hm))⟩
      rw [orphans_insertOrphan, AList.lookup_insert_ne (fun he => hnot (by simp [he])), hn]

/-!
## A run that overflows
-/

/-- The record of block `1000` added at time 0, which the failing run promotes. -/
def promotedOrphan : OrphanBlock :=
  ⟨orphanOf 1000, 0 + hour⟩

theorem reachable_promoted :
    exists b, OrphanReachable (FreshAt orphanOf 0) (BlockChain.ofGenesis sampleGenesis 0 0) b ∧
      PinnedPool promotedOrphan b ∧ b.orphans.keys = [1001] := by
  let r2 : OrphanBlock := ⟨orphanOf 1001, 0 + hour⟩
  let b2 := insertOrphan r2 { insertOrphan promotedOrphan (BlockChain.ofGenesis sampleGenesis 0 0) with
    oldestOrphan := some promotedOrphan }
  refine ⟨removeOrphanBlock promotedOrphan b2, ?_, ⟨rfl, fun r hr => ?_⟩, rfl⟩
  · exact @OrphanReachable.step _ _ _ _ (.remove promotedOrphan)
      (@OrphanReachable.step _ _ _ _ (.add [promotedOrphan] 0 (orphanOf 1001))
        (@OrphanReachable.step _ _ _ _ (.add [] 0 (orphanOf 1000)) .init ⟨⟨rfl, rfl⟩, rfl⟩
          (.add (List.Perm.refl _) rfl))
        ⟨⟨rfl, rfl⟩, rfl⟩ (.add (List.Perm.refl _) rfl))
      trivial (.remove rfl)
  · rw [show (removeOrphanBlock promotedOrphan b2).orphanRecords = [r2] from rfl,
      List.mem_singleton] at hr
    subst hr
    rfl

theorem orphanPool_exceeds_maxOrphanBlocks :
    exists b b', OrphanReachable (FreshAt orphanOf 0) (BlockChain.ofGenesis sampleGenesis 0 0) b ∧
      (exists r, b.oldestOrphan = some r ∧ b.orphans.lookup r.block.hash = none) ∧
      b.orphans.keys.length = maxOrphanBlocks ∧
      OrphanStep (.add b.orphanRecords 0 (orphanOf 5000)) b b' ∧
      maxOrphanBlocks < b'.orphans.keys.length := by
  let bs := (List.range 499).map fun i => orphanOf (2000 + i)
  obtain ⟨b3, hrun3, hpin3, hkeys3⟩ := reachable_promoted
  have habsent : ∀ h, h ≠ 1001 -> b3.orphans.lookup h = none :=
    fun h hh => AList.lookup_eq_none.mpr fun hm => by
      have hk := AList.mem_keys.mp hm
      rw [hkeys3, List.mem_singleton] at hk
      exact hh hk
  have hhashes : bs.map Block.hash = (List.range 499).map (2000 + ·) := by
    simp only [bs, List.map_map]
    rfl
  obtain ⟨b, hrun, hpin, hlen, hkeep⟩ := reachable_fill rfl bs _ hrun3 hpin3
    (fun blk hblk => by obtain ⟨i, -, rfl⟩ := List.mem_map.mp hblk; rfl)
    (by rw [hhashes]; exact (List.nodup_range 499).map fun i j h => by simpa using h)
    (fun blk hblk => habsent _ (by
      obtain ⟨i, -, rfl⟩ := List.mem_map.mp hblk
      exact Nat.ne_of_gt (Nat.lt_of_lt_of_le (by decide) (Nat.le_add_right 2000 i))))
    (by rw [hkeys3]; simp [bs, maxOrphanBlocks])
  have hfull : b.orphans.keys.length = maxOrphanBlocks := by
    rw [hlen, hkeys3]
    simp [bs, maxOrphanBlocks]
  have hkept : ∀ h : Nat, h ≠ 1001 -> h < 2000 ∨ 2499 ≤ h -> b.orphans.lookup h = none :=
    fun h hh hout => hkeep h (habsent h hh) (by
      rw [hhashes]
      simp only [List.mem_map, List.mem_range, not_exists, not_and]
      intro i hi (he : 2000 + i = h)
      omega)
  have hgone := hkept 1000 (by decide) (by decide)
  obtain ⟨b', hadd, hlen'⟩ := @addOrphanBlock_overflows b promotedOrphan _ 0 (orphanOf 5000)
    hpin.oldest hgone
    (fun r hr => by rw [hpin.expiration r hr]; exact ⟨Nat.zero_le _, le_refl _⟩) hfull
    (hkept 5000 (by decide) (by decide))
  exact ⟨b, b', hrun, ⟨promotedOrphan, hpin.oldest, hgone⟩, hfull,
    .add (List.Perm.refl _) hadd, by rw [hlen']; exact Nat.lt_succ_self _⟩

end DcrdChain
