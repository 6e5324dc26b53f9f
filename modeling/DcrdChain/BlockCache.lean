import DcrdChain.Outcomes

/-!
# The main-chain block cache

`connectBlock` pushes the block it connects into the main-chain block cache, evicting every
block `mainchainBlockCacheSize` or more below it, and `disconnectBlock` drops the block it
disconnects.  Along every run of such calls that return, made as their callers make them and
interleaved with the other changes of the engine (a node joining the index, statuses marked,
books kept, notifications sent), the cache holds, each under its own hash, blocks of the best
chain less than `mainchainBlockCacheSize` below the tip or at it, and so never more than
`mainchainBlockCacheSize` blocks.

A `connectBlock` that fails after moving the tip, in its stake notifications, leaves its
block out of the cache and the block at the bottom of the old window in it: the runs are of
calls that return.  Every `processBlock`, `forceHeadReorganization`, `connectBlock` and
`disconnectBlock` operation that returns is such a run.
-/

namespace DcrdChain

open BlockStatus

/-!
## The invariant
-/

/-- Every indexed block but the genesis block has its node's height in its header. -/
def HeightsOK (b : BlockChain) : Prop :=
  ∀ h n p, b.index h = some n -> n.parent = some p -> n.block.height = n.height

/-- Every cached block is a best-chain block less than `mainchainBlockCacheSize` below the tip. -/
def CacheWindow (b : BlockChain) : Prop :=
  ∀ h blk, b.mainchainBlockCache.lookup h = some blk ->
    blk.hash = h ∧ (∃ n ∈ b.bestChain.tip.ancestors, n.block = blk ∧ n.height = blk.height) ∧
      (b.bestChain.tip.height : Int) - b.mainchainBlockCacheSize < blk.height ∧
      blk.height ≤ b.bestChain.tip.height

/-- The invariant of the runs: right header heights and the cache in its window. -/
structure CacheInv (b : BlockChain) : Prop where
  tree : Tree b
  heights : HeightsOK b
  window : CacheWindow b

theorem CacheInv.empty {b : BlockChain} (ht : Tree b) (hh : HeightsOK b)
    (hempty : b.mainchainBlockCache = ∅) : CacheInv b :=
  ⟨ht, hh, fun h blk hk => by rw [hempty, AList.lookup_empty] at hk; cases hk⟩

theorem HeightsOK.ofGenesis (g : Block) (totalTxns totalSubsidy : BitVec 64) :
    HeightsOK (BlockChain.ofGenesis g totalTxns totalSubsidy) := fun _ _ _ hn hp => by
  obtain ⟨-, rfl⟩ := BlockChain.index_ofGenesis hn
  cases hp

/-!
## What the cache operations keep and evict
-/

section Evict

variable {p : Block -> Bool} {k : Hash} {x : Block}

theorem lookup_foldl_erase_keep (l : List (Sigma fun _ : Hash => Block))
    {c : AList (fun _ : Hash => Block)}
    (h : (l.foldl (fun c e => if p e.2 then c.erase e.1 else c) c).lookup k = some x) :
    ∀ e ∈ l, e.1 = k -> p e.2 = false := by
  induction l generalizing c with
  | nil => intro e he; cases he
  | cons e l ih =>
      intro e' he' hk
      rcases List.mem_cons.mp he' with rfl | he'
      · have h1 := lookup_foldl_erase l h
        dsimp only at h1
        cases hp : p e'.2
        · rfl
        · rw [if_pos hp, hk, AList.lookup_erase] at h1
          cases h1
      · exact ih h e' he' hk

theorem deleteCached_keep {c : AList (fun _ : Hash => Block)}
    (h : (deleteCached p c).lookup k = some x) : p x = false := by
  unfold deleteCached at h
  exact lookup_foldl_erase_keep _ h ⟨k, x⟩ (AList.mem_lookup_iff.mp (lookup_foldl_erase _ h)) rfl

theorem lookup_pushMainChainBlockCache_window {blk : Block} {b : BlockChain}
    (h : (pushMainChainBlockCache blk b).mainchainBlockCache.lookup k = some x) :
    ((k = blk.hash ∧ x = blk) ∨ b.mainchainBlockCache.lookup k = some x) ∧
      (blk.height : Int) - b.mainchainBlockCacheSize < x.height := by
  refine ⟨lookup_pushMainChainBlockCache h, ?_⟩
  have hkeep := deleteCached_keep h
  simpa using hkeep

end Evict

/-!
## The steps of a run
-/

variable (env : Env)

/-- One step: a returning `connectBlock` or `disconnectBlock` as called, or another change. -/
inductive CacheStep : BlockChain -> BlockChain -> Prop
  | connect {w w' : World} {node p : BlockNode} {view v : UtxoViewpoint} {stxos : Nat}
      (o : Oracle) : w.chain.index node.hash = some node -> node.parent = some p ->
      connectBlock env o node node.block p.block view stxos w = .ok v w' ->
      CacheStep w.chain w'.chain
  | disconnect {w w' : World} {node p : BlockNode} {view v : UtxoViewpoint} (o : Oracle) :
      w.chain.index node.hash = some node -> node.parent = some p ->
      disconnectBlock env o node node.block p.block view w = .ok v w' ->
      CacheStep w.chain w'.chain
  | accept {b b' : BlockChain} : Accept b b' -> CacheStep b b'
  | mark {b b' : BlockChain} : StatusOnly b b' -> CacheStep b b'
  | keep {b b' : BlockChain} : Bookkeeping b b' -> CacheStep b b'
  | notify {b : BlockChain} (n : Notification) : CacheStep b { b with ntfns := b.ntfns ++ [n] }

/-- The runs of such steps. -/
def CacheRun : BlockChain -> BlockChain -> Prop :=
  Relation.ReflTransGen (CacheStep env)

theorem Tree.cacheStep {b b' : BlockChain} (ht : Tree b) (h : CacheStep env b b') : Tree b' := by
  cases h with
  | connect o hn hp h =>
      exact ht.moves ((Spec.connectBlock env o (s := false) hp rfl rfl).ok ⟨hn, fun h => nomatch h⟩ h).1
  | disconnect o hn hp h => exact ht.moves ((Spec.disconnectBlock env o (s := false) hp rfl rfl).ok hn h).1
  | accept h => exact ht.accept h
  | mark h => exact ht.of_eq h.index h.bestChain (by rw [h.eq]) (by rw [h.eq])
  | keep h => exact h.tree ht
  | notify n => exact ht.of_eq rfl rfl rfl rfl

theorem Tree.cacheRun {b b' : BlockChain} (ht : Tree b) (h : CacheRun env b b') : Tree b' := by
  induction h with
  | refl => exact ht
  | tail _ hs ih => exact ih.cacheStep env hs

namespace CacheInv

variable {env} {w w' : World} {node p : BlockNode} {b b' : BlockChain}

theorem connect {o : Oracle} {view v : UtxoViewpoint} {stxos : Nat} (hI : CacheInv w.chain)
    (hn : w.chain.index node.hash = some node) (hp : node.parent = some p)
    (h : connectBlock env o node node.block p.block view stxos w = .ok v w') :
    CacheInv w'.chain := by
  obtain ⟨ht, hh, hw⟩ := hI
  have hm := ((Spec.connectBlock env o (s := false) hp rfl rfl).ok ⟨hn, fun h => nomatch h⟩ h).1
  refine ⟨ht.moves hm, fun k m q hk => hh k m q (by rwa [hm.index] at hk), ?_⟩
  obtain ⟨-, hprev, -, -, b, sd, hb, hw'⟩ := connectBlock_ok env o h
  obtain rfl := ht.parent_eq_tip hn hp hprev
  have hH := hh _ _ _ hn hp
  have hnt := BlockNode.height_of_parent hp
  have htip : w'.chain.bestChain.tip = node := by rw [hw']; rfl
  have hsize : w'.chain.mainchainBlockCacheSize = w.chain.mainchainBlockCacheSize := by
    rw [hw', ← hb.cacheSize]; rfl
  have hcache : ∀ k x, w'.chain.mainchainBlockCache.lookup k = some x ->
      ((k = node.block.hash ∧ x = node.block) ∨ w.chain.mainchainBlockCache.lookup k = some x) ∧
        (node.block.height : Int) - w.chain.mainchainBlockCacheSize < x.height := by
    rw [hw', ← hb.cache, ← hb.cacheSize]
    exact fun k x hk => lookup_pushMainChainBlockCache_window hk
  intro k x hk
  rw [htip, hsize]
  obtain ⟨hk | hk, hlo⟩ := hcache k x hk
  · obtain ⟨rfl, rfl⟩ := hk
    exact ⟨rfl, ⟨node, BlockNode.self_mem_ancestors _, rfl, hH.symm⟩, by omega, by omega⟩
  · obtain ⟨hx, ⟨n, hn', rfl, hnh⟩, -, hhi⟩ := hw k _ hk
    exact ⟨hx, ⟨n, BlockNode.ancestors_trans hn' (BlockNode.parent_mem_ancestors hp), rfl, hnh⟩,
      by omega, by omega⟩

theorem disconnect {o : Oracle} {view v : UtxoViewpoint} (hI : CacheInv w.chain)
    (hn : w.chain.index node.hash = some node) (hp : node.parent = some p)
    (h : disconnectBlock env o node node.block p.block view w = .ok v w') :
    CacheInv w'.chain := by
  obtain ⟨ht, hh, hw⟩ := hI
  have hm := ((Spec.disconnectBlock env o (s := false) hp rfl rfl).ok hn h).1
  refine ⟨ht.moves hm, fun k m q hk => hh k m q (by rwa [hm.index] at hk), ?_⟩
  obtain ⟨-, hnode, -, prev, hprev, b, hb, hw'⟩ := disconnectBlock_ok env o h
  cases hp.symm.trans hprev
  obtain rfl := ht.eq_tip hn hnode
  have hnt := BlockNode.height_of_parent hp
  have htip : w'.chain.bestChain.tip = p := by rw [hw']; rfl
  have hsize : w'.chain.mainchainBlockCacheSize = w.chain.mainchainBlockCacheSize := by
    rw [hw', ← hb.cacheSize]; rfl
  have hcache : ∀ k x, w'.chain.mainchainBlockCache.lookup k = some x ->
      k ≠ w.chain.bestChain.tip.hash ∧ w.chain.mainchainBlockCache.lookup k = some x := by
    rw [hw', ← hb.cache]
    intro k x hk
    refine ⟨?_, lookup_dropMainChainBlockCache hk⟩
    rintro rfl
    simp [dropMainChainBlockCache, BlockNode.hash, AList.lookup_erase] at hk
  intro k x hk
  rw [htip, hsize]
  obtain ⟨hne, hk⟩ := hcache k x hk
  obtain ⟨hx, ⟨n, hn', rfl, hnh⟩, hlo, hhi⟩ := hw k _ hk
  have hnp : n ∈ p.ancestors := by
    rcases List.mem_cons.mp ((BlockNode.ancestors_of_parent hp) ▸ hn') with rfl | hnp
    · exact absurd hx.symm hne
    · exact hnp
  have hle := BlockNode.height_le_of_mem_ancestors hnp
  exact ⟨hx, ⟨n, hnp, rfl, hnh⟩, by omega, by omega⟩

theorem accept (hI : CacheInv b) (h : Accept b b') : CacheInv b' := by
  cases h with
  | keep => exact hI
  | node hp _ hfresh hheight =>
      refine ⟨hI.tree.accept (.node hp ‹_› hfresh hheight), fun k n q hk hq => ?_, hI.window⟩
      rcases BlockChain.index_addNode_cases hk with ⟨-, rfl⟩ | hk
      · exact hheight
      · exact hI.heights k n q hk hq

theorem mark (hI : CacheInv b) (h : StatusOnly b b') : CacheInv b' := by
  obtain ⟨heq, -⟩ := h
  obtain ⟨ht, hh, hw⟩ := hI
  rw [heq]
  exact ⟨ht.of_eq rfl rfl rfl rfl, hh, hw⟩

theorem keep (hI : CacheInv b) (h : Bookkeeping b b') : CacheInv b' := by
  obtain ⟨heq⟩ := h
  obtain ⟨ht, hh, hw⟩ := hI
  rw [heq]
  exact ⟨ht.of_eq rfl rfl rfl rfl, hh, hw⟩

theorem notify (hI : CacheInv b) (n : Notification) :
    CacheInv { b with ntfns := b.ntfns ++ [n] } :=
  ⟨hI.tree.of_eq rfl rfl rfl rfl, hI.heights, hI.window⟩

theorem step (hI : CacheInv b) (h : CacheStep env b b') : CacheInv b' := by
  cases h with
  | connect o hn hp h => exact hI.connect hn hp h
  | disconnect o hn hp h => exact hI.disconnect hn hp h
  | accept h => exact hI.accept h
  | mark h => exact hI.mark h
  | keep h => exact hI.keep h
  | notify n => exact hI.notify n

theorem run (hI : CacheInv b) (h : CacheRun env b b') : CacheInv b' := by
  induction h with
  | refl => exact hI
  | tail _ hs ih => exact ih.step hs

end CacheInv

theorem CacheInv.length_keys_le {b : BlockChain} (hI : CacheInv b) :
    b.mainchainBlockCache.keys.length ≤ b.mainchainBlockCacheSize := by
  let depth : Hash -> Nat := fun k =>
    b.bestChain.tip.height - ((b.mainchainBlockCache.lookup k).map Block.height).getD 0
  have hwin : ∀ k ∈ b.mainchainBlockCache.keys, ∃ x, b.mainchainBlockCache.lookup k = some x ∧
      depth k = b.bestChain.tip.height - x.height := fun k hk => by
    obtain ⟨x, hx⟩ := Option.isSome_iff_exists.mp (AList.lookup_isSome.mpr (AList.mem_keys.mpr hk))
    exact ⟨x, hx, by simp [depth, hx]⟩
  have hinj : ∀ k ∈ b.mainchainBlockCache.keys, ∀ k' ∈ b.mainchainBlockCache.keys,
      depth k = depth k' -> k = k' := by
    intro k hk k' hk' hd
    obtain ⟨x, hx, hdx⟩ := hwin k hk
    obtain ⟨x', hx', hdx'⟩ := hwin k' hk'
    obtain ⟨rfl, ⟨n, hn, rfl, hnh⟩, -, hhi⟩ := hI.window k x hx
    obtain ⟨rfl, ⟨n', hn', rfl, hnh'⟩, -, hhi'⟩ := hI.window k' x' hx'
    rw [BlockNode.eq_of_mem_ancestors_of_height_eq hn hn' (by omega)]
  have hrange : ∀ k ∈ b.mainchainBlockCache.keys, depth k ∈ Finset.range b.mainchainBlockCacheSize :=
    fun k hk => by
      obtain ⟨x, hx, hdx⟩ := hwin k hk
      obtain ⟨-, -, hlo, hhi⟩ := hI.window k x hx
      rw [Finset.mem_range, hdx]
      omega
  calc b.mainchainBlockCache.keys.length
      = (b.mainchainBlockCache.keys.map depth).toFinset.card := by
        rw [List.toFinset_card_of_nodup ((b.mainchainBlockCache.keys_nodup).map_on hinj),
          List.length_map]
    _ ≤ (Finset.range b.mainchainBlockCacheSize).card :=
        Finset.card_le_card fun d hd => by
          obtain ⟨k, hk, rfl⟩ := List.mem_map.mp (List.mem_toFinset.mp hd)
          exact hrange k hk
    _ = b.mainchainBlockCacheSize := Finset.card_range _

theorem mainchainBlockCache_window {b0 b : BlockChain} (ht : Tree b0) (hh : HeightsOK b0)
    (hempty : b0.mainchainBlockCache = ∅) (hr : CacheRun env b0 b) :
    CacheWindow b ∧ b.mainchainBlockCache.keys.length ≤ b.mainchainBlockCacheSize :=
  have hI := (CacheInv.empty ht hh hempty).run hr
  ⟨hI.window, hI.length_keys_le⟩

/-- The genesis-only chain after `sampleChild` joined the index and was connected directly. -/
def sampleConnectedChain : BlockChain :=
  (finalWorld (connectBlock sampleEnv Oracle.allOk (.child sampleChild (.genesis sampleGenesis))
    sampleChild sampleGenesis (UtxoViewpoint.new sampleGenesis.hash) 0
    (World.start ((BlockChain.ofGenesis sampleGenesis 0 0).addNode
      (.child sampleChild (.genesis sampleGenesis)))))).chain

theorem mainchainBlockCache_window_sampleConnectedChain :
    Tree (BlockChain.ofGenesis sampleGenesis 0 0) ∧ HeightsOK (BlockChain.ofGenesis sampleGenesis 0 0) ∧
    (BlockChain.ofGenesis sampleGenesis 0 0).mainchainBlockCache = ∅ ∧
    CacheRun sampleEnv (BlockChain.ofGenesis sampleGenesis 0 0) sampleConnectedChain ∧
    CacheWindow sampleConnectedChain ∧
    sampleConnectedChain.mainchainBlockCache.keys.length ≤ sampleConnectedChain.mainchainBlockCacheSize :=
  have hconn := eq_ok_of_returned (by decide : returned (connectBlock sampleEnv Oracle.allOk
    (.child sampleChild (.genesis sampleGenesis)) sampleChild sampleGenesis
    (UtxoViewpoint.new sampleGenesis.hash) 0 (World.start ((BlockChain.ofGenesis sampleGenesis 0 0).addNode
      (.child sampleChild (.genesis sampleGenesis))))) = some (UtxoViewpoint.new sampleGenesis.hash).commit)
  have hr : CacheRun sampleEnv (BlockChain.ofGenesis sampleGenesis 0 0) sampleConnectedChain :=
    .tail (.single (.accept (@Accept.node _ sampleChild (.genesis sampleGenesis) (by decide)
      (by decide) (by decide) (by decide)))) (.connect Oracle.allOk
        (BlockChain.index_addNode_self _) (BlockNode.parent_child sampleChild _) hconn)
  ⟨Tree.ofGenesis _ _ _, HeightsOK.ofGenesis _ _ _, rfl, hr,
    mainchainBlockCache_window sampleEnv (Tree.ofGenesis _ _ _) (HeightsOK.ofGenesis _ _ _) rfl hr⟩

end DcrdChain
