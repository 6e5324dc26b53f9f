import DcrdChain.Consistent
import DcrdChain.Spec

/-!
# The moves of the chain engine

Every operation of `chain.go` changes the chain by a sequence of small moves: it marks a
status, connects a block to the tip or disconnects the tip, updates the block cache,
queues a notification, or keeps its books (stake data, the modified set, the flushed index
entries).  `Move` lists these moves, each with the facts that hold when the code makes it:
a block is marked valid only when its parent is valid or on the best chain, invalid only
below a block that is not known valid, and a block is connected only on top of the tip
and with its own block.  The invariants of the chain are then properties of `Move` alone;
the refinement modules show that each operation is a run of moves.

The block index of a run is a `Tree`: consistent, keyed by hashes, with each header naming
its parent, and with a cache holding only blocks of the index.  Every move keeps it.
-/

namespace DcrdChain

open BlockStatus

/-- The chain `setStatusFlags node flags` leaves. -/
def BlockChain.setStatusFlags (b : BlockChain) (node : BlockNode) (flags : BlockStatus) :
    BlockChain :=
  { b with
    status := Function.update b.status node.hash ((b.status node.hash).setFlags flags)
    modified := if node.hash ∈ b.modified then b.modified else node.hash :: b.modified }

theorem setStatusFlags_eq (node : BlockNode) (flags : BlockStatus) :
    setStatusFlags node flags = modifyChain (·.setStatusFlags node flags) :=
  rfl

section SetStatusFlags

variable (b : BlockChain) (node : BlockNode) (flags : BlockStatus)

@[simp] theorem BlockChain.index_setStatusFlags : (b.setStatusFlags node flags).index = b.index :=
  rfl

@[simp] theorem BlockChain.bestChain_setStatusFlags :
    (b.setStatusFlags node flags).bestChain = b.bestChain :=
  rfl

theorem BlockChain.status_setStatusFlags (h : Hash) :
    (b.setStatusFlags node flags).status h =
      if h = node.hash then (b.status h).setFlags flags else b.status h := by
  by_cases hh : h = node.hash
  · subst hh
    simp [BlockChain.setStatusFlags]
  · simp [BlockChain.setStatusFlags, Function.update_noteq hh, hh]

@[simp] theorem BlockChain.status_setStatusFlags_self :
    (b.setStatusFlags node flags).status node.hash = (b.status node.hash).setFlags flags := by
  rw [BlockChain.status_setStatusFlags, if_pos rfl]

theorem BlockChain.status_setStatusFlags_of_ne {h : Hash} (hh : h ≠ node.hash) :
    (b.setStatusFlags node flags).status h = b.status h := by
  rw [BlockChain.status_setStatusFlags, if_neg hh]

end SetStatusFlags

/-!
## The block cache
-/

section Cache

variable {p : Block -> Bool} {c : AList (fun _ : Hash => Block)} {k : Hash} {x : Block}

theorem lookup_foldl_erase (l : List (Sigma fun _ : Hash => Block)) :
    (l.foldl (fun c e => if p e.2 then c.erase e.1 else c) c).lookup k = some x ->
      c.lookup k = some x := by
  induction l generalizing c with
  | nil => exact id
  | cons e l ih =>
      intro h
      have h1 := ih h
      dsimp only at h1
      split at h1
      · by_cases hk : k = e.1
        · subst hk
          rw [AList.lookup_erase] at h1
          cases h1
        · rwa [AList.lookup_erase_ne hk] at h1
      · exact h1

theorem lookup_deleteCached (h : (deleteCached p c).lookup k = some x) : c.lookup k = some x :=
  lookup_foldl_erase _ h

theorem lookup_pushMainChainBlockCache {blk : Block} {b : BlockChain}
    (h : (pushMainChainBlockCache blk b).mainchainBlockCache.lookup k = some x) :
    (k = blk.hash ∧ x = blk) ∨ b.mainchainBlockCache.lookup k = some x := by
  have h1 := lookup_deleteCached h
  by_cases hk : k = blk.hash
  · subst hk
    rw [AList.lookup_insert] at h1
    exact .inl ⟨rfl, (Option.some_injective _ h1).symm⟩
  · rw [AList.lookup_insert_ne hk] at h1
    exact .inr h1

theorem lookup_dropMainChainBlockCache {blk : Block} {b : BlockChain}
    (h : (dropMainChainBlockCache blk b).mainchainBlockCache.lookup k = some x) :
    b.mainchainBlockCache.lookup k = some x := by
  by_cases hk : k = blk.hash
  · subst hk
    simp [dropMainChainBlockCache, AList.lookup_erase] at h
  · rwa [dropMainChainBlockCache, AList.lookup_erase_ne hk] at h

end Cache

/-!
## Moves
-/

/-- The moves of the operations, with their guards; a `strict` run connects only valid blocks. -/
inductive Move (env : Env) (strict : Bool) : BlockChain -> BlockChain -> Prop
  | bookkeeping {b b' : BlockChain} : Bookkeeping b b' -> Move env strict b b'
  | notify {b : BlockChain} (n : Notification) : Move env strict b { b with ntfns := b.ntfns ++ [n] }
  | validate {b : BlockChain} {n : BlockNode} : b.index n.hash = some n ->
      ¬ (b.status n.hash).KnownInvalid ->
      (∀ p, n.parent = some p -> (b.status p.hash).KnownValid ∨ p ∈ b.bestChain.tip.ancestors) ->
      Move env strict b (b.setStatusFlags n statusValid)
  | invalidate {b : BlockChain} {n : BlockNode} {flags : BlockStatus} :
      b.index n.hash = some n -> ¬ flags.KnownValid ->
      (∃ a ∈ n.ancestors, ¬ (b.status a.hash).KnownValid ∨ (b.status a.hash).KnownInvalid) ->
      Move env strict b (b.setStatusFlags n flags)
  | connect {b : BlockChain} {node p : BlockNode} {block parent : Block} (db : Database)
      (sn : StakeNode) (nsd : Int) :
      block.header.prevBlock = b.bestChain.tip.hash -> b.index node.hash = some node ->
      node.parent = some p -> block = node.block -> parent = p.block ->
      (strict = true -> (b.status node.hash).KnownValid) ->
      Move env strict b { b with
        db := db
        bestChain := b.bestChain.setTip node
        stateSnapshot := connectBestState env node block parent b.stateSnapshot sn nsd }
  | disconnect {b : BlockChain} {node p : BlockNode} {block parent : Block} (db : Database)
      (psn : StakeNode) :
      node.hash = b.bestChain.tip.hash -> b.index node.hash = some node ->
      node.parent = some p -> block = node.block -> parent = p.block ->
      Move env strict b { b with
        db := db
        bestChain := b.bestChain.setTip p
        stateSnapshot := disconnectBestState env node p block parent b.stateSnapshot psn }
  | pushCache {b : BlockChain} {n : BlockNode} : b.index n.hash = some n ->
      Move env strict b (pushMainChainBlockCache n.block b)
  | dropCache {b : BlockChain} (blk : Block) : Move env strict b (dropMainChainBlockCache blk b)

/-- Runs of moves. -/
def Moves (env : Env) (strict : Bool) : BlockChain -> BlockChain -> Prop :=
  Relation.ReflTransGen (Move env strict)

instance (env : Env) (strict : Bool) : IsRefl BlockChain (Moves env strict) :=
  ⟨fun _ => .refl⟩

instance (env : Env) (strict : Bool) : IsTrans BlockChain (Moves env strict) :=
  ⟨fun _ _ _ => .trans⟩

section MoveFacts

variable {env : Env} {s : Bool} {b b' : BlockChain}

theorem Move.index (h : Move env s b b') : b'.index = b.index := by
  cases h with
  | bookkeeping hb => exact hb.index
  | _ => rfl

theorem Move.status_le (h : Move env s b b') (k : Hash) : (b.status k).Le (b'.status k) := by
  cases h with
  | bookkeeping hb => rw [hb.status]; exact Le.refl _
  | validate => rw [BlockChain.status_setStatusFlags]; split <;> first
      | exact le_setFlags _ _ | exact Le.refl _
  | invalidate => rw [BlockChain.status_setStatusFlags]; split <;> first
      | exact le_setFlags _ _ | exact Le.refl _
  | _ => exact Le.refl _

theorem Move.orphans (h : Move env s b b') : b'.orphans = b.orphans := by
  cases h with
  | bookkeeping hb => exact hb.orphans
  | _ => rfl

theorem Moves.induction {I : BlockChain -> Prop} (hI : ∀ b b', Move env s b b' -> I b -> I b')
    (h : Moves env s b b') (hb : I b) : I b' := by
  induction h with
  | refl => exact hb
  | tail _ hm ih => exact hI _ _ hm ih

theorem Moves.index (h : Moves env s b b') : b'.index = b.index := by
  induction h with
  | refl => rfl
  | tail _ hm ih => rw [hm.index, ih]

theorem Moves.status_le (h : Moves env s b b') (k : Hash) : (b.status k).Le (b'.status k) := by
  induction h with
  | refl => exact Le.refl _
  | tail _ hm ih => exact ih.trans (hm.status_le k)

theorem Moves.knownValid {k : Hash} (h : Moves env s b b') (hk : (b.status k).KnownValid) :
    (b'.status k).KnownValid :=
  (h.status_le k).knownValid hk

theorem Moves.knownInvalid {k : Hash} (h : Moves env s b b') (hk : (b.status k).KnownInvalid) :
    (b'.status k).KnownInvalid :=
  (h.status_le k).knownInvalid hk

end MoveFacts

/-!
## The block index is a tree
-/

theorem eq_of_index {b : BlockChain} {n m : BlockNode} (hn : b.index n.hash = some n)
    (hm : b.index m.hash = some m) (h : n.hash = m.hash) : n = m := by
  rw [h, hm] at hn
  exact (Option.some_injective _ hn).symm

/-- The index of a run: a consistent keyed tree, an index-only cache and an empty pool. -/
structure Tree (b : BlockChain) : Prop where
  consistent : Consistent b
  keys : ∀ h n, b.index h = some n -> n.hash = h
  linked : ∀ h n p, b.index h = some n -> n.parent = some p -> n.block.header.prevBlock = p.hash
  cached : ∀ h blk, b.mainchainBlockCache.lookup h = some blk -> b.index h ≠ none
  noOrphans : b.orphans = ∅

namespace Tree

variable {b b' : BlockChain} (ht : Tree b)
include ht

theorem eq_tip {n : BlockNode} (hn : b.index n.hash = some n)
    (h : n.hash = b.bestChain.tip.hash) : n = b.bestChain.tip :=
  eq_of_index hn ht.consistent.tip h

theorem parent_eq_tip {n p : BlockNode} (hn : b.index n.hash = some n) (hp : n.parent = some p)
    (h : n.block.header.prevBlock = b.bestChain.tip.hash) : p = b.bestChain.tip :=
  ht.eq_tip (ht.consistent.closed _ _ hn p (BlockNode.parent_mem_ancestors hp))
    ((ht.linked _ _ _ hn hp).symm.trans h)

theorem cacheKeys : CacheKeys b := by
  rintro ⟨k, blk⟩ he
  have hl := AList.mem_lookup_iff.mpr he
  obtain ⟨n, hn⟩ := Option.ne_none_iff_exists'.mp (ht.cached _ _ hl)
  have hk := ht.keys _ _ hn
  subst hk
  rw [ht.consistent.cache n _ hn hl]
  rfl

theorem of_tip (hi : b'.index = b.index) (hc : b'.mainchainBlockCache = b.mainchainBlockCache)
    (ho : b'.orphans = b.orphans) (hn : b.index b'.bestChain.tip.hash = some b'.bestChain.tip) :
    Tree b' := by
  obtain ⟨⟨closed, root, _, cache, orphans⟩, keys, linked, cached, noOrphans⟩ := ht
  have hroot : b'.bestChain.tip.root = b.bestChain.tip.root := root _ _ hn
  refine ⟨⟨?_, ?_, ?_, ?_, ?_⟩, ?_, ?_, ?_, ?_⟩ <;> simp only [hi, hc, ho, hroot] <;> assumption

theorem of_eq (hi : b'.index = b.index) (hb : b'.bestChain = b.bestChain)
    (hc : b'.mainchainBlockCache = b.mainchainBlockCache) (ho : b'.orphans = b.orphans) : Tree b' :=
  ht.of_tip hi hc ho (by rw [hb]; exact ht.consistent.tip)

theorem pushCache {n : BlockNode} (hn : b.index n.hash = some n) :
    Tree (pushMainChainBlockCache n.block b) := by
  refine ⟨⟨ht.consistent.closed, ht.consistent.root, ht.consistent.tip, fun m blk hm hl => ?_,
    ht.consistent.orphans⟩, ht.keys, ht.linked, fun h blk hl => ?_, ht.noOrphans⟩
  · rcases lookup_pushMainChainBlockCache hl with ⟨hh, rfl⟩ | hl
    · rw [eq_of_index hn hm hh.symm]
    · exact ht.consistent.cache m blk hm hl
  · rcases lookup_pushMainChainBlockCache hl with ⟨rfl, -⟩ | hl
    · exact fun h => by cases hn.symm.trans h
    · exact ht.cached h blk hl

theorem dropCache (blk : Block) : Tree (dropMainChainBlockCache blk b) := by
  obtain ⟨⟨closed, root, tip, cache, orphans⟩, keys, linked, cached, noOrphans⟩ := ht
  exact ⟨⟨closed, root, tip, fun m blk hm hl => cache m blk hm (lookup_dropMainChainBlockCache hl),
    orphans⟩, keys, linked, fun h blk hl => cached h blk (lookup_dropMainChainBlockCache hl),
    noOrphans⟩

omit ht in
theorem move {env : Env} {s : Bool} (h : Move env s b b') (ht : Tree b) : Tree b' := by
  cases h with
  | bookkeeping hb => exact ht.of_eq hb.index hb.bestChain hb.cache hb.orphans
  | connect db sn nsd _ hn => exact ht.of_tip rfl rfl rfl hn
  | disconnect db psn _ hn hp =>
      exact ht.of_tip rfl rfl rfl
        (ht.consistent.closed _ _ hn _ (BlockNode.parent_mem_ancestors hp))
  | pushCache hn => exact ht.pushCache hn
  | dropCache blk => exact ht.dropCache blk
  | _ => exact ht.of_eq rfl rfl rfl rfl

omit ht in
theorem moves {env : Env} {s : Bool} (h : Moves env s b b') (ht : Tree b) : Tree b' :=
  Moves.induction (fun _ _ hm => Tree.move hm) h ht

end Tree

/-!
## Operations made of moves
-/

section Rules

variable {env : Env} {s : Bool} {α : Type} {P : BlockChain -> Prop}
  {E : ChainError -> BlockChain -> Prop}

theorem Spec.move {g : BlockChain -> BlockChain} {Q : Unit -> BlockChain -> Prop}
    (h : ∀ b, P b -> Move env s b (g b) ∧ Q () (g b)) :
    Spec (Moves env s) P (DcrdChain.modifyChain g) Q E :=
  Spec.modifyChain fun b hb => ⟨Relation.ReflTransGen.single (h b hb).1, (h b hb).2⟩

theorem Spec.bookkeeping {x : ChainM α} {S : BlockChain -> Prop} (hx : Frame Bookkeeping x)
    (hS : ∀ b b', P b -> Bookkeeping b b' -> S b') :
    Spec (Moves env s) P x (fun _ => S) (fun _ _ => True) :=
  Spec.of_frame hx (fun _ _ h => Relation.ReflTransGen.single (.bookkeeping h)) hS

theorem Bookkeeping.tree {b b' : BlockChain} (h : Bookkeeping b b') (ht : Tree b) : Tree b' :=
  ht.of_eq h.index h.bestChain h.cache h.orphans

end Rules

end DcrdChain
