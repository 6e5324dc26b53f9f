import DcrdChain.Orphans
import Mathlib.Data.Finset.Card

/-!
# The root of an orphan chain

`GetOrphanRoot` follows the previous-block hashes of the pool's orphans while they name
orphans.  Its loop has no bound of its own: it ends because the pool is finite and, blocks
being content addressed, a walk along previous-block links never meets a hash twice.  The
loop is modelled with a bound on its iterations; every bound above the size of the pool is
shown to be enough, and all of them give the same root.
-/

namespace DcrdChain

open Relation

/-- The loop of `GetOrphanRoot` with `fuel` iterations; `none` when they run out. -/
def orphanRootLoop (orphans : AList (fun _ : Hash => OrphanBlock)) :
    Nat -> Hash -> Hash -> Option Hash
  | 0, _, _ => none
  | fuel + 1, orphanRoot, prevHash =>
      match orphans.lookup prevHash with
      | none => some orphanRoot
      | some orphan => orphanRootLoop orphans fuel prevHash orphan.block.header.prevBlock

/-- `GetOrphanRoot(hash)`, run for at most `fuel` iterations. -/
def getOrphanRoot (b : BlockChain) (fuel : Nat) (hash : Hash) : Option Hash :=
  orphanRootLoop b.orphans fuel hash hash

/-- `a` names an orphan of the pool whose previous block is `c`. -/
def PrevLink (orphans : AList (fun _ : Hash => OrphanBlock)) (a c : Hash) : Prop :=
  ∃ o, orphans.lookup a = some o ∧ o.block.header.prevBlock = c

section Root

variable {orphans : AList (fun _ : Hash => OrphanBlock)} {h : Hash}

theorem orphanRootLoop_succ {fuel : Nat} {root x r : Hash}
    (hr : orphanRootLoop orphans fuel root x = some r) :
    orphanRootLoop orphans (fuel + 1) root x = some r := by
  induction fuel generalizing root x with
  | zero => cases hr
  | succ fuel ih =>
      rw [orphanRootLoop] at hr ⊢
      split at hr
      · exact hr
      · exact ih hr

theorem orphanRootLoop_mono {fuel fuel' : Nat} {root x r : Hash} (hle : fuel ≤ fuel')
    (hr : orphanRootLoop orphans fuel root x = some r) :
    orphanRootLoop orphans fuel' root x = some r := by
  induction hle with
  | refl => exact hr
  | step _ ih => exact orphanRootLoop_succ ih

open Classical in
theorem card_reached_lt {x y : Hash} (hxy : PrevLink orphans x y)
    (hx : ¬ TransGen (PrevLink orphans) x x) :
    (orphans.keys.toFinset.filter (ReflTransGen (PrevLink orphans) y)).card <
      (orphans.keys.toFinset.filter (ReflTransGen (PrevLink orphans) x)).card := by
  obtain ⟨o, ho, -⟩ := id hxy
  apply Finset.card_lt_card
  rw [Finset.ssubset_iff_of_subset]
  · refine ⟨x, ?_, fun hmem => hx (TransGen.head' hxy (Finset.mem_filter.mp hmem).2)⟩
    exact Finset.mem_filter.mpr ⟨List.mem_toFinset.mpr (AList.mem_keys.mp
      (AList.lookup_isSome.mp (by rw [ho]; rfl))), ReflTransGen.refl⟩
  · intro k hk
    obtain ⟨hk, hyk⟩ := Finset.mem_filter.mp hk
    exact Finset.mem_filter.mpr ⟨hk, ReflTransGen.head hxy hyk⟩

open Classical in
theorem orphanRootLoop_root
    (hacyclic : ∀ x, ReflTransGen (PrevLink orphans) h x -> ¬ TransGen (PrevLink orphans) x x) :
    ∀ (fuel : Nat) (root x : Hash), ReflTransGen (PrevLink orphans) h x ->
      (root = h ∧ x = h) ∨ (ReflTransGen (PrevLink orphans) h root ∧
        ∃ o, orphans.lookup root = some o ∧ o.block.header.prevBlock = x) ->
      (orphans.keys.toFinset.filter (ReflTransGen (PrevLink orphans) x)).card < fuel ->
      ∃ r, orphanRootLoop orphans fuel root x = some r ∧
        (orphans.lookup h = none -> r = h) ∧
        (∀ o, orphans.lookup h = some o -> ReflTransGen (PrevLink orphans) h r ∧
          ∃ o', orphans.lookup r = some o' ∧ orphans.lookup o'.block.header.prevBlock = none) := by
  intro fuel
  induction fuel with
  | zero => intro _ _ _ _ hcard; omega
  | succ fuel ih =>
      intro root x hx hinv hcard
      rw [orphanRootLoop]
      cases hlx : orphans.lookup x with
      | some ox =>
          have hlink : PrevLink orphans x ox.block.header.prevBlock := ⟨ox, hlx, rfl⟩
          have hlt := card_reached_lt hlink (hacyclic x hx)
          exact ih x _ (hx.tail hlink) (.inr ⟨hx, ox, hlx, rfl⟩)
            (Nat.lt_of_lt_of_le hlt (Nat.le_of_lt_succ hcard))
      | none =>
          refine ⟨root, rfl, fun hh => ?_, fun o hh => ?_⟩
          · rcases hinv with ⟨rfl, -⟩ | ⟨hroot, -⟩
            · rfl
            · rcases hroot.cases_head with rfl | ⟨_, ⟨o, ho, -⟩, -⟩
              · rfl
              · rw [hh] at ho; cases ho
          · rcases hinv with ⟨rfl, rfl⟩ | ⟨hroot, o', ho', rfl⟩
            · rw [hh] at hlx; cases hlx
            · exact ⟨hroot, o', ho', hlx⟩

theorem not_transGen_of_rank {f : Hash -> Nat} (hf : ∀ a c, PrevLink orphans a c -> f c < f a)
    {x : Hash} : ¬ TransGen (PrevLink orphans) x x := by
  have hlt : ∀ a c, TransGen (PrevLink orphans) a c -> f c < f a := fun a c h => by
    induction h with
    | single h => exact hf _ _ h
    | tail _ h ih => exact lt_trans (hf _ _ h) ih
  exact fun h => lt_irrefl _ (hlt _ _ h)

end Root

theorem getOrphanRoot_terminates (b : BlockChain) (h : Hash)
    (hacyclic : ∀ x, ReflTransGen (PrevLink b.orphans) h x -> ¬ TransGen (PrevLink b.orphans) x x) :
    ∃ r, (∀ fuel, b.orphans.keys.length < fuel -> getOrphanRoot b fuel h = some r) ∧
      (b.orphans.lookup h = none -> r = h) ∧
      (∀ o, b.orphans.lookup h = some o -> ReflTransGen (PrevLink b.orphans) h r ∧
        ∃ o', b.orphans.lookup r = some o' ∧ b.orphans.lookup o'.block.header.prevBlock = none) := by
  classical
  have hcard : (b.orphans.keys.toFinset.filter (ReflTransGen (PrevLink b.orphans) h)).card <
      b.orphans.keys.length + 1 :=
    Nat.lt_succ_of_le ((Finset.card_filter_le _ _).trans (List.toFinset_card_le _))
  obtain ⟨r, hr, hnone, hsome⟩ := orphanRootLoop_root hacyclic _ h h .refl (.inl ⟨rfl, rfl⟩)
    (by convert hcard)
  exact ⟨r, fun fuel hfuel => orphanRootLoop_mono hfuel hr, hnone, hsome⟩

/-- An orphan of hash `hash` waiting for the block `prev`. -/
def orphanRecord (hash prev : Hash) : OrphanBlock :=
  ⟨⟨hash, ⟨prev, 0, 0, 0, 0, 0, 0, 0, 0⟩, [], [], 0, []⟩, 0⟩

/-- A pool of two orphans: `10` waiting for `11`, and `11` for the unknown `12`. -/
def sampleOrphanChain : BlockChain :=
  { BlockChain.ofGenesis sampleGenesis 0 0 with
    orphans := (((∅ : AList fun _ : Hash => OrphanBlock).insert 10 (orphanRecord 10 11)).insert 11
      (orphanRecord 11 12)) }

theorem getOrphanRoot_sampleOrphanChain :
    (∀ x, ReflTransGen (PrevLink sampleOrphanChain.orphans) 10 x ->
      ¬ TransGen (PrevLink sampleOrphanChain.orphans) x x) ∧
    ∃ r, (∀ fuel, sampleOrphanChain.orphans.keys.length < fuel ->
        getOrphanRoot sampleOrphanChain fuel 10 = some r) ∧
      (sampleOrphanChain.orphans.lookup 10 = none -> r = 10) ∧
      (∀ o, sampleOrphanChain.orphans.lookup 10 = some o ->
        ReflTransGen (PrevLink sampleOrphanChain.orphans) 10 r ∧
        ∃ o', sampleOrphanChain.orphans.lookup r = some o' ∧
          sampleOrphanChain.orphans.lookup o'.block.header.prevBlock = none) :=
  have hacyclic : ∀ x, ReflTransGen (PrevLink sampleOrphanChain.orphans) 10 x ->
      ¬ TransGen (PrevLink sampleOrphanChain.orphans) x x := fun _ _ =>
    not_transGen_of_rank (f := fun a => if a = 10 then 2 else if a = 11 then 1 else 0) <| by
      rintro a c ⟨o, ho, rfl⟩
      by_cases h10 : a = 10
      · subst h10
        cases ho
        decide
      by_cases h11 : a = 11
      · subst h11
        cases ho
        decide
      simp only [sampleOrphanChain, AList.lookup_insert_ne h10, AList.lookup_insert_ne h11,
        AList.lookup_empty, reduceCtorEq] at ho
  ⟨hacyclic, getOrphanRoot_terminates sampleOrphanChain 10 hacyclic⟩

/-- The root of the orphan `10` is `11`, whose parent is not in the pool. -/
example : getOrphanRoot sampleOrphanChain 3 10 = some 11 := by
  decide

end DcrdChain
