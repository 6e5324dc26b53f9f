import DcrdChain.RefineRun

/-!
# Soundness of the validation statuses

Along every run of `processBlock` and `forceHeadReorganization` the statuses of the block
index stay sound: the tip is known valid, no block is both known valid and known invalid,
and the ancestors of an indexed block known valid are known valid.  Every strict move keeps
this: the code marks a block valid only on top of a block known valid or of the best chain,
marks blocks invalid only below a block it does not know valid, and connects only blocks it
knows valid.  A new node joins the index with no validation status at all.
-/

namespace DcrdChain

open BlockStatus

theorem BlockNode.mem_ancestors_cases {a n : BlockNode} (ha : a ∈ n.ancestors) :
    a = n ∨ exists p, n.parent = some p ∧ a ∈ p.ancestors := by
  cases n with
  | genesis g => exact .inl (List.mem_singleton.mp ha)
  | child blk p => exact (List.mem_cons.mp ha).imp id fun ha => ⟨p, rfl, ha⟩

/-- The status invariant of a run. -/
structure StatusSound (b : BlockChain) : Prop where
  /-- The tip is known valid. -/
  tip : (b.status b.bestChain.tip.hash).KnownValid
  /-- No block is both known valid and known invalid. -/
  exclusive : ∀ h, (b.status h).KnownValid -> ¬ (b.status h).KnownInvalid
  /-- The ancestors of an indexed block known valid are known valid. -/
  closed : ∀ n, b.index n.hash = some n -> (b.status n.hash).KnownValid ->
    ∀ a ∈ n.ancestors, (b.status a.hash).KnownValid

namespace StatusSound

variable {env : Env} {b b' : BlockChain} {n a : BlockNode} (hs : StatusSound b)
include hs

theorem ancestors (hn : b.index n.hash = some n) (hv : (b.status n.hash).KnownValid)
    (ha : a ∈ n.ancestors) :
    (b.status a.hash).KnownValid ∧ ¬ (b.status a.hash).KnownInvalid :=
  ⟨hs.closed n hn hv a ha, hs.exclusive _ (hs.closed n hn hv a ha)⟩

theorem tip_ancestors (ht : Tree b) (ha : a ∈ b.bestChain.tip.ancestors) :
    (b.status a.hash).KnownValid ∧ ¬ (b.status a.hash).KnownInvalid :=
  hs.ancestors ht.consistent.tip hs.tip ha

theorem of_tip (hi : b'.index = b.index) (hst : b'.status = b.status)
    (htip : (b.status b'.bestChain.tip.hash).KnownValid) : StatusSound b' := by
  refine ⟨?_, ?_, ?_⟩ <;> simp only [hi, hst]
  exacts [htip, hs.exclusive, hs.closed]

theorem validate (ht : Tree b) (hn : b.index n.hash = some n)
    (hi : ¬ (b.status n.hash).KnownInvalid)
    (hp : ∀ p, n.parent = some p -> (b.status p.hash).KnownValid ∨ p ∈ b.bestChain.tip.ancestors) :
    StatusSound (b.setStatusFlags n statusValid) := by
  have hvalid : ∀ a ∈ n.ancestors, ((b.setStatusFlags n statusValid).status a.hash).KnownValid := by
    intro a ha
    rcases BlockNode.mem_ancestors_cases ha with rfl | ⟨p, hpn, ha⟩
    · simp
    · refine BlockChain.knownValid_setStatusFlags ?_
      rcases hp p hpn with hv | hv
      · exact hs.closed p (ht.consistent.closed _ _ hn p (BlockNode.parent_mem_ancestors hpn)) hv a ha
      · exact (hs.tip_ancestors ht (BlockNode.ancestors_trans ha hv)).1
  refine ⟨BlockChain.knownValid_setStatusFlags hs.tip, fun k hv => ?_, fun m hm hv => ?_⟩
  · by_cases hk : k = n.hash
    · subst hk
      exact BlockChain.not_knownInvalid_setStatusFlags_valid hi
    · rw [BlockChain.status_setStatusFlags_of_ne _ _ _ hk] at hv ⊢
      exact hs.exclusive k hv
  · by_cases hmn : m.hash = n.hash
    · obtain rfl := eq_of_index hm hn hmn
      exact hvalid
    · rw [BlockChain.status_setStatusFlags_of_ne _ _ _ hmn] at hv
      exact fun a ha => BlockChain.knownValid_setStatusFlags (hs.closed m hm hv a ha)

theorem invalidate {f : BlockStatus} (hn : b.index n.hash = some n) (hf : ¬ f.KnownValid)
    (ha : ∃ a ∈ n.ancestors, ¬ (b.status a.hash).KnownValid ∨ (b.status a.hash).KnownInvalid) :
    StatusSound (b.setStatusFlags n f) := by
  have hnv : ¬ (b.status n.hash).KnownValid := fun hv => by
    obtain ⟨a, ha, hna⟩ := ha
    have := hs.ancestors hn hv ha
    tauto
  have hvalid : ∀ k, ((b.setStatusFlags n f).status k).KnownValid ↔ (b.status k).KnownValid := by
    intro k
    rw [BlockChain.status_setStatusFlags]
    split <;> simp [hf]
  refine ⟨(hvalid _).mpr hs.tip, fun k hv => ?_,
    fun m hm hv a ha => (hvalid _).mpr (hs.closed m hm ((hvalid _).mp hv) a ha)⟩
  have hk : k ≠ n.hash := by
    rintro rfl
    exact hnv ((hvalid _).mp hv)
  rw [BlockChain.status_setStatusFlags_of_ne _ _ _ hk] at hv ⊢
  exact hs.exclusive k hv

theorem move (ht : Tree b) (h : Move env true b b') : StatusSound b' := by
  cases h with
  | bookkeeping hb => exact hs.of_tip hb.index hb.status (by rw [hb.bestChain]; exact hs.tip)
  | notify => exact hs.of_tip rfl rfl hs.tip
  | validate hn hi hp => exact hs.validate ht hn hi hp
  | invalidate hn hf ha => exact hs.invalidate hn hf ha
  | connect db sn nsd _ _ _ _ _ hv => exact hs.of_tip rfl rfl (hv rfl)
  | disconnect db psn htip hn hp =>
      exact hs.of_tip rfl rfl (hs.tip_ancestors ht
        (ht.eq_tip hn htip ▸ BlockNode.parent_mem_ancestors hp)).1
  | pushCache => exact hs.of_tip rfl rfl hs.tip
  | dropCache => exact hs.of_tip rfl rfl hs.tip

theorem accept (ht : Tree b) (h : Accept b b') : StatusSound b' := by
  cases h with
  | keep => exact hs
  | @node block p _ _ hfresh _ =>
      have hsame : ∀ {k m}, b.index k = some m -> (b.addNode (.child block p)).status k = b.status k :=
        BlockChain.status_addNode_of_index hfresh
      refine ⟨?_, fun k hv => ?_, fun m hm hv a ha => ?_⟩
      · show ((b.addNode _).status b.bestChain.tip.hash).KnownValid
        rw [hsame ht.consistent.tip]
        exact hs.tip
      · rw [BlockChain.status_addNode] at hv ⊢
        split_ifs at hv ⊢
        · exact absurd hv (by decide)
        · exact hs.exclusive k hv
      · rcases BlockChain.index_addNode_cases hm with ⟨-, rfl⟩ | hm
        · rw [BlockChain.status_addNode_self] at hv
          exact absurd hv (by decide)
        · rw [hsame hm] at hv
          have ha' := ht.consistent.closed _ _ hm a ha
          rw [hsame ha']
          exact hs.closed m hm hv a ha

end StatusSound

theorem StatusSound.ofGenesis (g : Block) (totalTxns totalSubsidy : BitVec 64) :
    StatusSound (BlockChain.ofGenesis g totalTxns totalSubsidy) := by
  refine ⟨?_, fun k => ?_, fun n hn hv a ha => ?_⟩
  · show KnownValid (if g.hash = g.hash then ⟨true, true, false, false⟩ else statusNone)
    rw [if_pos rfl]
    rfl
  · simp only [BlockChain.ofGenesis]
    split <;> decide
  · obtain ⟨-, rfl⟩ := BlockChain.index_ofGenesis hn
    rw [List.mem_singleton.mp ha]
    exact hv

theorem StatusSound.moves {env : Env} {b b' : BlockChain} (ht : Tree b) (hs : StatusSound b)
    (hm : Moves env true b b') : Tree b' ∧ StatusSound b' :=
  Accept.invariant env (fun _ _ ht hs h => hs.accept ht h) (fun _ _ ht hs h => hs.move ht h)
    ht hs .keep hm

theorem StatusSound.of_reachable {env : Env} {g : Block} {totalTxns totalSubsidy : BitVec 64}
    {b : BlockChain} (h : Reachable env (fun _ op => op.Strict = true)
      (BlockChain.ofGenesis g totalTxns totalSubsidy) b) : Tree b ∧ StatusSound b :=
  Reachable.invariant env (s := true) (I := StatusSound)
    (fun _ _ ht hs h => hs.accept ht h) (fun _ _ ht hs h => hs.move ht h) (fun _ _ h _ => h)
    (Tree.ofGenesis g totalTxns totalSubsidy) (StatusSound.ofGenesis g totalTxns totalSubsidy) h

theorem statuses_sound_of_reachable {env : Env} {g : Block} {totalTxns totalSubsidy : BitVec 64}
    {b : BlockChain} (h : Reachable env (fun _ op => op.Strict = true)
      (BlockChain.ofGenesis g totalTxns totalSubsidy) b) :
    (∀ a ∈ b.bestChain.tip.ancestors,
      (b.status a.hash).KnownValid ∧ ¬ (b.status a.hash).KnownInvalid) ∧
    (∀ k, (b.status k).KnownValid -> ¬ (b.status k).KnownInvalid) ∧
    (∀ n, b.index n.hash = some n -> (b.status n.hash).KnownValid ->
      ∀ a ∈ n.ancestors, (b.status a.hash).KnownValid ∧ ¬ (b.status a.hash).KnownInvalid) := by
  obtain ⟨ht, hs⟩ := StatusSound.of_reachable h
  exact ⟨fun a ha => hs.tip_ancestors ht ha, hs.exclusive, fun n hn hv a ha => hs.ancestors hn hv ha⟩

theorem statuses_sound_sampleForkChain :
    (∀ a ∈ sampleForkChain.bestChain.tip.ancestors,
      (sampleForkChain.status a.hash).KnownValid ∧
        ¬ (sampleForkChain.status a.hash).KnownInvalid) ∧
    (∀ k, (sampleForkChain.status k).KnownValid -> ¬ (sampleForkChain.status k).KnownInvalid) ∧
    (∀ n, sampleForkChain.index n.hash = some n -> (sampleForkChain.status n.hash).KnownValid ->
      ∀ a ∈ n.ancestors, (sampleForkChain.status a.hash).KnownValid ∧
        ¬ (sampleForkChain.status a.hash).KnownInvalid) :=
  statuses_sound_of_reachable (show Reachable sampleEnv (fun _ op => op.Strict = true)
    (BlockChain.ofGenesis sampleGenesis 0 0) sampleForkChain from
    .step (.step .init (by rfl) (Op.step_apply (by decide))) (by rfl) (Op.step_apply (by decide)))

end DcrdChain
