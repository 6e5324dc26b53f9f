import DcrdChain.RefineTip
import DcrdChain.Commit
import DcrdChain.Lock

/-!
# Reorganizations are moves

`getReorganizeNodes`, the dry run and the commit phase of `reorganizeChain` are runs of
moves.  The marking of `getReorganizeNodes` and of the dry run only changes statuses: a
block is marked invalid below a known-invalid block or after a failed validation, and
valid once validated on top of the fork point or of a block validated before it.  The
commit phase disconnects each node of the path down from the tip and connects each node
of the path up to the new tip, each with its own block and its parent's, as the dry run
planned them; the blocks it connects are those the dry run found valid.
-/

namespace DcrdChain

open BlockStatus

/-!
## Moves that mark statuses
-/

/-- A run of moves that changes only statuses. -/
def MarkMoves (env : Env) (s : Bool) (b b' : BlockChain) : Prop :=
  Moves env s b b' ∧ StatusOnly b b'

instance (env : Env) (s : Bool) : IsRefl BlockChain (MarkMoves env s) :=
  ⟨fun b => ⟨.refl, refl_of StatusOnly b⟩⟩

instance (env : Env) (s : Bool) : IsTrans BlockChain (MarkMoves env s) :=
  ⟨fun _ _ _ h1 h2 => ⟨h1.1.trans h2.1, trans_of StatusOnly h1.2 h2.2⟩⟩

section Marks

variable {env : Env} {s : Bool} {P : BlockChain -> Prop} {E : ChainError -> BlockChain -> Prop}
  {b b' : BlockChain} {n : BlockNode}

theorem StatusOnly.setStatusFlags (b : BlockChain) (n : BlockNode) (f : BlockStatus) :
    StatusOnly b (b.setStatusFlags n f) :=
  (Frame.setStatusFlags n f ⟨b, 0, []⟩).1

theorem setFlags_le_status (b : BlockChain) (n : BlockNode) (f : BlockStatus) :
    f.Le ((b.setStatusFlags n f).status n.hash) := by
  rw [BlockChain.status_setStatusFlags, if_pos rfl]
  exact (setFlags_idem _ _)

theorem Tree.setStatusFlags (ht : Tree b) (n : BlockNode) (f : BlockStatus) :
    Tree (b.setStatusFlags n f) :=
  ht.of_eq rfl rfl rfl rfl

theorem BlockChain.knownValid_setStatusFlags {k : Hash} {f : BlockStatus}
    (h : (b.status k).KnownValid) : ((b.setStatusFlags n f).status k).KnownValid :=
  ((StatusOnly.setStatusFlags b n f).le k).knownValid h

theorem BlockChain.knownInvalid_setStatusFlags {k : Hash} {f : BlockStatus}
    (h : (b.status k).KnownInvalid) : ((b.setStatusFlags n f).status k).KnownInvalid :=
  ((StatusOnly.setStatusFlags b n f).le k).knownInvalid h

theorem BlockChain.not_knownInvalid_setStatusFlags_valid {k : Hash}
    (h : ¬ (b.status k).KnownInvalid) :
    ¬ ((b.setStatusFlags n statusValid).status k).KnownInvalid := by
  rw [BlockChain.status_setStatusFlags]
  split <;> simp [h]

theorem Spec.validate (hP : ∀ b, P b -> P (b.setStatusFlags n statusValid))
    (h : ∀ b, P b -> b.index n.hash = some n ∧ ¬ (b.status n.hash).KnownInvalid ∧
      ∀ p, n.parent = some p -> (b.status p.hash).KnownValid ∨ p ∈ b.bestChain.tip.ancestors) :
    Spec (MarkMoves env s) P (setStatusFlags n statusValid)
      (fun _ b => P b ∧ (b.status n.hash).KnownValid) E :=
  Spec.modifyChain fun b hb => by
    obtain ⟨hn, hi, hp⟩ := h b hb
    exact ⟨⟨.single (.validate hn hi hp), StatusOnly.setStatusFlags b n _⟩, hP _ hb,
      (setFlags_le_status b n _).knownValid rfl⟩

theorem Spec.invalidate {f : BlockStatus} (hf : ¬ f.KnownValid)
    (hP : ∀ b, P b -> P (b.setStatusFlags n f))
    (h : ∀ b, P b -> b.index n.hash = some n ∧
      ∃ a ∈ n.ancestors, ¬ (b.status a.hash).KnownValid ∨ (b.status a.hash).KnownInvalid) :
    Spec (MarkMoves env s) P (setStatusFlags n f) (fun _ b => P b ∧ f.Le (b.status n.hash)) E :=
  Spec.modifyChain fun b hb => by
    obtain ⟨hn, ha⟩ := h b hb
    exact ⟨⟨.single (.invalidate hn hf ha), StatusOnly.setStatusFlags b n _⟩, hP _ hb,
      setFlags_le_status b n _⟩

theorem MarkMoves.tree (h : MarkMoves env s b b') (ht : Tree b) : Tree b' :=
  ht.moves h.1

theorem MarkMoves.indexed {k : Hash} (h : MarkMoves env s b b') (hn : b.index k = some n) :
    b'.index k = some n :=
  h.1.indexed hn

theorem MarkMoves.knownValid {k : Hash} (h : MarkMoves env s b b')
    (hk : (b.status k).KnownValid) : (b'.status k).KnownValid :=
  h.1.knownValid hk

theorem MarkMoves.knownInvalid {k : Hash} (h : MarkMoves env s b b')
    (hk : (b.status k).KnownInvalid) : (b'.status k).KnownInvalid :=
  h.1.knownInvalid hk

theorem MarkMoves.bestChain (h : MarkMoves env s b b') : b'.bestChain = b.bestChain :=
  h.2.bestChain

theorem Spec.of_forall {R : BlockChain -> BlockChain -> Prop} {α : Type} {x : ChainM α}
    {Q : α -> BlockChain -> Prop} (h : ∀ b0, P b0 -> Spec R (fun b => b = b0) x Q E) :
    Spec R P x Q E :=
  fun w hP => h w.chain hP w rfl

end Marks

/-!
## Paths up
-/

section Paths

variable {n : BlockNode} {rest : List BlockNode}

theorem BlockNode.height_of_parent {m p : BlockNode} (h : m.parent = some p) :
    m.height = p.height + 1 := by
  cases m with
  | genesis _ => cases h
  | child _ q => cases h; rfl

theorem BlockNode.ancestors_of_parent {m p : BlockNode} (h : m.parent = some p) :
    m.ancestors = m :: p.ancestors := by
  cases m with
  | genesis _ => cases h
  | child _ q => cases h; rfl

theorem UpPath.mem_ancestors (h : UpPath (n :: rest)) : ∀ a ∈ rest, n ∈ a.ancestors := by
  induction rest generalizing n with
  | nil => intro a ha; cases ha
  | cons m r ih =>
      obtain ⟨hm, hr⟩ := List.chain'_cons.mp h
      intro a ha
      rcases List.mem_cons.mp ha with rfl | ha
      · exact BlockNode.parent_mem_ancestors hm
      · exact BlockNode.ancestors_trans (BlockNode.parent_mem_ancestors hm) (ih hr a ha)

theorem UpPath.height_lt (h : UpPath (n :: rest)) : ∀ a ∈ rest, n.height < a.height := by
  induction rest generalizing n with
  | nil => intro a ha; cases ha
  | cons m r ih =>
      obtain ⟨hm, hr⟩ := List.chain'_cons.mp h
      intro a ha
      rcases List.mem_cons.mp ha with rfl | ha
      · rw [BlockNode.height_of_parent hm]; omega
      · have := ih hr a ha; rw [BlockNode.height_of_parent hm] at this; omega

end Paths

/-!
## getReorganizeNodes
-/

section GetReorganizeNodes

variable {st : Hash -> BlockStatus} {f : Option BlockNode}

theorem attachWalk_ok_not_invalid {m : BlockNode} {acc res : List BlockNode}
    (h : attachWalk f st m acc = .ok res) : ∀ c ∈ res, c ∈ acc ∨ ¬ (st c.hash).KnownInvalid := by
  induction m generalizing acc with
  | genesis g =>
      simp only [attachWalk] at h
      split at h
      · cases h; exact fun c hc => .inl hc
      split at h
      · cases h
      · cases h
        intro c hc
        rcases List.mem_cons.mp hc with rfl | hc
        · exact .inr ‹_›
        · exact .inl hc
  | child b p ih =>
      simp only [attachWalk] at h
      split at h
      · cases h; exact fun c hc => .inl hc
      split at h
      · cases h
      · intro c hc
        rcases ih h c hc with hc | hc
        · rcases List.mem_cons.mp hc with rfl | hc
          · exact .inr ‹_›
          · exact .inl hc
        · exact .inr hc

theorem attachWalk_error {m : BlockNode} {acc res : List BlockNode}
    (h : attachWalk f st m acc = .error res) :
    ∃ x ∈ m.ancestors, (st x.hash).KnownInvalid ∧
      ∀ c ∈ res, c ∈ acc ∨ (c ∈ m.ancestors ∧ x ∈ c.ancestors) := by
  induction m generalizing acc with
  | genesis g =>
      simp only [attachWalk] at h
      split at h
      · cases h
      split at h
      · cases h
        exact ⟨.genesis g, BlockNode.self_mem_ancestors _, ‹_›, fun c hc => .inl hc⟩
      · cases h
  | child b p ih =>
      simp only [attachWalk] at h
      split at h
      · cases h
      split at h
      · cases h
        exact ⟨.child b p, BlockNode.self_mem_ancestors _, ‹_›, fun c hc => .inl hc⟩
      · obtain ⟨x, hx, hi, hres⟩ := ih h
        refine ⟨x, by simp [hx], hi, fun c hc => ?_⟩
        rcases hres c hc with hc | ⟨hc, hxc⟩
        · rcases List.mem_cons.mp hc with rfl | hc
          · exact .inr ⟨BlockNode.self_mem_ancestors _, by simp [hx]⟩
          · exact .inl hc
        · exact .inr ⟨by simp [hc], hxc⟩

variable {env : Env} {s : Bool}

/-- What `getReorganizeNodes` returns in a tree: nothing, or the paths through the fork. -/
def ReorganizeNodes (node : BlockNode) (r : List BlockNode × List BlockNode) (b : BlockChain) :
    Prop :=
  (r.1.isEmpty && r.2.isEmpty) = true ∨
    exists fork : BlockNode, b.bestChain.tip.ancestors = r.1 ++ fork.ancestors ∧
      node.ancestors = r.2.reverse ++ fork.ancestors ∧ ∀ a ∈ r.2, ¬ (b.status a.hash).KnownInvalid

theorem Spec.getReorganizeNodes (node : BlockNode) :
    Spec (MarkMoves env s) (fun b => Tree b ∧ b.index node.hash = some node)
      (getReorganizeNodes node) (ReorganizeNodes node) (fun _ _ => True) := by
  unfold DcrdChain.getReorganizeNodes
  refine Spec.getChain_bind fun b0 ⟨ht, hn⟩ => ?_
  split
  · exact Spec.panicf fun _ _ => trivial
  rename_i parent hp
  split
  · refine Spec.mono (P := fun b => Tree b ∧ b.index node.hash = some node ∧
      (b.status parent.hash).KnownInvalid) ?_ (fun b hb => hb ▸ ⟨ht, hn, ‹_›⟩) (fun _ _ h => h)
      fun _ _ h => h
    exact Spec.bind (Spec.invalidate (by simp)
      (fun _ h => ⟨h.1.setStatusFlags _ _, h.2.1, BlockChain.knownInvalid_setStatusFlags h.2.2⟩)
      fun b hb => ⟨hb.2.1, parent, BlockNode.parent_mem_ancestors hp, .inr hb.2.2⟩) fun _ =>
      Spec.pure fun _ _ => .inl rfl
  refine Spec.bind (Spec.pure (Q := fun _ b => b = b0) fun _ h => h) fun _ => ?_
  dsimp only
  split
  · rename_i acc hw
    obtain ⟨x, -, hxi, hres⟩ := attachWalk_error hw
    refine Spec.mono (P := fun b => Tree b ∧ b.index node.hash = some node ∧
      (b.status x.hash).KnownInvalid) ?_ (fun b hb => hb ▸ ⟨ht, hn, hxi⟩) (fun _ _ h => h)
      fun _ _ h => h
    refine Spec.bind (Spec.forM fun dn hdn => Spec.mono (Spec.invalidate (by simp)
      (fun _ h => ⟨h.1.setStatusFlags _ _, h.2.1, BlockChain.knownInvalid_setStatusFlags h.2.2⟩)
      fun b hb => ?_)
      (fun _ h => h) (fun _ _ h => h.1) fun _ _ h => h) fun _ => Spec.pure fun _ _ => .inl rfl
    obtain ⟨hdn, hxdn⟩ := (hres dn hdn).resolve_left (List.not_mem_nil _)
    exact ⟨hb.1.consistent.closed _ _ hb.2.1 dn hdn, x, hxdn, .inr hb.2.2⟩
  · rename_i attachNodes hw
    refine Spec.pure fun b hb => ?_
    subst hb
    obtain ⟨fork, hfork⟩ := ChainView.findFork_isSome (ht.consistent.root _ _ hn)
    obtain ⟨hfn, hft⟩ := ChainView.findFork_spec hfork
    rw [hfork] at hw
    rw [hfork]
    refine .inr ⟨fork, detachWalk_append hft, ?_, fun a ha => ?_⟩
    · rw [attachWalk_ok hfn hw, List.append_nil, List.reverse_reverse]
      exact detachWalk_append hfn
    · exact (attachWalk_ok_not_invalid hw a ha).resolve_left (List.not_mem_nil _)

end GetReorganizeNodes

/-!
## The dry run
-/

section DryRun

variable {env : Env} {s : Bool} (o : Oracle)

/-- Before the attach loop reaches `nodes`: `prev` valid or on the best chain, `nodes` fit. -/
def AttachReady (prev : BlockNode) (nodes : List BlockNode) (b : BlockChain) : Prop :=
  Tree b ∧ ((b.status prev.hash).KnownValid ∨ prev ∈ b.bestChain.tip.ancestors) ∧
    ∀ a ∈ nodes, b.index a.hash = some a ∧ ¬ (b.status a.hash).KnownInvalid

theorem Spec.attachDryRun {fb : Option Block} {i : Nat} {prev : BlockNode}
    {nodes : List BlockNode} {st : AttachState} (hpath : UpPath (prev :: nodes)) :
    Spec (MarkMoves env s) (AttachReady prev nodes) (attachDryRun o fb i nodes st)
      (fun _ b => ∀ a ∈ nodes, (b.status a.hash).KnownValid) (fun _ _ => True) := by
  induction nodes generalizing i prev st with
  | nil => exact Spec.pure fun _ _ a ha => nomatch ha
  | cons n rest ih =>
      obtain ⟨hn, hrest⟩ := List.chain'_cons.mp hpath
      rw [DcrdChain.attachDryRun]
      refine Spec.bind (Spec.of_reads (Reads.fetchBlockByNode o n)) fun block =>
        Spec.bind (Spec.of_reads (Reads.ite (Reads.sliceIndex _ _) (Reads.deref _))) fun _ =>
        Spec.bind (Spec.of_reads (Reads.deref _)) fun _ => Spec.guard (fun _ _ => trivial) fun _ =>
        Spec.getChain_bind fun b0 ⟨ht, hprev, hnodes⟩ => ?_
      /- Once `n` is valid, the loop goes on over the rest with `n` below it. -/
      have hgo : ∀ {st' : AttachState}, Spec (MarkMoves env s)
          (fun b => AttachReady n rest b ∧ (b.status n.hash).KnownValid)
          (DcrdChain.attachDryRun o fb (i + 1) rest st')
          (fun _ b => ∀ a ∈ n :: rest, (b.status a.hash).KnownValid) (fun _ _ => True) :=
        Spec.mono (Spec.frame (ih hrest) fun _ _ hm h => hm.knownValid h) (fun _ h => h)
          (fun _ _ h a ha => (List.mem_cons.mp ha).elim (· ▸ h.2) (h.1 a)) fun _ _ _ => trivial
      have hready : ∀ b, Tree b -> (b.status n.hash).KnownValid ->
          (∀ a ∈ rest, b.index a.hash = some a ∧ ¬ (b.status a.hash).KnownInvalid) ->
          AttachReady n rest b ∧ (b.status n.hash).KnownValid :=
        fun _ ht hv hr => ⟨⟨ht, .inl hv, hr⟩, hv⟩
      split
      · rename_i hv
        exact Spec.bind (Spec.of_reads (Reads.connectTransactions o _ _)) fun _ =>
          Spec.mono hgo (fun b hb => hb ▸ hready _ ht hv fun a ha => hnodes a
            (List.mem_cons_of_mem _ ha)) (fun _ _ h => h) fun _ _ h => h
      rename_i hv
      refine Spec.bind (Spec.of_reads (Reads.checkConnectBlock o _ _)) fun r => ?_
      rcases r with err | ⟨view, _⟩ <;> dsimp only
      · /- A rule violation marks `n` failed and the rest below it invalid. -/
        split
        · refine Spec.mono (P := fun b => (∀ a ∈ n :: rest, b.index a.hash = some a) ∧
            ¬ (b.status n.hash).KnownValid) ?_ (fun b hb => hb ▸ ⟨fun a ha => (hnodes a ha).1, hv⟩)
            (fun _ _ h => h) fun _ _ h => h
          refine Spec.bind (Spec.invalidate (by simp) (fun b h => ⟨h.1, by
            rw [BlockChain.status_setStatusFlags, if_pos rfl]; simpa using h.2⟩) fun b hb =>
            ⟨hb.1 n (List.mem_cons_self _ _), n, BlockNode.self_mem_ancestors _, .inl hb.2⟩)
            fun _ => ?_
          refine Spec.bind (Spec.mono (P := fun b => (b.status n.hash).KnownInvalid ∧
            ∀ a ∈ rest, b.index a.hash = some a) (Spec.forM fun dn hdn => Spec.mono
              (Spec.invalidate (by simp) (fun _ h => ⟨BlockChain.knownInvalid_setStatusFlags h.1,
                h.2⟩) fun b hb => ⟨hb.2 dn hdn, n, UpPath.mem_ancestors hrest dn hdn, .inr hb.1⟩)
              (fun _ h => h) (fun _ _ h => h.1) fun _ _ h => h)
            (fun b hb => ⟨(hb.2).knownInvalid (by simp), fun a ha => hb.1.1 a
              (List.mem_cons_of_mem _ ha)⟩) (fun _ _ h => h) fun _ _ h => h) fun _ => ?_
          exact Spec.throw fun _ _ => trivial
        · exact Spec.bind (Spec.pure (Q := fun _ _ => True) fun _ _ => trivial) fun _ =>
            Spec.throw fun _ _ => trivial
      · /- A validated block is marked valid on top of `prev`. -/
        refine Spec.mono (P := fun b => Tree b ∧
            ((b.status prev.hash).KnownValid ∨ prev ∈ b.bestChain.tip.ancestors) ∧
            ∀ a ∈ n :: rest, b.index a.hash = some a ∧ ¬ (b.status a.hash).KnownInvalid) ?_
          (fun b hb => hb ▸ ⟨ht, hprev, hnodes⟩) (fun _ _ h => h) fun _ _ h => h
        refine Spec.bind (Spec.validate (fun b h => ⟨h.1.setStatusFlags _ _,
          h.2.1.imp BlockChain.knownValid_setStatusFlags id, fun a ha =>
          ⟨(h.2.2 a ha).1, BlockChain.not_knownInvalid_setStatusFlags_valid (h.2.2 a ha).2⟩⟩)
          fun b hb => ⟨(hb.2.2 n (List.mem_cons_self _ _)).1, (hb.2.2 n (List.mem_cons_self _ _)).2,
            fun p hp => by rw [hn] at hp; cases hp; exact hb.2.1⟩) fun _ => ?_
        exact Spec.mono hgo (fun b hb => hready _ hb.1.1 hb.2 fun a ha => hb.1.2.2 a
          (List.mem_cons_of_mem _ ha)) (fun _ _ h => h) fun _ _ h => h

theorem Spec.reorganizeDryRun {b0 : BlockChain} {detach attach : List BlockNode}
    {fork node : BlockNode} (ht : Tree b0) (hn : b0.index node.hash = some node)
    (hdown : b0.bestChain.tip.ancestors = detach ++ fork.ancestors)
    (hup : node.ancestors = attach.reverse ++ fork.ancestors)
    (hinv : ∀ a ∈ attach, ¬ (b0.status a.hash).KnownInvalid) :
    Spec (MarkMoves env s) (fun b => b = b0) (reorganizeDryRun env o detach attach)
      (fun plan b => (∀ a ∈ attach, (b.status a.hash).KnownValid) ∧
        Plans plan b0.bestChain.tip fork node detach attach) (fun _ _ => True) := by
  refine Spec.and_ok ?_ fun w plan w' hw h => by
    subst hw
    exact (reorganizeDryRun_plans env o ht.consistent hn hdown hup h).1
  unfold DcrdChain.reorganizeDryRun
  refine Spec.getChain_bind fun b hb => ?_
  subst hb
  exact Spec.bind (Spec.of_reads (Reads.checkReorganizeNodes _ _ _)) fun _ =>
    Spec.bind (Spec.of_reads (Reads.detachDryRun env o _ _)) fun _ =>
    Spec.bind (Spec.of_reads (Reads.ite ((Reads.fetchMainChainBlockByNode o _).bind fun _ =>
      Reads.pure _) (Reads.pure _))) fun _ =>
    Spec.bind (Spec.mono (Spec.attachDryRun o (upPath_of_ancestors hup))
      (fun b hb => hb ▸ ⟨ht, .inr (hdown ▸ List.mem_append_right _ fork.self_mem_ancestors),
        fun a ha => ⟨ht.consistent.closed _ _ hn a (hup ▸ List.mem_append_left _
          (List.mem_reverse.mpr ha)), hinv a ha⟩⟩) (fun _ _ h => h) fun _ _ h => h) fun _ =>
    Spec.pure fun _ h => h

end DryRun

/-!
## The commit phase
-/

section Commit

variable (env : Env) (o : Oracle) {s : Bool} {w : World}

theorem ReorgPlan.attachParentAt_apply {plan : ReorgPlan} {i : Nat} {par : Block}
    (h : plan.attachParentAt i = some par) :
    (if i > 0 then sliceIndex plan.attached.attachBlocks (i - 1) else deref plan.forkBlock) w =
      .ok par w := by
  unfold ReorgPlan.attachParentAt at h
  split
  · rw [if_pos ‹_›] at h
    exact sliceIndex_apply h
  · rw [if_neg ‹_›] at h
    rw [h]
    rfl

theorem Spec.detachCommit {st : DetachState} {i : Nat} {nodes : List BlockNode} {f : BlockNode}
    {view : UtxoViewpoint} (hpath : DownPath (nodes ++ [f]))
    (hblocks : st.detachBlocks.drop i = nodes.map BlockNode.block)
    (hnext : nodes ≠ [] -> st.nextBlockToDetach = some f.block) :
    Spec (Moves env s) (fun b => ∀ a ∈ nodes, b.index a.hash = some a)
      (detachCommit env o st.detachBlocks st.detachSpentTxOuts st.nextBlockToDetach i nodes view)
      (fun _ _ => True) (fun _ _ => True) := by
  induction nodes generalizing i view with
  | nil => exact Spec.pure fun _ _ => trivial
  | cons n rest ih =>
      have hnext' := hnext (List.cons_ne_nil _ _)
      rw [DcrdChain.detachCommit]
      refine Spec.bind_of_eq (fun _ => sliceIndex_apply (getElem?_of_drop hblocks)) ?_
      refine Spec.bind_of_eq (fun _ => parentAt_apply (DetachState.parentAt_of_drop hblocks hnext'))
        ?_
      refine Spec.bind_of_eq (a := rest.headD f) (fun _ => by rw [DownPath.parent_eq hpath]; rfl) ?_
      refine Spec.guard (fun _ _ => trivial) fun _ => ?_
      refine Spec.bind (Spec.of_reads (Reads.fetchInputUtxos o _)) fun _ =>
        Spec.bind (Spec.of_reads (Reads.sliceIndex _ _)) fun _ =>
        Spec.bind (Spec.of_reads (Reads.disconnectTransactions o _ _)) fun _ =>
        Spec.bind (Spec.mono (Spec.frame (Spec.disconnectBlock env o (DownPath.parent_eq hpath) rfl
          rfl) (F := fun b => ∀ a ∈ rest, b.index a.hash = some a)
          fun _ _ h hr a ha => h.indexed (hr a ha))
          (fun b hb => ⟨hb n (List.mem_cons_self _ _), fun a ha => hb a (List.mem_cons_of_mem _ ha)⟩)
          (fun _ _ h => h.2) fun _ _ _ => trivial) fun _ => ?_
      exact Spec.mono (ih hpath.tail (by rw [← List.tail_drop, hblocks]; rfl) fun _ => hnext')
        (fun _ h => h) (fun _ _ h => h) fun _ _ h => h

theorem Spec.attachCommit {plan : ReorgPlan} {i : Nat} {prev : BlockNode} {nodes : List BlockNode}
    {view : UtxoViewpoint} (hpath : UpPath (prev :: nodes))
    (hblocks : plan.attached.attachBlocks.drop i = nodes.map BlockNode.block)
    (hprev : nodes ≠ [] -> plan.attachParentAt i = some prev.block) :
    Spec (Moves env s)
      (fun b => ∀ a ∈ nodes, b.index a.hash = some a ∧ (s = true -> (b.status a.hash).KnownValid))
      (attachCommit env o plan.attached.attachBlocks plan.forkBlock i nodes view)
      (fun _ _ => True) (fun _ _ => True) := by
  induction nodes generalizing i prev view with
  | nil => exact Spec.pure fun _ _ => trivial
  | cons n rest ih =>
      obtain ⟨hn, hrest⟩ := List.chain'_cons.mp hpath
      rw [DcrdChain.attachCommit]
      refine Spec.bind_of_eq (fun _ => sliceIndex_apply (getElem?_of_drop hblocks)) ?_
      refine Spec.bind_of_eq (fun _ => ReorgPlan.attachParentAt_apply
        (hprev (List.cons_ne_nil _ _))) ?_
      refine Spec.bind_of_eq (a := prev) (fun _ => by rw [hn]; rfl) ?_
      refine Spec.guard (fun _ _ => trivial) fun _ => ?_
      refine Spec.bind (Spec.of_reads (Reads.countSpentOutputs env _ _)) fun _ =>
        Spec.bind (Spec.of_reads (Reads.connectTransactions o _ _)) fun r => ?_
      obtain ⟨view, stxos⟩ := r
      refine Spec.bind (Spec.mono (Spec.frame (Spec.connectBlock env o hn rfl rfl)
          (F := fun b => ∀ a ∈ rest, b.index a.hash = some a ∧
            (s = true -> (b.status a.hash).KnownValid))
          fun _ _ h hr a ha => ⟨h.indexed (hr a ha).1, fun hs => h.knownValid ((hr a ha).2 hs)⟩)
          (fun b hb => ⟨hb n (List.mem_cons_self _ _), fun a ha => hb a (List.mem_cons_of_mem _ ha)⟩)
          (fun _ _ h => h.2) fun _ _ _ => trivial) fun _ => ?_
      exact Spec.mono (ih hrest (by rw [← List.tail_drop, hblocks]; rfl)
        fun _ => by simp [ReorgPlan.attachParentAt, getElem?_of_drop hblocks])
        (fun _ h => h) (fun _ _ h => h) fun _ _ h => h

theorem Spec.deferring {R : BlockChain -> BlockChain -> Prop} [IsTrans BlockChain R]
    {P : BlockChain -> Prop} {α : Type} {x : ChainM α} {d : ChainM Unit}
    (hx : Spec R P x (fun _ _ => True) (fun _ _ => True))
    (hd : Spec R (fun _ => True) d (fun _ _ => True) (fun _ _ => True)) :
    Spec R P (deferring x d) (fun _ _ => True) (fun _ _ => True) := fun w hP => by
  unfold DcrdChain.deferring
  cases h : x w with
  | ok a w₁ =>
      have h1 := (hx.ok hP h).1
      have h3 := hd w₁ trivial
      dsimp only
      cases h2 : d w₁ <;> rw [h2] at h3 <;> exact ⟨trans_of R h1 h3.1, trivial⟩
  | error e w₁ =>
      have h1 := (hx.error hP h).1
      have h3 := hd w₁ trivial
      dsimp only
      cases h2 : d w₁ <;> rw [h2] at h3 <;> exact ⟨trans_of R h1 h3.1, trivial⟩

theorem Spec.reorganizeCommit {plan : ReorgPlan} {tip fork node : BlockNode}
    {detach attach : List BlockNode} (hplan : Plans plan tip fork node detach attach)
    (hdown : DownPath (detach ++ [fork])) (hup : UpPath (fork :: attach)) :
    Spec (Moves env s) (fun b => (∀ a ∈ detach, b.index a.hash = some a) ∧
        ∀ a ∈ attach, b.index a.hash = some a ∧ (s = true -> (b.status a.hash).KnownValid))
      (reorganizeCommit env o detach attach plan) (fun _ _ => True) (fun _ _ => True) := by
  refine Spec.deferring ?_ (Spec.sendNotification fun _ _ => trivial)
  refine Spec.bind (Spec.mono (Spec.frame (Spec.detachCommit env o (i := 0) hdown
      (by rw [hplan.detachBlocks]; rfl) hplan.nextBlockToDetach)
      (F := fun b => ∀ a ∈ attach, b.index a.hash = some a ∧
        (s = true -> (b.status a.hash).KnownValid))
      fun _ _ h hr a ha => ⟨h.indexed (hr a ha).1, fun hs => h.knownValid ((hr a ha).2 hs)⟩)
    (fun _ h => h) (fun _ _ h => h.2) fun _ _ _ => trivial) fun _ => ?_
  exact Spec.bind (Spec.attachCommit env o (i := 0) hup (by rw [hplan.attachBlocks]; rfl)
    fun ha => by simp [ReorgPlan.attachParentAt, hplan.forkBlock ha]) fun _ =>
    Spec.pure fun _ _ => trivial

theorem Spec.reorganizeChain {b0 : BlockChain} {node : BlockNode} {detach attach : List BlockNode}
    (ht : Tree b0) (hn : b0.index node.hash = some node)
    (hnodes : ReorganizeNodes node (detach, attach) b0) :
    Spec (Moves env s) (fun b => b = b0) (reorganizeChain env o detach attach)
      (fun _ _ => True) (fun _ _ => True) := by
  unfold DcrdChain.reorganizeChain
  refine Spec.ite (fun _ => Spec.pure fun _ _ => trivial) fun hne => ?_
  obtain ⟨fork, hdown, hup, hinv⟩ := hnodes.resolve_left hne
  have hidx : ∀ a ∈ detach ++ attach, b0.index a.hash = some a := fun a ha =>
    (List.mem_append.mp ha).elim
      (fun ha => ht.consistent.index_of_mem_tip (hdown ▸ List.mem_append_left _ ha))
      fun ha => ht.consistent.closed _ _ hn a (hup ▸ List.mem_append_left _ (List.mem_reverse.mpr ha))
  have hI : ∀ b b', Moves env s b b' -> (∀ a ∈ detach ++ attach, b.index a.hash = some a) ->
      ∀ a ∈ detach ++ attach, b'.index a.hash = some a := fun _ _ h hb a ha => h.indexed (hb a ha)
  refine Spec.bind_of_eq (fun _ => rfl) ?_
  refine Spec.bind (Spec.mono (Spec.frame (Spec.weaken (fun _ _ (h : MarkMoves env s _ _) => h.1)
    (Spec.reorganizeDryRun o ht hn hdown hup hinv)) hI) (fun b hb => ⟨hb, hb ▸ hidx⟩)
    (fun _ _ h => h) fun _ _ _ => trivial) fun plan => ?_
  refine Spec.mono (P := fun b => ((∀ a ∈ attach, (b.status a.hash).KnownValid) ∧
      ∀ a ∈ detach ++ attach, b.index a.hash = some a) ∧
      Plans plan b0.bestChain.tip fork node detach attach) ?_
    (fun _ h => ⟨⟨h.1.1, h.2⟩, h.1.2⟩) (fun _ _ h => h) fun _ _ h => h
  refine Spec.pure_pre fun hplan => ?_
  have hK : ∀ b b', Moves env s b b' -> ((∀ a ∈ attach, (b.status a.hash).KnownValid) ∧
      ∀ a ∈ detach ++ attach, b.index a.hash = some a) ->
      (∀ a ∈ attach, (b'.status a.hash).KnownValid) ∧ ∀ a ∈ detach ++ attach,
        b'.index a.hash = some a :=
    fun _ _ h hb => ⟨fun a ha => h.knownValid (hb.1 a ha), hI _ _ h hb.2⟩
  exact Spec.bind (Spec.keep (Spec.sendNotification fun _ _ => trivial) hK) fun _ =>
    Spec.bind (Spec.keep (Spec.sendNotification fun _ _ => trivial) hK) fun _ =>
    Spec.mono (Spec.reorganizeCommit env o hplan (downPath_of_ancestors hdown)
      (upPath_of_ancestors hup)) (fun _ hb => ⟨fun a ha => hb.2 a (List.mem_append_left _ ha),
        fun a ha => ⟨hb.2 a (List.mem_append_right _ ha), fun _ => hb.1 a ha⟩⟩)
      (fun _ _ h => h) fun _ _ h => h

end Commit

end DcrdChain
