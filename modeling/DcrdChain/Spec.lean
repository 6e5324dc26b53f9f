import DcrdChain.Frame

/-!
# Specifications of chain operations

`Spec R P x Q E` is a Hoare triple over the chain: from a chain satisfying `P`, the
operation `x` ends in a chain related to the one it started from by `R`, which satisfies
`Q` with the result, or `E` with the error.  For a reflexive and transitive `R` such
triples compose along `>>=` as frames do; unlike a frame, a triple can use what the code
has checked so far (a guard before a `panicf`, a status read from the chain) to say what
the steps after the check do.
-/

namespace DcrdChain

/-- What an operation that started from `b0` guarantees of its outcome. -/
def Spec.Post (R : BlockChain -> BlockChain -> Prop) (b0 : BlockChain) {α : Type}
    (Q : α -> BlockChain -> Prop) (E : ChainError -> BlockChain -> Prop) :
    EStateM.Result ChainError World α -> Prop
  | .ok a w => R b0 w.chain ∧ Q a w.chain
  | .error e w => R b0 w.chain ∧ E e w.chain

/-- From `P`, `x` ends `R`-related to its start, in `Q` of its result or `E` of its error. -/
def Spec (R : BlockChain -> BlockChain -> Prop) (P : BlockChain -> Prop) {α : Type}
    (x : ChainM α) (Q : α -> BlockChain -> Prop) (E : ChainError -> BlockChain -> Prop) : Prop :=
  ∀ w, P w.chain -> Spec.Post R w.chain Q E (x w)

section Rules

variable {R : BlockChain -> BlockChain -> Prop} {α β γ : Type} {P : BlockChain -> Prop}
  {Q : α -> BlockChain -> Prop} {E : ChainError -> BlockChain -> Prop} {w w' : World}

theorem Spec.ok {x : ChainM α} {a : α} (hx : Spec R P x Q E) (hP : P w.chain)
    (h : x w = .ok a w') : R w.chain w'.chain ∧ Q a w'.chain := by
  have h0 := hx w hP
  rwa [h] at h0

theorem Spec.error {x : ChainM α} {e : ChainError} (hx : Spec R P x Q E) (hP : P w.chain)
    (h : x w = .error e w') : R w.chain w'.chain ∧ E e w'.chain := by
  have h0 := hx w hP
  rwa [h] at h0

theorem Spec.final {x : ChainM α} (hx : Spec R P x Q E) (hP : P w.chain) :
    R w.chain (finalWorld (x w)).chain := by
  have h0 := hx w hP
  cases h : x w <;> rw [h] at h0 <;> exact h0.1

theorem Spec.pure [IsRefl BlockChain R] {a : α} (h : ∀ b, P b -> Q a b) :
    Spec R P (Pure.pure a) Q E :=
  fun _ hP => ⟨refl_of R _, h _ hP⟩

theorem Spec.throw [IsRefl BlockChain R] {e : ChainError} (h : ∀ b, P b -> E e b) :
    Spec R P (throw e : ChainM α) Q E :=
  fun _ hP => ⟨refl_of R _, h _ hP⟩

theorem Spec.panicf [IsRefl BlockChain R] {s : PanicSite} (h : ∀ b, P b -> E (.panic s) b) :
    Spec R P (DcrdChain.panicf s : ChainM α) Q E :=
  Spec.throw h

theorem Spec.modifyChain {g : BlockChain -> BlockChain} {Q : Unit -> BlockChain -> Prop}
    (h : ∀ b, P b -> R b (g b) ∧ Q () (g b)) : Spec R P (DcrdChain.modifyChain g) Q E :=
  fun _ hP => h _ hP

theorem Spec.bind [IsTrans BlockChain R] {x : ChainM α} {f : α -> ChainM β}
    {Q' : α -> BlockChain -> Prop} {Q : β -> BlockChain -> Prop} (hx : Spec R P x Q' E) (hf : ∀ a, Spec R (Q' a) (f a) Q E) :
    Spec R P (x >>= f) Q E := fun w hP => by
  cases h : x w with
  | ok a w₁ =>
      obtain ⟨hR, hQ⟩ := hx.ok hP h
      rw [bind_ok h]
      have h1 := hf a w₁ hQ
      cases h2 : f a w₁ <;> rw [h2] at h1 <;> exact ⟨trans_of R hR h1.1, h1.2⟩
  | error e w₁ =>
      rw [bind_error h]
      exact hx.error hP h

theorem Spec.bind_with [IsTrans BlockChain R] {x : ChainM α} {f : α -> ChainM β}
    (M : α -> BlockChain -> Prop) {Q : β -> BlockChain -> Prop} (hx : Spec R P x M E)
    (hf : ∀ a, Spec R (M a) (f a) Q E) : Spec R P (x >>= f) Q E :=
  Spec.bind hx hf

theorem Spec.getChain_bind {f : BlockChain -> ChainM α}
    (h : ∀ b, P b -> Spec R (fun c => c = b) (f b) Q E) : Spec R P (getChain >>= f) Q E :=
  fun w hP => h w.chain hP w rfl

theorem Spec.recordTipCall [IsRefl BlockChain R] {c : TipCall} {Q : Unit -> BlockChain -> Prop}
    (h : ∀ b, P b -> Q () b) : Spec R P (DcrdChain.recordTipCall c) Q E :=
  fun _ hP => ⟨refl_of R _, h _ hP⟩

theorem Spec.ite {c : Prop} [Decidable c] {x y : ChainM α} (hx : c -> Spec R P x Q E)
    (hy : ¬ c -> Spec R P y Q E) : Spec R P (if c then x else y) Q E := by
  split
  · exact hx ‹_›
  · exact hy ‹_›

theorem Spec.guard [IsRefl BlockChain R] [IsTrans BlockChain R] {c : Prop} [Decidable c]
    {s : PanicSite} {k : PUnit -> ChainM α}
    (hs : ∀ b, P b -> E (.panic s) b) (hk : ¬ c -> Spec R P (k PUnit.unit) Q E) :
    Spec R P (if c then DcrdChain.panicf s >>= k else Pure.pure PUnit.unit >>= k) Q E :=
  Spec.ite (fun _ => Spec.bind (Spec.panicf (Q := fun _ _ => False) hs) fun _ _ hw => hw.elim) hk

theorem Spec.guard_throw [IsRefl BlockChain R] [IsTrans BlockChain R] {c : Prop} [Decidable c]
    {e : ChainError} {k : PUnit -> ChainM α}
    (he : ∀ b, P b -> E e b) (hk : ¬ c -> Spec R P (k PUnit.unit) Q E) :
    Spec R P (if c then MonadExcept.throw e >>= k else Pure.pure PUnit.unit >>= k) Q E :=
  Spec.ite (fun _ => Spec.bind (Spec.throw (Q := fun _ _ => False) he) fun _ _ hw => hw.elim) hk

theorem Spec.mono {P' : BlockChain -> Prop} {Q' : α -> BlockChain -> Prop}
    {E' : ChainError -> BlockChain -> Prop} {x : ChainM α} (hx : Spec R P x Q E)
    (hP : ∀ b, P' b -> P b) (hQ : ∀ a b, Q a b -> Q' a b) (hE : ∀ e b, E e b -> E' e b) :
    Spec R P' x Q' E' := fun w hP' => by
  have h0 := hx w (hP _ hP')
  cases h : x w with
  | ok a w' => rw [h] at h0; exact ⟨h0.1, hQ _ _ h0.2⟩
  | error e w' => rw [h] at h0; exact ⟨h0.1, hE _ _ h0.2⟩

theorem Spec.frame {F : BlockChain -> Prop} {x : ChainM α} (hx : Spec R P x Q E)
    (hF : ∀ b b', R b b' -> F b -> F b') :
    Spec R (fun b => P b ∧ F b) x (fun a b => Q a b ∧ F b) (fun e b => E e b ∧ F b) :=
  fun w hP => by
    have h0 := hx w hP.1
    cases h : x w <;> rw [h] at h0
    · exact ⟨h0.1, h0.2, hF _ _ h0.1 hP.2⟩
    · exact ⟨h0.1, h0.2, hF _ _ h0.1 hP.2⟩

theorem Spec.keep {F : BlockChain -> Prop} {x : ChainM α}
    (hx : Spec R (fun _ => True) x (fun _ _ => True) (fun _ _ => True))
    (hF : ∀ b b', R b b' -> F b -> F b') : Spec R F x (fun _ => F) (fun _ _ => True) :=
  fun w hP => by
    have h0 := hx w trivial
    cases h : x w with
    | ok a w' => rw [h] at h0; exact ⟨h0.1, hF _ _ h0.1 hP⟩
    | error e w' => rw [h] at h0; exact ⟨h0.1, trivial⟩

theorem Spec.of_frame {R' : BlockChain -> BlockChain -> Prop} {S : BlockChain -> Prop}
    {x : ChainM α} (hx : Frame R' x) (hR : ∀ b b', R' b b' -> R b b')
    (hS : ∀ b b', P b -> R' b b' -> S b') : Spec R P x (fun _ => S) (fun _ _ => True) :=
  fun w hP => by
    have h0 := hx w
    cases h : x w with
    | ok a w' => rw [h] at h0; exact ⟨hR _ _ h0.1, hS _ _ hP h0.1⟩
    | error e w' => rw [h] at h0; exact ⟨hR _ _ h0.1, trivial⟩

theorem Spec.of_reads [IsRefl BlockChain R] {x : ChainM α} (hx : Reads x) :
    Spec R P x (fun _ => P) (fun _ _ => True) :=
  Spec.of_frame hx (fun b _ h => h ▸ refl_of R b) fun _ _ hP h => h ▸ hP

theorem Spec.forM [IsRefl BlockChain R] [IsTrans BlockChain R] {xs : List γ}
    {f : γ -> ChainM PUnit} {I : BlockChain -> Prop}
    (h : ∀ a ∈ xs, Spec R I (f a) (fun _ => I) E) : Spec R I (xs.forM f) (fun _ => I) E := by
  induction xs with
  | nil => exact Spec.pure fun _ hI => hI
  | cons a rest ih =>
      exact Spec.bind (h a (List.mem_cons_self _ _)) fun _ =>
        ih fun a' ha' => h a' (List.mem_cons_of_mem _ ha')

theorem Spec.weaken {R' : BlockChain -> BlockChain -> Prop} {x : ChainM α}
    (hR : ∀ b b', R b b' -> R' b b') (hx : Spec R P x Q E) : Spec R' P x Q E := fun w hP => by
  have h0 := hx w hP
  cases h : x w with
  | ok a w' => rw [h] at h0; exact ⟨hR _ _ h0.1, h0.2⟩
  | error e w' => rw [h] at h0; exact ⟨hR _ _ h0.1, h0.2⟩

theorem Spec.pure_pre {G : Prop} {x : ChainM α} (hx : G -> Spec R P x Q E) :
    Spec R (fun b => P b ∧ G) x Q E := fun w hP => hx hP.2 w hP.1

theorem Spec.bind_of_eq {x : ChainM α} {f : α -> ChainM β} {Q : β -> BlockChain -> Prop} {a : α}
    (hx : ∀ w, x w = .ok a w) (hf : Spec R P (f a) Q E) : Spec R P (x >>= f) Q E := fun w hP => by
  rw [bind_ok (hx w)]
  exact hf w hP

theorem Spec.and_ok {G : α -> BlockChain -> Prop} {x : ChainM α} (hx : Spec R P x Q E)
    (hG : ∀ w a w', P w.chain -> x w = .ok a w' -> G a w'.chain) :
    Spec R P x (fun a b => Q a b ∧ G a b) E := fun w hP => by
  have h0 := hx w hP
  cases h : x w with
  | ok a w' => rw [h] at h0; exact ⟨h0.1, h0.2, hG w a w' hP h⟩
  | error e w' => rw [h] at h0; exact h0

theorem Spec.attempt {x : ChainM α} (hx : Spec R P x Q E) :
    Spec R P (DcrdChain.attempt x)
      (fun r b => match r with
        | .ok a => Q a b
        | .error e => E e b) E := fun w hP => by
  have h0 := hx w hP
  unfold DcrdChain.attempt
  split <;> rename_i h <;> rw [h] at h0 <;> exact h0

end Rules

end DcrdChain
