import DcrdChain.State

/-!
# Consensus deployments

`GetVoteInfo`, which reports the agendas of a deployment version with their threshold
states.  The deployments of the chain parameters and the threshold states of
`thresholdstate.go` are arguments: a deployment is any value with its vote id, and
`NextThresholdState` any function of the hash, the version and the vote id.

`GetVoteInfo` tests the result of its map lookup twice; the second test can never succeed
after the first failed, so the function never returns `HashError`.
-/

namespace DcrdChain

/-!
## GetVoteInfo
-/

/-- `VoteInfo`: the agendas of a deployment version and their states. -/
structure VoteInfo (D S : Type) where
  agendas : List D
  agendaStatus : List S
  deriving DecidableEq, Repr

/-- The errors of `GetVoteInfo`: `VoteVersionError`, `HashError` and the threshold errors. -/
inductive VoteInfoError
  | voteVersionError (version : Nat)
  | hashError (hash : String)
  | thresholdError (err : ChainError)
  deriving DecidableEq, Repr

section VoteInfo

variable {D S : Type}

/-- The loop of `GetVoteInfo`, stopping at the first error of `NextThresholdState`. -/
def voteInfoLoop (nextThresholdState : D -> Except ChainError S) :
    List D -> VoteInfo D S -> Except VoteInfoError (VoteInfo D S)
  | [], vi => .ok vi
  | deployment :: rest, vi =>
      let vi := { vi with agendas := vi.agendas ++ [deployment] }
      match nextThresholdState deployment with
      | .error err => .error (.thresholdError err)
      | .ok status => voteInfoLoop nextThresholdState rest
          { vi with agendaStatus := vi.agendaStatus ++ [status] }

/-- `GetVoteInfo(hash, version)` over the deployments and `NextThresholdState`. -/
def getVoteInfo (deployments : Nat -> Option (List D)) (voteId : D -> String)
    (nextThresholdState : Hash -> Nat -> String -> Except ChainError S) (hash : Hash)
    (version : Nat) : Except VoteInfoError (VoteInfo D S) :=
  let (found, ok) := match deployments version with
    | some found => (found, true)
    | none => ([], false)
  if !ok then .error (.voteVersionError version)
  else if !ok then .error (.hashError (toString hash))
  else voteInfoLoop (fun deployment => nextThresholdState hash version (voteId deployment)) found
    ⟨[], []⟩

theorem voteInfoLoop_eq (f : D -> Except ChainError S) :
    ∀ (found : List D) (vi : VoteInfo D S), voteInfoLoop f found vi =
      match found.mapM f with
      | .ok states => .ok ⟨vi.agendas ++ found, vi.agendaStatus ++ states⟩
      | .error err => .error (.thresholdError err)
  | [], vi => by simp [voteInfoLoop, List.mapM.loop, pure, Except.pure]
  | deployment :: rest, vi => by
      simp only [voteInfoLoop, List.mapM_cons, bind, Except.bind]
      cases f deployment with
      | error err => rfl
      | ok status =>
          simp only [voteInfoLoop_eq f rest]
          cases rest.mapM f <;> simp [pure, Except.pure]

theorem getVoteInfo_spec (deployments : Nat -> Option (List D)) (voteId : D -> String)
    (nextThresholdState : Hash -> Nat -> String -> Except ChainError S) (hash : Hash)
    (version : Nat) :
    (∀ s, getVoteInfo deployments voteId nextThresholdState hash version ≠ .error (.hashError s)) ∧
    (getVoteInfo deployments voteId nextThresholdState hash version =
        .error (.voteVersionError version) ↔ deployments version = none) ∧
    ∀ found, deployments version = some found ->
      getVoteInfo deployments voteId nextThresholdState hash version =
        match found.mapM (fun deployment => nextThresholdState hash version (voteId deployment)) with
        | .ok states => .ok ⟨found, states⟩
        | .error err => .error (.thresholdError err) := by
  unfold getVoteInfo
  cases hd : deployments version with
  | none => exact ⟨fun _ => by simp, by simp, fun _ h => nomatch h⟩
  | some found =>
      have hloop := voteInfoLoop_eq (fun deployment => nextThresholdState hash version
        (voteId deployment)) found ⟨[], []⟩
      simp only [Bool.not_true, Bool.false_eq_true, if_false, hloop, List.nil_append]
      refine ⟨fun s => ?_, ?_, fun _ h => by cases h; rfl⟩
      · split <;> simp
      · simp only [reduceCtorEq, iff_false]
        split <;> simp

theorem getVoteInfo_spec_version4 :
    getVoteInfo (fun version => if version = 4 then some ["maxblocksize"] else none) id
        (fun _ _ _ => (.ok "active" : Except ChainError String)) 0 4 =
      .ok ⟨["maxblocksize"], ["active"]⟩ :=
  (getVoteInfo_spec (fun version => if version = 4 then some ["maxblocksize"] else none) id
    (fun _ _ _ => (.ok "active" : Except ChainError String)) 0 4).2.2 _ rfl

end VoteInfo

end DcrdChain
