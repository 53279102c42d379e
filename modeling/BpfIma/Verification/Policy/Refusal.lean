import BpfIma.Verification.Policy.Success

/-! # Refusals of root updates

A root update with a normal snapshot passes every check of the policy manager. Where it gets
`-EINVAL` or `-EOPNOTSUPP` all the same, these are answers of the crypto code, of the TPM or
of an earlier failure. -/

namespace BpfIma

open CString Errno

/-- The codes by which `normalize_snapshot` and `bpfima_policy_apply` refuse a request. -/
def Refusal (ret : Ret) : Prop := ret = -einval ∨ ret = -eopnotsupp

/-- Where else an update can get a code from. -/
inductive ApplyEnv.Reports (env : ApplyEnv) (s : CommitState) (ret : Ret) : Prop where
  | latched (h : s.commitError = ret)
  | snapshotHash (h : env.publish.snapshotHashRet = ret)
  | eventHash (h : env.publish.eventHashRet = ret)
  | rootHash (h : freeHistoryRet env.publish.commit.rootHashRet = ret)
  | tpm (root : Digest)
      (h : (extendTpmPcr env.publish.commit.tpm s.tpmPcrIndex s.tpm root
        (commitHardwareAllowedLocked s)).1 = ret)

theorem Refusal.ne {ret : Ret} (h : Refusal ret) (other : Ret)
    (hother : other ≠ -einval ∧ other ≠ -eopnotsupp) : other ≠ ret := by
  rcases h with rfl | rfl
  · exact hother.1
  · exact hother.2

theorem Refusal.neg {ret : Ret} (h : Refusal ret) : ret < 0 := by
  rcases h with rfl | rfl <;> decide

theorem commitCheckLocked_refusal {available : Bool} {s : CommitState} {ret : Ret}
    (hret : Refusal ret) (h : (commitCheckLocked available s).1 = ret) : s.commitError = ret := by
  simp only [commitCheckLocked] at h
  split at h
  · exact h
  · split at h
    · exact absurd h (hret.ne (-enodev) (by decide))
    · split at h
      · exact absurd h (hret.ne (-eio) (by decide))
      · exact absurd h (hret.ne 0 (by decide))

theorem freeHistoryRet_refusal {ret code : Ret} (hret : Refusal ret)
    (h : freeHistoryRet code = ret) : code = ret := by
  unfold freeHistoryRet at h
  split at h
  · exact absurd h (hret.ne (-eio) (by decide))
  · exact h

/-- The failure of a command latches its own code. -/
theorem commitFailLocked_refusal {ret code : Ret} {s : CommitState} (hret : Refusal ret)
    (hunlatched : s.commitError = 0) (h : (commitFailLocked code s).1 = ret) : code = ret := by
  simp only [commitFailLocked, hunlatched, ne_eq, not_true_eq_false, if_false] at h
  split at h
  · exact h
  · exact absurd h (hret.ne (-eio) (by decide))

section Commit

variable {S : HashSuite} {config : PolicyConfig} {env : CommitEnv} {s : CommitState} {v : Digest}
  {sourceId : Option Bytes} {ret : Ret}

theorem prepareEvent_root_refusal (htfm : s.systemMerkleRoot.tfm = true) (hret : Refusal ret)
    (h : prepareEvent S env s none none (some v) sourceId false = .error ret) :
    freeHistoryRet env.rootHashRet = ret := by
  simp only [prepareEvent, htfm, reserveHash, allocHistoryEntry, committedLeaf, not_true_eq_false,
    Option.not_mem_none, false_and, exists_false, or_self, if_false, Bool.false_eq_true,
    not_false_eq_true, if_true] at h
  split at h
  · exact absurd (Except.error.inj h) (hret.ne (-enomem) (by decide))
  · split at h
    · exact Except.error.inj h
    · cases h

theorem commitRootLocked_refusal (htfm : s.systemMerkleRoot.tfm = true) (hret : Refusal ret)
    (h : (commitRootLocked S config env s (some v) sourceId).1 = ret) :
    s.commitError = ret ∨ freeHistoryRet env.rootHashRet = ret ∨
      ∃ root, (extendTpmPcr env.tpm s.tpmPcrIndex s.tpm root
        (commitHardwareAllowedLocked s)).1 = ret := by
  unfold commitRootLocked commitEventLocked at h
  by_cases hcheck : (commitCheckLocked env.available s).1 = 0
  · obtain ⟨hunlatched, hstate⟩ := commitCheckLocked_zero hcheck
    simp only [hcheck, hstate, ne_eq, not_true_eq_false, if_false] at h
    split at h
    · rename_i code hprepare
      obtain rfl : code = ret := h
      exact .inr (.inl (prepareEvent_root_refusal htfm hret hprepare))
    · rename_i p hprepare
      refine .inr (.inr ⟨p.newRoot, ?_⟩)
      split at h
      · split at h
        · exact commitFailLocked_refusal hret hunlatched (freeHistoryRet_refusal hret h)
        · exact freeHistoryRet_refusal hret h
      · exact absurd h (hret.ne 0 (by decide))
  · simp only [ne_eq, hcheck, not_false_eq_true, if_true] at h
    exact .inl (commitCheckLocked_refusal hret h)

end Commit

section Update

variable {P : Platform} {s : KernelState} {ret : Ret}

theorem publishPolicyLocked_refusal {env : ApplyEnv} {m : ℕ} {candidate : PolicyState}
    {index : Fin (policyNamespaces + 1)} (htfm : s.engine.systemMerkleRoot.tfm = true)
    (hret : Refusal ret)
    (h : (publishPolicyLocked P env.publish s m candidate index none).1 = ret) :
    env.Reports s.engine ret := by
  unfold publishPolicyLocked at h
  simp only at h
  split at h
  · exact absurd h (hret.ne (-eoverflow) (by decide))
  · split at h
    · exact absurd h (hret.ne (-enomem) (by decide))
    · split at h
      · exact absurd h (hret.ne (-enomem) (by decide))
      · split at h
        · exact .snapshotHash h
        · split at h
          · exact .eventHash h
          · simp only [Option.isSome_none, Bool.false_eq_true, false_and, if_false] at h
            split at h
            · rcases commitRootLocked_refusal htfm hret h with hlatched | hroot | ⟨root, htpm⟩
              · exact .latched hlatched
              · exact .rootHash hroot
              · exact .tpm root htpm
            · exact absurd h (hret.ne 0 (by decide))

/-- The checks of a root update let a normal snapshot pass. -/
theorem applyLocked_root_refusal {env : ApplyEnv} {request : PolicyRequest}
    (htfm : s.engine.systemMerkleRoot.tfm = true) (hgeneration : request.expectedGeneration = 0)
    (hname : cstr request.record.namespaceId = [])
    (hnormal : normalizeSnapshot request.record.snapshot = .ok request.record.snapshot)
    (hret : Refusal ret) (h : (applyLocked P env request s).1 = ret) :
    env.Reports s.engine ret := by
  unfold applyLocked at h
  split at h
  · exact absurd h (hret.ne (-enxio) (by decide))
  · rename_i m hbound
    by_cases hcheck : (commitCheckLocked env.available s.engine).1 = 0
    · obtain ⟨-, hstate⟩ := commitCheckLocked_zero hcheck
      have hroot : candidateFor (s.maps m).active [] = some ((s.maps m).active, 0) := rfl
      simp only [hcheck, hstate, hgeneration, hname, hroot, hnormal, ne_eq, not_true_eq_false,
        false_and, if_false, if_true] at h
      split at h
      · exact absurd h (hret.ne (-enomem) (by decide))
      · split at h
        · exact absurd h (hret.ne 0 (by decide))
        · exact publishPolicyLocked_refusal htfm hret h
    · simp only [ne_eq, hcheck, not_false_eq_true, if_true] at h
      exact .latched (commitCheckLocked_refusal hret h)

end Update

end BpfIma
