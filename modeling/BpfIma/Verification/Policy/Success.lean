import BpfIma.Verification.Policy.Rebase
import BpfIma.Verification.Policy.Representation

/-! # Policy calls on a host that does not fail

What a policy call does when its allocations and hashes succeed and the TPM does what the
epoch asks for: each outcome is then decided by the request and the policy alone. -/

namespace BpfIma

open CString Errno Machine

/-! ## The engine -/

/-- The TPM is there if the epoch is anchored, and not there if it is software only. -/
def EpochFits (available : Bool) (s : CommitState) : Prop :=
  (s.hardwareAnchored = true → available = true) ∧
    (commitHardwareAllowedLocked s = false → available = false)

/-- The command succeeds, or there is no device and the epoch is not anchored. -/
def TpmEnv.Anchors (env : TpmEnv) (s : CommitState) : Prop :=
  ∀ value, (extendTpmPcr env s.tpmPcrIndex s.tpm value (commitHardwareAllowedLocked s)).1 = 0 ∨
    (extendTpmPcr env s.tpmPcrIndex s.tpm value (commitHardwareAllowedLocked s)).1 = -enodev ∧
      (extendTpmPcr env s.tpmPcrIndex s.tpm value (commitHardwareAllowedLocked s)).2.1 = false ∧
      s.hardwareAnchored = false

/-- Nothing that a root commit asks for fails; trimming may. -/
structure CommitEnv.Succeeds (env : CommitEnv) (s : CommitState) : Prop where
  fits : EpochFits env.available s
  historyAlloc : env.historyAlloc = true
  rootHashRet : env.rootHashRet = 0
  tpm : env.tpm.Anchors s

theorem commitCheckLocked_of_fits {available : Bool} {s : CommitState}
    (hlatched : s.commitError = 0) (h : EpochFits available s) :
    commitCheckLocked available s = (0, s) := by
  have hret : (commitCheckLocked available s).1 = 0 := by
    obtain ⟨hanchored, hsoftware⟩ := h
    simp only [commitCheckLocked, hlatched, ne_eq, not_true_eq_false, if_false]
    cases ha : s.hardwareAnchored <;> cases hallowed : commitHardwareAllowedLocked s <;>
      simp_all
  exact Prod.ext hret (commitCheckLocked_zero hret).2

/-- The error of an epoch that the TPM does not fit: an anchored one has lost its device, a
software one has got one. -/
def epochError (s : CommitState) : Ret := if s.hardwareAnchored then -enodev else -eio

theorem commitCheckLocked_of_not_fits {available : Bool} {s : CommitState}
    (hlatched : s.commitError = 0) (h : ¬ EpochFits available s) :
    commitCheckLocked available s = (epochError s, { s with commitError := epochError s }) := by
  have herror : (commitCheckLocked available s).1 = epochError s := by
    simp only [commitCheckLocked, hlatched, ne_eq, not_true_eq_false, if_false]
    cases ha : s.hardwareAnchored <;> cases available <;>
      simp_all [EpochFits, commitHardwareAllowedLocked, epochError]
  exact Prod.ext herror (by rw [← herror]; rfl)

theorem epochError_ne_zero (s : CommitState) : epochError s ≠ 0 := by
  unfold epochError
  split <;> decide

theorem commitRootLocked_succeeds {S : HashSuite} (config : PolicyConfig) {env : CommitEnv}
    {s : CommitState} (hlatched : s.commitError = 0) (htfm : s.systemMerkleRoot.tfm = true)
    (h : env.Succeeds s) (value : Digest) (sourceId : Option Bytes) :
    (commitRootLocked S config env s (some value) sourceId).1 = 0 := by
  have hprepare : ∃ p, prepareEvent S env s none none (some value) sourceId false = .ok p := by
    simp [prepareEvent, htfm, reserveHash, allocHistoryEntry, h.historyAlloc, committedLeaf,
      h.rootHashRet]
  obtain ⟨p, hprepare⟩ := hprepare
  have htpm := h.tpm p.newRoot
  simp only [commitRootLocked, commitEventLocked, commitCheckLocked_of_fits hlatched h.fits,
    hprepare, ne_eq, not_true_eq_false, if_false]
  rw [if_neg]
  rintro ⟨hne, hfail⟩
  rcases htpm with hzero | ⟨hnodev, hstarted, hanchored⟩
  · exact hne hzero
  · rcases hfail with hfail | hfail | hfail
    · rw [hstarted] at hfail
      cases hfail
    · exact hfail hnodev
    · rw [hanchored] at hfail
      cases hfail

/-- What a root commit that returned zero leaves of the epoch. -/
structure CommittedFrom (s t : CommitState) : Prop where
  unlatched : t.commitError = 0
  anchored : s.hardwareAnchored = true → t.hardwareAnchored = true
  pcrIndex : t.tpmPcrIndex = s.tpmPcrIndex

theorem CommittedFrom.of_call {S : HashSuite} {config : PolicyConfig} {env : CommitEnv}
    {s t : CommitState} {value : Option Digest} {sourceId : Option Bytes}
    (h : commitRootLocked S config env s value sourceId = (0, t)) : CommittedFrom s t := by
  have heffect := commitStep_effect S s (.commitRoot config env value sourceId)
  simp only [commitStep, h] at heffect
  cases heffect with
  | refused error hret => exact absurd rfl hret
  | commandFailed extra hunlatched hallowed hret => exact absurd hret (lt_irrefl _)
  | rootCommitted v hardware p hunlatched hhardware hsoftware hprepares =>
      obtain ⟨history, count, htrim⟩ := trimHistoryLocked_frame S config env.trim sourceId
        (publishEvent (anchorRoot s hardware p.newRoot) none none p)
      rw [htrim]
      cases hardware with
      | false => exact ⟨hunlatched, id, rfl⟩
      | true => exact ⟨hunlatched, fun _ => rfl, rfl⟩

theorem StepEffect.tfm {S : HashSuite} {s t : CommitState} {op : CommitOp} {ret : Ret}
    (h : StepEffect S s op ret t) : t.systemMerkleRoot.tfm = s.systemMerkleRoot.tfm := by
  cases h with
  | refused | commandFailed | checked | created => rfl
  | measured node entry hardware | rootCommitted v hardware =>
      rw [systemMerkleRoot_trimHistoryLocked]
      cases hardware <;> rfl

theorem KernelEffect.tfm {P : Platform} {s t : KernelState} {ret : Ret}
    (h : KernelEffect P s ret t) (hs : s.engine.systemMerkleRoot.tfm = true) :
    t.engine.systemMerkleRoot.tfm = true := by
  rcases h.engine_cases with hmoves | ⟨config, env, value, sourceId, hcommit⟩
  · exact hmoves.invariant (I := fun e => e.systemMerkleRoot.tfm = true)
      (fun _ heffect htfm => heffect.tfm.trans htfm) hs
  · rw [hcommit]
    exact (commitStep_effect P.toHashSuite s.engine
      (.commitRoot config env value sourceId)).tfm.trans hs

/-- The transform of the root is never freed. -/
theorem tfm_kernelRun (P : Platform) (maps : ℕ → BpfMap) (tpmPcrIndex : ℤ) (ops : List KernelOp) :
    (kernelRun P maps tpmPcrIndex ops).engine.systemMerkleRoot.tfm = true :=
  run_invariant (P := fun s : KernelState => s.engine.systemMerkleRoot.tfm = true)
    (fun s op hs => (kernelStep_effect P s op).tfm hs) ops rfl

/-! ## Publication -/

/-- Nothing that a publication asks for fails. -/
structure PublishEnv.Succeeds (env : PublishEnv) (s : CommitState) : Prop where
  changeAlloc : env.changeAlloc = true
  snapshotAlloc : env.snapshotAlloc = true
  snapshotHashRet : env.snapshotHashRet = 0
  eventHashRet : env.eventHashRet = 0
  nextHashRet : env.nextHashRet = 0
  commit : env.commit.Succeeds s

theorem publishPolicyLocked_succeeds {P : Platform} {env : PublishEnv} (s : KernelState) {m : ℕ}
    (hlatched : s.engine.commitError = 0) (htfm : s.engine.systemMerkleRoot.tfm = true)
    (h : env.Succeeds s.engine) (hmax : (s.maps m).generation ≠ 0xffffffffffffffff)
    (candidate : PolicyState) (index : Fin (policyNamespaces + 1)) (metadata : Option ℕ) :
    ∃ engine, commitPolicy P env s m candidate index = (0, engine) ∧
      publishPolicyLocked P env s m candidate index metadata =
        (0, publishedState P s m candidate index metadata engine) := by
  have hcommit : (commitPolicy P env s m candidate index).1 = 0 :=
    commitRootLocked_succeeds _ hlatched htfm h.commit _ _
  have hret : (publishPolicyLocked P env s m candidate index metadata).1 = 0 := by
    simp only [publishPolicyLocked, hmax, h.changeAlloc, h.snapshotAlloc, h.snapshotHashRet,
      h.eventHashRet, h.nextHashRet, if_false, not_true_eq_false, ne_eq, and_false]
    simp only [commitPolicy, stageCandidate, policyEvent, nextCandidate] at hcommit
    rw [if_neg (not_not.mpr hcommit)]
  have heffect := publishPolicyLocked_effect P env s m candidate index metadata
  rcases hresult : publishPolicyLocked P env s m candidate index metadata with ⟨ret, t⟩
  rw [hresult] at hret heffect
  obtain rfl : ret = 0 := hret
  cases heffect with
  | refused hne | notCommitted _ hne => exact absurd rfl hne
  | published engine hgeneration hcommit => exact ⟨engine, hcommit, rfl⟩

/-! ## Updates -/

/-- Nothing that an update asks for fails. -/
structure ApplyEnv.Succeeds (env : ApplyEnv) (s : CommitState) : Prop where
  fits : EpochFits env.available s
  candidateAlloc : env.candidateAlloc = true
  metadataAlloc : env.metadataAlloc = true
  publish : env.publish.Succeeds s

/-- A candidate that passes the checks of an update with the snapshot `input` for `id`. -/
structure Acceptable (active : PolicyState) (id : Bytes) (input snapshot : PolicySnapshot)
    (candidate : PolicyState) (index : Fin (policyNamespaces + 1)) : Prop where
  normal : normalizeSnapshot input = .ok snapshot
  replaces : CandidateOf active id snapshot candidate index
  extension : index ≠ 0 → ExtensionOf (candidate.records.get 0).snapshot snapshot

/-- The update would publish what is there already. -/
def PolicyState.Holds (active : PolicyState) (index : Fin (policyNamespaces + 1))
    (snapshot : PolicySnapshot) : Prop :=
  index.val ≤ active.namespaceCount.toNat ∧ snapshot = (active.records.get index).snapshot

instance (active : PolicyState) (index : Fin (policyNamespaces + 1)) (snapshot : PolicySnapshot) :
    Decidable (active.Holds index snapshot) :=
  inferInstanceAs (Decidable (_ ∧ _))

/-- The outcomes of an update that names no generation, if nothing fails. -/
inductive UpdateOutcome (P : Platform) (s : KernelState) (m : ℕ) (id : Bytes)
    (input : PolicySnapshot) : Ret → KernelState → Prop where
  | full (hroom : candidateFor (s.maps m).active id = none) :
      UpdateOutcome P s m id input (-enospc) s
  | abnormal {ret : Ret} (hroom : candidateFor (s.maps m).active id ≠ none)
      (hnormal : normalizeSnapshot input = .error ret) : UpdateOutcome P s m id input ret s
  | weaker (snapshot : PolicySnapshot) (candidate : PolicyState)
      (index : Fin (policyNamespaces + 1)) (hnormal : normalizeSnapshot input = .ok snapshot)
      (hcandidate : CandidateOf (s.maps m).active id snapshot candidate index) (hindex : index ≠ 0)
      (hweaker : ¬ ExtensionOf (candidate.records.get 0).snapshot snapshot) :
      UpdateOutcome P s m id input (-eperm) s
  | same (snapshot : PolicySnapshot) (candidate : PolicyState)
      (index : Fin (policyNamespaces + 1)) (namespaces : List PolicyNamespace)
      (hacceptable : Acceptable (s.maps m).active id input snapshot candidate index)
      (hholds : (s.maps m).active.Holds index snapshot) :
      UpdateOutcome P s m id input 0 { s with policyNamespaceList := namespaces }
  | exhausted (snapshot : PolicySnapshot) (candidate : PolicyState)
      (index : Fin (policyNamespaces + 1)) (namespaces : List PolicyNamespace)
      (hacceptable : Acceptable (s.maps m).active id input snapshot candidate index)
      (hchanged : ¬ (s.maps m).active.Holds index snapshot)
      (hmax : (s.maps m).generation = 0xffffffffffffffff) :
      UpdateOutcome P s m id input (-eoverflow) { s with policyNamespaceList := namespaces }
  | published (snapshot : PolicySnapshot) (candidate : PolicyState)
      (index : Fin (policyNamespaces + 1)) (namespaces : List PolicyNamespace)
      (metadata : Option ℕ) (engine : CommitState)
      (hacceptable : Acceptable (s.maps m).active id input snapshot candidate index)
      (hchanged : ¬ (s.maps m).active.Holds index snapshot)
      (hmax : (s.maps m).generation ≠ 0xffffffffffffffff)
      (hcommitted : CommittedFrom s.engine engine) :
      UpdateOutcome P s m id input 0
        (publishedState P { s with policyNamespaceList := namespaces } m candidate index metadata
          engine)

theorem CandidateOf.id_ne_nil {active candidate : PolicyState} {id : Bytes}
    {snapshot : PolicySnapshot} {index : Fin (policyNamespaces + 1)}
    (h : CandidateOf active id snapshot candidate index) (hindex : index ≠ 0) : id ≠ [] := by
  rintro rfl
  cases h with
  | replaced _ hfound => exact hindex (Option.some.inj hfound).symm
  | appended hmissing => cases hmissing

theorem validNamespace_passed {id : Bytes} (h : validNamespace id = true) :
    ¬ (validateNamespace id ≠ 0 ∨ namespaceSize ≤ id.length) := by
  simp only [validNamespace, Bool.and_eq_true, decide_eq_true_eq] at h
  obtain ⟨⟨hlength, hvalid, -⟩, -⟩ := h
  rw [not_or, not_not]
  exact ⟨hvalid, not_le.mpr hlength⟩

theorem policyNamespaceGetLocked_valid {id : Bytes} (hid : validNamespace id = true)
    (s : KernelState) :
    ∃ i namespaces, policyNamespaceGetLocked true id s =
      (.ok i, { s with policyNamespaceList := namespaces }) := by
  rw [policyNamespaceGetLocked, if_neg (validNamespace_passed hid)]
  split
  · exact ⟨_, _, rfl⟩
  · exact ⟨_, _, by rw [if_neg (by decide)]⟩

/-- The last part of an update, with the audit metadata at hand. -/
theorem publishUpdate_outcome {P : Platform} {env : PublishEnv} {s : KernelState} {m : ℕ}
    (hlatched : s.engine.commitError = 0) (htfm : s.engine.systemMerkleRoot.tfm = true)
    (henv : env.Succeeds s.engine) {id : Bytes} {input snapshot : PolicySnapshot}
    {candidate : PolicyState} {index : Fin (policyNamespaces + 1)}
    (hacceptable : Acceptable (s.maps m).active id input snapshot candidate index)
    (namespaces : List PolicyNamespace) (metadata : Option ℕ)
    (hchanged : ¬ (s.maps m).active.Holds index snapshot) :
    UpdateOutcome P s m id input
      (publishPolicyLocked P env { s with policyNamespaceList := namespaces } m candidate index
        metadata).1
      (publishPolicyLocked P env { s with policyNamespaceList := namespaces } m candidate index
        metadata).2 := by
  by_cases hmax : (s.maps m).generation = 0xffffffffffffffff
  · have hresult : publishPolicyLocked P env { s with policyNamespaceList := namespaces } m
        candidate index metadata = (-eoverflow, { s with policyNamespaceList := namespaces }) :=
      if_pos hmax
    rw [hresult]
    exact .exhausted snapshot candidate index namespaces hacceptable hchanged hmax
  · obtain ⟨engine, hcommit, hresult⟩ := publishPolicyLocked_succeeds (P := P)
      { s with policyNamespaceList := namespaces } hlatched htfm henv hmax candidate index metadata
    rw [hresult]
    exact .published snapshot candidate index namespaces metadata engine hacceptable hchanged hmax
      (.of_call hcommit)

theorem applyLocked_outcome {P : Platform} {env : ApplyEnv} {s : KernelState} {m : ℕ}
    (hbound : s.policyMap = some m) (hlatched : s.engine.commitError = 0)
    (htfm : s.engine.systemMerkleRoot.tfm = true) (henv : env.Succeeds s.engine)
    {request : PolicyRequest} (hgeneration : request.expectedGeneration = 0)
    (hname : cstr request.record.namespaceId ≠ [] →
      validNamespace (cstr request.record.namespaceId) = true) :
    UpdateOutcome P s m (cstr request.record.namespaceId) request.record.snapshot
      (applyLocked P env request s).1 (applyLocked P env request s).2 := by
  have hcheck := commitCheckLocked_of_fits hlatched henv.fits
  unfold applyLocked
  split
  · rename_i hnone
    cases hnone.symm.trans hbound
  · rename_i m' hbound'
    obtain rfl := Option.some.inj (hbound'.symm.trans hbound)
    simp only [hcheck, hgeneration, ne_eq, not_true_eq_false, false_and, if_false,
      henv.candidateAlloc]
    cases hcandidate : candidateFor (s.maps m').active (cstr request.record.namespaceId) with
    | none => exact .full hcandidate
    | some found =>
        obtain ⟨candidate, index⟩ := found
        simp only
        cases hnormal : normalizeSnapshot request.record.snapshot with
        | error ret => exact .abnormal (by rw [hcandidate]; simp) hnormal
        | ok snapshot =>
            have hof := candidateFor_some hcandidate snapshot
            simp only
            generalize candidate.setRecord index
              { candidate.records.get index with snapshot := snapshot } = next at hof ⊢
            -- Only a namespace is validated against the root and has audit metadata.
            by_cases hroot : index = 0
            · have hacceptable : Acceptable (s.maps m').active (cstr request.record.namespaceId)
                  request.record.snapshot snapshot next index :=
                ⟨hnormal, hof, fun hne => absurd hroot hne⟩
              subst hroot
              simp only [if_true, not_true_eq_false, if_false]
              split
              · rename_i hholds
                exact .same snapshot next 0 s.policyNamespaceList hacceptable hholds
              · rename_i hchanged
                exact publishUpdate_outcome hlatched htfm henv.publish hacceptable
                  s.policyNamespaceList none hchanged
            · simp only [hroot, if_false]
              by_cases hextension : ExtensionOf (next.records.get 0).snapshot snapshot
              · have hacceptable : Acceptable (s.maps m').active (cstr request.record.namespaceId)
                    request.record.snapshot snapshot next index :=
                  ⟨hnormal, hof, fun _ => hextension⟩
                have hne := hof.id_ne_nil hroot
                obtain ⟨i, namespaces, hget⟩ := policyNamespaceGetLocked_valid (hname hne) s
                simp only [validateExtension_eq_zero_iff.mpr hextension, not_true_eq_false,
                  if_false, henv.metadataAlloc, hget, Except.map]
                split
                · rename_i hholds
                  exact .same snapshot next index namespaces hacceptable hholds
                · rename_i hchanged
                  exact publishUpdate_outcome hlatched htfm henv.publish hacceptable namespaces
                    (some i) hchanged
              · simp only [validateExtension_of_not hextension]
                exact .weaker snapshot next index hnormal hof hroot hextension

end BpfIma
