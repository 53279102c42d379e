import BpfIma.Verification.Commit.Effects

/-! # Failed commits

A call that does not succeed leaves the audit state alone, and a digest whose commit
failed without latching an error is committed by any later call on a working host. -/

namespace BpfIma

open CString Machine

/-- All audit state of `t` is that of `s`. -/
structure SameAudit (s t : CommitState) : Prop where
  containers : t.containers = s.containers
  merkleRootHistory : t.merkleRootHistory = s.merkleRootHistory
  merkleRootHistoryCount : t.merkleRootHistoryCount = s.merkleRootHistoryCount
  systemMerkleRoot : t.systemMerkleRoot = s.systemMerkleRoot
  sha256HashTable : t.sha256HashTable = s.sha256HashTable
  hardwareAnchored : t.hardwareAnchored = s.hardwareAnchored
  softwareCommitted : t.softwareCommitted = s.softwareCommitted

theorem StepEffect.sameAudit {S : HashSuite} {s s' : CommitState} {op : CommitOp} {ret : Ret}
    (h : StepEffect S s op ret s') (hret : ret ≠ 0) :
    SameAudit s s' ∧
      (s'.commitError = s.commitError ∨ s.commitError = 0 ∧ s'.commitError = ret) := by
  cases h with
  | refused error _ herror => exact ⟨⟨rfl, rfl, rfl, rfl, rfl, rfl, rfl⟩, herror⟩
  | commandFailed extra hunlatched =>
      exact ⟨⟨rfl, rfl, rfl, rfl, rfl, rfl, rfl⟩, .inr ⟨hunlatched, rfl⟩⟩
  | measured | rootCommitted | checked | created => exact absurd rfl hret

/-! ## States of a loaded module -/

/-- What module initialisation checks and allocates before anything can be committed. -/
structure Loaded (s : CommitState) : Prop where
  pcrIndex : 0 ≤ s.tpmPcrIndex ∧ s.tpmPcrIndex ≤ 23
  rootTfm : s.systemMerkleRoot.tfm = true
  containerTfm : ∀ c ∈ s.containers, c.tfm = true

theorem Loaded.publish {s : CommitState} (h : Loaded s) {S : HashSuite} {hardware : Bool}
    {p : PreparedEvent} {container : Option ContainerRef} {entry : Option MeasurementEntry}
    {config : PolicyConfig} {env : TrimEnv} {sourceId : Option Bytes} :
    Loaded (trimHistoryLocked S config env sourceId
      (publishEvent (anchorRoot s hardware p.newRoot) container entry p)) := by
  obtain ⟨history, count, htrim⟩ := trimHistoryLocked_frame S config env sourceId
    (publishEvent (anchorRoot s hardware p.newRoot) container entry p)
  have hanchor : (anchorRoot s hardware p.newRoot).containers = s.containers ∧
      (anchorRoot s hardware p.newRoot).tpmPcrIndex = s.tpmPcrIndex ∧
      (anchorRoot s hardware p.newRoot).systemMerkleRoot = s.systemMerkleRoot := by
    cases hardware <;> exact ⟨rfl, rfl, rfl⟩
  rw [htrim]
  constructor
  · simpa [publishEvent, hanchor] using h.pcrIndex
  · simpa [publishEvent, hanchor] using h.rootTfm
  · simp only [publishEvent, hanchor]
    match container, entry with
    | some _, some _ =>
        exact forall_mem_modify h.containerTfm
          fun c hc => h.containerTfm c (List.mem_of_getElem? hc)
    | some _, none | none, some _ | none, none => exact h.containerTfm

theorem Loaded.step {S : HashSuite} {s s' : CommitState} {op : CommitOp} {ret : Ret}
    (h : Loaded s) (heffect : StepEffect S s op ret s') : Loaded s' := by
  cases heffect with
  | refused | commandFailed => exact ⟨h.pcrIndex, h.rootTfm, h.containerTfm⟩
  | measured | rootCommitted => exact h.publish
  | checked => exact h
  | created containerId =>
      refine ⟨h.pcrIndex, h.rootTfm, ?_⟩
      intro c hc
      rcases List.mem_append.mp hc with hc | hc
      · exact h.containerTfm c hc
      · obtain rfl := List.mem_singleton.mp hc
        rfl

theorem Loaded.of_run {S : HashSuite} {s : CommitState} (h : Loaded s) (ops : List CommitOp) :
    Loaded (run (commitStep S) s ops) :=
  run_invariant (fun s op hs => hs.step (commitStep_effect S s op)) ops h

/-- A container keeps its position and its name. -/
theorem StepEffect.containerId {S : HashSuite} {s s' : CommitState} {op : CommitOp} {ret : Ret}
    (h : StepEffect S s op ret s') {i : ℕ} {id : Buffer containerIdMaxLen}
    (hid : s.containers[i]?.map ContainerNode.id = some id) :
    s'.containers[i]?.map ContainerNode.id = some id := by
  cases h with
  | refused | commandFailed | checked => exact hid
  | measured node entry hardware p hnode =>
      have hanchor : (anchorRoot s hardware p.newRoot).containers = s.containers := by
        cases hardware <;> rfl
      rw [containers_trimHistoryLocked]
      simp only [publishEvent, hanchor, List.getElem?_modify, Option.map_eq_map, Option.map_map]
      rw [← hid]
      congr 1
      funext c
      simp only [Function.comp]
      split <;> rfl
  | rootCommitted v hardware p =>
      have hanchor : (anchorRoot s hardware p.newRoot).containers = s.containers := by
        cases hardware <;> rfl
      rw [containers_trimHistoryLocked]
      simpa only [publishEvent, hanchor] using hid
  | created containerId =>
      obtain ⟨c, hc, rfl⟩ := Option.map_eq_some_iff.mp hid
      rw [List.getElem?_append_left (List.getElem?_eq_some_iff.mp hc).1, hc]
      rfl

/-! ## Working hosts -/

/-- Allocations and hashes succeed, and the TPM is present or absent as the epoch of `s`
requires and works if it is there. -/
structure WorkingFor (s : CommitState) (env : CommitEnv) : Prop where
  hashAlloc : env.hashAlloc = true
  historyAlloc : env.historyAlloc = true
  leafHashRet : env.leafHashRet = 0
  rootHashRet : env.rootHashRet = 0
  mayBlock : env.tpm.inAtomic = false
  present : s.hardwareAnchored = true → env.available = true ∧ env.tpm.chip.isSome = true
  absent : commitHardwareAllowedLocked s = false → env.available = false ∧ env.tpm.chip = none
  device : ∀ chip ∈ env.tpm.chip, tpmAlgSha256 ∈ chip.allocatedBanks ∧
    env.tpm.digestsAlloc = true ∧ env.tpm.commandRet = 0

/-- The same for `add_container_measurement`, called from a context that may sleep. -/
structure WorkingAddFor (s : CommitState) (env : AddEnv) : Prop where
  canSleep : env.canSleep = true
  entryAlloc : env.entryAlloc = true
  available : env.available = env.commit.available
  commit : WorkingFor s env.commit

namespace WorkingFor

variable {s : CommitState} {env : CommitEnv}

theorem commitCheckLocked_eq (h : WorkingFor s env) (hunlatched : s.commitError = 0) :
    commitCheckLocked env.available s = (0, s) := by
  have hzero : (commitCheckLocked env.available s).1 = 0 := by
    simp only [commitCheckLocked, hunlatched, ne_eq, not_true_eq_false, if_false]
    cases hanchored : s.hardwareAnchored with
    | true => simp [h.present hanchored, commitHardwareAllowedLocked, hanchored]
    | false =>
        cases hallowed : commitHardwareAllowedLocked s with
        | true => simp
        | false => simp [h.absent hallowed]
  exact Prod.ext hzero (commitCheckLocked_zero hzero).2

/-- The device is extended, or it is absent and the epoch does without it. -/
theorem extendTpmPcr_cases (h : WorkingFor s env) (hloaded : Loaded s) (tpm : Tpm) (root : Digest) :
    (extendTpmPcr env.tpm s.tpmPcrIndex tpm root (commitHardwareAllowedLocked s)).1 = 0 ∨
      s.hardwareAnchored = false ∧
        (extendTpmPcr env.tpm s.tpmPcrIndex tpm root (commitHardwareAllowedLocked s)) =
          (-Errno.enodev, false, tpm) := by
  have hindex : ¬ (s.tpmPcrIndex < 0 ∨ s.tpmPcrIndex > 23) := by
    have := hloaded.pcrIndex
    omega
  cases hchip : env.tpm.chip with
  | none =>
      refine .inr ⟨?_, by simp [extendTpmPcr, h.mayBlock, hindex, hchip]⟩
      by_contra hanchored
      have hpresent := (h.present (by simpa using hanchored)).2
      simp [hchip] at hpresent
  | some chip =>
      obtain ⟨hbank, halloc, hcommand⟩ := h.device chip hchip
      have hallowed : commitHardwareAllowedLocked s = true := by
        by_contra hne
        simpa [hchip] using (h.absent (by simpa using hne)).2
      refine .inl ?_
      simp [extendTpmPcr, h.mayBlock, hindex, hchip, hallowed, hbank, halloc, tpmPcrExtend,
        hcommand]

theorem prepareEvent_isOk (h : WorkingFor s env) (hloaded : Loaded s) (S : HashSuite)
    {container : Option ContainerRef} {entry : Option MeasurementEntry} (value : Digest)
    (sourceId : Option Bytes) {deduplicate : Bool}
    (hcontainer : ∀ c ∈ container, entry.isSome = true ∧ c.2 ∈ s.containers)
    (hfresh : deduplicate = true → ∃ c e, container = some c ∧ entry = some e ∧
      hashExists s.sha256HashTable e.digest (cstr c.2.id) = false) :
    ∃ p, prepareEvent S env s container entry (some value) sourceId deduplicate = .ok p := by
  have hargs : ¬ (¬ s.systemMerkleRoot.tfm = true ∨
      ∃ c ∈ container, entry = none ∨ ¬ c.2.tfm = true) := by
    rintro (htfm | ⟨c, hc, hnone | htfm⟩)
    · exact htfm hloaded.rootTfm
    · simpa [hnone] using (hcontainer c hc).1
    · exact htfm (hloaded.containerTfm _ (hcontainer c hc).2)
  obtain ⟨hash, hreserve⟩ : ∃ hash, reserveHash env s container entry deduplicate = .ok hash := by
    cases deduplicate with
    | false => exact ⟨none, rfl⟩
    | true =>
        obtain ⟨⟨i, node⟩, e, rfl, rfl, hexists⟩ := hfresh rfl
        simp [reserveHash, hexists, allocHashEntry, h.hashAlloc]
  obtain ⟨leaf, hleaf⟩ : ∃ leaf, committedLeaf S env container entry value = .ok leaf := by
    match container, entry with
    | some (_, node), some entry => simp [committedLeaf, h.leafHashRet]
    | some _, none | none, some _ | none, none => exact ⟨value, rfl⟩
  simp only [prepareEvent, if_neg hargs, hreserve, allocHistoryEntry, h.historyAlloc, if_true,
    hleaf, h.rootHashRet, ne_eq, not_true_eq_false, if_false]
  exact ⟨_, rfl⟩

theorem commitEventLocked_eq_zero (h : WorkingFor s env) (hloaded : Loaded s)
    (hunlatched : s.commitError = 0) (S : HashSuite) {config : PolicyConfig}
    {container : Option ContainerRef} {entry : Option MeasurementEntry} {value : Digest}
    {sourceId : Option Bytes} {deduplicate : Bool}
    (hcontainer : ∀ c ∈ container, entry.isSome = true ∧ c.2 ∈ s.containers)
    (hfresh : deduplicate = true → ∃ c e, container = some c ∧ entry = some e ∧
      hashExists s.sha256HashTable e.digest (cstr c.2.id) = false) :
    (commitEventLocked S config env s container entry (some value) sourceId deduplicate).1 = 0 := by
  obtain ⟨p, hp⟩ := h.prepareEvent_isOk hloaded S value sourceId hcontainer hfresh
  simp only [commitEventLocked, h.commitCheckLocked_eq hunlatched, ne_eq, not_true_eq_false,
    if_false, hp]
  rcases h.extendTpmPcr_cases hloaded s.tpm p.newRoot with hzero | ⟨hanchored, hnodev⟩
  · simp [hzero]
  · simp [hnodev, hanchored]

end WorkingFor

theorem WorkingAddFor.addContainerMeasurement_eq_zero {s : CommitState} {env : AddEnv}
    (h : WorkingAddFor s env) (hloaded : Loaded s) (hunlatched : s.commitError = 0) (S : HashSuite)
    (config : PolicyConfig) {i : ℕ} {node : ContainerNode} (hnode : s.containers[i]? = some node)
    {digest : Digest} (hfresh : hashExists s.sha256HashTable digest (cstr node.id) = false)
    (name : Bytes) (data dependencies : Option Bytes) :
    (addContainerMeasurement S config env s (some i) (some name) data dependencies
      (some digest)).1 = 0 := by
  have href : containerRef s (some i) = some (i, node) := by simp [containerRef, hnode]
  have hcheck := h.available ▸ h.commit.commitCheckLocked_eq hunlatched
  simp only [addContainerMeasurement, href, h.canSleep, hcheck, hfresh, createMeasurementEntry,
    h.entryAlloc, commitMeasurementLocked, not_true_eq_false, ne_eq, if_false, Bool.false_eq_true]
  apply h.commit.commitEventLocked_eq_zero hloaded hunlatched S
  · rintro c ⟨rfl⟩
    exact ⟨rfl, List.mem_of_getElem? hnode⟩
  · intro _
    exact ⟨_, _, rfl, rfl, hfresh⟩

/-- A call that gets to its duplicate check and fails was no duplicate. -/
theorem fresh_of_addContainerMeasurement_neg {S : HashSuite} {config : PolicyConfig} {env : AddEnv}
    {s : CommitState} {i : ℕ} {node : ContainerNode} {name : Bytes}
    {data dependencies : Option Bytes} {digest : Digest}
    (hnode : s.containers[i]? = some node) (hsleep : env.canSleep = true)
    (hret : (addContainerMeasurement S config env s (some i) (some name) data dependencies
      (some digest)).1 < 0)
    (hunlatched : (addContainerMeasurement S config env s (some i) (some name) data dependencies
      (some digest)).2.commitError = 0) :
    hashExists s.sha256HashTable digest (cstr node.id) = false := by
  by_contra hexists
  have hexists : hashExists s.sha256HashTable digest (cstr node.id) = true := by simpa using hexists
  have href : containerRef s (some i) = some (i, node) := by simp [containerRef, hnode]
  simp only [addContainerMeasurement, href, hsleep, not_true_eq_false, if_false] at hret hunlatched
  by_cases hcheck : (commitCheckLocked env.available s).1 = 0
  · simp [hcheck, (commitCheckLocked_zero hcheck).2, hexists] at hret
  · simp only [ne_eq, hcheck, not_false_eq_true, if_true] at hunlatched
    exact hcheck hunlatched

/-- In every state of a loaded module, a commit that returns nonzero changes no audit state
and at most latches its own error; if it did not latch, the digest is committed by any later
call on a working host, unless another call has recorded it by then. A call that may sleep
fails only on digests that are not recorded. -/
theorem failed_commit_keeps_audit (S : HashSuite) (s₀ : CommitState) (hloaded : Loaded s₀)
    (ops : List CommitOp) (s : CommitState) (hs : s = run (commitStep S) (commitInit s₀) ops) :
    (∀ config env container name data dependencies digest,
      let r := addContainerMeasurement S config env s container name data dependencies digest
      r.1 ≠ 0 →
        SameAudit s r.2 ∧
          (r.2.commitError = s.commitError ∨ s.commitError = 0 ∧ r.2.commitError = r.1) ∧
          ∀ i node d, container = some i → s.containers[i]? = some node → digest = some d →
            r.1 < 0 → r.2.commitError = 0 →
              (env.canSleep = true → name.isSome = true →
                hashExists s.sha256HashTable d (cstr node.id) = false) ∧
              ∀ rest t, t = run (commitStep S) r.2 rest → t.commitError = 0 →
                hashExists t.sha256HashTable d (cstr node.id) = false →
                ∀ config' env' name' data' dependencies', WorkingAddFor t env' →
                  (addContainerMeasurement S config' env' t (some i) (some name') data'
                    dependencies' (some d)).1 = 0) ∧
      ∀ config env value sourceId,
        let r := commitRootLocked S config env s value sourceId
        r.1 ≠ 0 →
          SameAudit s r.2 ∧
            (r.2.commitError = s.commitError ∨ s.commitError = 0 ∧ r.2.commitError = r.1) ∧
            ∀ v, value = some v → r.1 < 0 → r.2.commitError = 0 →
              ∀ rest t, t = run (commitStep S) r.2 rest → t.commitError = 0 →
                ∀ config' env', WorkingFor t env' →
                  (commitRootLocked S config' env' t (some v) sourceId).1 = 0 := by
  have hready : Loaded s := by
    rw [hs]
    exact Loaded.of_run (s := commitInit s₀) ⟨hloaded.pcrIndex, hloaded.rootTfm,
      hloaded.containerTfm⟩ ops
  refine ⟨?_, ?_⟩
  · intro config env container name data dependencies digest r hret
    have heffect := addContainerMeasurement_effect S config env s container name data dependencies
      digest
    obtain ⟨haudit, herror⟩ := heffect.sameAudit hret
    refine ⟨haudit, herror, ?_⟩
    rintro i node d rfl hnode rfl hneg hunlatched
    refine ⟨?_, ?_⟩
    · intro hsleep hname
      obtain ⟨name, rfl⟩ := Option.isSome_iff_exists.mp hname
      exact fresh_of_addContainerMeasurement_neg hnode hsleep hneg hunlatched
    · rintro rest t rfl ht hfresh config' env' name' data' dependencies' hworking
      -- Containers keep their position and id: the digest is looked up under the same name.
      have hid : (run (commitStep S) r.2 rest).containers[i]?.map ContainerNode.id =
          some node.id := by
        refine run_invariant (P := fun t => t.containers[i]?.map ContainerNode.id = some node.id)
          (fun t op h => (commitStep_effect S t op).containerId h) rest ?_
        rw [haudit.containers, hnode]
        rfl
      obtain ⟨node', hnode', hsame⟩ := Option.map_eq_some_iff.mp hid
      exact hworking.addContainerMeasurement_eq_zero ((hready.step heffect).of_run rest) ht S
        config' hnode' (hsame ▸ hfresh) name' data' dependencies'
  · intro config env value sourceId r hret
    have heffect := commitStep_effect S s (.commitRoot config env value sourceId)
    obtain ⟨haudit, herror⟩ := heffect.sameAudit hret
    refine ⟨haudit, herror, ?_⟩
    rintro v rfl hneg hunlatched rest t rfl ht config' env' hworking
    exact hworking.commitEventLocked_eq_zero ((hready.step heffect).of_run rest) ht S
      (by simp) (by simp)

theorem workingFor_workingCommit {s : CommitState} (h : commitHardwareAllowedLocked s = true) :
    WorkingFor s workingCommit where
  hashAlloc := rfl
  historyAlloc := rfl
  leafHashRet := rfl
  rootHashRet := rfl
  mayBlock := rfl
  present _ := ⟨rfl, rfl⟩
  absent hne := by simp [h] at hne
  device := by decide

/-- A first commit fails for want of memory for its entry; it is retried after a root commit. -/
theorem failed_commit_keeps_audit_retry :
    let s := commitInit (bootState 1)
    let digest : Digest := List.Vector.replicate 32 1
    let config := initDefaultConfig .zero
    let r := addContainerMeasurement referencePlatform.toHashSuite config
      { workingAdd with entryAlloc := false } s (some 0) (some "file_mmap".ascii) none none
        (some digest)
    let t := run (commitStep referencePlatform.toHashSuite) r.2
      [.commitRoot config workingCommit (some digest) none]
    r.1 = -Errno.enomem ∧ SameAudit s r.2 ∧
      (addContainerMeasurement referencePlatform.toHashSuite config workingAdd t (some 0)
        (some "file_mmap".ascii) none none (some digest)).1 = 0 := by
  intro s digest config r t
  have hloaded : Loaded (bootState 1) := ⟨by decide, rfl, by decide⟩
  have hret : r.1 = -Errno.enomem := by decide +kernel
  obtain ⟨haudit, -, hretry⟩ := (failed_commit_keeps_audit referencePlatform.toHashSuite
    (bootState 1) hloaded [] s rfl).1 config { workingAdd with entryAlloc := false } (some 0)
    (some "file_mmap".ascii) none none (some digest) (by rw [show _ = _ from hret]; decide)
  refine ⟨hret, haudit, ?_⟩
  refine (hretry 0 (freshContainer [97]) digest rfl rfl rfl (by rw [show _ = _ from hret]; decide)
    (by decide +kernel)).2 [.commitRoot config workingCommit (some digest) none] t rfl
    (by decide +kernel) (by decide +kernel) config workingAdd "file_mmap".ascii none none ?_
  exact ⟨rfl, rfl, rfl, workingFor_workingCommit (by decide +kernel)⟩

end BpfIma
