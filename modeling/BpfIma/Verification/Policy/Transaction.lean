import BpfIma.Verification.Policy.Store

/-! # Policy updates are transactions

An update that fails leaves the published policy and its audit trail as they were; one that
succeeds changes nothing or makes one commit and replaces one record. -/

namespace BpfIma

open CString Errno

/-- The policy in the map at `m` and all audit data are the same, but for an audit node
without data for the namespace `id`. -/
structure SamePolicy (m : ℕ) (id : Bytes) (s t : KernelState) : Prop where
  generation : (t.maps m).generation = (s.maps m).generation
  activeSlot : (t.maps m).slots.get (stateSlot (s.maps m).generation) =
    (s.maps m).slots.get (stateSlot (s.maps m).generation)
  globalHistory : t.globalPolicyChangeHistory = s.globalPolicyChangeHistory
  namespaces : MetadataAdded id s.policyNamespaceList t.policyNamespaceList

/-- Exactly one value was committed to the Merkle root and, in an anchored epoch, the new
root to the TPM. -/
structure OneCommit (S : HashSuite) (s t : CommitState) : Prop where
  root : ∃ value, t.systemMerkleRoot.rootHash = S.extendHash s.systemMerkleRoot.rootHash value
  tpm : t.tpm = s.tpm ∨
    t.tpm = ⟨s.tpm.extended ++ [t.systemMerkleRoot.rootHash], s.tpm.commands + 1⟩
  call : ∃ config env value sourceId,
    commitRootLocked S config env s (some value) sourceId = (0, t)

/-- The next generation: one commit, and one record that became the normalised request. -/
structure PolicyReplaced (P : Platform) (m : ℕ) (request : PolicyRequest) (s t : KernelState) :
    Prop where
  generation : (t.maps m).generation.toNat = (s.maps m).generation.toNat + 1
  commit : OneCommit P.toHashSuite s.engine t.engine
  activeSlot : ∃ snapshot candidate index,
    normalizeSnapshot request.record.snapshot = .ok snapshot ∧
    CandidateOf ((s.maps m).slots.get (stateSlot (s.maps m).generation))
      (cstr request.record.namespaceId) snapshot candidate index ∧
    (t.maps m).slots.get (stateSlot (t.maps m).generation) =
      { candidate with generation := (t.maps m).generation }

/-- The namespace a call is about. -/
def requestedId (request : Option PolicyRequest) : Bytes :=
  request.elim [] fun r => cstr r.record.namespaceId

/-- The outcome of a call that asks for a request, or for none because an argument is bad. -/
def Transaction (P : Platform) (m : ℕ) (request : Option PolicyRequest) (s : KernelState)
    (ret : Ret) (t : KernelState) : Prop :=
  (ret ≠ 0 → SamePolicy m (requestedId request) s t) ∧
    (ret = 0 → SamePolicy m (requestedId request) s t ∧ t.engine = s.engine ∨
      ∃ r, request = some r ∧ PolicyReplaced P m r s t)

theorem SamePolicy.of_maps {m : ℕ} {id : Bytes} {s t : KernelState} (hmaps : t.maps m = s.maps m)
    (hglobal : t.globalPolicyChangeHistory = s.globalPolicyChangeHistory)
    (hadded : MetadataAdded id s.policyNamespaceList t.policyNamespaceList) :
    SamePolicy m id s t :=
  ⟨by rw [hmaps], by rw [hmaps], hglobal, hadded⟩

theorem OneCommit.of_call {S : HashSuite} {config : PolicyConfig} {env : CommitEnv}
    {s t : CommitState} {value : Digest} {sourceId : Option Bytes}
    (h : commitRootLocked S config env s (some value) sourceId = (0, t)) : OneCommit S s t := by
  have heffect := commitStep_effect S s (.commitRoot config env (some value) sourceId)
  simp only [commitStep, h] at heffect
  cases heffect with
  | refused error hret => exact absurd rfl hret
  | commandFailed extra hunlatched hallowed hret => exact absurd hret (lt_irrefl _)
  | rootCommitted v hardware p hunlatched hhardware hsoftware hprepares =>
      refine ⟨⟨p.newLeaf, ?_⟩, ?_, ⟨config, env, value, sourceId, h⟩⟩
      · rw [systemMerkleRoot_trimHistoryLocked]
        exact hprepares.root
      · obtain ⟨history, count, htrim⟩ := trimHistoryLocked_frame S config env.trim sourceId
          (publishEvent (anchorRoot s hardware p.newRoot) none none p)
        rw [htrim]
        cases hardware
        · exact .inl rfl
        · exact .inr rfl

theorem ApplyEffect.transaction {P : Platform} {env : ApplyEnv} {request : PolicyRequest}
    {s t : KernelState} {ret : Ret} {m : ℕ} (hbound : s.policyMap = some m)
    (hs : (s.maps m).Published) (h : ApplyEffect P env request s ret t) :
    Transaction P m (some request) s ret t := by
  cases h with
  | refused error namespaces hret herror hadded =>
      exact ⟨fun _ => .of_maps rfl rfl hadded, fun hzero => absurd hzero hret⟩
  | unchanged m' namespaces hbound' hadded =>
      exact ⟨fun hret => absurd rfl hret, fun _ => .inl ⟨.of_maps rfl rfl hadded, rfl⟩⟩
  | attempted m' namespaces snapshot candidate index metadata hbound' hadded hnormal hcandidate
      hvalid haudited hpublish =>
      obtain rfl := Option.some.inj (hbound.symm.trans hbound')
      cases hpublish with
      | refused hret =>
          exact ⟨fun _ => .of_maps rfl rfl hadded, fun hzero => absurd hzero hret⟩
      | notCommitted engine hret hcommit =>
          have hmap := maps_stageCandidate { s with policyNamespaceList := namespaces } m candidate
          refine ⟨fun _ => ⟨?_, ?_, rfl, hadded⟩, fun hzero => absurd hzero hret⟩
          · simp only [hmap, BpfMap.generation_stage]
          · simp only [hmap]
            exact (s.maps m).activeSlot_stage _ rfl
      | published engine hgeneration hcommit =>
          have hmap := maps_publishedState P { s with policyNamespaceList := namespaces } m
            candidate index metadata engine
          refine ⟨fun hret => absurd rfl hret, fun _ => .inr ⟨request, rfl, ?_, ?_, ?_⟩⟩
          · rw [hmap, BpfMap.generation_publish]
            exact toNat_succ_of_ne_zero hgeneration
          · rw [engine_publishedState]
            exact .of_call hcommit
          · refine ⟨snapshot, candidate, index, hnormal, ?_, ?_⟩
            · rwa [← (s.maps m).active_of_ne hs.generation]
            · have hactive := (s.maps m).active_publish_stage (nextCandidate (s.maps m) candidate)
                hgeneration
              rw [BpfMap.active_of_ne _ (by rwa [BpfMap.generation_publish])] at hactive
              rw [hmap, hactive, BpfMap.generation_publish]
              rfl

theorem Transaction.refused {P : Platform} {m : ℕ} {request : Option PolicyRequest}
    {s : KernelState} {ret : Ret} (hret : ret ≠ 0) : Transaction P m request s ret s :=
  ⟨fun _ => .of_maps rfl rfl (.inl rfl), fun hzero => absurd hzero hret⟩

theorem policyApply_transaction {P : Platform} {s : KernelState} {m : ℕ}
    (hbound : s.policyMap = some m) (hs : (s.maps m).Published) (env : ApplyEnv)
    (request : Option PolicyRequest) :
    Transaction P m request s (policyApply P env request s).1 (policyApply P env request s).2 := by
  cases request with
  | none => exact .refused (show -einval ≠ 0 by decide)
  | some request =>
      simp only [policyApply]
      split
      · exact .refused (show -einval ≠ 0 by decide)
      · exact (applyLocked_effect P env request s).transaction hbound hs

/-- A request that changes the generation is published as its record, if that is clean and
normal. -/
theorem policyApply_published {P : Platform} {s : KernelState} {m : ℕ}
    (hbound : s.policyMap = some m) (hs : (s.maps m).Published) (env : ApplyEnv)
    {request : PolicyRequest} (haccepted : request.accepted)
    (hclean : Clean request.record.namespaceId)
    (hnormal : normalizeSnapshot request.record.snapshot = .ok request.record.snapshot)
    (hchanged : ((policyApply P env (some request) s).2.maps m).generation ≠
      (s.maps m).generation) :
    ∃ index,
      namespaceIndex ((policyApply P env (some request) s).2.maps m).active
          (some (cstr request.record.namespaceId)) = some index ∧
        ((policyApply P env (some request) s).2.maps m).active.records.get index =
          request.record := by
  have htransaction := policyApply_transaction (P := P) hbound hs env (some request)
  generalize policyApply P env (some request) s = result at hchanged htransaction ⊢
  by_cases hret : result.1 = 0
  · rcases htransaction.2 hret with ⟨hsame, -⟩ | ⟨r, hr, hreplaced⟩
    · exact absurd hsame.generation hchanged
    · obtain rfl := Option.some.inj hr
      obtain ⟨snapshot, candidate, index, hsnapshot, hcandidate, hslot⟩ := hreplaced.activeSlot
      obtain rfl := Except.ok.inj (hnormal.symm.trans hsnapshot)
      have hname : cstr request.record.namespaceId ≠ [] →
          validNamespace (cstr request.record.namespaceId) = true :=
        fun hne => haccepted.2.2.2 fun hzero => hne ((cstr_eq_nil_iff _).mpr hzero)
      have hwf := hs.wellFormed.candidate hname hnormal hcandidate
      obtain ⟨hindex, hkept, hid, hidClean⟩ := hcandidate.record hs.wellFormed hwf hname
      have hne : (result.2.maps m).generation ≠ 0 := by
        intro hzero
        have hsucc := hreplaced.generation
        rw [hzero] at hsucc
        exact absurd hsucc (Nat.succ_ne_zero _).symm
      rw [BpfMap.active_of_ne _ hne, hslot]
      refine ⟨index, ?_, ?_⟩
      · rw [← hindex]
        exact congrFun (namespaceIndex_congr rfl fun _ => rfl) _
      · exact congr (congrArg PolicyRecord.mk (hidClean.ext hclean hid)) hkept
  · exact absurd (htransaction.1 hret).generation hchanged

theorem policyUpdateField_transaction {P : Platform} {s : KernelState} {m : ℕ}
    (hbound : s.policyMap = some m) (hs : (s.maps m).Published) (requestAlloc : Bool)
    (env : ApplyEnv) (id field : Option Bytes) (value : UInt32) :
    Transaction P m (field.bind fun name => fieldRequest (s.maps m).active id name value) s
      (policyUpdateField P requestAlloc env id field value s).1
      (policyUpdateField P requestAlloc env id field value s).2 := by
  unfold policyUpdateField
  cases field with
  | none => exact .refused (show -einval ≠ 0 by decide)
  | some name =>
      simp only [Option.bind_some, hbound]
      split
      · exact .refused (show -einval ≠ 0 by decide)
      · split
        · exact .refused (show -enomem ≠ 0 by decide)
        · split
          · exact .refused (show -einval ≠ 0 by decide)
          · rename_i request hrequest
            rw [hrequest]
            exact (applyLocked_effect P env request s).transaction hbound hs

/-- In every reachable state with a bound map, both update calls are all or nothing. -/
theorem policy_updates_atomic (P : Platform) (maps : ℕ → BpfMap) (tpmPcrIndex : ℤ)
    (ops : List KernelOp) (m : ℕ) (hbound : (kernelRun P maps tpmPcrIndex ops).policyMap = some m)
    (env : ApplyEnv) :
    (∀ request : Option PolicyRequest,
      Transaction P m request (kernelRun P maps tpmPcrIndex ops)
        (policyApply P env request (kernelRun P maps tpmPcrIndex ops)).1
        (policyApply P env request (kernelRun P maps tpmPcrIndex ops)).2) ∧
      ∀ (requestAlloc : Bool) (id field : Option Bytes) (value : UInt32),
        Transaction P m
          (field.bind fun name =>
            fieldRequest ((kernelRun P maps tpmPcrIndex ops).maps m).active id name value)
          (kernelRun P maps tpmPcrIndex ops)
          (policyUpdateField P requestAlloc env id field value (kernelRun P maps tpmPcrIndex ops)).1
          (policyUpdateField P requestAlloc env id field value
            (kernelRun P maps tpmPcrIndex ops)).2 := by
  have hs := PolicyBound.of_run P maps tpmPcrIndex ops m hbound
  exact ⟨policyApply_transaction hbound hs env,
    fun requestAlloc id field value =>
      policyUpdateField_transaction hbound hs requestAlloc env id field value⟩

theorem policy_updates_atomic_verboseRequest :
    (policyApply referencePlatform workingApply (some verboseRequest)
        (kernelRun referencePlatform (fun _ => unboundPolicyMap) 10
          [.policyBindMap workingBind])).1 = 0 ∧
      Transaction referencePlatform 0 (some verboseRequest)
        (kernelRun referencePlatform (fun _ => unboundPolicyMap) 10 [.policyBindMap workingBind])
        (policyApply referencePlatform workingApply (some verboseRequest)
          (kernelRun referencePlatform (fun _ => unboundPolicyMap) 10
            [.policyBindMap workingBind])).1
        (policyApply referencePlatform workingApply (some verboseRequest)
          (kernelRun referencePlatform (fun _ => unboundPolicyMap) 10
            [.policyBindMap workingBind])).2 := by
  have hbound : (kernelRun referencePlatform (fun _ => unboundPolicyMap) 10
      [.policyBindMap workingBind]).policyMap = some 0 := by decide +kernel
  exact ⟨by decide +kernel, (policy_updates_atomic referencePlatform (fun _ => unboundPolicyMap) 10
    [.policyBindMap workingBind] 0 hbound workingApply).1 (some verboseRequest)⟩

end BpfIma
