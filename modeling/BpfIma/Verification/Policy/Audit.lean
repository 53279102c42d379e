import BpfIma.Verification.Attestation.History
import BpfIma.Verification.Policy.Representation

/-! # The audit trail of policy updates

Every published generation has one audit entry, in the list of what it changed, and one
value in the root history. -/

namespace BpfIma

open CString Machine

/-! ## What a run publishes -/

/-- The policy in force; zeros before a map is bound. -/
def KernelState.activePolicy (s : KernelState) : PolicyState :=
  match s.policyMap with
  | none => .zero
  | some m => (s.maps m).active

/-- The first record in which two policies differ. -/
def changedRecord (before after : PolicyState) : Option (Fin (policyNamespaces + 1)) :=
  (List.finRange (policyNamespaces + 1)).find? fun i =>
    decide (before.records.get i ≠ after.records.get i)

/-- A generation, the record it changed, and what that record became. -/
structure PolicyUpdate where
  generation : UInt64
  index : Fin (policyNamespaces + 1)
  record : PolicyRecord

/-- What was published between two states, as the policies in force show it. -/
def policyUpdate (s t : KernelState) : Option PolicyUpdate :=
  if policyGeneration t = policyGeneration s then none
  else
    (changedRecord s.activePolicy t.activePolicy).map fun i =>
      ⟨policyGeneration t, i, t.activePolicy.records.get i⟩

/-- A policy call: what it published and what it added to the root history. -/
structure PolicyCall where
  update : Option PolicyUpdate
  committed : List Digest

/-- The policy calls of a run. -/
def policyCalls (P : Platform) : KernelState → List KernelOp → List PolicyCall :=
  collect (kernelStep P) fun s op =>
    if op.isPolicyCall then
      some
        { update := policyUpdate s (kernelStep P s op).2
          committed := (kernelStep P s op).2.engine.historyValues.drop
            s.engine.historyValues.length }
    else none

/-- The updates that calls published, in order. -/
def publishedUpdates (calls : List PolicyCall) : List PolicyUpdate :=
  calls.filterMap PolicyCall.update

/-- The values that calls added to the root history, in order. -/
def committedByCalls (calls : List PolicyCall) : List Digest := calls.flatMap PolicyCall.committed

/-- The generation that an audit entry names, in the second field of its text. -/
def PolicyChange.generation (change : PolicyChange) : Option ℕ :=
  (Text.splitN 0x3a 3 (cstr change.policyString))[1]?.map Text.parseDecimal

/-- The audit entry of an update. -/
def PolicyUpdate.change (P : Platform) (u : PolicyUpdate) : PolicyChange :=
  policyChange P u.generation u.record

theorem changedRecord_eq_some {before after : PolicyState} {i : Fin (policyNamespaces + 1)}
    (hi : before.records.get i ≠ after.records.get i)
    (hother : ∀ j, i ≠ j → after.records.get j = before.records.get j) :
    changedRecord before after = some i := by
  unfold changedRecord
  cases hfind : (List.finRange (policyNamespaces + 1)).find? fun i =>
      decide (before.records.get i ≠ after.records.get i) with
  | none => exact absurd hi (by simpa using List.find?_eq_none.mp hfind i (List.mem_finRange i))
  | some j =>
      have hj : before.records.get j ≠ after.records.get j := by simpa using List.find?_some hfind
      by_cases hij : i = j
      · rw [hij]
      · exact absurd (hother j hij).symm hj

theorem generation_policyChange (P : Platform) (generation : UInt64) (record : PolicyRecord) :
    (policyChange P generation record).generation = some generation.toNat := by
  have htext : cstr (policyChange P generation record).policyString =
      policyString generation (cstr record.namespaceId) (snapshotDigest P record) :=
    cstr_snprintf_policyString (length_cstr_le _) (zero_notMem_cstr _) _ _
  have hseparator : (0x3a : UInt8) = fieldSeparator := rfl
  rw [PolicyChange.generation, htext, policyString_eq, hseparator, Text.splitN_append (by decide),
    Text.splitN_append (Text.notMem_decimal (by decide) _)]
  simp

/-! ## What a call does to the trail -/

/-- A call that publishes nothing. -/
structure AuditKept (s t : KernelState) : Prop where
  generation : policyGeneration t = policyGeneration s
  globalHistory : t.globalPolicyChangeHistory = s.globalPolicyChangeHistory
  grown : MetadataGrown s.policyNamespaceList t.policyNamespaceList

/-- A call that publishes `u`: the next generation, its entry in the list of what it changed,
and the digest of the entry in the root. -/
structure AuditPublished (P : Platform) (s t : KernelState) (u : PolicyUpdate) : Prop where
  next : u.generation = policyGeneration s + 1
  next_ne : u.generation ≠ 0
  generation : policyGeneration t = u.generation
  changed : changedRecord s.activePolicy t.activePolicy = some u.index
  record : t.activePolicy.records.get u.index = u.record
  recorded : ∃ namespaces metadata, MetadataGrown s.policyNamespaceList namespaces ∧
    AuditedIn namespaces (cstr u.record.namespaceId) u.index metadata ∧
    t.globalPolicyChangeHistory = (recordChange P metadata (u.change P)
      { s with policyNamespaceList := namespaces }).globalPolicyChangeHistory ∧
    t.policyNamespaceList = (recordChange P metadata (u.change P)
      { s with policyNamespaceList := namespaces }).policyNamespaceList
  commit : ∃ config env sourceId, commitRootLocked P.toHashSuite config env s.engine
    (some (u.change P).changeHash) sourceId = (0, t.engine)

/-- What a policy call does. -/
inductive PolicyOutcome (P : Platform) (s t : KernelState) : Prop where
  | kept (hkept : AuditKept s t)
      (hhistory : t.engine.merkleRootHistory = s.engine.merkleRootHistory)
  | published (u : PolicyUpdate) (h : AuditPublished P s t u)

theorem policyGeneration_of_bound {s : KernelState} {m : ℕ} (h : s.policyMap = some m) :
    policyGeneration s = (s.maps m).generation := by
  rw [policyGeneration, h]

theorem activePolicy_of_bound {s : KernelState} {m : ℕ} (h : s.policyMap = some m) :
    s.activePolicy = (s.maps m).active := by
  rw [KernelState.activePolicy, h]

theorem merkleRootHistory_of_failed {S : HashSuite} {config : PolicyConfig} {env : CommitEnv}
    {s engine : CommitState} {value : Option Digest} {sourceId : Option Bytes} {ret : Ret}
    (h : commitRootLocked S config env s value sourceId = (ret, engine)) (hret : ret ≠ 0) :
    engine.merkleRootHistory = s.merkleRootHistory := by
  have heffect := commitStep_effect S s (.commitRoot config env value sourceId)
  simp only [commitStep, h] at heffect
  cases heffect with
  | refused | commandFailed => rfl
  | rootCommitted => exact absurd rfl hret

theorem historyValues_of_committed {S : HashSuite} {config : PolicyConfig} {env : CommitEnv}
    {s engine : CommitState} {v : Digest} {sourceId : Option Bytes}
    (h : commitRootLocked S config env s (some v) sourceId = (0, engine))
    (hintact : Intact engine) : engine.historyValues = s.historyValues ++ [v] := by
  have heffect := commitStep_effect S s (.commitRoot config env (some v) sourceId)
  simp only [commitStep, h] at heffect
  cases heffect with
  | refused error hret => exact absurd rfl hret
  | commandFailed extra hunlatched hallowed hret => exact absurd hret (lt_irrefl _)
  | rootCommitted _ hardware p hunlatched hhardware hsoftware hp =>
      have hvalue : p.history.value = v := hp.history_value.trans hp.leaf
      rw [hintact.of_commit.2]
      cases hardware <;> simp [CommitState.historyValues, publishEvent, anchorRoot, hvalue]

/-- An update changes the record of its namespace and no other. -/
theorem CandidateOf.changed {state next : PolicyState} {id : Bytes} {snapshot : PolicySnapshot}
    {index : Fin (policyNamespaces + 1)} (h : state.WellFormed)
    (hname : id ≠ [] → validNamespace id = true)
    (hnext : CandidateOf state id snapshot next index)
    (hchanged : ¬ (index.val ≤ state.namespaceCount.toNat ∧
      snapshot = (state.records.get index).snapshot)) :
    changedRecord state next = some index ∧ cstr (next.records.get index).namespaceId = id := by
  cases hnext with
  | replaced _ hindex =>
      have hplace : index.val ≤ state.namespaceCount.toNat ∧
          cstr (state.records.get index).namespaceId = id := by
        rcases namespaceIndex_some hindex with ⟨hid, rfl⟩ | ⟨-, hlive, hid⟩
        · rw [h.rootId, cstr_zero]
          exact ⟨Nat.zero_le _, hid.symm⟩
        · exact ⟨hlive.2, hid⟩
      refine ⟨changedRecord_eq_some ?_ fun j hj => setRecord_get_of_ne _ _ hj, ?_⟩
      · rw [setRecord_get_same]
        intro heq
        exact hchanged ⟨hplace.1, (congrArg PolicyRecord.snapshot heq).symm⟩
      · rw [setRecord_get_same]
        exact hplace.2
  | appended hindex hcount =>
      obtain ⟨hne, -⟩ := namespaceIndex_none hindex
      obtain ⟨hlength, -, hzero⟩ := validNamespace_spec (hname hne)
      have hnext := PolicyState.Appended.of_count h.count hcount
        ⟨strscpy (CString.zero _) id, snapshot⟩
      have hcopy : cstr (strscpy (CString.zero namespaceSize) id) = id := cstr_strscpy hlength hzero
      have hunused := h.unused _ (Nat.lt_of_succ_le hnext.index_val.ge)
      refine ⟨changedRecord_eq_some ?_ hnext.other, by rw [hnext.self, hcopy]⟩
      rw [hnext.self, hunused]
      intro heq
      have hid : CString.zero namespaceSize = strscpy (CString.zero namespaceSize) id :=
        congrArg PolicyRecord.namespaceId heq
      exact hne (by rw [← hcopy, ← hid, cstr_zero])

theorem AuditKept.of_maps {s t : KernelState} (hpolicy : t.policyMap = s.policyMap)
    (hmaps : ∀ m, s.policyMap = some m → (t.maps m).generation = (s.maps m).generation)
    (hglobal : t.globalPolicyChangeHistory = s.globalPolicyChangeHistory)
    (hgrown : MetadataGrown s.policyNamespaceList t.policyNamespaceList) : AuditKept s t := by
  refine ⟨?_, hglobal, hgrown⟩
  cases hmap : s.policyMap with
  | none => rw [policyGeneration, policyGeneration, hpolicy, hmap]
  | some m =>
      rw [policyGeneration_of_bound hmap, policyGeneration_of_bound (hpolicy.trans hmap)]
      exact hmaps m hmap

theorem OtherEffect.kept {P : Platform} {s t : KernelState} {ret : Ret} (hs : PolicyBound s)
    (h : OtherEffect P s ret t) : AuditKept s t := by
  cases h with
  | engine engine namespaces hmoves hgrown => exact .of_maps rfl (fun _ _ => rfl) rfl hgrown
  | mapSyscall m map hreach =>
      refine .of_maps rfl (fun m' hm' => ?_) rfl (.refl _)
      have hne : m' ≠ m := by
        rintro rfl
        exact hreach (hs m' hm').sealed
      rw [s.setMap_maps_of_ne map hne]

theorem BindEffect.outcome {P : Platform} {env : BindEnv} {s t : KernelState} {ret : Ret}
    (h : BindEffect P env s ret t) : PolicyOutcome P s t := by
  cases h with
  | refused error hret herror => exact .kept (.of_maps rfl (fun _ _ => rfl) rfl (.refl _)) rfl
  | alreadyBound => exact .kept (.of_maps rfl (fun _ _ => rfl) rfl (.refl _)) rfl
  | notCommitted m engine hret hbound hcommit =>
      exact .kept (.of_maps rfl (fun _ _ => rfl) rfl (.refl _))
        (merkleRootHistory_of_failed hcommit hret)
  | bound m engine hunbound hfrozen hzero hcommit =>
      have hgeneration : ((s.mapGet m).maps m).generation = 0 := by
        rw [KernelState.mapGet, KernelState.setMap_maps_self]
        exact generation_of_zeroed hzero
      have hbefore : policyGeneration s = 0 ∧ s.activePolicy = PolicyState.zero := by
        rw [policyGeneration, KernelState.activePolicy, hunbound]
        exact ⟨rfl, rfl⟩
      have hactive := (published_of_bound (P := P) hfrozen hzero engine).2
      have hevent : policyEvent P ((s.mapGet m).maps m) initialPolicyState 0 =
          policyChange P 1 (initialPolicyState.records.get 0) := by
        rw [policyEvent, hgeneration]
        rfl
      refine .published ⟨1, 0, initialPolicyState.records.get 0⟩ ⟨?_, by decide, ?_, ?_, ?_, ?_, ?_⟩
      · rw [hbefore.1]
        rfl
      · rw [policyGeneration_of_bound rfl]
        have hmap := maps_publishedState P (s.mapGet m) m initialPolicyState 0 none engine
        simp only [hmap, BpfMap.generation_publish, nextCandidate, hgeneration]
        rfl
      · rw [hbefore.2, activePolicy_of_bound rfl, hactive]
        decide +kernel
      · rw [activePolicy_of_bound rfl, hactive]
      · refine ⟨s.policyNamespaceList, none, .refl _, .inl ⟨rfl, rfl⟩, ?_, rfl⟩
        rw [PolicyUpdate.change, ← hevent]
        rfl
      · rw [PolicyUpdate.change, ← hevent]
        exact ⟨_, _, _, hcommit⟩

theorem ApplyEffect.outcome {P : Platform} {env : ApplyEnv} {request : PolicyRequest}
    {s t : KernelState} {ret : Ret} (hs : PolicyBound s)
    (hname : cstr request.record.namespaceId ≠ [] →
      validNamespace (cstr request.record.namespaceId) = true)
    (h : ApplyEffect P env request s ret t) : PolicyOutcome P s t := by
  cases h with
  | refused error namespaces hret herror hadded =>
      exact .kept (.of_maps rfl (fun _ _ => rfl) rfl ⟨_, hadded⟩) rfl
  | unchanged m namespaces hbound hadded =>
      exact .kept (.of_maps rfl (fun _ _ => rfl) rfl ⟨_, hadded⟩) rfl
  | attempted m namespaces snapshot candidate index metadata hbound hadded hnormal hcandidate
      hvalid haudited hpublish hchanged =>
      cases hpublish with
      | refused => exact .kept (.of_maps rfl (fun _ _ => rfl) rfl ⟨_, hadded⟩) rfl
      | notCommitted engine hret hcommit =>
          refine .kept (.of_maps rfl (fun m' hm' => ?_) rfl ⟨_, hadded⟩)
            (merkleRootHistory_of_failed hcommit hret)
          obtain rfl := Option.some.inj (hbound.symm.trans hm')
          simp only [maps_stageCandidate, BpfMap.generation_stage]
      | published engine hgeneration hcommit =>
          obtain ⟨hindex, hid⟩ :=
            hcandidate.changed (hs m hbound).active_wellFormed hname hchanged
          have hmap := maps_publishedState P { s with policyNamespaceList := namespaces } m
            candidate index metadata engine
          have hbound' : (publishedState P { s with policyNamespaceList := namespaces } m candidate
              index metadata engine).policyMap = some m := by
            cases metadata <;> exact hbound
          have hactive : (publishedState P { s with policyNamespaceList := namespaces } m candidate
              index metadata engine).activePolicy = nextCandidate (s.maps m) candidate := by
            rw [activePolicy_of_bound hbound', hmap]
            exact (s.maps m).active_publish_stage _ hgeneration
          refine .published ⟨(s.maps m).generation + 1, index, candidate.records.get index⟩
            ⟨?_, hgeneration, ?_, ?_, ?_, ?_, ?_⟩
          · rw [policyGeneration_of_bound hbound]
          · rw [policyGeneration_of_bound hbound', hmap, BpfMap.generation_publish]
            rfl
          · rw [hactive, activePolicy_of_bound hbound]
            exact hindex
          · rw [hactive]
            rfl
          · refine ⟨namespaces, metadata, ⟨_, hadded⟩, ?_, ?_, ?_⟩
            · rw [hid]
              exact haudited
            all_goals cases metadata <;> rfl
          · rw [engine_publishedState]
            exact ⟨_, _, _, hcommit⟩

theorem PolicyEffect.outcome {P : Platform} {s t : KernelState} {ret : Ret} (hs : PolicyBound s)
    (h : PolicyEffect P s ret t) : PolicyOutcome P s t := by
  cases h with
  | bind env heffect => exact heffect.outcome
  | update env heffect =>
      cases heffect with
      | refused => exact .kept (.of_maps rfl (fun _ _ => rfl) rfl (.refl _)) rfl
      | applied request hname happly => exact happly.outcome hs hname

/-! ## Runs -/

/-- What the audit lists are after the calls so far. -/
structure AuditLog (P : Platform) (s : KernelState) (calls : List PolicyCall) : Prop where
  bound : PolicyBound s
  generation : (policyGeneration s).toNat = (publishedUpdates calls).length
  numbered : (publishedUpdates calls).map (fun u => u.generation.toNat) =
    List.range' 1 (publishedUpdates calls).length
  entries : s.policyChanges.Perm ((publishedUpdates calls).map (PolicyUpdate.change P))
  root : s.globalPolicyChangeHistory =
    ((publishedUpdates calls).filter fun u => u.index = 0).map (PolicyUpdate.change P)
  named : ∀ ns ∈ s.policyNamespaceList, ∀ change ∈ ns.changeHistory,
    ∃ u ∈ publishedUpdates calls, u.index ≠ 0 ∧ change = u.change P ∧
      cstr ns.namespaceId = cstr u.record.namespaceId
  folded : ∀ ns ∈ s.policyNamespaceList,
    ns.changesHash = P.foldDigests (ns.changeHistory.map PolicyChange.changeHash)
  committed : Intact s.engine → committedByCalls calls =
    (publishedUpdates calls).map fun u => (u.change P).changeHash

theorem MetadataGrown.forall_mem {before after : List PolicyNamespace} {I : PolicyNamespace → Prop}
    (hgrown : MetadataGrown before after) (hfresh : ∀ id, I (freshPolicyNamespace id))
    (h : ∀ ns ∈ before, I ns) : ∀ ns ∈ after, I ns := by
  obtain ⟨id, rfl | rfl⟩ := hgrown
  · exact h
  · intro ns hns
    rcases List.mem_append.mp hns with hns | hns
    · exact h ns hns
    · rw [List.mem_singleton.mp hns]
      exact hfresh id

theorem policyUpdate_kept {s t : KernelState} (h : AuditKept s t) : policyUpdate s t = none :=
  if_pos h.generation

theorem policyUpdate_published {P : Platform} {s t : KernelState} {u : PolicyUpdate}
    (h : AuditPublished P s t u) : policyUpdate s t = some u := by
  have hne : policyGeneration t ≠ policyGeneration s := by
    have hnat := toNat_succ_of_ne_zero (h.next ▸ h.next_ne)
    rw [h.generation, h.next]
    intro heq
    rw [heq] at hnat
    omega
  rw [policyUpdate, if_neg hne, h.changed, Option.map_some, h.generation, h.record]

@[simp] theorem publishedUpdates_concat (calls : List PolicyCall) (call : PolicyCall) :
    publishedUpdates (calls ++ [call]) = publishedUpdates calls ++ call.update.toList := by
  cases hcall : call.update <;> simp [publishedUpdates, hcall]

@[simp] theorem committedByCalls_concat (calls : List PolicyCall) (call : PolicyCall) :
    committedByCalls (calls ++ [call]) = committedByCalls calls ++ call.committed := by
  simp [committedByCalls]

namespace AuditLog

variable {P : Platform} {s t : KernelState} {calls : List PolicyCall}

/-- A call that publishes nothing, whether it is a policy call or not. -/
theorem kept (h : AuditLog P s calls) (hkept : AuditKept s t) (ht : PolicyBound t)
    {calls' : List PolicyCall} (hupdates : publishedUpdates calls' = publishedUpdates calls)
    (hcommitted : Intact t.engine →
      Intact s.engine ∧ committedByCalls calls' = committedByCalls calls) :
    AuditLog P t calls' := by
  have hchanges : t.policyChanges = s.policyChanges := by
    obtain ⟨id, hsame | hadded⟩ := hkept.grown
    · rw [KernelState.policyChanges, hkept.globalHistory, hsame]
      rfl
    · rw [KernelState.policyChanges, hkept.globalHistory, hadded]
      simp [KernelState.policyChanges, freshPolicyNamespace]
  refine ⟨ht, ?_, ?_, ?_, ?_, ?_, ?_, fun hintact => ?_⟩
  · rw [hkept.generation, hupdates]
    exact h.generation
  · rw [hupdates]
    exact h.numbered
  · rw [hchanges, hupdates]
    exact h.entries
  · rw [hkept.globalHistory, hupdates]
    exact h.root
  · rw [hupdates]
    exact hkept.grown.forall_mem (fun id change hmem => by cases hmem) h.named
  · exact hkept.grown.forall_mem (fun id => rfl) h.folded
  · obtain ⟨hs, hsame⟩ := hcommitted hintact
    rw [hsame, hupdates]
    exact h.committed hs

theorem policyChanges_recordChange_perm {metadata : Option ℕ} (change : PolicyChange)
    (hvalid : ∀ i ∈ metadata, i < s.policyNamespaceList.length) :
    (recordChange P metadata change s).policyChanges.Perm (s.policyChanges ++ [change]) := by
  cases metadata with
  | none =>
      simp only [recordChange, KernelState.policyChanges, List.append_assoc]
      exact List.Perm.append_left _ List.perm_append_comm
  | some i =>
      obtain ⟨before, entry, after, hlist, -, hmodify⟩ :=
        List.exists_of_modify (PolicyNamespace.append P change) (hvalid i rfl)
      simp only [recordChange, KernelState.policyChanges, hmodify, PolicyNamespace.append]
      rw [hlist]
      simp only [List.flatMap_append, List.flatMap_cons, List.append_assoc]
      refine List.Perm.append_left _ (List.Perm.append_left _ (List.Perm.append_left _ ?_))
      exact List.perm_append_comm

/-- Where an update is recorded depends on the record it changed. -/
theorem recorded_cases {u : PolicyUpdate} (h : AuditPublished P s t u) :
    ∃ namespaces, MetadataGrown s.policyNamespaceList namespaces ∧
      (u.index = 0 ∧ t.policyNamespaceList = namespaces ∧
          t.globalPolicyChangeHistory = s.globalPolicyChangeHistory ++ [u.change P] ∨
        u.index ≠ 0 ∧ t.globalPolicyChangeHistory = s.globalPolicyChangeHistory ∧
          ∃ i entry, namespaces[i]? = some entry ∧
            cstr entry.namespaceId = cstr u.record.namespaceId ∧
            t.policyNamespaceList =
              namespaces.modify i (PolicyNamespace.append P (u.change P))) := by
  obtain ⟨namespaces, metadata, hgrown, haudited, hglobal, hlist⟩ := h.recorded
  refine ⟨namespaces, hgrown, ?_⟩
  rcases haudited with ⟨hindex, rfl⟩ | ⟨hindex, i, entry, rfl, hentry, hid⟩
  · exact .inl ⟨hindex, hlist, hglobal⟩
  · exact .inr ⟨hindex, hglobal, i, entry, hentry, hid, hlist⟩

theorem policyChanges_published {u : PolicyUpdate} (h : AuditPublished P s t u) :
    t.policyChanges.Perm (s.policyChanges ++ [u.change P]) := by
  obtain ⟨namespaces, metadata, hgrown, haudited, hglobal, hlist⟩ := h.recorded
  have hrecorded : t.policyChanges =
      (recordChange P metadata (u.change P)
        { s with policyNamespaceList := namespaces }).policyChanges := by
    rw [KernelState.policyChanges, hglobal, hlist]
    rfl
  have hsame := AuditedHistory.policyChanges_grown hgrown s.engine
  rw [hrecorded, ← hsame]
  refine policyChanges_recordChange_perm _ ?_
  rintro i rfl
  rcases haudited with ⟨-, hnone⟩ | ⟨-, j, entry, hsome, hentry, -⟩
  · cases hnone
  · obtain rfl := Option.some.inj hsome
    exact (List.getElem?_eq_some_iff.mp hentry).1

/-- What holds of every namespace before a publication holds of every one after it, if a new
namespace has it and an entry for the namespace of the update keeps it. -/
theorem forall_mem_published {u : PolicyUpdate} (h : AuditPublished P s t u)
    {I : PolicyNamespace → Prop} (hfresh : ∀ id, I (freshPolicyNamespace id))
    (hbefore : ∀ ns ∈ s.policyNamespaceList, I ns)
    (happend : u.index ≠ 0 → ∀ ns, cstr ns.namespaceId = cstr u.record.namespaceId →
      I ns → I (ns.append P (u.change P))) :
    ∀ ns ∈ t.policyNamespaceList, I ns := by
  obtain ⟨namespaces, hgrown, hplace⟩ := recorded_cases h
  have hnamespaces := hgrown.forall_mem hfresh hbefore
  rcases hplace with ⟨-, hlist, -⟩ | ⟨hindex, -, i, entry, hentry, hid, hlist⟩
  · rw [hlist]
    exact hnamespaces
  · rw [hlist]
    refine forall_mem_modify hnamespaces ?_
    intro ns hns
    obtain rfl := Option.some.inj (hentry.symm.trans hns)
    exact happend hindex entry hid (hnamespaces entry (List.mem_of_getElem? hentry))

theorem root_published {u : PolicyUpdate} (h : AuditPublished P s t u) :
    t.globalPolicyChangeHistory = s.globalPolicyChangeHistory ++
      ([u].filter fun u => u.index = 0).map (PolicyUpdate.change P) := by
  obtain ⟨namespaces, -, ⟨hindex, -, hglobal⟩ | ⟨hindex, hglobal, -⟩⟩ := recorded_cases h
  · rw [hglobal]
    simp [hindex]
  · rw [hglobal]
    simp [hindex]

theorem published (h : AuditLog P s calls) {u : PolicyUpdate} (hpublished : AuditPublished P s t u)
    (ht : PolicyBound t) {values : List Digest}
    (hvalues : Intact t.engine → Intact s.engine ∧ values = [(u.change P).changeHash]) :
    AuditLog P t (calls ++ [⟨some u, values⟩]) := by
  have hupdates : publishedUpdates (calls ++ [⟨some u, values⟩]) = publishedUpdates calls ++ [u] :=
    publishedUpdates_concat calls _
  have hnext : u.generation.toNat = (publishedUpdates calls).length + 1 := by
    rw [hpublished.next, toNat_succ_of_ne_zero (hpublished.next ▸ hpublished.next_ne), h.generation]
  refine ⟨ht, ?_, ?_, ?_, ?_, ?_, ?_, fun hintact => ?_⟩
  · rw [hpublished.generation, hnext, hupdates, List.length_append]
    rfl
  · rw [hupdates, List.map_append, h.numbered, List.length_append]
    simp [List.range'_1_concat, hnext, add_comm]
  · rw [hupdates, List.map_append]
    exact (policyChanges_published hpublished).trans (h.entries.append_right _)
  · rw [hupdates, List.filter_append, List.map_append, ← h.root]
    exact root_published hpublished
  · rw [hupdates]
    refine forall_mem_published hpublished (fun id change hmem => by cases hmem) ?_ ?_
    · intro ns hns change hchange
      obtain ⟨u', hu', hprops⟩ := h.named ns hns change hchange
      exact ⟨u', List.mem_append_left _ hu', hprops⟩
    · intro hindex ns hid hns change hchange
      rcases List.mem_append.mp hchange with hold | hnew
      · exact hns change hold
      · exact ⟨u, by simp, hindex, List.mem_singleton.mp hnew, hid⟩
  · refine forall_mem_published hpublished (fun id => rfl) h.folded ?_
    intro _ ns _ hold
    simp only [PolicyNamespace.append, List.map_append, List.map_cons, List.map_nil,
      P.foldDigests_concat, ← hold]
    rfl
  · obtain ⟨hs, rfl⟩ := hvalues hintact
    rw [committedByCalls_concat, h.committed hs, hupdates, List.map_append]
    rfl

/-- The step lemma, with what the step adds to the log. -/
theorem step (h : AuditLog P s calls) (op : KernelOp) :
    AuditLog P (kernelStep P s op).2
      (calls ++ (if op.isPolicyCall then
        some (PolicyCall.mk (policyUpdate s (kernelStep P s op).2)
          ((kernelStep P s op).2.engine.historyValues.drop s.engine.historyValues.length))
        else none).toList) := by
  have ht := h.bound.step (kernelStep_effect P s op)
  have hextends := (kernelStep_effect P s op).extends
  cases hop : op.isPolicyCall with
  | false =>
      refine h.kept ((kernelStep_other P s hop).kept h.bound) ht (by simp) fun hintact => ?_
      exact ⟨(hextends hintact).1, by simp⟩
  | true =>
      simp only [if_true, Option.toList_some]
      cases (kernelStep_policy P s hop).outcome h.bound with
      | kept hkept hhistory =>
          rw [policyUpdate_kept hkept]
          refine h.kept hkept ht (by simp) fun hintact => ⟨(hextends hintact).1, ?_⟩
          simp [CommitState.historyValues, hhistory]
      | published u hpublished =>
          rw [policyUpdate_published hpublished]
          refine h.published hpublished ht fun hintact => ⟨(hextends hintact).1, ?_⟩
          obtain ⟨config, env, sourceId, hcommit⟩ := hpublished.commit
          rw [historyValues_of_committed hcommit hintact, List.drop_left]

theorem of_run (P : Platform) (maps : ℕ → BpfMap) (tpmPcrIndex : ℤ) (ops : List KernelOp) :
    AuditLog P (kernelRun P maps tpmPcrIndex ops)
      (policyCalls P (moduleLoaded maps tpmPcrIndex) ops) := by
  refine run_collect (G := fun _ _ => True) (fun s op calls _ h => h.step op)
    (along_true _ _ (fun _ _ => trivial) _ _) ⟨?_, rfl, rfl, .refl _, rfl, ?_, ?_, fun _ => rfl⟩
  · intro m hm
    cases hm
  · intro ns hns
    cases hns
  · intro ns hns
    cases hns

end AuditLog

/-! ## Agreement -/

/-- The audit lists, the generation and the root history of a state agree on the updates that
led to it and on the values that policy calls committed. -/
structure AuditAgrees (P : Platform) (s : KernelState) (updates : List PolicyUpdate)
    (committed : List Digest) : Prop where
  numbered : updates.map (fun u => u.generation.toNat) =
    List.range' 1 (policyGeneration s).toNat
  oneEach : (s.policyChanges.map PolicyChange.generation).Perm
    ((List.range' 1 (policyGeneration s).toNat).map some)
  root : ∀ u ∈ updates, ∀ change ∈ s.policyChanges, change.generation = some u.generation.toNat →
    (change ∈ s.globalPolicyChangeHistory ↔ u.index = 0)
  named : ∀ u ∈ updates, ∀ change ∈ s.policyChanges, change.generation = some u.generation.toNat →
    u.index ≠ 0 → ∃ ns ∈ s.policyNamespaceList,
      cstr ns.namespaceId = cstr u.record.namespaceId ∧ change ∈ ns.changeHistory
  changeHash : ∀ change ∈ s.policyChanges,
    change.changeHash = P.sha256 (cstr change.policyString)
  committed_length : committed.length = (policyGeneration s).toNat
  committed_get : ∀ change ∈ s.policyChanges, ∀ n, change.generation = some (n + 1) →
    committed[n]? = some change.changeHash
  changesHash : ∀ ns ∈ s.policyNamespaceList, ns.changesHash =
    (ns.changeHistory.map PolicyChange.changeHash).foldl P.extendHash zeroDigest

namespace AuditLog

variable {P : Platform} {s : KernelState} {calls : List PolicyCall}

theorem generation_change (u : PolicyUpdate) :
    (u.change P).generation = some u.generation.toNat :=
  generation_policyChange P u.generation u.record

/-- The update that published a generation. -/
theorem eq_of_generation (h : AuditLog P s calls) {u u' : PolicyUpdate}
    (hu : u ∈ publishedUpdates calls) (hu' : u' ∈ publishedUpdates calls)
    (heq : u.generation.toNat = u'.generation.toNat) : u = u' := by
  have hnodup : ((publishedUpdates calls).map fun u => u.generation.toNat).Nodup := by
    rw [h.numbered]
    exact List.nodup_range'
  exact List.inj_on_of_nodup_map hnodup hu hu' heq

/-- Every entry is that of one update. -/
theorem eq_change (h : AuditLog P s calls) {change : PolicyChange} (hc : change ∈ s.policyChanges) :
    ∃ u ∈ publishedUpdates calls, change = u.change P := by
  obtain ⟨u, hu, hchange⟩ := List.mem_map.mp (h.entries.mem_iff.mp hc)
  exact ⟨u, hu, hchange.symm⟩

theorem change_eq (h : AuditLog P s calls) {u : PolicyUpdate} {change : PolicyChange}
    (hu : u ∈ publishedUpdates calls) (hc : change ∈ s.policyChanges)
    (hgeneration : change.generation = some u.generation.toNat) : change = u.change P := by
  obtain ⟨u', hu', rfl⟩ := h.eq_change hc
  rw [generation_change, Option.some.injEq] at hgeneration
  rw [h.eq_of_generation hu' hu hgeneration]

theorem mem_global_iff (h : AuditLog P s calls) {u : PolicyUpdate}
    (hu : u ∈ publishedUpdates calls) :
    u.change P ∈ s.globalPolicyChangeHistory ↔ u.index = 0 := by
  rw [h.root]
  constructor
  · intro hmem
    obtain ⟨u', hu', hchange⟩ := List.mem_map.mp hmem
    obtain ⟨hu', hindex⟩ := List.mem_filter.mp hu'
    have hgeneration := congrArg PolicyChange.generation hchange
    rw [generation_change, generation_change, Option.some.injEq] at hgeneration
    rw [← h.eq_of_generation hu' hu hgeneration]
    simpa using hindex
  · intro hindex
    exact List.mem_map_of_mem (List.mem_filter.mpr ⟨hu, by simpa using hindex⟩)

theorem getElem?_updates (h : AuditLog P s calls) {u : PolicyUpdate}
    (hu : u ∈ publishedUpdates calls) {n : ℕ} (hn : u.generation.toNat = n + 1) :
    (publishedUpdates calls)[n]? = some u := by
  obtain ⟨k, hk⟩ := List.mem_iff_getElem?.mp hu
  have hnumber := congrArg (·[k]?) h.numbered
  simp only [List.getElem?_map, hk, Option.map_some, hn] at hnumber
  have hlt := (List.getElem?_eq_some_iff.mp hk).1
  rw [List.getElem?_range' hlt, Option.some.injEq] at hnumber
  obtain rfl : k = n := by omega
  exact hk

theorem agrees (h : AuditLog P s calls) (hintact : Intact s.engine) :
    AuditAgrees P s (publishedUpdates calls) (committedByCalls calls) where
  numbered := by rw [h.numbered, h.generation]
  oneEach := by
    refine (h.entries.map PolicyChange.generation).trans (List.Perm.of_eq ?_)
    rw [List.map_map, h.generation, ← h.numbered, List.map_map]
    refine List.map_congr_left fun u _ => ?_
    rw [Function.comp_apply, Function.comp_apply, generation_change]
  root u hu change hc hgeneration := by
    rw [h.change_eq hu hc hgeneration]
    exact h.mem_global_iff hu
  named u hu change hc hgeneration hindex := by
    obtain rfl := h.change_eq hu hc hgeneration
    rcases List.mem_append.mp hc with hglobal | hlist
    · exact absurd ((h.mem_global_iff hu).mp hglobal) hindex
    · obtain ⟨ns, hns, hmem⟩ := List.mem_flatMap.mp hlist
      obtain ⟨u', hu', -, hchange, hid⟩ := h.named ns hns _ hmem
      have hsame := congrArg PolicyChange.generation hchange
      rw [generation_change, generation_change, Option.some.injEq] at hsame
      rw [← h.eq_of_generation hu hu' hsame] at hid
      exact ⟨ns, hns, hid, hmem⟩
  changeHash change hc := by
    obtain ⟨u, -, rfl⟩ := h.eq_change hc
    exact (policyChange_wellFormed P _ _).changeHash
  committed_length := by rw [h.committed hintact, List.length_map, h.generation]
  committed_get change hc n hgeneration := by
    obtain ⟨u, hu, rfl⟩ := h.eq_change hc
    rw [generation_change, Option.some.injEq] at hgeneration
    rw [h.committed hintact, List.getElem?_map, h.getElem?_updates hu hgeneration]
    rfl
  changesHash := h.folded

end AuditLog

/-- In every run without trimming, each generation has one audit entry, in the global list if
it changed the root and else in the list of the namespace it changed; the values that policy
calls committed are the digests of these entries, in the order of the generations. -/
theorem policy_audit_trail_agrees (P : Platform) (maps : ℕ → BpfMap) (tpmPcrIndex : ℤ)
    (ops : List KernelOp) (hintact : Intact (kernelRun P maps tpmPcrIndex ops).engine) :
    AuditAgrees P (kernelRun P maps tpmPcrIndex ops)
      (publishedUpdates (policyCalls P (moduleLoaded maps tpmPcrIndex) ops))
      (committedByCalls (policyCalls P (moduleLoaded maps tpmPcrIndex) ops)) :=
  (AuditLog.of_run P maps tpmPcrIndex ops).agrees hintact

/-- Binding, a measurement, an update of a namespace, one that is abandoned, and one of the
root. -/
def auditedOps : List KernelOp :=
  let quiet : PolicyRequest :=
    { verboseRequest with
      record :=
        { namespaceId := CString.zero _
          snapshot :=
            { initDefaultSnapshot with
              config := { initDefaultSnapshot.config with logLevel := 1 } } } }
  [.policyBindMap workingBind, .containerGetOrCreate workingCreate (some ("web".ascii ++ [0])),
    fileMeasured 0 "x".ascii] ++ abandonedOps ++ [.policyApply workingApply (some quiet)]

theorem policy_audit_trail_agrees_auditedOps :
    Intact (kernelRun referencePlatform (fun _ => unboundPolicyMap) 10 auditedOps).engine ∧
      (kernelRun referencePlatform (fun _ => unboundPolicyMap) 10
        auditedOps).policyChanges.map PolicyChange.generation = [some 1, some 3, some 2] ∧
      AuditAgrees referencePlatform
        (kernelRun referencePlatform (fun _ => unboundPolicyMap) 10 auditedOps)
        (publishedUpdates (policyCalls referencePlatform
          (moduleLoaded (fun _ => unboundPolicyMap) 10) auditedOps))
        (committedByCalls (policyCalls referencePlatform
          (moduleLoaded (fun _ => unboundPolicyMap) 10) auditedOps)) := by
  have hrun : Intact (kernelRun referencePlatform (fun _ => unboundPolicyMap) 10
      auditedOps).engine ∧
      (kernelRun referencePlatform (fun _ => unboundPolicyMap) 10
        auditedOps).policyChanges.map PolicyChange.generation = [some 1, some 3, some 2] := by
    decide +kernel
  exact ⟨hrun.1, hrun.2, policy_audit_trail_agrees referencePlatform (fun _ => unboundPolicyMap) 10
    auditedOps hrun.1⟩

end BpfIma
