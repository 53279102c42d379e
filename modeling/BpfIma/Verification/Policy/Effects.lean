import BpfIma.Model.Kernel
import BpfIma.Verification.Commit.Effects
import BpfIma.Verification.Policy.EventText

/-! # What a policy call can do

The slots of the map, and the outcomes of publication, of an update and of binding, as
rules that say all that each of them changes. -/

namespace BpfIma

open CString Errno

/-! ## Slots -/

theorem stateSlot_ne_zero (generation : UInt64) : stateSlot generation ≠ 0 := by
  unfold stateSlot
  split <;> decide

theorem and_one_eq_zero_iff (g : UInt64) : g &&& 1 = 0 ↔ g.toNat % 2 = 0 := by
  rw [← UInt64.toNat_inj, UInt64.toNat_and]
  simp [Nat.and_one_is_mod]

/-- Generations count until they wrap. -/
theorem toNat_succ_of_ne_zero {g : UInt64} (h : g + 1 ≠ 0) : (g + 1).toNat = g.toNat + 1 := by
  have hone : (1 : UInt64).toNat = 1 := rfl
  rw [UInt64.toNat_add, hone]
  refine Nat.mod_eq_of_lt (lt_of_le_of_ne (Nat.succ_le_of_lt g.toNat_lt) fun hmax => h ?_)
  rw [← UInt64.toNat_inj, UInt64.toNat_add, hone, hmax]
  rfl

theorem succ_ne_zero_of_ne_max {g : UInt64} (h : g ≠ 0xffffffffffffffff) : g + 1 ≠ 0 := by
  intro hzero
  apply h
  have hnat := congrArg UInt64.toNat hzero
  have hlt := g.toNat_lt
  rw [UInt64.toNat_add] at hnat
  rw [← UInt64.toNat_inj]
  simp at hnat ⊢
  omega

/-- A candidate is staged into the slot that is not active. -/
theorem stateSlot_succ_ne (generation : UInt64) :
    stateSlot (generation + 1) ≠ stateSlot generation := by
  have hparity : (generation + 1) &&& 1 = 0 ↔ ¬ generation &&& 1 = 0 := by
    rw [and_one_eq_zero_iff, and_one_eq_zero_iff, UInt64.toNat_add]
    simp
    omega
  unfold stateSlot
  by_cases h : generation &&& 1 = 0
  · rw [if_neg (fun hnext => hparity.mp hnext h), if_pos h]
    decide
  · rw [if_pos (hparity.mpr h), if_neg h]
    decide

namespace BpfMap

variable (map : BpfMap) (candidate : PolicyState)

@[simp] theorem generation_stage : (map.stage candidate).generation = map.generation := by
  rw [BpfMap.generation, BpfMap.stage, List.Vector.get_set_of_ne (stateSlot_ne_zero _)]
  rfl

@[simp] theorem generation_publish (g : UInt64) : (map.publish g).generation = g := by
  rw [BpfMap.generation, BpfMap.publish, List.Vector.get_set_same]

theorem active_of_ne (h : map.generation ≠ 0) :
    map.active = map.slots.get (stateSlot map.generation) := by
  rw [BpfMap.active, activeState, if_neg h]
  rfl

/-- The next generation is staged in the slot that is not active. -/
theorem activeSlot_stage (h : candidate.generation = map.generation + 1) :
    (map.stage candidate).slots.get (stateSlot map.generation) =
      map.slots.get (stateSlot map.generation) := by
  rw [BpfMap.stage, h]
  exact List.Vector.get_set_of_ne (stateSlot_succ_ne _) _

theorem active_stage (h : candidate.generation = map.generation + 1) :
    (map.stage candidate).active = map.active := by
  rw [BpfMap.active, activeState, generation_stage, activeSlot_stage _ _ h, BpfMap.active,
    activeState]

/-- Publishing what was staged makes it the active state. -/
theorem active_publish_stage (h : candidate.generation ≠ 0) :
    ((map.stage candidate).publish candidate.generation).active = candidate := by
  rw [active_of_ne _ (by simpa using h), generation_publish]
  rw [BpfMap.publish, List.Vector.get_set_of_ne (stateSlot_ne_zero _).symm, BpfMap.stage,
    List.Vector.get_set_same]

end BpfMap

@[simp] theorem KernelState.setMap_maps_self (s : KernelState) (m : ℕ) (map : BpfMap) :
    (s.setMap m map).maps m = map := by
  simp [KernelState.setMap]

theorem KernelState.setMap_maps_of_ne (s : KernelState) {m n : ℕ} (map : BpfMap) (h : n ≠ m) :
    (s.setMap m map).maps n = s.maps n := by
  simp [KernelState.setMap, h]

/-! ## Publication -/

section Publish

variable (P : Platform)

/-- The candidate under the next generation of the map. -/
def nextCandidate (map : BpfMap) (candidate : PolicyState) : PolicyState :=
  { candidate with generation := map.generation + 1 }

/-- The audit entry of publishing record `index` of the candidate. -/
def policyEvent (map : BpfMap) (candidate : PolicyState) (index : Fin (policyNamespaces + 1)) :
    PolicyChange :=
  policyChange P (map.generation + 1) (candidate.records.get index)

/-- The state in which a candidate is staged and not yet committed. -/
def stageCandidate (s : KernelState) (m : ℕ) (candidate : PolicyState) : KernelState :=
  s.setMap m ((s.maps m).stage (nextCandidate (s.maps m) candidate))

/-- The root commit of a policy event. -/
def commitPolicy (env : PublishEnv) (s : KernelState) (m : ℕ) (candidate : PolicyState)
    (index : Fin (policyNamespaces + 1)) : Ret × CommitState :=
  commitRootLocked P.toHashSuite (policyGetConfig (stageCandidate s m candidate)) env.commit
    (stageCandidate s m candidate).engine
    (some (policyEvent P (s.maps m) candidate index).changeHash)
    (some (policySource (cstr (candidate.records.get index).namespaceId)))

/-- The state after a policy event was committed, with the engine it left. -/
def publishedState (s : KernelState) (m : ℕ) (candidate : PolicyState)
    (index : Fin (policyNamespaces + 1)) (metadata : Option ℕ) (engine : CommitState) :
    KernelState :=
  (recordChange P metadata (policyEvent P (s.maps m) candidate index)
    { stageCandidate s m candidate with engine := engine }).setMap m
    (((s.maps m).stage (nextCandidate (s.maps m) candidate)).publish ((s.maps m).generation + 1))

theorem maps_stageCandidate (s : KernelState) (m : ℕ) (candidate : PolicyState) :
    (stageCandidate s m candidate).maps m =
      (s.maps m).stage (nextCandidate (s.maps m) candidate) :=
  s.setMap_maps_self m _

theorem maps_publishedState (s : KernelState) (m : ℕ) (candidate : PolicyState)
    (index : Fin (policyNamespaces + 1)) (metadata : Option ℕ) (engine : CommitState) :
    (publishedState P s m candidate index metadata engine).maps m =
      ((s.maps m).stage (nextCandidate (s.maps m) candidate)).publish
        (nextCandidate (s.maps m) candidate).generation :=
  KernelState.setMap_maps_self _ m _

theorem engine_publishedState (s : KernelState) (m : ℕ) (candidate : PolicyState)
    (index : Fin (policyNamespaces + 1)) (metadata : Option ℕ) (engine : CommitState) :
    (publishedState P s m candidate index metadata engine).engine = engine := by
  cases metadata <;> rfl

/-- The rules of `publish_policy_locked`. -/
inductive PublishEffect (env : PublishEnv) (s : KernelState) (m : ℕ) (candidate : PolicyState)
    (index : Fin (policyNamespaces + 1)) (metadata : Option ℕ) : Ret → KernelState → Prop where
  | refused {ret : Ret} (hret : ret ≠ 0) : PublishEffect env s m candidate index metadata ret s
  | notCommitted {ret : Ret} (engine : CommitState) (hret : ret ≠ 0)
      (hcommit : commitPolicy P env s m candidate index = (ret, engine))
      (hgeneration : (s.maps m).generation + 1 ≠ 0) :
      PublishEffect env s m candidate index metadata ret
        { stageCandidate s m candidate with engine := engine }
  | published (engine : CommitState) (hgeneration : (s.maps m).generation + 1 ≠ 0)
      (hcommit : commitPolicy P env s m candidate index = (0, engine)) :
      PublishEffect env s m candidate index metadata 0
        (publishedState P s m candidate index metadata engine)

theorem maps_recordChange (metadata : Option ℕ) (change : PolicyChange) (s : KernelState) :
    (recordChange P metadata change s).maps = s.maps := by
  cases metadata <;> rfl

theorem publishPolicyLocked_effect (env : PublishEnv) (s : KernelState) (m : ℕ)
    (candidate : PolicyState) (index : Fin (policyNamespaces + 1)) (metadata : Option ℕ) :
    PublishEffect P env s m candidate index metadata
      (publishPolicyLocked P env s m candidate index metadata).1
      (publishPolicyLocked P env s m candidate index metadata).2 := by
  unfold publishPolicyLocked
  simp only
  split
  · exact .refused (show -eoverflow ≠ 0 by decide)
  · rename_i hmax
    have hgeneration := succ_ne_zero_of_ne_max hmax
    split
    · exact .refused (show -enomem ≠ 0 by decide)
    · split
      · exact .refused (show -enomem ≠ 0 by decide)
      · split
        · exact .refused ‹_›
        · split
          · exact .refused ‹_›
          · split
            · rename_i hnext
              exact .refused hnext.2
            · rcases hcommit : commitPolicy P env s m candidate index with ⟨ret, engine⟩
              have hcommit' := hcommit
              simp only [commitPolicy, stageCandidate, policyEvent, nextCandidate] at hcommit'
              simp only [hcommit']
              by_cases hret : ret = 0
              · subst hret
                have hmap : (recordChange P metadata (policyEvent P (s.maps m) candidate index)
                    { stageCandidate s m candidate with engine := engine }).maps m =
                    (s.maps m).stage (nextCandidate (s.maps m) candidate) := by
                  rw [maps_recordChange]
                  exact s.setMap_maps_self m _
                have hdone : PublishEffect P env s m candidate index metadata 0 _ :=
                  .published engine hgeneration hcommit
                rw [publishedState, ← hmap] at hdone
                exact hdone
              · rw [if_pos hret]
                exact .notCommitted engine hret hcommit hgeneration

/-! ## Audit metadata -/

/-- An audit list that may have gained one empty entry, for the namespace `id`. -/
def MetadataAdded (id : Bytes) (before after : List PolicyNamespace) : Prop :=
  after = before ∨ after = before ++ [freshPolicyNamespace id]

/-- An audit list that may have gained one empty entry. -/
def MetadataGrown (before after : List PolicyNamespace) : Prop :=
  ∃ id, MetadataAdded id before after

theorem MetadataGrown.refl (namespaces : List PolicyNamespace) :
    MetadataGrown namespaces namespaces :=
  ⟨[], .inl rfl⟩

theorem policyNamespaceGetLocked_spec (alloc : Bool) (id : Bytes) (s : KernelState) :
    (∃ ret, ret ≠ 0 ∧ policyNamespaceGetLocked alloc id s = (.error ret, s)) ∨
      ∃ i namespaces entry, MetadataAdded id s.policyNamespaceList namespaces ∧
        namespaces[i]? = some entry ∧ (0 ∉ id → cstr entry.namespaceId = id) ∧
        policyNamespaceGetLocked alloc id s =
          (.ok i, { s with policyNamespaceList := namespaces }) := by
  unfold policyNamespaceGetLocked
  split
  · exact .inl ⟨-einval, by decide, rfl⟩
  · rename_i hvalid
    push Not at hvalid
    split
    · rename_i i hfind
      obtain ⟨hlt, hid, -⟩ := List.findIdx?_eq_some_iff_getElem.mp hfind
      exact .inr ⟨i, _, _, .inl rfl, List.getElem?_eq_getElem hlt, fun _ => by simpa using hid, rfl⟩
    · split
      · exact .inl ⟨-enomem, by decide, rfl⟩
      · refine .inr ⟨_, _, freshPolicyNamespace id, .inr rfl, by simp, ?_, rfl⟩
        exact fun hz => cstr_strscpy hvalid.2 hz

/-! ## Lookup of a namespace -/

/-- Record `i` belongs to a namespace. -/
def PolicyState.Live (state : PolicyState) (i : Fin (policyNamespaces + 1)) : Prop :=
  1 ≤ i.val ∧ i.val ≤ state.namespaceCount.toNat

instance (state : PolicyState) (i : Fin (policyNamespaces + 1)) : Decidable (state.Live i) :=
  inferInstanceAs (Decidable (_ ∧ _))

theorem PolicyState.Live.ne_zero {state : PolicyState} {i : Fin (policyNamespaces + 1)}
    (h : state.Live i) : i ≠ 0 := by
  rintro rfl
  exact absurd h.1 (by decide)

theorem namespaceIndex_some {state : PolicyState} {id : Option Bytes}
    {index : Fin (policyNamespaces + 1)} (h : namespaceIndex state id = some index) :
    id.getD [] = [] ∧ index = 0 ∨
      id.getD [] ≠ [] ∧ state.Live index ∧
        cstr (state.records.get index).namespaceId = id.getD [] := by
  unfold namespaceIndex at h
  split at h
  · rename_i hid
    exact .inl ⟨hid, (Option.some.inj h).symm⟩
  · rename_i hid
    have hfound := List.find?_some h
    simp only [Bool.and_eq_true, decide_eq_true_eq, beq_iff_eq] at hfound
    exact .inr ⟨hid, hfound.1, hfound.2⟩

theorem index_le_of_found {state : PolicyState} {id : Option Bytes}
    {index : Fin (policyNamespaces + 1)} (h : namespaceIndex state id = some index) :
    index.val ≤ state.namespaceCount.toNat := by
  rcases namespaceIndex_some h with ⟨-, rfl⟩ | ⟨-, hlive, -⟩
  · exact Nat.zero_le _
  · exact hlive.2

theorem namespaceIndex_none {state : PolicyState} {id : Bytes}
    (h : namespaceIndex state (some id) = none) :
    id ≠ [] ∧ ∀ i, state.Live i → cstr (state.records.get i).namespaceId ≠ id := by
  unfold namespaceIndex at h
  split at h
  · cases h
  · rename_i hid
    refine ⟨hid, fun i hlive hname => ?_⟩
    have hmissing := List.find?_eq_none.mp h i (List.mem_finRange i)
    simp only [Bool.and_eq_true, decide_eq_true_eq, beq_iff_eq, not_and] at hmissing
    exact hmissing hlive hname

/-! ## Updates -/

/-- The candidate of an update: the active state with one record replaced by the
normalised snapshot, or with one appended. -/
inductive CandidateOf (active : PolicyState) (id : Bytes) (snapshot : PolicySnapshot) :
    PolicyState → Fin (policyNamespaces + 1) → Prop where
  | replaced (index : Fin (policyNamespaces + 1))
      (hindex : namespaceIndex active (some id) = some index) :
      CandidateOf active id snapshot
        (active.setRecord index { active.records.get index with snapshot := snapshot }) index
  | appended (hindex : namespaceIndex active (some id) = none)
      (hcount : active.namespaceCount ≠ 32) :
      CandidateOf active id snapshot
        ({ active with namespaceCount := active.namespaceCount + 1 }.setRecord
          (Fin.ofNat (policyNamespaces + 1) (active.namespaceCount.toNat + 1))
          ⟨strscpy (CString.zero _) id, snapshot⟩)
        (Fin.ofNat (policyNamespaces + 1) (active.namespaceCount.toNat + 1))

theorem setRecord_setRecord (state : PolicyState) (index : Fin (policyNamespaces + 1))
    (r r' : PolicyRecord) :
    (state.setRecord index r).setRecord index r' = state.setRecord index r' := by
  unfold PolicyState.setRecord
  congr 1
  apply List.Vector.ext
  intro i
  by_cases h : index = i
  · rw [h, List.Vector.get_set_same, List.Vector.get_set_same]
  · rw [List.Vector.get_set_of_ne h, List.Vector.get_set_of_ne h, List.Vector.get_set_of_ne h]

@[simp] theorem setRecord_get_same (state : PolicyState) (index : Fin (policyNamespaces + 1))
    (r : PolicyRecord) : (state.setRecord index r).records.get index = r :=
  List.Vector.get_set_same _ _ _

theorem setRecord_get_of_ne (state : PolicyState) {index i : Fin (policyNamespaces + 1)}
    (r : PolicyRecord) (h : index ≠ i) :
    (state.setRecord index r).records.get i = state.records.get i :=
  List.Vector.get_set_of_ne h _

theorem candidateFor_some {active : PolicyState} {id : Bytes} {candidate : PolicyState}
    {index : Fin (policyNamespaces + 1)} (h : candidateFor active id = some (candidate, index))
    (snapshot : PolicySnapshot) :
    CandidateOf active id snapshot
      (candidate.setRecord index { candidate.records.get index with snapshot := snapshot })
        index := by
  unfold candidateFor at h
  split at h
  · rename_i found hindex
    obtain ⟨rfl, rfl⟩ := Prod.mk.inj (Option.some.inj h)
    exact .replaced found hindex
  · rename_i hindex
    split at h
    · cases h
    · rename_i hcount
      obtain ⟨rfl, rfl⟩ := Prod.mk.inj (Option.some.inj h)
      rw [setRecord_get_same, setRecord_setRecord]
      exact .appended hindex hcount

/-- The metadata that an update of record `index` is audited in. -/
def AuditedIn (namespaces : List PolicyNamespace) (id : Bytes) (index : Fin (policyNamespaces + 1))
    (metadata : Option ℕ) : Prop :=
  index = 0 ∧ metadata = none ∨
    index ≠ 0 ∧ ∃ i entry, metadata = some i ∧ namespaces[i]? = some entry ∧
      cstr entry.namespaceId = id

/-- The rules of `apply_locked`. -/
inductive ApplyEffect (env : ApplyEnv) (request : PolicyRequest) (s : KernelState) :
    Ret → KernelState → Prop where
  | refused {ret : Ret} (error : Ret) (namespaces : List PolicyNamespace) (hret : ret ≠ 0)
      (herror : error = s.engine.commitError ∨ s.engine.commitError = 0 ∧ error = ret)
      (hadded : MetadataAdded (cstr request.record.namespaceId) s.policyNamespaceList namespaces)
      (hnonpos : s.engine.commitError ≤ 0 → error ≤ 0) :
      ApplyEffect env request s ret
        { s with
          engine := { s.engine with commitError := error }
          policyNamespaceList := namespaces }
  | unchanged (m : ℕ) (namespaces : List PolicyNamespace) (hbound : s.policyMap = some m)
      (hadded : MetadataAdded (cstr request.record.namespaceId) s.policyNamespaceList namespaces) :
      ApplyEffect env request s 0 { s with policyNamespaceList := namespaces }
  | attempted {ret : Ret} {s' : KernelState} (m : ℕ) (namespaces : List PolicyNamespace)
      (snapshot : PolicySnapshot) (candidate : PolicyState) (index : Fin (policyNamespaces + 1))
      (metadata : Option ℕ) (hbound : s.policyMap = some m)
      (hadded : MetadataAdded (cstr request.record.namespaceId) s.policyNamespaceList namespaces)
      (hnormal : normalizeSnapshot request.record.snapshot = .ok snapshot)
      (hcandidate : CandidateOf (s.maps m).active (cstr request.record.namespaceId) snapshot
        candidate index)
      (hvalid : index ≠ 0 → validateExtension (candidate.records.get 0).snapshot snapshot = 0)
      (haudited : AuditedIn namespaces (cstr request.record.namespaceId) index metadata)
      (heffect : PublishEffect P env.publish { s with policyNamespaceList := namespaces } m
        candidate index metadata ret s')
      (hchanged : ¬ (index.val ≤ (s.maps m).active.namespaceCount.toNat ∧
        snapshot = ((s.maps m).active.records.get index).snapshot)) :
      ApplyEffect env request s ret s'

theorem normalizeSnapshot_error {input : PolicySnapshot} {ret : Ret}
    (h : normalizeSnapshot input = .error ret) : ret ≠ 0 := by
  unfold normalizeSnapshot at h
  split at h
  · cases h
    decide
  · split at h
    · cases h
      decide
    · split at h
      · cases h
        decide
      · split at h
        · cases h
          decide
        · cases h

theorem applyLocked_effect (env : ApplyEnv) (request : PolicyRequest) (s : KernelState) :
    ApplyEffect P env request s (applyLocked P env request s).1
      (applyLocked P env request s).2 := by
  have hkeep : ∀ ret : Ret, ret ≠ 0 → ApplyEffect P env request s ret s :=
    fun ret hret =>
      .refused s.engine.commitError s.policyNamespaceList hret (.inl rfl) (.inl rfl) id
  unfold applyLocked
  split
  · exact hkeep (-enxio) (by decide)
  · rename_i m hbound
    by_cases hcheck : (commitCheckLocked env.available s.engine).1 = 0
    · obtain ⟨hunlatched, hstate⟩ := commitCheckLocked_zero hcheck
      simp only [hcheck, hstate, ne_eq, not_true_eq_false, if_false]
      split
      · exact hkeep (-eagain) (by decide)
      · split
        · exact hkeep (-enomem) (by decide)
        · split
          · exact hkeep (-enospc) (by decide)
          · rename_i candidate index hcandidate
            split
            · rename_i ret hnormal
              exact hkeep ret (normalizeSnapshot_error hnormal)
            · rename_i snapshot hnormal
              have hof := candidateFor_some hcandidate snapshot
              generalize candidate.setRecord index
                { candidate.records.get index with snapshot := snapshot } = next at hof ⊢
              -- Only a namespace is validated against the root and has audit metadata.
              by_cases hroot : index = 0
              · simp only [hroot, if_true, not_true_eq_false, if_false]
                split
                · exact .unchanged m _ hbound (.inl rfl)
                · rename_i hchanged
                  subst hroot
                  exact .attempted m _ snapshot next 0 none hbound (.inl rfl) hnormal hof
                    (absurd rfl) (.inl ⟨rfl, rfl⟩)
                    (publishPolicyLocked_effect P env.publish s m next 0 none) hchanged
              · simp only [hroot, if_false]
                by_cases hvalid : validateExtension (next.records.get 0).snapshot snapshot = 0
                · simp only [hvalid, not_true_eq_false, if_false]
                  rcases policyNamespaceGetLocked_spec env.metadataAlloc
                      (cstr request.record.namespaceId) s with
                    ⟨ret, hret, hget⟩ | ⟨i, namespaces, entry, hadded, hentry, hid, hget⟩
                  · simp only [hget, Except.map]
                    exact hkeep ret hret
                  · simp only [hget, Except.map]
                    split
                    · exact .unchanged m namespaces hbound hadded
                    · rename_i hchanged
                      exact .attempted m namespaces snapshot next index (some i) hbound hadded
                        hnormal hof (fun _ => hvalid)
                        (.inr ⟨hroot, i, entry, rfl, hentry, hid (zero_notMem_cstr _)⟩)
                        (publishPolicyLocked_effect P env.publish _ m next index (some i)) hchanged
                · rw [if_pos hvalid]
                  exact hkeep _ hvalid
    · simp only [ne_eq, hcheck, not_false_eq_true, if_true]
      exact .refused _ s.policyNamespaceList hcheck
        ((commitCheckLocked_error env.available s.engine).imp_right (⟨·, rfl⟩)) (.inl rfl)
        commitCheckLocked_nonpos

/-- The rules of `bpfima_policy_update_field` and `bpfima_policy_apply`: either the call is
refused before it takes effect, or a request whose name is acceptable is applied. -/
inductive UpdateEffect (env : ApplyEnv) (s : KernelState) : Ret → KernelState → Prop where
  | refused {ret : Ret} (hret : ret ≠ 0) : UpdateEffect env s ret s
  | applied {ret : Ret} {s' : KernelState} (request : PolicyRequest)
      (hname : cstr request.record.namespaceId ≠ [] →
        validNamespace (cstr request.record.namespaceId) = true)
      (heffect : ApplyEffect P env request s ret s') : UpdateEffect env s ret s'

theorem policyApply_effect (env : ApplyEnv) (request : Option PolicyRequest) (s : KernelState) :
    UpdateEffect P env s (policyApply P env request s).1 (policyApply P env request s).2 := by
  unfold policyApply
  split
  · exact .refused (show -einval ≠ 0 by decide)
  · rename_i request
    split
    · exact .refused (show -einval ≠ 0 by decide)
    · rename_i haccepted
      rw [not_not] at haccepted
      refine .applied request (fun hne => ?_) (applyLocked_effect P env request s)
      exact haccepted.2.2.2 (fun hzero => hne ((cstr_eq_nil_iff _).mpr hzero))

/-- The name of an edited record is the one the caller gave. -/
theorem fieldRequest_namespaceId {state : PolicyState} {id : Option Bytes} {field : Bytes}
    {value : UInt32} {request : PolicyRequest}
    (hid : ∀ name ∈ id, validNamespace name = true)
    (h : fieldRequest state id field value = some request) :
    cstr request.record.namespaceId = id.getD [] := by
  obtain ⟨config, -, rfl⟩ := Option.map_eq_some_iff.mp h
  cases id with
  | none => simp
  | some name =>
      obtain ⟨hlength, -, hz⟩ := validNamespace_spec (hid name rfl)
      exact cstr_strscpy hlength hz

theorem policyUpdateField_effect (requestAlloc : Bool) (env : ApplyEnv) (id field : Option Bytes)
    (value : UInt32) (s : KernelState) :
    UpdateEffect P env s (policyUpdateField P requestAlloc env id field value s).1
      (policyUpdateField P requestAlloc env id field value s).2 := by
  unfold policyUpdateField
  split
  · exact .refused (show -einval ≠ 0 by decide)
  · rename_i field
    split
    · exact .refused (show -einval ≠ 0 by decide)
    · rename_i hid
      split
      · exact .refused (show -enomem ≠ 0 by decide)
      · split
        · exact .refused (show -enxio ≠ 0 by decide)
        · rename_i m hbound
          split
          · exact .refused (show -einval ≠ 0 by decide)
          · rename_i request hrequest
            have hname : ∀ name ∈ id, validNamespace name = true := by simpa using hid
            refine .applied request ?_ (applyLocked_effect P env request s)
            rw [fieldRequest_namespaceId hname hrequest]
            cases id with
            | none => exact fun hne => absurd rfl hne
            | some name => exact fun _ => hname name rfl

/-! ## Binding -/

/-- The rules of `bpfima_policy_bind_map`. -/
inductive BindEffect (env : BindEnv) (s : KernelState) : Ret → KernelState → Prop where
  | refused {ret : Ret} (error : Ret) (hret : ret ≠ 0)
      (herror : error = s.engine.commitError ∨ s.engine.commitError = 0 ∧ error = ret)
      (hnonpos : s.engine.commitError ≤ 0 → error ≤ 0) :
      BindEffect env s ret { s with engine := { s.engine with commitError := error } }
  | alreadyBound (hbound : s.policyMap.isSome = true) : BindEffect env s 0 s
  | notCommitted {ret : Ret} (m : ℕ) (engine : CommitState) (hret : ret ≠ 0)
      (hbound : s.policyMap = none)
      (hcommit : commitPolicy P env.publish (s.mapGet m) m initialPolicyState 0 = (ret, engine)) :
      BindEffect env s ret { s with engine := engine }
  | bound (m : ℕ) (engine : CommitState) (hbound : s.policyMap = none)
      (hfrozen : (s.maps m).frozen = true ∧ (s.maps m).writecnt = 0)
      (hzero : ∀ i, (s.maps m).slots.get i = PolicyState.zero)
      (hcommit : commitPolicy P env.publish (s.mapGet m) m initialPolicyState 0 = (0, engine)) :
      BindEffect env s 0
        { publishedState P (s.mapGet m) m initialPolicyState 0 none engine with
          policyMap := some m }

/-- What was not kept is put back: only the engine may differ. -/
theorem mapPut_mapGet (s : KernelState) (m : ℕ) (engine : CommitState) :
    ({ s.mapGet m with engine := engine } : KernelState).mapPut m =
      { s with engine := engine } := by
  have hmap : ({ s.mapGet m with engine := engine } : KernelState).maps m =
      { s.maps m with refcnt := (s.maps m).refcnt + 1 } := s.setMap_maps_self m _
  rw [KernelState.mapPut, hmap]
  simp [KernelState.setMap, KernelState.mapGet]

theorem slots_eq_replicate {map : BpfMap} (h : ∀ i, map.slots.get i = PolicyState.zero) :
    map.slots = .replicate _ .zero := by
  apply List.Vector.ext
  intro i
  rw [h i, List.Vector.get_replicate]

/-- A failed publication on zeroed memory is wiped without a trace. -/
theorem setMap_wiped {s : KernelState} {m : ℕ}
    (hzero : ∀ i, (s.maps m).slots.get i = PolicyState.zero)
    (slots : List.Vector PolicyState policyMapEntries) (engine : CommitState) :
    ({ s.setMap m { s.maps m with slots := slots } with engine := engine } : KernelState).setMap m
      { s.maps m with slots := .replicate _ .zero } = { s with engine := engine } := by
  have hmap : { s.maps m with slots := .replicate _ .zero } = s.maps m := by
    rw [← slots_eq_replicate hzero]
  rw [hmap]
  simp [KernelState.setMap]

/-- While the call holds its reference it has failed, and all but the engine is as before. -/
def BindFails (env : BindEnv) (s : KernelState) (m : ℕ) (ret : Ret) (t : KernelState) : Prop :=
  ret ≠ 0 ∧ ∃ engine, t = { s.mapGet m with engine := engine } ∧
    BindEffect P env s ret { s with engine := engine }

theorem BindFails.refused (env : BindEnv) (s : KernelState) (m : ℕ) {ret : Ret} (hret : ret ≠ 0) :
    BindFails P env s m ret (s.mapGet m) :=
  ⟨hret, s.engine, rfl, .refused s.engine.commitError hret (.inl rfl) id⟩

/-- Publishing the defaults on zeroed memory fails without a trace, or binds the map. -/
theorem publishInitial_cases (env : BindEnv) {s : KernelState} {m : ℕ}
    (hunbound : s.policyMap = none)
    (hfrozen : (s.maps m).frozen = true ∧ (s.maps m).writecnt = 0)
    (hzero : ∀ i, (s.maps m).slots.get i = PolicyState.zero) {ret : Ret} {t : KernelState}
    (h : PublishEffect P env.publish (s.mapGet m) m initialPolicyState 0 none ret t) :
    BindFails P env s m ret (t.setMap m { t.maps m with slots := .replicate _ .zero }) ∨
      ret = 0 ∧ BindEffect P env s 0 { t with policyMap := some m } := by
  have hslots : ∀ i, ((s.mapGet m).maps m).slots.get i = PolicyState.zero := by
    rw [KernelState.mapGet, KernelState.setMap_maps_self]
    exact hzero
  cases h with
  | refused hret =>
      refine .inl ⟨hret, s.engine, ?_, .refused s.engine.commitError hret (.inl rfl) id⟩
      rw [← slots_eq_replicate hslots]
      simp [KernelState.setMap, KernelState.mapGet]
  | notCommitted engine hret hcommit =>
      refine .inl ⟨hret, engine, ?_, .notCommitted m engine hret hunbound hcommit⟩
      simp only [maps_stageCandidate]
      exact setMap_wiped hslots _ engine
  | published engine hgeneration hcommit =>
      exact .inr ⟨rfl, .bound m engine hunbound hfrozen hzero hcommit⟩

/-- What the call does while it holds its reference: it fails, or finds the map bound, or
binds it. -/
theorem bindMapReferenced_cases (env : BindEnv) (s : KernelState) (m : ℕ) :
    BindFails P env s m (bindMapReferenced P env m (s.mapGet m)).1
        (bindMapReferenced P env m (s.mapGet m)).2 ∨
      s.policyMap.isSome = true ∧ bindMapReferenced P env m (s.mapGet m) = (0, s.mapGet m) ∨
      s.policyMap = none ∧ (bindMapReferenced P env m (s.mapGet m)).1 = 0 ∧
        BindEffect P env s 0 (bindMapReferenced P env m (s.mapGet m)).2 := by
  have hmap : (s.mapGet m).maps m = { s.maps m with refcnt := (s.maps m).refcnt + 1 } :=
    s.setMap_maps_self m _
  unfold bindMapReferenced
  rw [hmap]
  split
  · exact .inl (.refused P env s m (show -einval ≠ 0 by decide))
  · split
    · exact .inl (.refused P env s m (show -eperm ≠ 0 by decide))
    · rename_i hfrozen
      split
      · exact .inl (.refused P env s m (show -ebusy ≠ 0 by decide))
      · rename_i hwritecnt
        split
        · exact .inl (.refused P env s m (show -enomem ≠ 0 by decide))
        · split
          · rename_i existing hexisting
            have hbound : s.policyMap.isSome = true := by
              rw [show s.policyMap = some existing from hexisting]
              rfl
            split
            · by_cases hcheck : (commitCheckLocked env.available s.engine).1 = 0
              · refine .inr (.inl ⟨hbound, Prod.ext hcheck ?_⟩)
                change { s.mapGet m with
                  engine := (commitCheckLocked env.available s.engine).2 } = s.mapGet m
                rw [(commitCheckLocked_zero hcheck).2]
                rfl
              · exact .inl ⟨hcheck, (commitCheckLocked env.available s.engine).2, rfl,
                  .refused _ hcheck
                    ((commitCheckLocked_error env.available s.engine).imp_right (⟨·, rfl⟩))
                    commitCheckLocked_nonpos⟩
            · exact .inl (.refused P env s m (show -ebusy ≠ 0 by decide))
          · rename_i hunbound
            split
            · exact .inl (.refused P env s m (show -estale ≠ 0 by decide))
            · rename_i hslots
              have hsealed : (s.maps m).frozen = true ∧ (s.maps m).writecnt = 0 :=
                ⟨by simpa using hfrozen, by simpa using hwritecnt⟩
              have hzero : ∀ i, (s.maps m).slots.get i = PolicyState.zero := not_not.mp hslots
              have hfree : s.policyMap = none := hunbound
              rcases publishInitial_cases P env hfree hsealed hzero (publishPolicyLocked_effect P
                  env.publish (s.mapGet m) m initialPolicyState 0 none) with
                hfails | ⟨hret, hbinds⟩
              · simp only [if_pos hfails.1]
                exact .inl hfails
              · simp only [hret, ne_eq, not_true_eq_false, if_false]
                exact .inr (.inr ⟨hfree, trivial, hbinds⟩)

theorem policyBindMap_effect (env : BindEnv) (s : KernelState) :
    BindEffect P env s (policyBindMap P env s).1 (policyBindMap P env s).2 := by
  unfold policyBindMap
  split
  · rename_i ret hmap
    exact .refused s.engine.commitError ret.property.ne (.inl rfl) id
  · rename_i m hmap
    simp only
    rcases bindMapReferenced_cases P env s m with
      ⟨hret, engine, hstate, heffect⟩ | ⟨hbound, hresult⟩ | ⟨hbound, hret, heffect⟩
    · rw [if_neg (fun h => hret h.1), hstate, mapPut_mapGet]
      exact heffect
    · have hne : s.policyMap ≠ none := Option.isSome_iff_ne_none.mp hbound
      rw [if_neg (fun h => hne h.2), hresult]
      have hput := mapPut_mapGet s m s.engine
      rw [show ({ s.mapGet m with engine := s.engine } : KernelState) = s.mapGet m
        from rfl] at hput
      rw [hput]
      exact .alreadyBound hbound
    · rw [if_pos ⟨hret, hbound⟩, hret]
      exact heffect

end Publish

/-! ## A host on which nothing fails -/

/-- A policy map that waits to be bound. -/
def unboundPolicyMap : BpfMap where
  mapType := bpfMapTypeArray
  keySize := 4
  valueSize := 45560
  maxEntries := 3
  mapFlags := policyMapFlags
  frozen := true
  writecnt := 0
  refcnt := 1
  slots := .replicate _ .zero

def workingPublish : PublishEnv := ⟨true, true, 0, 0, 0, workingCommit⟩

def workingBind : BindEnv := ⟨.ok 0, true, true, workingPublish⟩

def workingApply : ApplyEnv := ⟨true, true, true, workingPublish⟩

/-- More logging for one namespace. -/
def verboseRequest : PolicyRequest where
  version := policyVersion
  reserved := 0
  expectedGeneration := 0
  record :=
    { namespaceId := strscpy (CString.zero _) "web".ascii
      snapshot :=
        { initDefaultSnapshot with config := { initDefaultSnapshot.config with logLevel := 3 } } }

end BpfIma
