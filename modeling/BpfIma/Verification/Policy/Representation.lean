import BpfIma.Verification.Kernel.Effects
import BpfIma.Verification.Policy.Snapshot

/-! # The representation invariant of the policy map

What holds of the active slot of a bound map in every state of the module, whatever an
abandoned candidate has left in the other slot. -/

namespace BpfIma

open CString Machine

/-! ## Policy states -/

structure PolicyState.WellFormed (state : PolicyState) : Prop where
  count : state.namespaceCount.toNat ≤ policyNamespaces
  rootId : (state.records.get 0).namespaceId = CString.zero _
  ids : ∀ i, state.Live i → terminated (state.records.get i).namespaceId = true ∧
    validNamespace (cstr (state.records.get i).namespaceId) = true ∧
    Clean (state.records.get i).namespaceId
  distinct : ∀ i j, state.Live i → state.Live j →
    cstr (state.records.get i).namespaceId = cstr (state.records.get j).namespaceId → i = j
  unused : ∀ i, state.namespaceCount.toNat < i.val → state.records.get i = PolicyRecord.zero
  normal : ∀ i, i.val ≤ state.namespaceCount.toNat →
    normalizeSnapshot (state.records.get i).snapshot = .ok (state.records.get i).snapshot

/-- `next` has one record more than `state`, at `index`. -/
structure PolicyState.Appended (state : PolicyState) (index : Fin (policyNamespaces + 1))
    (record : PolicyRecord) (next : PolicyState) : Prop where
  room : state.namespaceCount.toNat < policyNamespaces
  count : next.namespaceCount.toNat = state.namespaceCount.toNat + 1
  index_val : index.val = state.namespaceCount.toNat + 1
  self : next.records.get index = record
  other : ∀ i, index ≠ i → next.records.get i = state.records.get i

namespace PolicyState.Appended

variable {state next : PolicyState} {index : Fin (policyNamespaces + 1)} {record : PolicyRecord}

theorem of_count (hle : state.namespaceCount.toNat ≤ policyNamespaces)
    (hcount : state.namespaceCount ≠ 32) (record : PolicyRecord) :
    state.Appended (Fin.ofNat (policyNamespaces + 1) (state.namespaceCount.toNat + 1)) record
      ({ state with namespaceCount := state.namespaceCount + 1 }.setRecord
        (Fin.ofNat (policyNamespaces + 1) (state.namespaceCount.toNat + 1)) record) := by
  have hroom : state.namespaceCount.toNat < 32 :=
    lt_of_le_of_ne hle fun heq => hcount (UInt32.toNat_inj.mp heq)
  refine ⟨hroom, ?_, Nat.mod_eq_of_lt (Nat.succ_lt_succ hroom), setRecord_get_same _ _ _,
    fun i hi => setRecord_get_of_ne _ _ hi⟩
  have hone : (1 : UInt32).toNat = 1 := rfl
  rw [PolicyState.setRecord, UInt32.toNat_add, hone]
  exact Nat.mod_eq_of_lt (by omega)

theorem index_ne_zero (h : state.Appended index record next) : index ≠ 0 := by
  intro heq
  have hval := h.index_val
  rw [heq] at hval
  exact absurd hval (Nat.succ_ne_zero _).symm

theorem index_ne_of_live (h : state.Appended index record next) {i : Fin (policyNamespaces + 1)}
    (hi : state.Live i) : index ≠ i := by
  rintro rfl
  have hval := h.index_val
  have hle := hi.2
  omega

theorem live_iff (h : state.Appended index record next) {i : Fin (policyNamespaces + 1)} :
    next.Live i ↔ i = index ∨ index ≠ i ∧ state.Live i := by
  have hval := h.index_val
  simp only [PolicyState.Live, h.count, Fin.ext_iff, ne_eq]
  omega

end PolicyState.Appended

namespace PolicyState.WellFormed

variable {state : PolicyState}

/-- The generation is not part of it. -/
theorem withGeneration (h : state.WellFormed) (generation : UInt64) :
    { state with generation := generation }.WellFormed :=
  ⟨h.count, h.rootId, h.ids, h.distinct, h.unused, h.normal⟩

/-- Replacing the snapshot of the root or of a namespace. -/
theorem replace (h : state.WellFormed) {index : Fin (policyNamespaces + 1)}
    (hindex : index.val ≤ state.namespaceCount.toNat) {snapshot : PolicySnapshot}
    (hnormal : normalizeSnapshot snapshot = .ok snapshot) :
    (state.setRecord index { state.records.get index with snapshot := snapshot }).WellFormed := by
  have hid : ∀ i, ((state.setRecord index
      { state.records.get index with snapshot := snapshot }).records.get i).namespaceId =
        (state.records.get i).namespaceId := by
    intro i
    by_cases hi : index = i
    · rw [← hi, setRecord_get_same]
    · rw [setRecord_get_of_ne _ _ hi]
  refine ⟨h.count, ?_, ?_, ?_, ?_, ?_⟩
  · rw [hid]
    exact h.rootId
  · intro i hlive
    rw [hid]
    exact h.ids i hlive
  · intro i j hi hj heq
    rw [hid, hid] at heq
    exact h.distinct i j hi hj heq
  · intro i hi
    have hne : index ≠ i := by
      rintro rfl
      exact absurd hi (not_lt.mpr hindex)
    rw [setRecord_get_of_ne _ _ hne]
    exact h.unused i hi
  · intro i hi
    by_cases heq : index = i
    · rw [← heq, setRecord_get_same]
      exact hnormal
    · rw [setRecord_get_of_ne _ _ heq]
      exact h.normal i hi

/-- Appending a record under a new name. -/
theorem append (h : state.WellFormed) {next : PolicyState} {index : Fin (policyNamespaces + 1)}
    {id : Bytes} (hname : validNamespace id = true)
    (hnew : ∀ i, state.Live i → cstr (state.records.get i).namespaceId ≠ id)
    {snapshot : PolicySnapshot} (hnormal : normalizeSnapshot snapshot = .ok snapshot)
    (hnext : state.Appended index ⟨strscpy (CString.zero _) id, snapshot⟩ next) :
    next.WellFormed := by
  obtain ⟨hlength, -, hzero⟩ := validNamespace_spec hname
  have hcopy : cstr (strscpy (CString.zero namespaceSize) id) = id := cstr_strscpy hlength hzero
  refine ⟨?_, ?_, ?_, ?_, ?_, ?_⟩
  · rw [hnext.count]
    exact hnext.room
  · rw [hnext.other 0 hnext.index_ne_zero]
    exact h.rootId
  · intro i hi
    rcases hnext.live_iff.mp hi with rfl | ⟨hne, hold⟩
    · rw [hnext.self]
      exact ⟨terminated_strscpy hlength, by rw [hcopy]; exact hname, clean_strscpy hlength hzero⟩
    · rw [hnext.other i hne]
      exact h.ids i hold
  · intro i j hi hj heq
    rcases hnext.live_iff.mp hi with rfl | ⟨hi, hiold⟩ <;>
      rcases hnext.live_iff.mp hj with rfl | ⟨hj, hjold⟩
    · rfl
    · rw [hnext.self, hnext.other j hj, hcopy] at heq
      exact absurd heq.symm (hnew j hjold)
    · rw [hnext.self, hnext.other i hi, hcopy] at heq
      exact absurd heq (hnew i hiold)
    · rw [hnext.other i hi, hnext.other j hj] at heq
      exact h.distinct i j hiold hjold heq
  · intro i hi
    rw [hnext.count] at hi
    have hval := hnext.index_val
    rw [hnext.other i (fun heq => by rw [← heq] at hi; omega)]
    exact h.unused i (by omega)
  · intro i hi
    rw [hnext.count] at hi
    by_cases heq : index = i
    · rw [← heq, hnext.self]
      exact hnormal
    · rw [hnext.other i heq]
      refine h.normal i ?_
      have hne : i.val ≠ index.val := fun hv => heq (Fin.ext hv.symm)
      have hval := hnext.index_val
      omega

theorem candidate (h : state.WellFormed) {id : Bytes} {snapshot : PolicySnapshot}
    {next : PolicyState} {index : Fin (policyNamespaces + 1)}
    (hname : id ≠ [] → validNamespace id = true)
    (hnormal : normalizeSnapshot snapshot = .ok snapshot)
    (hnext : CandidateOf state id snapshot next index) : next.WellFormed := by
  cases hnext with
  | replaced _ hindex =>
      refine h.replace ?_ hnormal
      rcases namespaceIndex_some hindex with ⟨-, rfl⟩ | ⟨-, hlive, -⟩
      · exact Nat.zero_le _
      · exact hlive.2
  | appended hindex hcount =>
      obtain ⟨hne, hnew⟩ := namespaceIndex_none hindex
      exact h.append (hname hne) hnew hnormal (.of_count h.count hcount _)

end PolicyState.WellFormed

theorem wellFormed_initialPolicyState : initialPolicyState.WellFormed := by
  have hcount : initialPolicyState.namespaceCount.toNat = 0 := rfl
  have hnone : ∀ i, ¬ initialPolicyState.Live i := by
    rintro i ⟨hpos, hle⟩
    omega
  have hrecord : ∀ i, (0 : Fin (policyNamespaces + 1)) ≠ i →
      initialPolicyState.records.get i = PolicyRecord.zero := by
    intro i hi
    rw [initialPolicyState, List.Vector.get_set_of_ne hi]
    exact List.Vector.get_replicate _ _
  refine ⟨by decide, by decide +kernel, fun i hi => absurd hi (hnone i),
    fun i _ hi => absurd hi (hnone i), ?_, ?_⟩
  · intro i hi
    refine hrecord i fun heq => ?_
    rw [← heq] at hi
    exact absurd hi (by decide)
  · intro i hi
    obtain rfl : i = 0 := Fin.ext (Nat.le_zero.mp hi)
    decide +kernel

/-- No live record of `before` is missing in `after`. -/
def RecordsKept (before after : PolicyState) : Prop :=
  ∀ i, before.Live i → after.Live i ∧
    (after.records.get i).namespaceId = (before.records.get i).namespaceId

theorem RecordsKept.refl (state : PolicyState) : RecordsKept state state := fun _ hi => ⟨hi, rfl⟩

theorem RecordsKept.trans {a b c : PolicyState} (hab : RecordsKept a b) (hbc : RecordsKept b c) :
    RecordsKept a c := by
  intro i hi
  obtain ⟨hb, hid⟩ := hab i hi
  obtain ⟨hc, hid'⟩ := hbc i hb
  exact ⟨hc, hid'.trans hid⟩

theorem CandidateOf.recordsKept {state next : PolicyState} {id : Bytes} {snapshot : PolicySnapshot}
    {index : Fin (policyNamespaces + 1)} (h : state.WellFormed)
    (hnext : CandidateOf state id snapshot next index) : RecordsKept state next := by
  intro i hi
  cases hnext with
  | replaced =>
      refine ⟨hi, ?_⟩
      by_cases heq : index = i
      · rw [← heq, setRecord_get_same]
      · rw [setRecord_get_of_ne _ _ heq]
  | appended hindex hcount =>
      have hnext := PolicyState.Appended.of_count h.count hcount
        ⟨strscpy (CString.zero _) id, snapshot⟩
      have hne := hnext.index_ne_of_live hi
      exact ⟨hnext.live_iff.mpr (.inr ⟨hne, hi⟩), by rw [hnext.other i hne]⟩

/-! ## Maps -/

/-- A map with a published policy, out of the reach of user space. -/
structure BpfMap.Published (map : BpfMap) : Prop where
  generation : map.generation ≠ 0
  slotGeneration : (map.slots.get (stateSlot map.generation)).generation = map.generation
  wellFormed : (map.slots.get (stateSlot map.generation)).WellFormed
  sealed : map.frozen = true ∧ map.writecnt = 0

namespace BpfMap.Published

variable {map : BpfMap} {candidate : PolicyState}

theorem of_active (hgeneration : map.generation ≠ 0)
    (hactive : map.active.generation = map.generation) (hwf : map.active.WellFormed)
    (hsealed : map.frozen = true ∧ map.writecnt = 0) :
    map.Published := by
  rw [map.active_of_ne hgeneration] at hactive hwf
  exact ⟨hgeneration, hactive, hwf, hsealed⟩

theorem active_wellFormed (h : map.Published) : map.active.WellFormed := by
  rw [map.active_of_ne h.generation]
  exact h.wellFormed

theorem active_generation (h : map.Published) : map.active.generation = map.generation := by
  rw [map.active_of_ne h.generation]
  exact h.slotGeneration

/-- A candidate that is staged and abandoned does not matter. -/
theorem stage (h : map.Published) (hcandidate : candidate.generation = map.generation + 1) :
    (map.stage candidate).Published := by
  refine of_active ?_ ?_ ?_ h.sealed
  · rw [generation_stage]
    exact h.generation
  · rw [map.active_stage candidate hcandidate, generation_stage]
    exact h.active_generation
  · rw [map.active_stage candidate hcandidate]
    exact h.active_wellFormed

theorem publish (hsealed : map.frozen = true ∧ map.writecnt = 0) (hne : candidate.generation ≠ 0)
    (hwf : candidate.WellFormed) :
    ((map.stage candidate).publish candidate.generation).Published := by
  refine of_active ?_ ?_ ?_ hsealed
  · rw [generation_publish]
    exact hne
  · rw [map.active_publish_stage candidate hne, generation_publish]
  · rw [map.active_publish_stage candidate hne]
    exact hwf

end BpfMap.Published

/-! ## Runs -/

theorem PublishEffect.keeps_published {P : Platform} {env : PublishEnv} {s t : KernelState} {m : ℕ}
    {candidate : PolicyState} {index : Fin (policyNamespaces + 1)} {metadata : Option ℕ} {ret : Ret}
    (h : PublishEffect P env s m candidate index metadata ret t) (hs : (s.maps m).Published)
    (hwf : candidate.WellFormed) :
    t.policyMap = s.policyMap ∧ (t.maps m).Published ∧
      ((t.maps m).active = (s.maps m).active ∨
        (t.maps m).active = nextCandidate (s.maps m) candidate) := by
  cases h with
  | refused => exact ⟨rfl, hs, .inl rfl⟩
  | notCommitted engine hret hcommit =>
      simp only [maps_stageCandidate]
      exact ⟨rfl, hs.stage rfl, .inl ((s.maps m).active_stage _ rfl)⟩
  | published engine hgeneration hcommit =>
      rw [maps_publishedState]
      refine ⟨by cases metadata <;> rfl, ?_, .inr ?_⟩
      · exact BpfMap.Published.publish hs.sealed hgeneration (hwf.withGeneration _)
      · exact (s.maps m).active_publish_stage _ hgeneration

/-- What a step does to the active state of a bound map: nothing, or one update. -/
inductive ActiveStep (m : ℕ) (s t : KernelState) : Prop where
  | same (hactive : (t.maps m).active = (s.maps m).active)
  | updated (id : Bytes) (new : PolicySnapshot) (candidate : PolicyState)
      (index : Fin (policyNamespaces + 1)) (hname : id ≠ [] → validNamespace id = true)
      (hnormal : normalizeSnapshot new = .ok new)
      (hcandidate : CandidateOf (s.maps m).active id new candidate index)
      (hvalid : index ≠ 0 → validateExtension (candidate.records.get 0).snapshot new = 0)
      (hactive : (t.maps m).active = nextCandidate (s.maps m) candidate)

theorem ActiveStep.recordsKept {m : ℕ} {s t : KernelState} (h : ActiveStep m s t)
    (hwf : (s.maps m).active.WellFormed) : RecordsKept (s.maps m).active (t.maps m).active := by
  cases h with
  | same hactive =>
      rw [hactive]
      exact .refl _
  | updated id new candidate index hname hnormal hcandidate hvalid hactive =>
      have hkept := hcandidate.recordsKept hwf
      rw [hactive]
      exact hkept

/-- A bound map stays bound and published. -/
theorem KernelEffect.activeStep {P : Platform} {s t : KernelState} {ret : Ret} {m : ℕ}
    (hbound : s.policyMap = some m) (hs : (s.maps m).Published) (h : KernelEffect P s ret t) :
    t.policyMap = some m ∧ (t.maps m).Published ∧ ActiveStep m s t := by
  have hsame : t.policyMap = s.policyMap → t.maps m = s.maps m →
      t.policyMap = some m ∧ (t.maps m).Published ∧ ActiveStep m s t :=
    fun hpolicy hmap => ⟨hpolicy.trans hbound, hmap ▸ hs, .same (by rw [hmap])⟩
  cases h with
  | engine => exact hsame rfl rfl
  | mapSyscall m' map hreach =>
      refine hsame rfl (s.setMap_maps_of_ne map ?_)
      rintro rfl
      exact hreach hs.sealed
  | bind env hbind =>
      cases hbind with
      | refused | alreadyBound => exact hsame rfl rfl
      | notCommitted m' engine hret hnone | bound m' engine hnone =>
          rw [hbound] at hnone
          cases hnone
  | update env hupdate =>
      cases hupdate with
      | refused => exact hsame rfl rfl
      | applied request hname happly =>
          cases happly with
          | refused | unchanged => exact hsame rfl rfl
          | attempted m' namespaces snapshot candidate index metadata hbound' hadded hnormal
              hcandidate hvalid haudited hpublish =>
              obtain rfl := Option.some.inj (hbound.symm.trans hbound')
              have hidem := normalizeSnapshot_idempotent hnormal
              obtain ⟨hmap, hpublished, hactive⟩ := hpublish.keeps_published hs
                (hs.active_wellFormed.candidate hname hidem hcandidate)
              refine ⟨hmap.trans hbound, hpublished, ?_⟩
              rcases hactive with hactive | hactive
              · exact .same hactive
              · exact .updated _ snapshot candidate index hname hidem hcandidate hvalid hactive

/-- What a run keeps of a bound map. -/
structure StaysPublished (m : ℕ) (s t : KernelState) : Prop where
  bound : t.policyMap = some m
  published : (t.maps m).Published
  kept : RecordsKept (s.maps m).active (t.maps m).active

theorem generation_of_zeroed {map : BpfMap} (hzero : ∀ i, map.slots.get i = PolicyState.zero) :
    map.generation = 0 := by
  rw [BpfMap.generation, hzero]
  rfl

/-- Binding publishes the defaults as generation one. -/
theorem published_of_bound {P : Platform} {s : KernelState} {m : ℕ}
    (hfrozen : (s.maps m).frozen = true ∧ (s.maps m).writecnt = 0)
    (hzero : ∀ i, (s.maps m).slots.get i = PolicyState.zero) (engine : CommitState) :
    ((publishedState P (s.mapGet m) m initialPolicyState 0 none engine).maps m).Published ∧
      ((publishedState P (s.mapGet m) m initialPolicyState 0 none engine).maps m).active =
        { initialPolicyState with generation := 1 } := by
  have hget : (s.mapGet m).maps m = { s.maps m with refcnt := (s.maps m).refcnt + 1 } :=
    s.setMap_maps_self m _
  have hnext : nextCandidate ((s.mapGet m).maps m) initialPolicyState =
      { initialPolicyState with generation := 1 } := by
    have hgeneration : ((s.mapGet m).maps m).generation = 0 := by
      rw [hget]
      exact generation_of_zeroed hzero
    rw [nextCandidate, hgeneration]
    rfl
  rw [maps_publishedState, hnext, hget]
  exact ⟨BpfMap.Published.publish hfrozen (by decide)
    (wellFormed_initialPolicyState.withGeneration _), BpfMap.active_publish_stage _ _ (by decide)⟩

/-- Only a call that binds it makes a map the bound one. -/
theorem KernelEffect.bound_of_none {P : Platform} {s t : KernelState} {ret : Ret} {m : ℕ}
    (h : KernelEffect P s ret t) (hnone : s.policyMap = none) (hm : t.policyMap = some m) :
    ∃ engine, ((s.maps m).frozen = true ∧ (s.maps m).writecnt = 0) ∧
      (∀ i, (s.maps m).slots.get i = PolicyState.zero) ∧
      t = { publishedState P (s.mapGet m) m initialPolicyState 0 none engine with
        policyMap := some m } := by
  cases h with
  | engine | mapSyscall => cases hnone.symm.trans hm
  | bind env hbind =>
      cases hbind with
      | refused | alreadyBound | notCommitted => cases hnone.symm.trans hm
      | bound m' engine hunbound hfrozen hzero hcommit =>
          obtain rfl := Option.some.inj hm
          exact ⟨engine, hfrozen, hzero, rfl⟩
  | update env hupdate =>
      cases hupdate with
      | refused => cases hnone.symm.trans hm
      | applied request hname happly =>
          cases happly with
          | refused => cases hnone.symm.trans hm
          | unchanged m' namespaces hbound => cases hnone.symm.trans hbound
          | attempted m' namespaces snapshot candidate index metadata hbound =>
              cases hnone.symm.trans hbound

/-- The invariant of the module. -/
def PolicyBound (s : KernelState) : Prop := ∀ m, s.policyMap = some m → (s.maps m).Published

theorem PolicyBound.step {P : Platform} {s t : KernelState} {ret : Ret} (hs : PolicyBound s)
    (h : KernelEffect P s ret t) : PolicyBound t := by
  intro m hm
  cases hmap : s.policyMap with
  | some m' =>
      obtain ⟨hbound, hpublished, -⟩ := h.activeStep hmap (hs m' hmap)
      obtain rfl := Option.some.inj (hbound.symm.trans hm)
      exact hpublished
  | none =>
      obtain ⟨engine, hfrozen, hzero, rfl⟩ := h.bound_of_none hmap hm
      exact (published_of_bound hfrozen hzero engine).1

theorem PolicyBound.of_run (P : Platform) (maps : ℕ → BpfMap) (tpmPcrIndex : ℤ)
    (ops : List KernelOp) : PolicyBound (kernelRun P maps tpmPcrIndex ops) := by
  refine run_invariant (fun s op h => h.step (kernelStep_effect P s op)) ops ?_
  intro m hm
  cases hm

theorem StaysPublished.of_run {P : Platform} {s : KernelState} {m : ℕ}
    (hbound : s.policyMap = some m) (hs : (s.maps m).Published) (ops : List KernelOp) :
    StaysPublished m s (run (kernelStep P) s ops) := by
  refine run_invariant (P := StaysPublished m s) ?_ ops ⟨hbound, hs, .refl _⟩
  intro t op ht
  obtain ⟨hbound', hpublished, hstep⟩ := (kernelStep_effect P t op).activeStep ht.bound ht.published
  exact ⟨hbound', hpublished, ht.kept.trans (hstep.recordsKept ht.published.active_wellFormed)⟩

/-- In every run, the map that is bound holds a well-formed policy, stays bound, and loses
no namespace record. -/
theorem bound_map_represents_policy (P : Platform) (maps : ℕ → BpfMap) (tpmPcrIndex : ℤ)
    (ops rest : List KernelOp) (m : ℕ)
    (hbound : (kernelRun P maps tpmPcrIndex ops).policyMap = some m) :
    ((kernelRun P maps tpmPcrIndex ops).maps m).Published ∧
      (kernelRun P maps tpmPcrIndex (ops ++ rest)).policyMap = some m ∧
      RecordsKept ((kernelRun P maps tpmPcrIndex ops).maps m).active
        ((kernelRun P maps tpmPcrIndex (ops ++ rest)).maps m).active := by
  have hpublished := PolicyBound.of_run P maps tpmPcrIndex ops m hbound
  have hstays := StaysPublished.of_run (P := P) hbound hpublished rest
  have hrun : run (kernelStep P) (kernelRun P maps tpmPcrIndex ops) rest =
      kernelRun P maps tpmPcrIndex (ops ++ rest) := (run_append _ _ _ _).symm
  rw [hrun] at hstays
  exact ⟨hpublished, hstays.bound, hstays.kept⟩

/-- A namespace record is added; the next update is staged and its commit fails. -/
def abandonedOps : List KernelOp :=
  let failing : ApplyEnv :=
    { workingApply with
      publish := { workingPublish with commit := { workingCommit with historyAlloc := false } } }
  let other : PolicyRequest :=
    { verboseRequest with
      record := { verboseRequest.record with namespaceId := strscpy (CString.zero _) "db".ascii } }
  [.policyApply workingApply (some verboseRequest), .policyApply failing (some other)]

theorem bound_map_represents_policy_abandoned :
    (kernelRun referencePlatform (fun _ => unboundPolicyMap) 10
        [.policyBindMap workingBind]).policyMap = some 0 ∧
      ((kernelRun referencePlatform (fun _ => unboundPolicyMap) 10
        [.policyBindMap workingBind]).maps 0).Published ∧
      (kernelRun referencePlatform (fun _ => unboundPolicyMap) 10
        ([.policyBindMap workingBind] ++ abandonedOps)).policyMap = some 0 := by
  have hbound : (kernelRun referencePlatform (fun _ => unboundPolicyMap) 10
      [.policyBindMap workingBind]).policyMap = some 0 := by decide +kernel
  obtain ⟨hpublished, hstays, -⟩ := bound_map_represents_policy referencePlatform
    (fun _ => unboundPolicyMap) 10 [.policyBindMap workingBind] abandonedOps 0 hbound
  exact ⟨hbound, hpublished, hstays⟩

end BpfIma
