import BpfIma.Library.VersionedStore
import BpfIma.Verification.Policy.Representation

/-! # The policy manager as a versioned store

Behind its two slots, its staging and its record numbers the manager keeps one snapshot
for the root and one for each namespace it knows, with a version. Every call reads that
table or makes at most one admitted change to it. -/

namespace BpfIma

open CString Machine VersionedStore

/-! ## The abstract store -/

/-- Snapshots by namespace; the empty name stands for the root. -/
abbrev PolicyStore := VersionedStore Bytes PolicySnapshot

/-- What may be published: a normal snapshot, for the root or as an extension of it. -/
structure PolicyStore.Admits (store : PolicyStore) (id : Bytes) (new : PolicySnapshot) : Prop where
  normal : normalizeSnapshot new = .ok new
  name : id ≠ [] → validNamespace id = true
  extension : id ≠ [] → ∃ root, store.value [] = some root ∧ validateExtension root new = 0

/-- The store of a map that was just bound: the defaults for the root. -/
def initialPolicyStore : PolicyStore :=
  VersionedStore.publish ⟨0, fun _ => none⟩ [] initDefaultSnapshot

/-- The decision for a context, on the store alone. -/
def PolicyStore.resolve (store : PolicyStore) (context : PolicyContext) : PolicyResult :=
  resolveSnapshots (UInt64.ofNat store.version) ((store.value []).getD .zero)
    (if cstr context.namespaceId = [] then none else store.value (cstr context.namespaceId))
    context

/-- The store that a policy state represents. -/
def PolicyState.store (state : PolicyState) : PolicyStore where
  version := state.generation.toNat
  value id := (namespaceIndex state (some id)).map fun i => (state.records.get i).snapshot

/-! ## Lookup -/

@[simp] theorem namespaceIndex_root (state : PolicyState) :
    namespaceIndex state (some []) = some 0 :=
  if_pos rfl

theorem value_store (state : PolicyState) (id : Bytes) :
    state.store.value id =
      (namespaceIndex state (some id)).map fun i => (state.records.get i).snapshot :=
  rfl

theorem value_store_root (state : PolicyState) :
    state.store.value [] = some (state.records.get 0).snapshot := by
  rw [value_store, namespaceIndex_root, Option.map_some]

/-- The lookup depends on the names and their number only. -/
theorem namespaceIndex_congr {a b : PolicyState} (hcount : a.namespaceCount = b.namespaceCount)
    (hids : ∀ i, (a.records.get i).namespaceId = (b.records.get i).namespaceId) :
    namespaceIndex a = namespaceIndex b := by
  funext id
  simp only [namespaceIndex, hcount, hids]

theorem PolicyState.WellFormed.namespaceIndex_eq_some_iff {state : PolicyState}
    (h : state.WellFormed) {id : Bytes} (hid : id ≠ []) {i : Fin (policyNamespaces + 1)} :
    namespaceIndex state (some id) = some i ↔
      state.Live i ∧ cstr (state.records.get i).namespaceId = id := by
  constructor
  · intro hindex
    rcases namespaceIndex_some hindex with ⟨hempty, -⟩ | ⟨-, hlive, hname⟩
    · exact absurd hempty hid
    · exact ⟨hlive, hname⟩
  · rintro ⟨hlive, hname⟩
    cases hindex : namespaceIndex state (some id) with
    | none => exact absurd hname ((namespaceIndex_none hindex).2 i hlive)
    | some j =>
        rcases namespaceIndex_some hindex with ⟨hempty, -⟩ | ⟨-, hlive', hname'⟩
        · exact absurd hempty hid
        · rw [h.distinct j i hlive' hlive (hname'.trans hname.symm)]

/-! ## Updates -/

/-- Replacing a snapshot in place. -/
theorem store_replaced {state : PolicyState} {id : Bytes} {index : Fin (policyNamespaces + 1)}
    (hindex : namespaceIndex state (some id) = some index) (new : PolicySnapshot) :
    (state.setRecord index { state.records.get index with snapshot := new }).store.value =
      Function.update state.store.value id (some new) := by
  have hsame : namespaceIndex
      (state.setRecord index { state.records.get index with snapshot := new }) =
        namespaceIndex state := by
    refine namespaceIndex_congr rfl fun i => ?_
    by_cases heq : index = i
    · rw [← heq, setRecord_get_same]
    · rw [setRecord_get_of_ne _ _ heq]
  funext id'
  rw [value_store, hsame]
  by_cases hid : id' = id
  · rw [hid, Function.update_self, hindex, Option.map_some, setRecord_get_same]
  · rw [Function.update_of_ne hid, value_store]
    cases hindex' : namespaceIndex state (some id') with
    | none => rfl
    | some i =>
        have hne : index ≠ i := by
          rintro rfl
          rcases namespaceIndex_some hindex with ⟨hroot, hzero⟩ | ⟨-, hlive, hname⟩ <;>
            rcases namespaceIndex_some hindex' with ⟨hroot', hzero'⟩ | ⟨-, hlive', hname'⟩
          · exact hid (hroot'.trans hroot.symm)
          · exact hlive'.ne_zero hzero
          · exact hlive.ne_zero hzero'
          · exact hid (hname'.symm.trans hname)
        rw [Option.map_some, Option.map_some, setRecord_get_of_ne _ _ hne]

/-- Appending a record. -/
theorem store_appended {state next : PolicyState} {id : Bytes} {new : PolicySnapshot}
    {index : Fin (policyNamespaces + 1)} (h : state.WellFormed)
    (hname : validNamespace id = true) (hwf : next.WellFormed)
    (hnext : state.Appended index ⟨strscpy (CString.zero _) id, new⟩ next) :
    next.store.value = Function.update state.store.value id (some new) := by
  obtain ⟨hlength, hne, hzero⟩ := validNamespace_spec hname
  have hcopy : cstr (next.records.get index).namespaceId = id := by
    rw [hnext.self]
    exact cstr_strscpy hlength hzero
  funext id'
  by_cases hid : id' = id
  · have hindex : namespaceIndex next (some id) = some index :=
      (hwf.namespaceIndex_eq_some_iff hne).mpr ⟨hnext.live_iff.mpr (.inl rfl), hcopy⟩
    rw [hid, Function.update_self, value_store, hindex, Option.map_some, hnext.self]
  · rw [Function.update_of_ne hid]
    by_cases hroot : id' = []
    · rw [hroot, value_store_root, value_store_root, hnext.other 0 hnext.index_ne_zero]
    · -- Any other name is found where it was: the new record does not carry it.
      have hsame : namespaceIndex next (some id') = namespaceIndex state (some id') := by
        refine Option.ext fun i => ?_
        rw [hwf.namespaceIndex_eq_some_iff hroot, h.namespaceIndex_eq_some_iff hroot,
          hnext.live_iff]
        constructor
        · rintro ⟨rfl | ⟨hi, hlive⟩, hname'⟩
          · exact absurd (hname'.symm.trans hcopy) hid
          · rw [hnext.other i hi] at hname'
            exact ⟨hlive, hname'⟩
        · rintro ⟨hlive, hname'⟩
          have hi := hnext.index_ne_of_live hlive
          rw [hnext.other i hi]
          exact ⟨.inr ⟨hi, hlive⟩, hname'⟩
      rw [value_store, value_store, hsame]
      refine Option.map_congr fun i hi => ?_
      rw [hnext.other i (hnext.index_ne_of_live
        ((h.namespaceIndex_eq_some_iff hroot).mp hi).1)]

theorem CandidateOf.store_value {state next : PolicyState} {id : Bytes} {new : PolicySnapshot}
    {index : Fin (policyNamespaces + 1)} (h : state.WellFormed) (hwf : next.WellFormed)
    (hname : id ≠ [] → validNamespace id = true) (hnext : CandidateOf state id new next index) :
    next.store.value = Function.update state.store.value id (some new) := by
  cases hnext with
  | replaced _ hindex => exact store_replaced hindex new
  | appended hindex hcount =>
      exact store_appended h (hname (namespaceIndex_none hindex).1) hwf
        (.of_count h.count hcount _)

/-- The root that a candidate is checked against is the current one, unless the candidate
replaces it. -/
theorem CandidateOf.root {state next : PolicyState} {id : Bytes} {new : PolicySnapshot}
    {index : Fin (policyNamespaces + 1)} (hid : id ≠ []) (h : state.WellFormed)
    (hnext : CandidateOf state id new next index) :
    index ≠ 0 ∧ next.records.get 0 = state.records.get 0 := by
  cases hnext with
  | replaced _ hindex =>
      rcases namespaceIndex_some hindex with ⟨hroot, -⟩ | ⟨-, hlive, -⟩
      · exact absurd hroot hid
      · exact ⟨hlive.ne_zero, setRecord_get_of_ne _ _ hlive.ne_zero⟩
  | appended hindex hcount =>
      have hnext := PolicyState.Appended.of_count h.count hcount ⟨strscpy (CString.zero _) id, new⟩
      exact ⟨hnext.index_ne_zero, hnext.other 0 hnext.index_ne_zero⟩

/-- Where a candidate keeps the new snapshot: under its name, in a clean record. -/
theorem CandidateOf.record {state next : PolicyState} {id : Bytes} {new : PolicySnapshot}
    {index : Fin (policyNamespaces + 1)} (h : state.WellFormed) (hwf : next.WellFormed)
    (hname : id ≠ [] → validNamespace id = true) (hnext : CandidateOf state id new next index) :
    namespaceIndex next (some id) = some index ∧ (next.records.get index).snapshot = new ∧
      cstr (next.records.get index).namespaceId = id ∧
      Clean (next.records.get index).namespaceId := by
  have hlive (hid : id ≠ []) (hlive : next.Live index)
      (hname : cstr (next.records.get index).namespaceId = id) :
      namespaceIndex next (some id) = some index ∧
        cstr (next.records.get index).namespaceId = id ∧
        Clean (next.records.get index).namespaceId :=
    ⟨(hwf.namespaceIndex_eq_some_iff hid).mpr ⟨hlive, hname⟩, hname, (hwf.ids index hlive).2.2⟩
  cases hnext with
  | replaced _ hindex =>
      rw [setRecord_get_same] at hlive ⊢
      rcases namespaceIndex_some hindex with ⟨hroot, rfl⟩ | ⟨hid, hold, hname⟩
      · obtain rfl : id = [] := hroot
        rw [h.rootId]
        exact ⟨namespaceIndex_root _, rfl, cstr_zero _, clean_zero _⟩
      · obtain ⟨hfound, hkept, hclean⟩ := hlive hid hold hname
        exact ⟨hfound, rfl, hkept, hclean⟩
  | appended hindex hcount =>
      obtain ⟨hid, -⟩ := namespaceIndex_none hindex
      obtain ⟨hlength, -, hzero⟩ := validNamespace_spec (hname hid)
      have hnext := PolicyState.Appended.of_count h.count hcount ⟨strscpy (CString.zero _) id, new⟩
      rw [hnext.self] at hlive ⊢
      obtain ⟨hfound, hkept, hclean⟩ :=
        hlive hid (hnext.live_iff.mpr (.inl rfl)) (cstr_strscpy hlength hzero)
      exact ⟨hfound, rfl, hkept, hclean⟩

/-! ## Refinement -/

/-- One step of the module is at most one admitted change. -/
theorem ActiveStep.evolves {m : ℕ} {s t : KernelState} (h : ActiveStep m s t)
    (hs : (s.maps m).Published) (ht : (t.maps m).Published) :
    ∃ log, log.length ≤ 1 ∧
      Evolves PolicyStore.Admits (s.maps m).active.store log (t.maps m).active.store := by
  cases h with
  | same hactive =>
      refine ⟨[], Nat.zero_le 1, ?_⟩
      rw [hactive]
      exact .refl
  | updated id new candidate index hname hnormal hcandidate hvalid hactive =>
      have hwf := hs.active_wellFormed
      have hnext : (t.maps m).active.store = (s.maps m).active.store.publish id new := by
        have hvalue := hcandidate.store_value hwf (hwf.candidate hname hnormal hcandidate) hname
        rw [hactive]
        refine VersionedStore.ext ?_ hvalue
        have hgeneration := ht.active_generation
        rw [hactive] at hgeneration
        have hne : (s.maps m).generation + 1 ≠ 0 := by
          rw [show (s.maps m).generation + 1 = (t.maps m).generation from hgeneration]
          exact ht.generation
        rw [PolicyState.store, nextCandidate, PolicyState.store, VersionedStore.publish,
          hs.active_generation]
        exact toNat_succ_of_ne_zero hne
      refine ⟨[(id, new)], le_rfl, ?_⟩
      rw [hnext]
      refine Evolves.publish .refl ⟨hnormal, hname, fun hid => ?_⟩
      obtain ⟨hindex, hroot⟩ := hcandidate.root hid hwf
      rw [value_store_root, ← hroot]
      exact ⟨_, rfl, hvalid hindex⟩

theorem store_initialPolicyState :
    { initialPolicyState with generation := 1 }.store = initialPolicyStore := by
  refine VersionedStore.ext rfl ?_
  funext id
  by_cases hid : id = []
  · rw [hid, value_store_root, initialPolicyStore, value_publish_self]
    rfl
  · rw [value_store, initialPolicyStore, value_publish_of_ne _ _ hid, Option.map_eq_none_iff,
      Option.eq_none_iff_forall_ne_some]
    intro i hindex
    rcases namespaceIndex_some hindex with ⟨hroot, -⟩ | ⟨-, hlive, -⟩
    · exact hid hroot
    · exact absurd (le_trans hlive.1 hlive.2) (by decide)

/-- The map at `m` is bound and its store has come from `before` by admitted changes. -/
structure EvolvedFrom (before : PolicyStore) (m : ℕ) (s : KernelState) : Prop where
  bound : s.policyMap = some m
  published : (s.maps m).Published
  evolves : ∃ log, Evolves PolicyStore.Admits before log (s.maps m).active.store

theorem EvolvedFrom.step {P : Platform} {before : PolicyStore} {m : ℕ} {s t : KernelState}
    {ret : Ret} (hs : EvolvedFrom before m s) (h : KernelEffect P s ret t) :
    EvolvedFrom before m t := by
  obtain ⟨hbound, hpublished, hstep⟩ := h.activeStep hs.bound hs.published
  obtain ⟨log, hlog⟩ := hs.evolves
  obtain ⟨log', -, hlog'⟩ := hstep.evolves hs.published hpublished
  exact ⟨hbound, hpublished, log ++ log', hlog.trans hlog'⟩

/-- The invariant of the module: a bound map has evolved from the defaults. -/
def RefinesStore (s : KernelState) : Prop :=
  ∀ m, s.policyMap = some m → EvolvedFrom initialPolicyStore m s

theorem RefinesStore.step {P : Platform} {s t : KernelState} {ret : Ret} (hs : RefinesStore s)
    (h : KernelEffect P s ret t) : RefinesStore t := by
  intro m hm
  cases hmap : s.policyMap with
  | some m' =>
      have ht := (hs m' hmap).step h
      obtain rfl := Option.some.inj (ht.bound.symm.trans hm)
      exact ht
  | none =>
      obtain ⟨engine, hfrozen, hzero, rfl⟩ := h.bound_of_none hmap hm
      obtain ⟨hpublished, hactive⟩ := published_of_bound hfrozen hzero engine
      refine ⟨rfl, hpublished, [], ?_⟩
      rw [hactive, store_initialPolicyState]
      exact .refl

theorem RefinesStore.of_run (P : Platform) (maps : ℕ → BpfMap) (tpmPcrIndex : ℤ)
    (ops : List KernelOp) : RefinesStore (kernelRun P maps tpmPcrIndex ops) := by
  refine run_invariant (fun s op h => h.step (kernelStep_effect P s op)) ops ?_
  intro m hm
  cases hm

/-- A decision reads the active state only through the store. -/
theorem resolveState_eq_resolve (state : PolicyState) (context : PolicyContext) :
    resolveState state context = state.store.resolve context := by
  have hversion : UInt64.ofNat state.store.version = state.generation := UInt64.ofNat_toNat
  rw [PolicyStore.resolve, value_store_root, Option.getD_some, hversion, value_store]
  unfold resolveState
  cases hindex : namespaceIndex state (some (cstr context.namespaceId)) with
  | none =>
      rw [if_neg (namespaceIndex_none hindex).1]
      rfl
  | some index =>
      rcases namespaceIndex_some hindex with ⟨hroot, rfl⟩ | ⟨hne, hlive, -⟩
      · rw [if_pos (show cstr context.namespaceId = [] from hroot)]
        rfl
      · rw [if_neg (show cstr context.namespaceId ≠ [] from hne)]
        simp only [if_neg hlive.ne_zero, Option.map_some]

/-- Every state of the module with a bound map stands for a store that was reached from the
defaults by admitted changes; the generation counts them, every snapshot in it is normal,
and every decision is made on it. -/
theorem policy_manager_refines_store (P : Platform) (maps : ℕ → BpfMap) (tpmPcrIndex : ℤ)
    (ops : List KernelOp) (m : ℕ)
    (hbound : (kernelRun P maps tpmPcrIndex ops).policyMap = some m) :
    ∃ log, Evolves PolicyStore.Admits initialPolicyStore log
        ((kernelRun P maps tpmPcrIndex ops).maps m).active.store ∧
      ((kernelRun P maps tpmPcrIndex ops).maps m).generation.toNat = 1 + log.length ∧
      (∀ id snapshot,
        ((kernelRun P maps tpmPcrIndex ops).maps m).active.store.value id = some snapshot →
          normalizeSnapshot snapshot = .ok snapshot) ∧
      ∀ context, context.wellFormed →
        policyResolveContext context (kernelRun P maps tpmPcrIndex ops) =
          .ok (((kernelRun P maps tpmPcrIndex ops).maps m).active.store.resolve context) := by
  obtain ⟨-, hpublished, log, hlog⟩ := RefinesStore.of_run P maps tpmPcrIndex ops m hbound
  refine ⟨log, hlog, ?_, ?_, ?_⟩
  · rw [← hpublished.active_generation]
    exact hlog.version
  · refine hlog.forall_value (fun store id new hadmits => hadmits.normal) ?_
    intro id snapshot hvalue
    by_cases hid : id = []
    · rw [hid, initialPolicyStore, value_publish_self, Option.some.injEq] at hvalue
      rw [← hvalue]
      decide +kernel
    · rw [initialPolicyStore, value_publish_of_ne _ _ hid] at hvalue
      cases hvalue
  · intro context hcontext
    simp only [policyResolveContext, hcontext, not_true_eq_false, if_false, hbound,
      resolveState_eq_resolve]

/-- From any such state on, a run makes admitted changes only: a namespace keeps its snapshot
until one is published for it, and none is forgotten. -/
theorem policy_store_evolves (P : Platform) (maps : ℕ → BpfMap) (tpmPcrIndex : ℤ)
    (ops rest : List KernelOp) (m : ℕ)
    (hbound : (kernelRun P maps tpmPcrIndex ops).policyMap = some m) :
    let before := ((kernelRun P maps tpmPcrIndex ops).maps m).active.store
    let after := ((kernelRun P maps tpmPcrIndex (ops ++ rest)).maps m).active.store
    ∃ log, Evolves PolicyStore.Admits before log after ∧
      (∀ id, id ∉ log.map Prod.fst → after.value id = before.value id) ∧
      ∀ id, (before.value id).isSome = true → (after.value id).isSome = true := by
  intro before after
  have hrun : run (kernelStep P) (kernelRun P maps tpmPcrIndex ops) rest =
      kernelRun P maps tpmPcrIndex (ops ++ rest) := (run_append _ _ _ _).symm
  obtain ⟨-, -, log, hlog⟩ := run_invariant (P := EvolvedFrom before m)
    (fun t op ht => ht.step (kernelStep_effect P t op)) rest
    ⟨hbound, PolicyBound.of_run P maps tpmPcrIndex ops m hbound, [], .refl⟩
  rw [hrun] at hlog
  exact ⟨log, hlog, fun id => hlog.value_of_notMem, fun id => hlog.isSome_value⟩

end BpfIma
