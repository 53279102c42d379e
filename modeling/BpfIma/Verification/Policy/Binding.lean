import BpfIma.Verification.Policy.Coverage
import BpfIma.Verification.Policy.Representation

/-! # Binding the policy map

A call of `bpfima_policy_bind_map` binds the default policy to a zeroed map, or leaves the
bound map, the contents of all maps and the committed history as they were. Over a run one
call binds, and it keeps one reference. -/

namespace BpfIma

open CString Errno Machine

/-! ## One call -/

/-- The call has committed the default root and published it in the map at `m`. -/
structure BindsDefault (P : Platform) (m : ℕ) (s t : KernelState) : Prop where
  unbound : s.policyMap = none
  bound : t.policyMap = some m
  zeroed : ∀ i, (s.maps m).slots.get i = PolicyState.zero
  commit : ∃ config env, commitRootLocked P.toHashSuite config env s.engine
    (some (policyChange P 1 (initialPolicyState.records.get 0)).changeHash)
    (some "global_policy".ascii) = (0, t.engine)
  active : (t.maps m).active = { initialPolicyState with generation := 1 }
  refcnt : (t.maps m).refcnt = (s.maps m).refcnt + 1
  others : ∀ m', m' ≠ m → t.maps m' = s.maps m'

/-- What a call can come to. -/
inductive BindCall (P : Platform) (s : KernelState) : Ret → KernelState → Prop where
  | binds {t : KernelState} (m : ℕ) (hbinds : BindsDefault P m s t) : BindCall P s 0 t
  | keeps {ret : Ret} {t : KernelState} (hret : s.policyMap = none → ret ≠ 0)
      (hbound : t.policyMap = s.policyMap) (hmaps : t.maps = s.maps)
      (hroot : t.engine.systemMerkleRoot = s.engine.systemMerkleRoot)
      (hhistory : t.engine.merkleRootHistory = s.engine.merkleRootHistory) : BindCall P s ret t

/-- A root commit that fails commits nothing. -/
theorem commitRootLocked_failed {S : HashSuite} {config : PolicyConfig} {env : CommitEnv}
    {s t : CommitState} {value : Option Digest} {sourceId : Option Bytes} {ret : Ret}
    (h : commitRootLocked S config env s value sourceId = (ret, t)) (hret : ret ≠ 0) :
    t.systemMerkleRoot = s.systemMerkleRoot ∧ t.merkleRootHistory = s.merkleRootHistory := by
  have heffect := commitStep_effect S s (.commitRoot config env value sourceId)
  simp only [commitStep, h] at heffect
  cases heffect with
  | refused | commandFailed => exact ⟨rfl, rfl⟩
  | rootCommitted => exact absurd rfl hret

theorem BindEffect.bindCall {P : Platform} {env : BindEnv} {s t : KernelState} {ret : Ret}
    (h : BindEffect P env s ret t) : BindCall P s ret t := by
  cases h with
  | refused error hret => exact .keeps (fun _ => hret) rfl rfl rfl rfl
  | alreadyBound hbound =>
      refine .keeps (fun hnone => ?_) rfl rfl rfl rfl
      rw [hnone] at hbound
      cases hbound
  | notCommitted m engine hret hbound hcommit =>
      obtain ⟨hroot, hhistory⟩ := commitRootLocked_failed hcommit hret
      exact .keeps (fun _ => hret) rfl rfl hroot hhistory
  | bound m engine hbound hfrozen hzero hcommit =>
      have hget : (s.mapGet m).maps m = { s.maps m with refcnt := (s.maps m).refcnt + 1 } :=
        s.setMap_maps_self m _
      have hgeneration : ((s.mapGet m).maps m).generation = 0 := by
        rw [hget]
        exact generation_of_zeroed hzero
      refine .binds m ⟨hbound, rfl, hzero, ?_, ?_, ?_, ?_⟩
      · have hsource : policySource (cstr (initialPolicyState.records.get 0).namespaceId) =
            "global_policy".ascii := by decide +kernel
        refine ⟨policyGetConfig (stageCandidate (s.mapGet m) m initialPolicyState),
          env.publish.commit, ?_⟩
        rw [commitPolicy, policyEvent, hgeneration, hsource] at hcommit
        exact hcommit
      · exact (published_of_bound hfrozen hzero engine).2
      · have hmap := maps_publishedState P (s.mapGet m) m initialPolicyState 0 none engine
        simp only [hmap, hget, BpfMap.publish, BpfMap.stage]
      · intro m' hne
        simp [publishedState, KernelState.setMap, recordChange, stageCandidate, KernelState.mapGet,
          hne]

/-- A call that fails leaves the policy authority as it was. -/
theorem BindCall.failed {P : Platform} {s t : KernelState} {ret : Ret} (h : BindCall P s ret t)
    (hret : ret ≠ 0) :
    t.policyMap = s.policyMap ∧ policyGeneration t = policyGeneration s ∧ t.maps = s.maps := by
  cases h with
  | binds m hbinds => exact absurd rfl hret
  | keeps hfails hbound hmaps hroot hhistory =>
      exact ⟨hbound, by rw [policyGeneration, hbound, hmaps, policyGeneration], hmaps⟩

/-- A map other than the bound one is refused. -/
theorem policyBindMap_other {P : Platform} {env : BindEnv} {s : KernelState} {bound m : ℕ}
    (hbound : s.policyMap = some bound) (hmap : env.map = .ok m) (hne : m ≠ bound) :
    (policyBindMap P env s).1 ≠ 0 := by
  have hexisting : (s.mapGet m).policyMap = some bound := hbound
  have hret : (bindMapReferenced P env m (s.mapGet m)).1 ≠ 0 := by
    unfold bindMapReferenced
    split
    · exact show -einval ≠ 0 by decide
    · split
      · exact show -eperm ≠ 0 by decide
      · split
        · exact show -ebusy ≠ 0 by decide
        · split
          · exact show -enomem ≠ 0 by decide
          · rw [hexisting]
            simp only [if_neg hne.symm]
            exact show -ebusy ≠ 0 by decide
  simp only [policyBindMap, hmap]
  split
  · exact hret
  · exact hret

/-! ## Runs -/

/-- The maps that the calls of a run have bound, in order. -/
def bindings (P : Platform) : KernelState → List KernelOp → List ℕ :=
  collect (kernelStep P) fun s op =>
    if s.policyMap = none then (kernelStep P s op).2.policyMap else none

theorem PublishEffect.refcnt {P : Platform} {env : PublishEnv} {s t : KernelState} {m : ℕ}
    {candidate : PolicyState} {index : Fin (policyNamespaces + 1)} {metadata : Option ℕ} {ret : Ret}
    (h : PublishEffect P env s m candidate index metadata ret t) (m' : ℕ) :
    t.policyMap = s.policyMap ∧ (t.maps m').refcnt = (s.maps m').refcnt := by
  cases h with
  | refused => exact ⟨rfl, rfl⟩
  | notCommitted engine hret hcommit hgeneration =>
      refine ⟨rfl, ?_⟩
      by_cases hm : m' = m
      · rw [hm, maps_stageCandidate]
        rfl
      · simp [stageCandidate, KernelState.setMap, hm]
  | published engine hgeneration hcommit =>
      refine ⟨by cases metadata <;> rfl, ?_⟩
      by_cases hm : m' = m
      · rw [hm, maps_publishedState]
        rfl
      · simp [publishedState, KernelState.setMap, maps_recordChange, stageCandidate, hm]

theorem UpdateEffect.refcnt {P : Platform} {env : ApplyEnv} {s t : KernelState} {ret : Ret}
    (h : UpdateEffect P env s ret t) (m' : ℕ) :
    t.policyMap = s.policyMap ∧ (t.maps m').refcnt = (s.maps m').refcnt := by
  cases h with
  | refused => exact ⟨rfl, rfl⟩
  | applied request hname happly =>
      cases happly with
      | refused | unchanged => exact ⟨rfl, rfl⟩
      | attempted m namespaces snapshot candidate index metadata hbound hadded hnormal hcandidate
          hvalid haudited hpublish => exact hpublish.refcnt m'

/-- A call that is neither about the policy nor about a map leaves the maps alone. -/
theorem maps_kernelStep (P : Platform) (s : KernelState) {op : KernelOp}
    (hop : op.isPolicyCall = false) (hsyscall : ∀ m map, op ≠ .mapSyscall m map) :
    (kernelStep P s op).2.policyMap = s.policyMap ∧ (kernelStep P s op).2.maps = s.maps := by
  cases op with
  | measurementExtend env data dataSize =>
      obtain ⟨engine, namespaces, -, -, hstate⟩ := measurementExtend_frame P env data dataSize s
      simp only [kernelStep, hstate, and_self]
  | addMeasurement | commitGetError => exact ⟨rfl, rfl⟩
  | containerGetOrCreate env containerId =>
      simp only [kernelStep, containerGetOrCreate]
      split
      · exact ⟨rfl, rfl⟩
      · rename_i id _
        split
        · exact ⟨rfl, rfl⟩
        · obtain ⟨engine, namespaces, -, -, hstate⟩ := createContainerNode_frame P env id s
          split <;> rename_i hresult <;> rw [hresult] at hstate <;> simp only at hstate <;>
            subst hstate <;> exact ⟨rfl, rfl⟩
  | policyNamespaceGet alloc id =>
      obtain ⟨namespaces, -, hstate⟩ := policyNamespaceGetLocked_frame alloc id s
      simp only [kernelStep]
      split <;> rename_i hresult <;> rw [hresult] at hstate <;> simp only at hstate <;>
        subst hstate <;> exact ⟨rfl, rfl⟩
  | policyBindMap | policyApply | policyUpdateField => cases hop
  | mapSyscall m map => exact absurd rfl (hsyscall m map)

/-- Nothing but a binding call binds a map. -/
theorem policyMap_kernelStep (P : Platform) (s : KernelState) {op : KernelOp}
    (hop : ∀ env, op ≠ .policyBindMap env) :
    (kernelStep P s op).2.policyMap = s.policyMap := by
  have hother (hpolicy : op.isPolicyCall = false) (hsyscall : ∀ m map, op ≠ .mapSyscall m map) :
      (kernelStep P s op).2.policyMap = s.policyMap := (maps_kernelStep P s hpolicy hsyscall).1
  cases op with
  | policyBindMap env => exact absurd rfl (hop env)
  | policyApply env request => exact ((policyApply_effect P env request s).refcnt 0).1
  | policyUpdateField requestAlloc env id field value =>
      exact ((policyUpdateField_effect P requestAlloc env id field value s).refcnt 0).1
  | mapSyscall m map =>
      simp only [kernelStep]
      split
      · rfl
      · rfl
  | measurementExtend | addMeasurement | containerGetOrCreate | commitGetError
  | policyNamespaceGet => exact hother rfl (by simp)

/-- The references to the map at `m`: those taken elsewhere, and one if it is bound. -/
def RefsKept (maps : ℕ → BpfMap) (m : ℕ) (s : KernelState) : Prop :=
  (s.maps m).refcnt = (maps m).refcnt + if s.policyMap = some m then 1 else 0

theorem RefsKept.congr {maps : ℕ → BpfMap} {m : ℕ} {s t : KernelState} (h : RefsKept maps m s)
    (hbound : t.policyMap = s.policyMap) (hrefcnt : (t.maps m).refcnt = (s.maps m).refcnt) :
    RefsKept maps m t := by
  rw [RefsKept, hrefcnt, hbound]
  exact h

theorem RefsKept.step {maps : ℕ → BpfMap} {m : ℕ} {s : KernelState} (P : Platform)
    (h : RefsKept maps m s) {op : KernelOp} (hop : ∀ map, op ≠ .mapSyscall m map) :
    RefsKept maps m (kernelStep P s op).2 := by
  have hother (hpolicy : op.isPolicyCall = false) (hsyscall : ∀ m map, op ≠ .mapSyscall m map) :
      RefsKept maps m (kernelStep P s op).2 := by
    obtain ⟨hbound, hmaps⟩ := maps_kernelStep P s hpolicy hsyscall
    exact h.congr hbound (by rw [hmaps])
  cases op with
  | policyBindMap env =>
      have hcall := (policyBindMap_effect P env s).bindCall
      generalize (policyBindMap P env s).1 = ret at hcall
      change RefsKept maps m (policyBindMap P env s).2
      generalize (policyBindMap P env s).2 = t at hcall ⊢
      cases hcall with
      | binds m' hbinds =>
          rw [RefsKept, hbinds.unbound] at h
          by_cases hm : m = m'
          · subst hm
            rw [RefsKept, hbinds.bound, hbinds.refcnt, h, if_neg (by simp), if_pos rfl]
          · rw [RefsKept, hbinds.bound, hbinds.others m hm, h, if_neg (by simp),
              if_neg (by simpa using Ne.symm hm)]
      | keeps hret hbound hmaps => exact h.congr hbound (by rw [hmaps])
  | policyApply env request =>
      obtain ⟨hbound, hrefcnt⟩ := (policyApply_effect P env request s).refcnt m
      exact h.congr hbound hrefcnt
  | policyUpdateField requestAlloc env id field value =>
      obtain ⟨hbound, hrefcnt⟩ :=
        (policyUpdateField_effect P requestAlloc env id field value s).refcnt m
      exact h.congr hbound hrefcnt
  | mapSyscall m' map =>
      have hne : m ≠ m' := by
        rintro rfl
        exact hop map rfl
      simp only [kernelStep]
      split
      · exact h
      · exact h.congr rfl (by rw [s.setMap_maps_of_ne map hne])
  | measurementExtend | addMeasurement | containerGetOrCreate | commitGetError
  | policyNamespaceGet => exact hother rfl (by simp)

/-- One map at most has been bound, the one that is. -/
def BoundOnce (s : KernelState) (log : List ℕ) : Prop := PolicyBound s ∧ log = s.policyMap.toList

theorem BoundOnce.step {s : KernelState} {log : List ℕ} (P : Platform) (h : BoundOnce s log)
    (op : KernelOp) :
    BoundOnce (kernelStep P s op).2
      (log ++ (if s.policyMap = none then (kernelStep P s op).2.policyMap else none).toList) := by
  obtain ⟨hbound, rfl⟩ := h
  have heffect := kernelStep_effect P s op
  refine ⟨hbound.step heffect, ?_⟩
  cases hmap : s.policyMap with
  | none => simp
  | some m =>
      rw [(heffect.activeStep hmap (hbound m hmap)).1]
      simp

theorem BoundOnce.of_run (P : Platform) (maps : ℕ → BpfMap) (tpmPcrIndex : ℤ)
    (ops : List KernelOp) :
    BoundOnce (kernelRun P maps tpmPcrIndex ops)
      (bindings P (moduleLoaded maps tpmPcrIndex) ops) := by
  refine run_collect (P := BoundOnce) (fun s op log _ h => h.step P op)
    (along_true _ (fun _ _ => True) (fun _ _ => trivial) _ _) ⟨?_, rfl⟩
  intro m hm
  cases hm

/-- Binding happens once and fails cleanly. In every reachable state, a call binds the default
policy to a zeroed map or changes no map; a call that fails leaves the bound map and what it
holds; a call on another map than the bound one fails; only such a call binds; one map has been
bound if one is, and it stays bound; and the references to a map are those that others have taken
and one for the binding. -/
theorem policy_bound_once (P : Platform) (maps : ℕ → BpfMap) (tpmPcrIndex : ℤ)
    (ops : List KernelOp) :
    (∀ env, BindCall P (kernelRun P maps tpmPcrIndex ops)
        (policyBindMap P env (kernelRun P maps tpmPcrIndex ops)).1
        (policyBindMap P env (kernelRun P maps tpmPcrIndex ops)).2) ∧
      (∀ env t, policyBindMap P env (kernelRun P maps tpmPcrIndex ops) = t → t.1 ≠ 0 →
        t.2.policyMap = (kernelRun P maps tpmPcrIndex ops).policyMap ∧
          policyGeneration t.2 = policyGeneration (kernelRun P maps tpmPcrIndex ops) ∧
          t.2.maps = (kernelRun P maps tpmPcrIndex ops).maps) ∧
      (∀ env bound m, (kernelRun P maps tpmPcrIndex ops).policyMap = some bound →
        env.map = .ok m → m ≠ bound →
        (policyBindMap P env (kernelRun P maps tpmPcrIndex ops)).1 ≠ 0) ∧
      (∀ op, (kernelStep P (kernelRun P maps tpmPcrIndex ops) op).2.policyMap ≠
          (kernelRun P maps tpmPcrIndex ops).policyMap → ∃ env, op = .policyBindMap env) ∧
      bindings P (moduleLoaded maps tpmPcrIndex) ops =
        (kernelRun P maps tpmPcrIndex ops).policyMap.toList ∧
      (∀ rest m, (kernelRun P maps tpmPcrIndex ops).policyMap = some m →
        (kernelRun P maps tpmPcrIndex (ops ++ rest)).policyMap = some m) ∧
      ∀ m, (∀ map, KernelOp.mapSyscall m map ∉ ops) →
        ((kernelRun P maps tpmPcrIndex ops).maps m).refcnt = (maps m).refcnt +
          if (kernelRun P maps tpmPcrIndex ops).policyMap = some m then 1 else 0 := by
  refine ⟨fun env => (policyBindMap_effect P env _).bindCall, ?_,
    fun env bound m hbound hmap hne => policyBindMap_other hbound hmap hne, ?_,
    (BoundOnce.of_run P maps tpmPcrIndex ops).2, ?_, ?_⟩
  · rintro env t rfl hret
    exact (policyBindMap_effect P env _).bindCall.failed hret
  · intro op hchanged
    by_contra hop
    exact hchanged (policyMap_kernelStep P _ fun env heq => hop ⟨env, heq⟩)
  · intro rest m hbound
    have hpublished := PolicyBound.of_run P maps tpmPcrIndex ops m hbound
    rw [kernelRun, run_append]
    exact (StaysPublished.of_run (P := P) hbound hpublished rest).bound
  · intro m hsyscall
    refine run_induction (P := RefsKept maps m) (fun s op hop h => h.step P hop)
      (along_of_forall_mem _ ?_ _) ?_
    · rintro op hop map rfl
      exact hsyscall map hop
    · simp [RefsKept, moduleLoaded]

theorem policy_bound_once_extendedManager :
    extendedManager.policyMap = some 0 ∧
      (policyBindMap referencePlatform { workingBind with map := .ok 1 } extendedManager).1 ≠ 0 ∧
      (extendedManager.maps 0).refcnt = unboundPolicyMap.refcnt + 1 := by
  have hbound : extendedManager.policyMap = some 0 := by decide +kernel
  obtain ⟨-, -, hother, -, -, -, hrefs⟩ := policy_bound_once referencePlatform
    (fun _ => unboundPolicyMap) 10
    [.policyBindMap workingBind, .policyApply workingApply (some verboseRequest)]
  refine ⟨hbound, hother { workingBind with map := .ok 1 } 0 1 hbound rfl (by decide), ?_⟩
  exact (hrefs 0 (by simp)).trans (congrArg _ (if_pos hbound))

end BpfIma
