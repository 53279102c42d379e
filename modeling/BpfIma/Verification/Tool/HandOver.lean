import BpfIma.Model.PolicyAuthority
import BpfIma.Verification.Policy.Binding
import BpfIma.Verification.Tool.Status

/-! # Handing a map over

What the write of `ensure_policy_map` comes to in the module, and what `preserve_policy_pin` finds
in `status`. -/

namespace BpfIma

open CString Errno Machine

/-! ## What calls leave of a map -/

/-- The maps differ in what the module keeps in them at most. -/
def BpfMap.SameShape (map map' : BpfMap) : Prop :=
  map' = { map with refcnt := map'.refcnt, slots := map'.slots }

theorem BpfMap.SameShape.refl (map : BpfMap) : map.SameShape map := rfl

theorem BpfMap.SameShape.of_eq {map map' : BpfMap} (h : map' = map) : map.SameShape map' := by
  rw [h]
  exact .refl map

theorem PublishEffect.maps_frame {P : Platform} {env : PublishEnv} {s t : KernelState} {m : ℕ}
    {candidate : PolicyState} {index : Fin (policyNamespaces + 1)} {metadata : Option ℕ} {ret : Ret}
    (h : PublishEffect P env s m candidate index metadata ret t) (m' : ℕ) :
    (s.maps m').SameShape (t.maps m') ∧ (m' ≠ m → t.maps m' = s.maps m') := by
  cases h with
  | refused => exact ⟨.refl _, fun _ => rfl⟩
  | notCommitted engine hret hcommit hgeneration =>
      by_cases hm : m' = m
      · subst hm
        rw [maps_stageCandidate]
        exact ⟨rfl, fun hne => absurd rfl hne⟩
      · have hsame : (stageCandidate s m candidate).maps m' = s.maps m' :=
          s.setMap_maps_of_ne _ hm
        exact ⟨.of_eq hsame, fun _ => hsame⟩
  | published engine hgeneration hcommit =>
      by_cases hm : m' = m
      · subst hm
        rw [maps_publishedState]
        exact ⟨rfl, fun hne => absurd rfl hne⟩
      · have hsame :
            (publishedState P s m candidate index metadata engine).maps m' = s.maps m' := by
          simp [publishedState, KernelState.setMap, maps_recordChange, stageCandidate, hm]
        exact ⟨.of_eq hsame, fun _ => hsame⟩

theorem UpdateEffect.maps_frame {P : Platform} {env : ApplyEnv} {s t : KernelState} {ret : Ret}
    (h : UpdateEffect P env s ret t) (m' : ℕ) :
    (s.maps m').SameShape (t.maps m') ∧ (s.policyMap ≠ some m' → t.maps m' = s.maps m') := by
  cases h with
  | refused => exact ⟨.refl _, fun _ => rfl⟩
  | applied request hname happly =>
      cases happly with
      | refused | unchanged => exact ⟨.refl _, fun _ => rfl⟩
      | attempted m namespaces snapshot candidate index metadata hbound hadded hnormal hcandidate
          hvalid haudited hpublish =>
          obtain ⟨hshape, hsame⟩ := hpublish.maps_frame m'
          refine ⟨hshape, fun hne => hsame ?_⟩
          rintro rfl
          exact hne hbound

/-- A call that does not bind leaves the binding, and of all maps but the bound one everything. -/
theorem kernelStep_maps_frame (P : Platform) (s : KernelState) {op : KernelOp} {m : ℕ}
    (hbind : ∀ env, op ≠ .policyBindMap env) (hsyscall : ∀ map, op ≠ .mapSyscall m map) :
    (s.maps m).SameShape ((kernelStep P s op).2.maps m) ∧
      (s.policyMap ≠ some m → (kernelStep P s op).2.maps m = s.maps m) := by
  have hquiet (hpolicy : op.isPolicyCall = false) (hother : ∀ m map, op ≠ .mapSyscall m map) :
      (s.maps m).SameShape ((kernelStep P s op).2.maps m) ∧
        (s.policyMap ≠ some m → (kernelStep P s op).2.maps m = s.maps m) := by
    rw [(maps_kernelStep P s hpolicy hother).2]
    exact ⟨.refl _, fun _ => rfl⟩
  cases op with
  | policyBindMap env => exact absurd rfl (hbind env)
  | policyApply env request => exact (policyApply_effect P env request s).maps_frame m
  | policyUpdateField requestAlloc env id field value =>
      exact (policyUpdateField_effect P requestAlloc env id field value s).maps_frame m
  | mapSyscall m' map =>
      have hne : m ≠ m' := by
        rintro rfl
        exact hsyscall map rfl
      simp only [kernelStep]
      split
      · exact ⟨.refl _, fun _ => rfl⟩
      · have hsame := s.setMap_maps_of_ne map hne
        exact ⟨.of_eq hsame, fun _ => hsame⟩
  | measurementExtend | addMeasurement | containerGetOrCreate | commitGetError
  | policyNamespaceGet => exact hquiet rfl (by simp)

/-! ## Errors are negative -/

theorem StepEffect.nonpos {S : HashSuite} {s t : CommitState} {op : CommitOp} {ret : Ret}
    (h : StepEffect S s op ret t) (hs : s.commitError ≤ 0) : t.commitError ≤ 0 := by
  have hpublish (config : PolicyConfig) (env : TrimEnv) (sourceId : Option Bytes) (hardware : Bool)
      (container : Option ContainerRef) (entry : Option MeasurementEntry) (p : PreparedEvent) :
      (trimHistoryLocked S config env sourceId
        (publishEvent (anchorRoot s hardware p.newRoot) container entry p)).commitError ≤ 0 := by
    obtain ⟨history, count, htrim⟩ := trimHistoryLocked_frame S config env sourceId
      (publishEvent (anchorRoot s hardware p.newRoot) container entry p)
    rw [htrim]
    cases hardware with
    | true | false => exact hs
  cases h with
  | refused error hret herror hnonpos => exact hnonpos hs
  | commandFailed extra hunlatched hallowed hret => exact hret.le
  | measured | rootCommitted => exact hpublish ..
  | checked | created => exact hs

theorem kernelStep_nonpos (P : Platform) {s : KernelState} (op : KernelOp)
    (hs : s.engine.commitError ≤ 0) : (kernelStep P s op).2.engine.commitError ≤ 0 := by
  rcases (kernelStep_effect P s op).engine_cases with hmoves | ⟨config, env, value, sourceId, hroot⟩
  · have hinvariant := hmoves.invariant (I := fun s => s.commitError ≤ 0)
    exact hinvariant (fun _ heffect => heffect.nonpos) hs
  · rw [hroot]
    exact
      (commitStep_effect P.toHashSuite s.engine (.commitRoot config env value sourceId)).nonpos hs

/-- No digest reports a positive number. -/
def PublishEnv.NonPos (env : PublishEnv) : Prop :=
  env.snapshotHashRet ≤ 0 ∧ env.eventHashRet ≤ 0

/-- A root commit looks for no duplicate. -/
theorem commitRootLocked_nonpos {S : HashSuite} (config : PolicyConfig) (env : CommitEnv)
    {s : CommitState} (hs : s.commitError ≤ 0) (value : Option Digest) (sourceId : Option Bytes) :
    (commitRootLocked S config env s value sourceId).1 ≤ 0 := by
  refine (commitEventLocked_ret S config env hs none none value sourceId false).resolve_right ?_
  rintro ⟨-, c, hc, -⟩
  cases hc

theorem publishPolicyLocked_nonpos (P : Platform) {env : PublishEnv} (henv : env.NonPos)
    {s : KernelState} (hs : s.engine.commitError ≤ 0) (m : ℕ) (candidate : PolicyState)
    (index : Fin (policyNamespaces + 1)) :
    (publishPolicyLocked P env s m candidate index none).1 ≤ 0 := by
  unfold publishPolicyLocked
  simp only
  split
  · exact show -eoverflow ≤ 0 by decide
  · split
    · exact show -enomem ≤ 0 by decide
    · split
      · exact show -enomem ≤ 0 by decide
      · split
        · exact henv.1
        · split
          · exact henv.2
          · simp only [Option.isSome_none, Bool.false_eq_true, false_and, if_false]
            split
            · exact commitRootLocked_nonpos _ _ hs _ _
            · exact le_rfl

theorem policyBindMap_nonpos (P : Platform) {env : BindEnv} (henv : env.publish.NonPos)
    {s : KernelState} (hs : s.engine.commitError ≤ 0) : (policyBindMap P env s).1 ≤ 0 := by
  have hreferenced (m : ℕ) : (bindMapReferenced P env m (s.mapGet m)).1 ≤ 0 := by
    unfold bindMapReferenced
    split
    · exact show -einval ≤ 0 by decide
    · split
      · exact show -eperm ≤ 0 by decide
      · split
        · exact show -ebusy ≤ 0 by decide
        · split
          · exact show -enomem ≤ 0 by decide
          · split
            · split
              · exact commitCheckLocked_nonpos hs
              · exact show -ebusy ≤ 0 by decide
            · split
              · exact show -estale ≤ 0 by decide
              · simp only
                split
                · exact publishPolicyLocked_nonpos P henv (s := s.mapGet m) hs m _ _
                · exact le_rfl
  unfold policyBindMap
  split
  · rename_i ret hmap
    exact ret.property.le
  · rename_i m hmap
    simp only
    split
    · exact hreferenced m
    · exact hreferenced m

/-! ## Handing a map over -/

/-- A map that user space can no longer write to. -/
structure BpfMap.Protected (map : BpfMap) : Prop where
  shape : map.hasPolicyShape
  frozen : map.frozen = true
  writecnt : map.writecnt = 0

theorem bindMapReferenced_bound {P : Platform} {env : BindEnv} {m : ℕ} {s : KernelState}
    (hnone : s.policyMap = none) (hret : (bindMapReferenced P env m s).1 = 0) :
    (bindMapReferenced P env m s).2.policyMap = some m := by
  unfold bindMapReferenced at hret ⊢
  by_cases hshape : ¬ (s.maps m).hasPolicyShape
  · rw [if_pos hshape] at hret
    exact absurd hret (show -einval ≠ 0 by decide)
  rw [if_neg hshape] at hret ⊢
  by_cases hfrozen : (s.maps m).frozen = false
  · rw [if_pos hfrozen] at hret
    exact absurd hret (show -eperm ≠ 0 by decide)
  rw [if_neg hfrozen] at hret ⊢
  by_cases hwriters : (s.maps m).writecnt ≠ 0
  · rw [if_pos hwriters] at hret
    exact absurd hret (show -ebusy ≠ 0 by decide)
  rw [if_neg hwriters] at hret ⊢
  by_cases halloc : ¬ env.initialAlloc
  · rw [if_pos halloc] at hret
    exact absurd hret (show -enomem ≠ 0 by decide)
  rw [if_neg halloc, hnone] at hret ⊢
  simp only at hret ⊢
  by_cases hzero : ¬ ∀ i, (s.maps m).slots.get i = PolicyState.zero
  · rw [if_pos hzero] at hret
    exact absurd hret (show -estale ≠ 0 by decide)
  rw [if_neg hzero] at hret ⊢
  generalize publishPolicyLocked P env.publish s m initialPolicyState 0 none = result at hret ⊢
  by_cases hpublish : result.1 ≠ 0
  · rw [if_pos hpublish] at hret
    exact absurd hret hpublish
  · rw [if_neg hpublish]

/-- What a call with the descriptor of the map at `m` can come to. -/
theorem policyBindMap_cases (P : Platform) {env : BindEnv} {s : KernelState} {m : ℕ}
    (hmap : env.map = .ok m) :
    ((policyBindMap P env s).1 ≠ 0 ∧ (policyBindMap P env s).2.policyMap = s.policyMap ∧
        (policyBindMap P env s).2.maps = s.maps) ∨
      (policyBindMap P env s).1 = 0 ∧ (policyBindMap P env s).2.policyMap = some m ∧
        (s.policyMap = none ∨ s.policyMap = some m) ∧
        ∀ m', (s.maps m').SameShape ((policyBindMap P env s).2.maps m') ∧
          (m' ≠ m → (policyBindMap P env s).2.maps m' = s.maps m') := by
  have hother (bound : ℕ) (hbound : s.policyMap = some bound)
      (hret : (policyBindMap P env s).1 = 0) : m = bound := by
    by_contra hne
    exact policyBindMap_other hbound hmap hne hret
  have htaken (hnone : s.policyMap = none) (hret : (policyBindMap P env s).1 = 0) :
      (policyBindMap P env s).2.policyMap = some m := by
    simp only [policyBindMap, hmap] at hret ⊢
    split_ifs at hret ⊢ with hbinds
    · exact bindMapReferenced_bound hnone hret
    · exact absurd ⟨hret, hnone⟩ hbinds
  have heffect := policyBindMap_effect P env s
  generalize (policyBindMap P env s).1 = ret, (policyBindMap P env s).2 = t
    at heffect hother htaken ⊢
  cases heffect with
  | refused error hret => exact .inl ⟨hret, rfl, rfl⟩
  | notCommitted m' engine hret hbound hcommit => exact .inl ⟨hret, rfl, rfl⟩
  | alreadyBound hbound =>
      obtain ⟨bound, hsome⟩ := Option.isSome_iff_exists.mp hbound
      obtain rfl := hother bound hsome rfl
      exact .inr ⟨rfl, hsome, .inr hsome, fun m' => ⟨.refl _, fun _ => rfl⟩⟩
  | bound m' engine hbound hfrozen hzero hcommit =>
      obtain rfl : m' = m := Option.some.inj (htaken hbound rfl)
      refine .inr ⟨rfl, rfl, .inl hbound, fun k => ?_⟩
      by_cases hk : k = m'
      · subst hk
        refine ⟨?_, fun hne => absurd rfl hne⟩
        change (s.maps k).SameShape ((publishedState P (s.mapGet k) k initialPolicyState 0 none
          engine).maps k)
        rw [maps_publishedState, show (s.mapGet k).maps k =
          { s.maps k with refcnt := (s.maps k).refcnt + 1 } from s.setMap_maps_self k _]
        rfl
      · have hsame : (publishedState P (s.mapGet m') m' initialPolicyState 0 none engine).maps k =
            s.maps k := by
          simp [publishedState, KernelState.setMap, maps_recordChange, stageCandidate, hk,
            KernelState.mapGet]
        exact ⟨.of_eq hsame, fun _ => hsame⟩

/-- What the commit engine says to a call with the map that is bound, or may be. -/
def authorityRet (P : Platform) (env : BindEnv) (m : ℕ) (s : KernelState) : Ret :=
  match s.policyMap with
  | some _ => (commitCheckLocked env.available s.engine).1
  | none => (publishPolicyLocked P env.publish (s.mapGet m) m initialPolicyState 0 none).1

/-- The module refuses a map that nobody can write to, that no other map has preceded and that is
empty until it is bound, only if the commit engine does. -/
theorem policyBindMap_authority (P : Platform) {env : BindEnv} {s : KernelState} {m : ℕ}
    (hmap : env.map = .ok m) (halloc : env.initialAlloc = true) (hprotected : (s.maps m).Protected)
    (hbound : ∀ m', s.policyMap = some m' → m' = m)
    (hzero : s.policyMap = none → ∀ i, (s.maps m).slots.get i = PolicyState.zero) :
    (policyBindMap P env s).1 = authorityRet P env m s := by
  have href : (s.mapGet m).maps m = { s.maps m with refcnt := (s.maps m).refcnt + 1 } :=
    s.setMap_maps_self m _
  have hshape : ((s.mapGet m).maps m).hasPolicyShape := by
    rw [href]
    exact hprotected.shape
  have hfrozen : ((s.mapGet m).maps m).frozen = true := by
    rw [href]
    exact hprotected.frozen
  have hwriters : ((s.mapGet m).maps m).writecnt = 0 := by
    rw [href]
    exact hprotected.writecnt
  have hreferenced : (bindMapReferenced P env m (s.mapGet m)).1 = authorityRet P env m s := by
    have hsame : (s.mapGet m).policyMap = s.policyMap := rfl
    simp only [bindMapReferenced, hshape, hfrozen, hwriters, halloc, hsame, not_true_eq_false,
      if_false, Bool.true_eq_false, ne_eq]
    unfold authorityRet
    cases hpolicy : s.policyMap with
    | some m' =>
        simp only [hbound m' hpolicy, if_true]
        rfl
    | none =>
        have hempty : ∀ i, ((s.mapGet m).maps m).slots.get i = PolicyState.zero := by
          rw [href]
          exact hzero hpolicy
        simp only [hempty, implies_true, not_true_eq_false, if_false]
        split
        · rfl
        · rename_i hpublished
          exact (not_not.mp hpublished).symm
  simp only [policyBindMap, hmap]
  split
  · exact hreferenced
  · exact hreferenced

/-- The call that the write to `policy_map` makes. -/
abbrev HandOverEnv.bind (env : HandOverEnv) (m : ℕ) : BindEnv := (env.mapWrite m).bind env.fd

theorem HandOverEnv.map_bind (env : HandOverEnv) (m : ℕ) : (env.bind m).map = .ok m := if_pos rfl

/-- The endpoint is there, and the write reaches the module. -/
def HandOverEnv.Reaches (env : HandOverEnv) : Prop :=
  env.endpoint = true ∧ env.capable = true ∧ env.copyFault = false

/-- The descriptor arrives as it was written. -/
theorem handOver_reaches (P : Platform) {env : HandOverEnv} (henv : env.Reaches) (m : ℕ)
    (host : Host) (hnonpos : (policyBindMap P (env.bind m) host.kernel).1 ≤ 0) :
    handOver P env m host =
      (if (policyBindMap P (env.bind m) host.kernel).1 = 0 then .ensured m else .failed,
        { host with kernel := (policyBindMap P (env.bind m) host.kernel).2 }) := by
  obtain ⟨hendpoint, hcapable, hcopy⟩ := henv
  have hfeed : "\n".ascii = [0x0a] := by decide
  have hdigits : (Text.decimal env.fd.toNat).length ≤ 10 :=
    Numerals.length_decimal_le 9 (by have := env.fd.toNat_lt; omega)
  have hlength : (Text.decimal env.fd.toNat ++ [0x0a]).length ≠ 0 ∧
      (Text.decimal env.fd.toNat ++ [0x0a]).length < 32 := by
    rw [List.length_append, List.length_singleton]
    omega
  have hnul : (0 : UInt8) ∉ Text.decimal env.fd.toNat ++ [0x0a] := by
    rw [List.mem_append, not_or]
    exact ⟨Text.notMem_decimal (by decide) _, by decide⟩
  have hparse := Numerals.kstrtou32_decimal_append env.fd (.inr rfl)
  have hwrite :
      policyMapWrite P (env.mapWrite m) (Text.decimal env.fd.toNat ++ [0x0a]) host.kernel =
      writeResult (Text.decimal env.fd.toNat ++ [0x0a]).length
        (policyBindMap P (env.bind m) host.kernel) := by
    unfold policyMapWrite
    rw [if_neg (by simp [HandOverEnv.mapWrite, hcapable]),
      if_neg (not_or.mpr ⟨hlength.1, not_le.mpr hlength.2⟩),
      if_neg (by simp [HandOverEnv.mapWrite, hcopy]), if_neg hnul, hparse]
  simp only [handOver, hfeed, hwrite, hendpoint, Bool.true_eq_false, if_false, writeResult]
  by_cases hzero : (policyBindMap P (env.bind m) host.kernel).1 = 0
  · simp [hzero]
  · have hne : (policyBindMap P (env.bind m) host.kernel).1 ≠
        ((Text.decimal env.fd.toNat ++ [0x0a]).length : ℤ) := fun h => by
      rw [h] at hnonpos
      exact hlength.1 (Nat.le_zero.mp (Int.ofNat_le.mp hnonpos))
    simp only [ne_eq, hzero, not_false_eq_true, if_true, hne, if_false]

theorem policyMapWrite_stopped (P : Platform) {env : MapWriteEnv}
    (henv : env.capable = true → env.copyFault = true) (buffer : Bytes) (s : KernelState) :
    ∃ ret < 0, policyMapWrite P env buffer s = (ret, s) := by
  unfold policyMapWrite
  split
  · exact ⟨-eperm, by decide, rfl⟩
  · rename_i hcapable
    split
    · exact ⟨-einval, by decide, rfl⟩
    · split
      · exact ⟨-efault, by decide, rfl⟩
      · rename_i hcopy
        exact absurd (henv (Bool.eq_true_of_not_eq_false hcapable)) hcopy

theorem handOver_stopped (P : Platform) {env : HandOverEnv} (henv : ¬ env.Reaches) (m : ℕ)
    (host : Host) : handOver P env m host = (.failed, host) := by
  unfold handOver
  split
  · rfl
  · rename_i hendpoint
    have hstops (hcapable : (env.mapWrite m).capable = true) :
        (env.mapWrite m).copyFault = true := by
      by_contra hcopy
      exact henv ⟨Bool.eq_true_of_not_eq_false hendpoint, hcapable, Bool.eq_false_iff.mpr hcopy⟩
    obtain ⟨ret, hret, hwrite⟩ := policyMapWrite_stopped P hstops
      (Text.decimal env.fd.toNat ++ "\n".ascii) host.kernel
    have hne (n : ℕ) : ret ≠ (n : ℤ) := fun h =>
      absurd hret (not_lt.mpr (h ▸ Int.natCast_nonneg n))
    simp only [hwrite, hne, if_false]

/-- What handing the map at `m` over can come to. -/
theorem handOver_cases (P : Platform) {env : HandOverEnv} (henv : env.publish.NonPos) (m : ℕ)
    {host : Host} (hnonpos : host.kernel.engine.commitError ≤ 0) :
    ∃ kernel, (handOver P env m host).2 = { host with kernel := kernel } ∧
      kernel.engine.commitError ≤ 0 ∧
      ((handOver P env m host).1 = .failed ∧ kernel.policyMap = host.kernel.policyMap ∧
          kernel.maps = host.kernel.maps ∨
        (handOver P env m host).1 = .ensured m ∧ kernel.policyMap = some m ∧
          (host.kernel.policyMap = none ∨ host.kernel.policyMap = some m) ∧
          ∀ m', (host.kernel.maps m').SameShape (kernel.maps m') ∧
            (m' ≠ m → kernel.maps m' = host.kernel.maps m')) := by
  by_cases hreaches : env.Reaches
  · rw [handOver_reaches P hreaches m host (policyBindMap_nonpos P henv hnonpos)]
    refine ⟨_, rfl, kernelStep_nonpos P (.policyBindMap (env.bind m)) hnonpos, ?_⟩
    rcases policyBindMap_cases P (s := host.kernel) (env.map_bind m) with
      ⟨hret, hsame, hmaps⟩ | ⟨hret, hbound, hbefore, hframe⟩
    · exact .inl ⟨if_neg hret, hsame, hmaps⟩
    · exact .inr ⟨if_pos hret, hbound, hbefore, hframe⟩
  · rw [handOver_stopped P hreaches]
    exact ⟨host.kernel, rfl, hnonpos, .inl ⟨rfl, rfl, rfl⟩⟩

/-! ## Looking for the bound map -/

/-- `status` names the bound map, so its pin is preserved, and no other whose id differs. -/
theorem preservePolicyPin_spec {env : PreserveEnv} (hinfo : env.infoFault = false)
    (hstatus : env.statusOpens = true) {m : ℕ} {s : KernelState}
    (hids : ∀ bound ∈ s.policyMap, env.ids bound ≠ 0 ∧ (env.ids bound = env.ids m → bound = m))
    (hmap : s.policyMap = some m → (s.maps m).Protected) :
    ((preservePolicyPin env m s).1 = true ↔ s.policyMap = some m) := by
  unfold preservePolicyPin
  by_cases hother : env.infoFault ∨ (s.maps m).valueSize ≠ 45560 ∨
      (s.maps m).mapFlags ≠ policyMapFlags
  · rw [if_pos hother]
    refine iff_of_false Bool.false_ne_true fun hbound => ?_
    obtain ⟨-, -, hsize, -, hflags⟩ := (hmap hbound).shape
    rw [hinfo, hsize, hflags] at hother
    simp at hother
  · rw [if_neg hother, if_neg (by simp [hstatus])]
    simp only [boundId_statusShow, decide_eq_true_eq]
    cases hpolicy : s.policyMap with
    | none => simp [policyMapId, hpolicy]
    | some bound =>
        obtain ⟨hne, hdiffers⟩ := hids bound hpolicy
        simp only [policyMapId, hpolicy, Option.map_some, Option.getD_some, Option.some.injEq]
        exact ⟨fun h => hdiffers h.2, fun heq => ⟨hne, congrArg env.ids heq⟩⟩

theorem preservePolicyPin_frame (env : PreserveEnv) (m : ℕ) {s : KernelState}
    (hs : s.engine.commitError ≤ 0) :
    ∃ engine, (preservePolicyPin env m s).2 = { s with engine := engine } ∧
      engine.commitError ≤ 0 := by
  unfold preservePolicyPin
  split
  · exact ⟨s.engine, rfl, hs⟩
  · split
    · exact ⟨s.engine, rfl, hs⟩
    · exact ⟨_, rfl, commitCheckLocked_nonpos hs⟩

end BpfIma
