import BpfIma.Model.Operator
import BpfIma.Verification.Policy.Store
import BpfIma.Verification.Policy.Transaction
import BpfIma.Verification.Policy.Wire

/-! # The operator's encoder and the kernel

Go and C lay a policy request out by hand, each on its own. What the operator emits for a
valid policy is the little-endian image of the request that the kernel is meant to apply. -/

namespace BpfIma.Operator

open CString Layout

/-! ## The kernel's view of the structures -/

def BpfimaPolicyConfig.kernel (config : BpfimaPolicyConfig) : BpfIma.PolicyConfig where
  enabled := config.enabled
  pad0 := CString.zero 3
  filterFlags := config.filterFlags
  actionFlags := config.actionFlags
  minFileSize := config.minFileSize
  maxPathDepth := config.maxPathDepth
  logLevel := config.logLevel
  merkleHistoryMaxSize := config.merkleHistoryMaxSize
  merkleHistoryScope := config.merkleHistoryScope
  pad1 := CString.zero 3
  reserved := config.reserved

def BPFPatternEntry.kernel (entry : BPFPatternEntry) : BpfIma.PatternEntry :=
  ⟨entry.pattern, entry.enabled, entry.matchType, entry.reserved⟩

def BPFHookConfig.kernel (hook : BPFHookConfig) : BpfIma.HookConfig :=
  ⟨hook.flags, hook.filterOverride, hook.actionOverride, hook.reserved⟩

def PolicySnapshot.kernel (snapshot : PolicySnapshot) : BpfIma.PolicySnapshot where
  config := snapshot.config.kernel
  cgroups := snapshot.cgroups.map BPFPatternEntry.kernel
  paths := snapshot.paths.map BPFPatternEntry.kernel
  hooks := snapshot.hooks.map BPFHookConfig.kernel

def PolicyRequest.kernel (request : PolicyRequest) : RequestMemory where
  request :=
    { version := request.version
      reserved := request.reserved
      expectedGeneration := request.expectedGeneration
      record := ⟨request.namespaceID, request.snapshot.kernel⟩ }
  pad := request.padding

theorem flatMap_kernel {α β : Type} {n : ℕ} {v : List.Vector α n} {kernel : α → β}
    {image : β → Bytes} {marshal : α → Bytes} (h : ∀ a, image (kernel a) = marshal a) :
    (v.map kernel).toList.flatMap image = v.toList.flatMap marshal := by
  rw [List.Vector.toList_map, List.flatMap_map]
  exact array_congr fun i => h (v.get i)

theorem BPFPatternEntry.image_kernel (entry : BPFPatternEntry) :
    entry.kernel.image .little = entry.marshal := by
  simp only [PatternEntry.image, BPFPatternEntry.marshal, BPFPatternEntry.kernel,
    List.append_assoc, List.cons_append, List.nil_append]

/-- The two layouts are the same. -/
theorem PolicyRequest.image_kernel (request : PolicyRequest) :
    request.kernel.image .little = request.marshal := by
  have hcgroups := flatMap_kernel (v := request.snapshot.cgroups) BPFPatternEntry.image_kernel
  have hpaths := flatMap_kernel (v := request.snapshot.paths) BPFPatternEntry.image_kernel
  have hhooks : (request.snapshot.hooks.map BPFHookConfig.kernel).toList.flatMap
      (HookConfig.image .little) = request.snapshot.hooks.toList.flatMap BPFHookConfig.marshal :=
    flatMap_kernel fun _ => rfl
  have hconfig : request.snapshot.config.kernel.image .little = request.snapshot.config.marshal :=
    rfl
  simp only [RequestMemory.image, PolicyRecord.image, PolicySnapshot.image, PolicyRequest.kernel,
    PolicySnapshot.kernel, hconfig, hcgroups, hpaths, hhooks, PolicyRequest.marshal,
    PolicySnapshot.marshal, List.append_assoc]

/-! ## Patterns -/

theorem copyString_zero {n : ℕ} {src : Bytes} (h : src.length < n) :
    copyString (CString.zero n) src = strscpy (CString.zero n) src := by
  apply List.Vector.eq
  rw [toList_strscpy h, copyString, List.Vector.toList_mk, overwrite, List.take_of_length_le]
  · simp only [toList_zero, List.drop_replicate]
    rw [← List.replicate_succ]
    congr 2
    omega
  · simp
    omega

/-- The slot of an enabled entry. -/
def encodePattern (entry : V1alpha1.PatternEntry) : BPFPatternEntry where
  pattern := copyString (CString.zero 64) entry.pattern
  enabled := 1
  matchType := entry.matchType.toUInt32.toUInt8
  reserved := 0

/-- The array holds the entries in order, and nothing else. -/
def Holds (result : List.Vector BPFPatternEntry 8) (entries : List V1alpha1.PatternEntry) : Prop :=
  result.toList = entries.map encodePattern ++ List.replicate (8 - entries.length) .zero

theorem Holds.place {result : List.Vector BPFPatternEntry 8} {placed : List V1alpha1.PatternEntry}
    (h : Holds result placed) (hroom : placed.length < 8) (entry : V1alpha1.PatternEntry) :
    Holds (result.set ⟨placed.length, hroom⟩
      { result.get ⟨placed.length, hroom⟩ with
        enabled := 1
        matchType := entry.matchType.toUInt32.toUInt8
        pattern := copyString (result.get ⟨placed.length, hroom⟩).pattern entry.pattern })
      (placed ++ [entry]) := by
  have hfree : 8 - placed.length = (8 - (placed.length + 1)) + 1 := by omega
  rw [Holds, hfree, List.replicate_succ] at h
  have hslot : result.get ⟨placed.length, hroom⟩ = .zero := by
    simp [List.Vector.get_eq_get_toList, h]
  rw [Holds, List.Vector.toList_set, hslot, h, List.set_append_right _ _ (by simp)]
  simp [encodePattern, BPFPatternEntry.zero]

/-- The loop adds the enabled entries that are left, as long as there is room for them. -/
theorem Holds.build {entries placed : List V1alpha1.PatternEntry}
    {result : List.Vector BPFPatternEntry 8} (h : Holds result placed)
    (hroom : (placed ++ entries.filter (·.enabled)).length ≤ 8) :
    ∃ out, buildPatternsFrom result placed.length entries = .ok out ∧
      Holds out (placed ++ entries.filter (·.enabled)) := by
  induction entries generalizing result placed with
  | nil => exact ⟨result, rfl, by simpa using h⟩
  | cons entry entries ih =>
      rw [buildPatternsFrom]
      by_cases henabled : entry.enabled = true
      · rw [List.filter_cons_of_pos henabled, List.append_cons] at hroom ⊢
        have hindex : placed.length < 8 := by
          simp at hroom
          omega
        obtain ⟨out, hout, hholds⟩ := ih (h.place hindex entry) hroom
        rw [List.length_append, List.length_singleton] at hout
        exact ⟨out, by simpa [henabled, hindex] using hout, hholds⟩
      · rw [List.filter_cons_of_neg henabled] at hroom ⊢
        rw [if_pos henabled]
        exact ih h hroom

theorem buildPatterns_ok {entries : List V1alpha1.PatternEntry}
    (hroom : (entries.filter (·.enabled)).length ≤ 8) :
    ∃ out, buildPatterns entries = .ok out ∧ Holds out (entries.filter (·.enabled)) :=
  Holds.build (by rfl : Holds (.replicate _ .zero) []) hroom

/-- What the resource definition asks of a pattern. -/
structure V1alpha1.PatternEntry.Valid (entry : V1alpha1.PatternEntry) : Prop where
  nonempty : 1 ≤ entry.pattern.length
  fits : entry.pattern.length ≤ 63
  noNul : 0 ∉ entry.pattern
  matchType : 0 ≤ entry.matchType.toInt ∧ entry.matchType.toInt ≤ 3

theorem toNat_toUInt32 {x : Int32} (h : 0 ≤ x.toInt) : x.toUInt32.toNat = x.toInt.toNat := by
  have hcond := BitVec.toInt_eq_toNat_cond x.toBitVec
  have hlt := x.toUInt32.toNat_lt
  have hnat : x.toUInt32.toNat = x.toBitVec.toNat := rfl
  rw [Int32.toInt] at h ⊢
  split at hcond <;> omega

theorem toNat_toUInt64 {x : Int64} (h : 0 ≤ x.toInt) : x.toUInt64.toNat = x.toInt.toNat := by
  have hcond := BitVec.toInt_eq_toNat_cond x.toBitVec
  have hlt := x.toUInt64.toNat_lt
  have hnat : x.toUInt64.toNat = x.toBitVec.toNat := rfl
  rw [Int64.toInt] at h ⊢
  split at hcond <;> omega

namespace V1alpha1.PatternEntry.Valid

variable {entry : V1alpha1.PatternEntry}

theorem cstr_encode (h : entry.Valid) : cstr (encodePattern entry).pattern = entry.pattern := by
  rw [encodePattern, copyString_zero (Nat.lt_succ_of_le h.fits)]
  exact cstr_strscpy (Nat.lt_succ_of_le h.fits) h.noNul

theorem matchType_encode (h : entry.Valid) :
    (encodePattern entry).matchType.toNat = entry.matchType.toInt.toNat := by
  have hsmall := h.matchType.2
  rw [encodePattern, UInt32.toNat_toUInt8, toNat_toUInt32 h.matchType.1]
  omega

/-- Normalisation accepts the slot and leaves it as it is. -/
theorem normal_encode (h : entry.Valid) :
    (encodePattern entry).kernel.accepted ∧
      (encodePattern entry).kernel.normalize = (encodePattern entry).kernel := by
  have hlt : entry.pattern.length < 64 := Nat.lt_succ_of_le h.fits
  have hcopy : (encodePattern entry).pattern = strscpy (CString.zero 64) entry.pattern :=
    copyString_zero hlt
  refine ⟨⟨UInt8.le_refl 1, ?_, rfl, ?_, fun _ => ?_⟩, ?_⟩
  · have hsmall := h.matchType.2
    have hnat := h.matchType_encode
    change (encodePattern entry).matchType ≤ 3
    rw [UInt8.le_iff_toNat_le, hnat]
    change entry.matchType.toInt.toNat ≤ 3
    omega
  · change terminated (encodePattern entry).pattern = true
    rw [hcopy]
    exact terminated_strscpy hlt
  · change (encodePattern entry).pattern.get 0 ≠ 0
    rw [ne_eq, ← cstr_eq_nil_iff, h.cstr_encode]
    exact List.ne_nil_of_length_pos h.nonempty
  · change BpfIma.PatternEntry.mk (strscpy _ (cstr (encodePattern entry).pattern)) 1
      (encodePattern entry).matchType 0 = _
    rw [h.cstr_encode]
    change BpfIma.PatternEntry.mk (strscpy (CString.zero 64) entry.pattern) 1 _ 0 = _
    rw [← hcopy]
    rfl

end V1alpha1.PatternEntry.Valid

/-- The kernel's enabled patterns are those of the resource, in its order. -/
def PatternsAgree {n : ℕ} (entries : List V1alpha1.PatternEntry)
    (patterns : List.Vector BpfIma.PatternEntry n) : Prop :=
  (patterns.toList.filter (·.enabled ≠ 0)).map (fun p => (cstr p.pattern, p.matchType.toNat)) =
    (entries.filter (·.enabled)).map fun e => (e.pattern, e.matchType.toInt.toNat)

theorem Holds.normal {entries : List V1alpha1.PatternEntry} {out : List.Vector BPFPatternEntry 8}
    (h : Holds out entries) (hvalid : ∀ entry ∈ entries, entry.Valid) (i : Fin 8) :
    ((out.map BPFPatternEntry.kernel).get i).accepted ∧
      ((out.map BPFPatternEntry.kernel).get i).normalize =
        (out.map BPFPatternEntry.kernel).get i := by
  rw [List.Vector.get_map]
  have hmem := List.Vector.get_mem i out
  rw [h, List.mem_append, List.mem_map] at hmem
  rcases hmem with ⟨entry, hentry, heq⟩ | hzero
  · rw [← heq]
    exact (hvalid entry hentry).normal_encode
  · rw [List.eq_of_mem_replicate hzero]
    exact ⟨by decide, by decide⟩

theorem Holds.patternsAgree {entries : List V1alpha1.PatternEntry}
    {out : List.Vector BPFPatternEntry 8} (h : Holds out (entries.filter (·.enabled)))
    (hvalid : ∀ entry ∈ entries, entry.enabled = true → entry.Valid) :
    PatternsAgree entries (out.map BPFPatternEntry.kernel) := by
  have henabled : ((entries.filter (·.enabled)).map
      (BPFPatternEntry.kernel ∘ encodePattern)).filter (·.enabled ≠ 0) =
        (entries.filter (·.enabled)).map (BPFPatternEntry.kernel ∘ encodePattern) := by
    refine List.filter_eq_self.mpr fun p hp => ?_
    obtain ⟨entry, -, rfl⟩ := List.mem_map.mp hp
    rfl
  have hzero : (List.replicate (8 - (entries.filter (·.enabled)).length)
      BPFPatternEntry.zero.kernel).filter (·.enabled ≠ 0) = [] :=
    List.filter_eq_nil_iff.mpr fun p hp => by
      rw [List.eq_of_mem_replicate hp]
      decide
  rw [PatternsAgree, List.Vector.toList_map, h, List.map_append, List.map_map, List.map_replicate,
    List.filter_append, henabled, hzero, List.append_nil, List.map_map]
  refine List.map_congr_left fun entry hentry => ?_
  obtain ⟨hmem, henabled⟩ := List.mem_filter.mp hentry
  have hentry := hvalid entry hmem henabled
  exact Prod.ext hentry.cstr_encode hentry.matchType_encode

/-! ## Switches -/

/-- Each switch is found at its flag. -/
def SetAt (word : UInt32) (switches : List (Bool × UInt32)) : Prop :=
  ∀ switch ∈ switches, (word &&& switch.2 ≠ 0 ↔ switch.1 = true)

theorem setAt_assemble {switches : List (Bool × UInt32)}
    (hdisjoint : (switches.map Prod.snd).Pairwise fun a b => a &&& b = 0)
    (hzero : 0 ∉ switches.map Prod.snd) : SetAt (Bits.assemble switches) switches := by
  intro switch hswitch
  have hflag : switch.2 ≠ 0 := fun h => hzero (h ▸ List.mem_map_of_mem hswitch)
  rw [Bits.assemble_and (List.pairwise_map.mp hdisjoint) hswitch]
  cases switch.1 <;> simp [hflag]

/-- The kernel's flags of the switches. -/
def filterSwitches (f : V1alpha1.FilterConfig) : List (Bool × UInt32) :=
  [(f.systemCgroups, PolicyFilter.systemCgroups), (f.procSys, PolicyFilter.procSys),
    (f.dev, PolicyFilter.dev), (f.readonlyFiles, PolicyFilter.readonlyFiles),
    (f.smallFiles, PolicyFilter.smallFiles), (f.nonExecutable, PolicyFilter.nonExecutable),
    (f.libraries, PolicyFilter.libraries), (f.tmpFiles, PolicyFilter.tmpFiles)]

def actionSwitches (a : V1alpha1.ActionConfig) : List (Bool × UInt32) :=
  [(a.extendTPM, PolicyAction.extendTpm), (a.logSecurityFS, PolicyAction.logSecurityfs),
    (a.logKernel, PolicyAction.logKernel), (a.alertSuspicious, PolicyAction.alertSuspicious),
    (a.block, PolicyAction.block), (a.trackContainer, PolicyAction.trackContainer),
    (a.buildDeps, PolicyAction.buildDeps)]

def hookSwitches (hook : V1alpha1.HookConfig) : List (Bool × UInt32) :=
  [(hook.enabled, HookFlag.enabled), (hook.trackContainers, HookFlag.trackContainers),
    (hook.measureHash, HookFlag.measureHash)]

theorem flags_filterSwitches (f : V1alpha1.FilterConfig) :
    (filterSwitches f).map Prod.snd = [1, 2, 4, 8, 16, 32, 64, 128] :=
  rfl

theorem flags_actionSwitches (a : V1alpha1.ActionConfig) :
    (actionSwitches a).map Prod.snd = [1, 2, 4, 8, 16, 32, 64] :=
  rfl

theorem flags_hookSwitches (hook : V1alpha1.HookConfig) :
    (hookSwitches hook).map Prod.snd = [1, 2, 4] :=
  rfl

theorem setAt_computeFilterFlags (f : V1alpha1.FilterConfig) :
    SetAt (computeFilterFlags f) (filterSwitches f) :=
  setAt_assemble (flags_filterSwitches f ▸ by decide) (flags_filterSwitches f ▸ by decide)

theorem setAt_computeActionFlags (a : V1alpha1.ActionConfig) :
    SetAt (computeActionFlags a) (actionSwitches a) :=
  setAt_assemble (flags_actionSwitches a ▸ by decide) (flags_actionSwitches a ▸ by decide)

theorem setAt_hookFlags (i : Fin 8) (hook : V1alpha1.HookConfig) :
    SetAt (hookFlags i (some hook)) (hookSwitches hook) :=
  setAt_assemble (flags_hookSwitches hook ▸ by decide) (flags_hookSwitches hook ▸ by decide)

/-- No switch sets a flag outside of the mask. -/
theorem subset_assemble (switches : List (Bool × UInt32)) {mask : UInt32}
    (h : (switches.map Prod.snd).all (· &&& ~~~mask == 0) = true) :
    Bits.Subset (Bits.assemble switches) mask :=
  Bits.assemble_subset fun _ hswitch =>
    beq_iff_eq.mp (List.all_eq_true.mp h _ (List.mem_map_of_mem hswitch))

theorem subset_computeFilterFlags (f : V1alpha1.FilterConfig) :
    Bits.Subset (computeFilterFlags f) 0xff :=
  subset_assemble (filterSwitches f) (flags_filterSwitches f ▸ by decide)

theorem subset_computeActionFlags (a : V1alpha1.ActionConfig) :
    Bits.Subset (computeActionFlags a) 0x7f :=
  subset_assemble (actionSwitches a) (flags_actionSwitches a ▸ by decide)

theorem subset_hookFlags (i : Fin 8) (setting : Option V1alpha1.HookConfig) :
    Bits.Subset (hookFlags i setting) 7 := by
  cases setting with
  | none =>
      rw [hookFlags]
      split <;> decide
  | some hook =>
      exact subset_assemble (hookSwitches hook) (flags_hookSwitches hook ▸ by decide)

/-! ## Valid policies -/

/-- The setting of a hook. -/
def V1alpha1.HookConfigs.setting (hooks : V1alpha1.HookConfigs) :
    HookId → Option V1alpha1.HookConfig
  | .lsmBprmCheckSecurity => hooks.lsmBprmCheckSecurity
  | .lsmFileOpen => hooks.lsmFileOpen
  | .lsmFilePostOpen => hooks.lsmFilePostOpen
  | .lsmMmapFile => hooks.lsmMmapFile
  | .lsmSocketConnect => hooks.lsmSocketConnect
  | .lsmContainerEvents => hooks.lsmContainerEvents
  | .kprobeFileOpen => hooks.kprobeFileOpen
  | .lsmInodeSetattr => hooks.lsmInodeSetattr

/-- The constraints of the resource definition. -/
structure V1alpha1.PolicySpec.Valid (spec : V1alpha1.PolicySpec) : Prop where
  mandatory : spec.actions.extendTPM = true ∧ spec.actions.logSecurityFS = true
  unsupported : spec.actions.alertSuspicious = false ∧ spec.actions.block = false
  logLevel : 0 ≤ spec.policy.logLevel.toInt ∧ spec.policy.logLevel.toInt ≤ 3
  minFileSize : 0 ≤ spec.policy.minFileSize.toInt ∧ spec.policy.minFileSize.toInt ≤ 4294967295
  maxPathDepth : 0 ≤ spec.policy.maxPathDepth.toInt ∧ spec.policy.maxPathDepth.toInt ≤ 32
  cgroupCount : spec.cgroupPatterns.length ≤ 8
  pathCount : spec.pathPatterns.length ≤ 8
  cgroups : ∀ entry ∈ spec.cgroupPatterns, entry.Valid
  paths : ∀ entry ∈ spec.pathPatterns, entry.Valid
  overrides : ∀ id, ∀ hook ∈ spec.hooks.setting id,
    hook.filterOverride = 0 ∧ hook.actionOverride = 0

/-- What the kernel can be asked for: of the numbers those that it checks, and of the patterns
the enabled ones. -/
structure V1alpha1.PolicySpec.Encodable (spec : V1alpha1.PolicySpec) : Prop where
  mandatory : spec.actions.extendTPM = true ∧ spec.actions.logSecurityFS = true
  unsupported : spec.actions.alertSuspicious = false ∧ spec.actions.block = false
  logLevel : 0 ≤ spec.policy.logLevel.toInt ∧ spec.policy.logLevel.toInt ≤ 3
  maxPathDepth : 0 ≤ spec.policy.maxPathDepth.toInt ∧ spec.policy.maxPathDepth.toInt ≤ 32
  cgroupCount : (spec.cgroupPatterns.filter (·.enabled)).length ≤ 8
  pathCount : (spec.pathPatterns.filter (·.enabled)).length ≤ 8
  cgroups : ∀ entry ∈ spec.cgroupPatterns, entry.enabled = true → entry.Valid
  paths : ∀ entry ∈ spec.pathPatterns, entry.enabled = true → entry.Valid
  overrides : ∀ id, ∀ hook ∈ spec.hooks.setting id,
    hook.filterOverride = 0 ∧ hook.actionOverride = 0

theorem V1alpha1.PolicySpec.Valid.encodable {spec : V1alpha1.PolicySpec} (h : spec.Valid) :
    spec.Encodable where
  mandatory := h.mandatory
  unsupported := h.unsupported
  logLevel := h.logLevel
  maxPathDepth := h.maxPathDepth
  cgroupCount := (List.length_filter_le _ _).trans h.cgroupCount
  pathCount := (List.length_filter_le _ _).trans h.pathCount
  cgroups := fun entry hentry _ => h.cgroups entry hentry
  paths := fun entry hentry _ => h.paths entry hentry
  overrides := h.overrides

theorem accepted_actionFlags {a : V1alpha1.ActionConfig}
    (hmandatory : a.extendTPM = true ∧ a.logSecurityFS = true)
    (hunsupported : a.alertSuspicious = false ∧ a.block = false) :
    computeActionFlags a &&& requiredActions = requiredActions ∧
      computeActionFlags a &&& (PolicyAction.alertSuspicious ||| PolicyAction.block) = 0 := by
  obtain ⟨_, _, logKernel, _, _, trackContainer, buildDeps⟩ := a
  obtain ⟨rfl, rfl⟩ := hmandatory
  obtain ⟨rfl, rfl⟩ := hunsupported
  cases logKernel <;> cases trackContainer <;> cases buildDeps <;> exact ⟨rfl, rfl⟩

theorem accepted_computeValue {spec : V1alpha1.PolicySpec} (h : spec.Encodable) :
    (computeValue spec.policy spec.filters spec.actions).kernel.accepted := by
  refine ⟨?_, ?_, ?_, (accepted_actionFlags h.mandatory h.unsupported).1, ?_, ?_,
    (show (0 : UInt8) ≤ scopeRootOnly by decide), rfl⟩
  · change boolToUint8 spec.policy.enabled ≤ 1
    cases spec.policy.enabled <;> decide
  · exact subset_computeFilterFlags spec.filters
  · exact subset_computeActionFlags spec.actions
  · have hsmall := h.logLevel.2
    change spec.policy.logLevel.toUInt32 ≤ 3
    rw [UInt32.le_iff_toNat_le, toNat_toUInt32 h.logLevel.1]
    change spec.policy.logLevel.toInt.toNat ≤ 3
    omega
  · have hsmall := h.maxPathDepth.2
    change spec.policy.maxPathDepth.toUInt32 ≤ 32
    rw [UInt32.le_iff_toNat_le, toNat_toUInt32 h.maxPathDepth.1]
    change spec.policy.maxPathDepth.toInt.toNat ≤ 32
    omega

theorem get_hookEntries (hooks : V1alpha1.HookConfigs) (id : HookId) :
    (hookEntries hooks).get id.index = hooks.setting id := by
  cases id <;> rfl

/-- An omitted hook is as in the default policy of the kernel. -/
theorem hookFlags_none (id : HookId) :
    BpfIma.HookConfig.mk (hookFlags id.index none) 0 0 0 =
      initDefaultSnapshot.hooks.get id.index := by
  cases id <;> decide

/-- What the resource says and what the kernel is asked to do. -/
structure Agrees (spec : V1alpha1.PolicySpec) (snapshot : BpfIma.PolicySnapshot) : Prop where
  enabled : snapshot.config.enabled ≠ 0 ↔ spec.policy.enabled = true
  filters : SetAt snapshot.config.filterFlags (filterSwitches spec.filters)
  actions : SetAt snapshot.config.actionFlags (actionSwitches spec.actions)
  minFileSize : snapshot.config.minFileSize.toNat = spec.policy.minFileSize.toInt
  maxPathDepth : snapshot.config.maxPathDepth.toNat = spec.policy.maxPathDepth.toInt
  logLevel : snapshot.config.logLevel.toNat = spec.policy.logLevel.toInt
  cgroups : PatternsAgree spec.cgroupPatterns snapshot.cgroups
  paths : PatternsAgree spec.pathPatterns snapshot.paths
  hooks : ∀ id hook, spec.hooks.setting id = some hook →
    SetAt (snapshot.hooks.get id.index).flags (hookSwitches hook)
  omitted : ∀ id, spec.hooks.setting id = none →
    snapshot.hooks.get id.index = initDefaultSnapshot.hooks.get id.index

/-! ## Requests -/

/-- The request for a policy: what `BuildPolicyRequest` returns, with the arrays that its
two loops fill. -/
structure Built (policy : V1alpha1.Policy) (name : Bytes) (generation : UInt64)
    (request : PolicyRequest) : Prop where
  build : buildPolicyRequest (some policy) name generation = .ok request
  version : request.version = 2
  reserved : request.reserved = 0
  generation : request.expectedGeneration = generation
  namespaceID : request.namespaceID = strscpy (CString.zero 128) name
  config : request.snapshot.config =
    computeValue policy.spec.policy policy.spec.filters policy.spec.actions
  cgroups : Holds request.snapshot.cgroups (policy.spec.cgroupPatterns.filter (·.enabled))
  paths : Holds request.snapshot.paths (policy.spec.pathPatterns.filter (·.enabled))
  hooks : ∀ i, request.snapshot.hooks.get i =
    { BPFHookConfig.zero with flags := hookFlags i ((hookEntries policy.spec.hooks).get i) }

theorem exists_built {policy : V1alpha1.Policy}
    (hcgroupCount : (policy.spec.cgroupPatterns.filter (·.enabled)).length ≤ 8)
    (hpathCount : (policy.spec.pathPatterns.filter (·.enabled)).length ≤ 8) {name : Bytes}
    (hname : name.length < 128) (generation : UInt64) :
    ∃ request, Built policy name generation request := by
  obtain ⟨cgroups, hcgroups, hcgroupsHold⟩ := buildPatterns_ok hcgroupCount
  obtain ⟨paths, hpaths, hpathsHold⟩ := buildPatterns_ok hpathCount
  cases hbuild : buildPolicyRequest (some policy) name generation with
  | error failure =>
      simp only [buildPolicyRequest, if_neg (Nat.not_le.mpr hname), hcgroups, hpaths] at hbuild
      cases hbuild
  | ok request =>
      have hrequest := hbuild
      simp only [buildPolicyRequest, if_neg (Nat.not_le.mpr hname), hcgroups, hpaths] at hrequest
      obtain rfl := Except.ok.inj hrequest
      exact ⟨_, hbuild, rfl, rfl, rfl, copyString_zero hname, rfl, hcgroupsHold, hpathsHold,
        fun i => List.Vector.get_ofFn _ i⟩

namespace Built

variable {policy : V1alpha1.Policy} {name : Bytes} {generation : UInt64} {request : PolicyRequest}

theorem get_hooks (h : Built policy name generation request) (i : Fin hookMax) :
    request.snapshot.kernel.hooks.get i =
      ⟨hookFlags i ((hookEntries policy.spec.hooks).get i), 0, 0, 0⟩ := by
  have hget : request.snapshot.kernel.hooks.get i = (request.snapshot.hooks.get i).kernel :=
    List.Vector.get_map _ _ _
  rw [hget, h.hooks]
  rfl

theorem normal (h : Built policy name generation request) (hvalid : policy.spec.Encodable) :
    normalizeSnapshot request.snapshot.kernel = .ok request.snapshot.kernel := by
  have hcgroups := h.cgroups.normal fun entry hentry =>
    hvalid.cgroups entry (List.mem_of_mem_filter hentry) (List.mem_filter.mp hentry).2
  have hpaths := h.paths.normal fun entry hentry =>
    hvalid.paths entry (List.mem_of_mem_filter hentry) (List.mem_filter.mp hentry).2
  rw [normalizeSnapshot_eq_ok]
  refine ⟨⟨?_, ?_, fun i => (hcgroups i).1, fun i => (hpaths i).1, fun i => ?_⟩, ?_⟩
  · change request.snapshot.config.actionFlags &&& _ = 0
    rw [h.config]
    exact (accepted_actionFlags hvalid.mandatory hvalid.unsupported).2
  · change request.snapshot.config.kernel.accepted
    rw [h.config]
    exact accepted_computeValue hvalid
  · rw [h.get_hooks]
    exact ⟨subset_hookFlags _ _, rfl, rfl, rfl⟩
  · have hconfig : request.snapshot.config.kernel.normalize = request.snapshot.config.kernel := by
      rw [h.config]
      rfl
    have hhooks : request.snapshot.kernel.hooks.map HookConfig.normalize =
        request.snapshot.kernel.hooks := by
      refine List.Vector.ext fun i => ?_
      rw [List.Vector.get_map, h.get_hooks]
      rfl
    refine congr (congr (congr (congrArg BpfIma.PolicySnapshot.mk hconfig) ?_) ?_) hhooks
    · exact List.Vector.ext fun i => by
        rw [List.Vector.get_map]
        exact (hcgroups i).2
    · exact List.Vector.ext fun i => by
        rw [List.Vector.get_map]
        exact (hpaths i).2

theorem agrees (h : Built policy name generation request) (hvalid : policy.spec.Valid) :
    Agrees policy.spec request.snapshot.kernel := by
  have hconfig : request.snapshot.kernel.config =
      (computeValue policy.spec.policy policy.spec.filters policy.spec.actions).kernel := by
    rw [← h.config]
    rfl
  refine ⟨?_, ?_, ?_, ?_, ?_, ?_, ?_, ?_, ?_, ?_⟩
  · rw [hconfig]
    change boolToUint8 policy.spec.policy.enabled ≠ 0 ↔ _
    cases policy.spec.policy.enabled <;> decide
  · rw [hconfig]
    exact setAt_computeFilterFlags _
  · rw [hconfig]
    exact setAt_computeActionFlags _
  · obtain ⟨hnonneg, hfits⟩ := hvalid.minFileSize
    rw [hconfig]
    change (policy.spec.policy.minFileSize.toUInt64.toUInt32.toNat : ℤ) = _
    rw [UInt64.toNat_toUInt32, toNat_toUInt64 hnonneg]
    omega
  · rw [hconfig]
    change (policy.spec.policy.maxPathDepth.toUInt32.toNat : ℤ) = _
    rw [toNat_toUInt32 hvalid.maxPathDepth.1, Int.toNat_of_nonneg hvalid.maxPathDepth.1]
  · rw [hconfig]
    change (policy.spec.policy.logLevel.toUInt32.toNat : ℤ) = _
    rw [toNat_toUInt32 hvalid.logLevel.1, Int.toNat_of_nonneg hvalid.logLevel.1]
  · exact h.cgroups.patternsAgree hvalid.encodable.cgroups
  · exact h.paths.patternsAgree hvalid.encodable.paths
  · intro id hook hsetting
    rw [h.get_hooks, get_hookEntries, hsetting]
    exact setAt_hookFlags id.index hook
  · intro id hsetting
    rw [h.get_hooks, get_hookEntries, hsetting]
    exact hookFlags_none id

end Built

/-! ## The contract -/

/-- What the kernel makes of the bytes for a policy: a request that it accepts, under the given
name, with a normal snapshot that does what the policy says. -/
structure Understood (policy : V1alpha1.Policy) (name : Bytes) (generation : UInt64)
    (request : BpfIma.PolicyRequest) : Prop where
  version : request.version = policyVersion
  reserved : request.reserved = 0
  accepted : request.accepted
  generation : request.expectedGeneration = generation
  name : cstr request.record.namespaceId = name
  normal : normalizeSnapshot request.record.snapshot = .ok request.record.snapshot
  agrees : Agrees policy.spec request.record.snapshot

/-- The record published under a name is the one on the wire, and its digest is taken over
the bytes 16 to 1395. -/
def PublishedFrom (order : ByteOrder) (name wire : Bytes) (state : PolicyState) : Prop :=
  ∃ index, namespaceIndex state (some name) = some index ∧
    (state.records.get index).snapshot = (decodeRequest order wire).request.record.snapshot ∧
    ((state.records.get index).wire order).image order = (wire.drop 16).take 1380

theorem writePolicyRequest_bytesBuffer (request : PolicyRequest) :
    writePolicyRequest bytesBuffer request [] = (none, request.marshal) := by
  simp [writePolicyRequest, bytesBuffer]

theorem name_spec {name : Bytes} (h : name = [] ∨ validNamespace name = true) :
    name.length < namespaceSize ∧ 0 ∉ name := by
  rcases h with rfl | h
  · exact ⟨by decide, List.not_mem_nil⟩
  · obtain ⟨hlength, -, hzero⟩ := validNamespace_spec h
    exact ⟨hlength, hzero⟩

theorem Built.understood {policy : V1alpha1.Policy} {name : Bytes} {generation : UInt64}
    {request : PolicyRequest} (h : Built policy name generation request)
    (hvalid : policy.spec.Valid) (hname : name = [] ∨ validNamespace name = true) :
    Understood policy name generation request.kernel.request := by
  obtain ⟨hlength, hzero⟩ := name_spec hname
  have hid : cstr request.namespaceID = name := by
    rw [h.namespaceID]
    exact cstr_strscpy hlength hzero
  have hterminated : terminated request.namespaceID = true := by
    rw [h.namespaceID]
    exact terminated_strscpy hlength
  refine ⟨h.version, h.reserved, ⟨h.version, h.reserved, hterminated, fun hne => ?_⟩,
    h.generation, hid, h.normal hvalid.encodable, h.agrees hvalid⟩
  change validNamespace (cstr request.namespaceID) = true
  rw [ne_eq, ← cstr_eq_nil_iff] at hne
  exact hid ▸ hname.resolve_left fun hempty => hne (hid.trans hempty)

/-- The operator and the kernel agree on every valid policy: the bytes have the size of a
request, the kernel reads from them a request that says the same, and if that is published,
the digest of the published record is taken over the bytes of the record on the wire. -/
theorem operator_kernel_agree (policy : V1alpha1.Policy) (name : Bytes) (generation : UInt64)
    (hvalid : policy.spec.Valid) (hname : name = [] ∨ validNamespace name = true) :
    ∃ request wire, buildPolicyRequest (some policy) name generation = .ok request ∧
      writePolicyRequest bytesBuffer request [] = (none, wire) ∧
      wire.length = policyRequestSize ∧
      (∀ order, Understood policy name generation (decodeRequest order wire).request) ∧
      ∀ (P : Platform) (maps : ℕ → BpfMap) (tpmPcrIndex : ℤ) (ops : List KernelOp) (m : ℕ)
        (env : WriteEnv), (kernelRun P maps tpmPcrIndex ops).policyMap = some m →
        ((policyApplyWrite P env wire (kernelRun P maps tpmPcrIndex ops)).2.maps m).generation ≠
          ((kernelRun P maps tpmPcrIndex ops).maps m).generation →
        PublishedFrom P.byteOrder name wire
          ((policyApplyWrite P env wire (kernelRun P maps tpmPcrIndex ops)).2.maps m).active := by
  obtain ⟨hlength, hzero⟩ := name_spec hname
  obtain ⟨request, h⟩ :=
    exists_built hvalid.encodable.cgroupCount hvalid.encodable.pathCount hlength generation
  have hunderstood := h.understood hvalid hname
  have hreserved : request.kernel.request.ReservedZero :=
    ⟨h.reserved, (normalizeSnapshot_eq_ok.mp (h.normal hvalid.encodable)).1.reservedZero⟩
  have hdecoded (order : ByteOrder) : decodeRequest order request.marshal = request.kernel := by
    rw [← request.image_kernel]
    exact decodeRequest_image order hreserved
  refine ⟨request, request.marshal, h.build, writePolicyRequest_bytesBuffer request, ?_,
    fun order => by rw [hdecoded]; exact hunderstood, ?_⟩
  · rw [← request.image_kernel]
    exact request.kernel.length_image .little
  · intro P maps tpmPcrIndex ops m env hbound hchanged
    have hs := PolicyBound.of_run P maps tpmPcrIndex ops m hbound
    generalize kernelRun P maps tpmPcrIndex ops = s at hbound hchanged hs ⊢
    rcases policyApplyWrite_state P env request.marshal s with hsame | happlied
    · rw [hsame] at hchanged
      exact absurd rfl hchanged
    · have hclean : Clean request.kernel.request.record.namespaceId := by
        change Clean request.namespaceID
        rw [h.namespaceID]
        exact clean_strscpy hlength hzero
      rw [happlied, hdecoded] at hchanged ⊢
      obtain ⟨index, hindex, hrecord⟩ := policyApply_published hbound hs env.apply
        hunderstood.accepted hclean hunderstood.normal hchanged
      rw [hunderstood.name] at hindex
      refine ⟨index, hindex, ?_, ?_⟩
      · rw [hrecord, hdecoded]
      · rw [hrecord, ← request.image_kernel, request.kernel.record_image]
        exact image_wire P.byteOrder hunderstood.normal

/-- The default policy with more logging; one of its patterns is disabled. -/
def verbosePolicy : V1alpha1.Policy where
  spec :=
    { policy := ⟨true, 3, 0, 32⟩
      filters := ⟨false, false, false, false, false, false, false, false⟩
      actions := ⟨true, true, true, false, false, true, true⟩
      cgroupPatterns := [⟨"/".ascii, true, 0⟩, ⟨"user.slice".ascii, false, 2⟩,
        ⟨"init.scope".ascii, true, 0⟩]
      pathPatterns := [⟨"/proc/".ascii, true, 1⟩, ⟨"/sys/".ascii, true, 1⟩]
      hooks := ⟨none, some ⟨true, true, true, 0, 0⟩, none, none, none, none, none, none⟩ }

def workingWrite : WriteEnv := ⟨1, true, none, workingApply⟩

theorem operator_kernel_agree_verbosePolicy :
    ∃ request wire, buildPolicyRequest (some verbosePolicy) "web".ascii 0 = .ok request ∧
      writePolicyRequest bytesBuffer request [] = (none, wire) ∧
      wire.length = policyRequestSize ∧
      (∀ order, Understood verbosePolicy "web".ascii 0 (decodeRequest order wire).request) ∧
      PublishedFrom .little "web".ascii wire
        ((policyApplyWrite referencePlatform workingWrite wire
          (kernelRun referencePlatform (fun _ => unboundPolicyMap) 10
            [.policyBindMap workingBind])).2.maps 0).active := by
  have hvalid : verbosePolicy.spec.Valid := by
    have hpattern (text : Bytes) (enabled : Bool) (matchType : Int32)
        (h : (1 ≤ text.length ∧ text.length ≤ 63) ∧ 0 ∉ text ∧
          0 ≤ matchType.toInt ∧ matchType.toInt ≤ 3) :
        V1alpha1.PatternEntry.Valid ⟨text, enabled, matchType⟩ := ⟨h.1.1, h.1.2, h.2.1, h.2.2⟩
    refine ⟨⟨rfl, rfl⟩, ⟨rfl, rfl⟩, by decide, by decide, by decide, by decide, by decide,
      ?_, ?_, ?_⟩
    · simp only [verbosePolicy, List.forall_mem_cons]
      exact ⟨hpattern _ _ _ (by decide), hpattern _ _ _ (by decide), hpattern _ _ _ (by decide),
        List.forall_mem_nil _⟩
    · simp only [verbosePolicy, List.forall_mem_cons]
      exact ⟨hpattern _ _ _ (by decide), hpattern _ _ _ (by decide), List.forall_mem_nil _⟩
    · intro id hook hsetting
      cases id <;> cases hsetting
      exact ⟨rfl, rfl⟩
  have hpublished : ∃ request ∈ (buildPolicyRequest (some verbosePolicy) "web".ascii 0).toOption,
      ((policyApplyWrite referencePlatform workingWrite request.marshal
        (kernelRun referencePlatform (fun _ => unboundPolicyMap) 10
          [.policyBindMap workingBind])).2.maps 0).generation ≠
        ((kernelRun referencePlatform (fun _ => unboundPolicyMap) 10
          [.policyBindMap workingBind]).maps 0).generation := by
    decide +kernel
  have hbound : (kernelRun referencePlatform (fun _ => unboundPolicyMap) 10
      [.policyBindMap workingBind]).policyMap = some 0 := by decide +kernel
  obtain ⟨request, wire, hbuild, hwrite, hlength, hunderstood, hdigest⟩ :=
    operator_kernel_agree verbosePolicy "web".ascii 0 hvalid (.inr (by decide))
  obtain ⟨built, hbuilt, hchanged⟩ := hpublished
  rw [hbuild] at hbuilt
  obtain rfl := Option.some.inj hbuilt
  rw [writePolicyRequest_bytesBuffer] at hwrite
  obtain rfl := (Prod.mk.inj hwrite).2
  exact ⟨request, request.marshal, hbuild, writePolicyRequest_bytesBuffer request, hlength,
    hunderstood, hdigest referencePlatform (fun _ => unboundPolicyMap) 10
      [.policyBindMap workingBind] 0 workingWrite hbound hchanged⟩

end BpfIma.Operator
