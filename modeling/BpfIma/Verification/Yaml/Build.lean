import BpfIma.Verification.Policy.Rebase
import BpfIma.Verification.Policy.Refusal
import BpfIma.Verification.Policy.Wire
import BpfIma.Verification.Yaml.Document

/-! # From a YAML document to the kernel

What the parser accepts is in the ranges that the kernel checks, so the snapshot built from
it is normal. -/

namespace BpfIma

open CString Errno LibYaml

/-! ## Ranges -/

/-- The ranges that the kernel asks for. -/
structure YamlPolicy.InRange (policy : YamlPolicy) : Prop where
  enabled : policy.enabled ≤ 1
  logLevel : policy.logLevel ≤ 3
  filterFlags : policy.filterFlags ≤ 255
  maxPathDepth : policy.maxPathDepth ≤ 32

/-- The rows of a table are strings. -/
def Strings {n : ℕ} (rows : List.Vector Bytes n) : Prop := ∀ i, (0 : UInt8) ∉ rows.get i

theorem strings_replicate (n : ℕ) : Strings (List.Vector.replicate n []) := by
  intro i
  rw [List.Vector.get_replicate]
  exact List.not_mem_nil

/-- What the builder relies on. -/
structure YamlConfig.Sound (config : YamlConfig) : Prop where
  policy : config.policy.InRange
  cgroups : Strings config.filters.cgroups
  paths : Strings config.filters.paths

theorem parseBool_le {value : Bytes} {b : UInt8} (h : parseBool value = some b) : b ≤ 1 := by
  unfold parseBool at h
  split at h
  · obtain rfl := Option.some.inj h
    decide
  · split at h
    · obtain rfl := Option.some.inj h
      decide
    · cases h

theorem toUInt32_le {number : UInt64} {maximum : UInt32} (h : ¬ number > maximum.toUInt64) :
    number.toUInt32 ≤ maximum := by
  have hle : number.toNat ≤ maximum.toNat := by
    simpa [UInt64.le_iff_toNat_le] using h
  have hlt := maximum.toNat_lt
  rw [UInt32.le_iff_toNat_le, UInt64.toNat_toUInt32]
  exact (Nat.mod_le _ _).trans hle

section Parse

variable {strtoul : Strtoul}

theorem parseInt_le {value : Bytes} {n : UInt32} (h : parseInt strtoul value = some n) :
    n ≤ 3 := by
  unfold parseInt at h
  obtain ⟨-, h⟩ := Machine.check_passed h (by simp)
  obtain ⟨hvalid, h⟩ := Machine.check_passed h (by simp)
  rw [not_or, not_or] at hvalid
  obtain rfl := Option.some.inj h
  exact toUInt32_le hvalid.2.2

theorem parseU32_le {value : Bytes} {maximum n : UInt32}
    (h : parseU32 strtoul value maximum = some n) : n ≤ maximum := by
  unfold parseU32 at h
  obtain ⟨-, h⟩ := Machine.check_passed h (by simp)
  obtain ⟨hvalid, h⟩ := Machine.check_passed h (by simp)
  rw [not_or, not_or] at hvalid
  obtain rfl := Option.some.inj h
  exact toUInt32_le hvalid.2.2

theorem policyHandlers_inRange {entry : Bytes × (YamlPolicy → Bytes → Option YamlPolicy)}
    (hentry : entry ∈ policyHandlers strtoul) {policy out : YamlPolicy} {value : Bytes}
    (hpolicy : policy.InRange) (h : entry.2 policy value = some out) : out.InRange := by
  simp only [policyHandlers, List.mem_cons, List.not_mem_nil, or_false] at hentry
  -- Each handler writes one field, within its range.
  rcases hentry with rfl | rfl | rfl | rfl | rfl | rfl | rfl | rfl | rfl <;>
    obtain ⟨written, hwritten, rfl⟩ := Option.map_eq_some_iff.mp h
  · exact { hpolicy with enabled := parseBool_le hwritten }
  · exact { hpolicy with logLevel := parseInt_le hwritten }
  · exact { hpolicy with }
  · exact { hpolicy with }
  · exact { hpolicy with }
  · exact { hpolicy with }
  · exact { hpolicy with filterFlags := parseU32_le hwritten }
  · exact { hpolicy with }
  · exact { hpolicy with maxPathDepth := parseU32_le hwritten }

theorem policyDispatcher_inRange {key value : Bytes} {policy out : YamlPolicy}
    (hpolicy : policy.InRange) (h : policyDispatcher strtoul key value policy = some out) :
    out.InRange := by
  obtain ⟨handler, hhandler, hout⟩ := Option.bind_eq_some_iff.mp h
  exact policyHandlers_inRange (mem_of_lookup hhandler) hpolicy hout

theorem parseStringSequence_strings {n : ℕ} {patterns : List.Vector Bytes n}
    (h : Strings patterns) (count : ℕ) (events : List Event) :
    Strings (parseStringSequence patterns count events).out := by
  fun_induction parseStringSequence patterns count events with
  | case1 | case3 | case4 => exact h
  | case2 patterns count value events hroom ih =>
      refine ih fun i => ?_
      by_cases hi : (⟨count, hroom.1⟩ : Fin n) = i
      · rw [← hi, List.Vector.get_set_same]
        exact zero_notMem_fitted _ _
      · rw [List.Vector.get_set_of_ne hi]
        exact h i
  | case5 patterns count event events _ _ ih => exact ih h

theorem parseFiltersSection_strings {filters : YamlFilters} (key : Bytes) (events : List Event)
    (hcgroups : Strings filters.cgroups) (hpaths : Strings filters.paths) :
    Strings (parseFiltersSection key filters events).out.cgroups ∧
      Strings (parseFiltersSection key filters events).out.paths := by
  fun_induction parseFiltersSection key filters events with
  | case1 | case8 => exact ⟨hcgroups, hpaths⟩
  | case2 key filters value events ih => exact ih hcgroups hpaths
  | case3 filters events parsed hret =>
      exact ⟨parseStringSequence_strings hcgroups 0 events, hpaths⟩
  | case4 filters events parsed hret ih =>
      exact ih (parseStringSequence_strings hcgroups 0 events) hpaths
  | case5 filters events hkey parsed hret =>
      exact ⟨hcgroups, parseStringSequence_strings hpaths 0 events⟩
  | case6 filters events hkey parsed hret ih =>
      exact ih hcgroups (parseStringSequence_strings hpaths 0 events)
  | case7 key filters events _ _ ih => exact ih hcgroups hpaths
  | case9 key filters event events _ _ _ ih => exact ih hcgroups hpaths

/-- Every section keeps what the builder relies on. -/
theorem kept_sound : Kept strtoul fun config _ => config.Sound where
  policy _ _ _ h :=
    { h with
      policy := parseGenericMap_invariant (fun _ _ _ _ => policyDispatcher_inRange) _ _ _ h.policy }
  filters _ _ events h :=
    have hstrings := parseFiltersSection_strings [] events h.cgroups h.paths
    { h with cgroups := hstrings.1, paths := hstrings.2 }
  hooks _ _ _ h := { h with }

theorem parseYamlPolicy_sound {file : Option (List Event)} {memory : YamlConfig}
    (h : (parseYamlPolicy strtoul file memory).1 = 0) :
    (parseYamlPolicy strtoul file memory).2.Sound := by
  cases file with
  | none => cases h
  | some events =>
      have hcleared : clearedConfig.Sound :=
        ⟨⟨by decide, by decide, by decide, by decide⟩, strings_replicate _, strings_replicate _⟩
      exact (parseEvents_agree kept_sound [] (b := clearedConfig) hcleared events).out

end Parse

/-! ## The snapshot -/

theorem subset_of_le {flags : UInt32} (h : flags ≤ 255) : Bits.Subset flags 0xff := by
  have hself : flags &&& 0xff = flags := by
    rw [← UInt32.toNat_inj, UInt32.toNat_and]
    exact Nat.and_two_pow_sub_one_of_lt_two_pow (n := 8)
      (Nat.lt_succ_of_le (UInt32.le_iff_toNat_le.mp h))
  rw [Bits.Subset, ← hself, UInt32.and_assoc, show (0xff : UInt32) &&& ~~~0xff = 0 by decide,
    UInt32.and_zero]

theorem subset_flagIf (set : UInt8) {flag mask : UInt32} (h : Bits.Subset flag mask) :
    Bits.Subset (flagIf set flag) mask := by
  unfold flagIf
  split
  · exact h
  · exact UInt32.zero_and

theorem buildConfig_normal {policy : YamlPolicy} (h : policy.InRange) :
    (buildConfig policy).actionFlags &&& (PolicyAction.alertSuspicious ||| PolicyAction.block) = 0 ∧
      (buildConfig policy).accepted ∧ (buildConfig policy).normalize = buildConfig policy := by
  have hflags : (buildConfig policy).actionFlags &&&
        (PolicyAction.alertSuspicious ||| PolicyAction.block) = 0 ∧
      (buildConfig policy).actionFlags &&& ~~~0x7f = 0 ∧
      (buildConfig policy).actionFlags &&& requiredActions = requiredActions := by
    simp only [buildConfig, flagIf]
    split <;> split <;> decide
  exact ⟨hflags.1, ⟨h.enabled, subset_of_le h.filterFlags, hflags.2.1, hflags.2.2, h.logLevel,
    h.maxPathDepth, (show (0 : UInt8) ≤ scopeRootOnly by decide), rfl⟩, rfl⟩

theorem buildPattern_normal {pattern : Bytes} (hzero : (0 : UInt8) ∉ pattern)
    (hlength : pattern.length < maxPatternLen) :
    (buildPattern pattern).accepted ∧ (buildPattern pattern).normalize = buildPattern pattern := by
  unfold buildPattern
  split
  · exact ⟨by decide, by decide⟩
  · rename_i hne
    have hcopy : cstr (snprintf maxPatternLen pattern) = pattern := cstr_strscpy hlength hzero
    refine ⟨⟨UInt8.le_refl 1, (show (1 : UInt8) ≤ 3 by decide), rfl, terminated_strscpy hlength,
      fun _ => ?_⟩, ?_⟩
    · rw [ne_eq, ← cstr_eq_nil_iff, hcopy]
      exact hne
    · rw [PatternEntry.normalize, if_pos (show (1 : UInt8) ≠ 0 by decide)]
      simp only [hcopy]
      rfl

theorem buildPatterns_normal {n : ℕ} {rows : List.Vector Bytes n} (hstrings : Strings rows)
    (hlength : ∀ row ∈ rows.toList, row.length < maxPatternLen) (i : Fin n) :
    ((buildPatterns n rows.toList).get i).accepted ∧
      ((buildPatterns n rows.toList).get i).normalize = (buildPatterns n rows.toList).get i := by
  have hrow : rows.toList.getD i [] = rows.get i := by
    rw [List.getD_eq_getElem?_getD, List.getElem?_eq_getElem (by simp),
      List.Vector.get_eq_get_toList]
    rfl
  rw [buildPatterns, List.Vector.get_ofFn, hrow]
  exact buildPattern_normal (hstrings i) (hlength _ (List.Vector.get_mem i rows))

/-- The hooks of a snapshot are as the kernel wants them. -/
def HooksNormal (hooks : List.Vector HookConfig hookMax) : Prop :=
  ∀ i, (hooks.get i).accepted ∧ (hooks.get i).normalize = hooks.get i

instance (hooks : List.Vector HookConfig hookMax) : Decidable (HooksNormal hooks) :=
  inferInstanceAs (Decidable (∀ _, _))

theorem buildHook_normal {policy : YamlPolicy} {hooks out : List.Vector HookConfig hookMax}
    {hook : YamlHookConfig} (h : HooksNormal hooks) (hout : buildHook policy hooks hook = .ok out) :
    HooksNormal out := by
  unfold buildHook at hout
  split at hout
  · obtain rfl := Except.ok.inj hout
    exact h
  · obtain ⟨-, hout⟩ := Machine.check_passed hout (by simp)
    split at hout
    · cases hout
    · rename_i id _
      obtain rfl := Except.ok.inj hout
      intro i
      by_cases hi : id = i
      · subst hi
        rw [List.Vector.get_set_same]
        obtain ⟨⟨-, hfilter, haction, hreserved⟩, -⟩ := h id
        refine ⟨⟨?_, hfilter, haction, hreserved⟩, ?_⟩
        · refine Bits.Subset.or (c := 7) (Bits.Subset.or ?_ ?_) ?_ <;>
            exact subset_flagIf _ (by decide)
        · simp [HookConfig.normalize, HookConfig.zero, hfilter, haction, hreserved]
      · rw [List.Vector.get_set_of_ne hi]
        exact h i

theorem foldlM_buildHook_normal {policy : YamlPolicy} {hooks out : List.Vector HookConfig hookMax}
    {configs : List YamlHookConfig} (h : HooksNormal hooks)
    (hout : configs.foldlM (buildHook policy) hooks = .ok out) : HooksNormal out := by
  induction configs generalizing hooks with
  | nil =>
      obtain rfl := Except.ok.inj hout
      exact h
  | cons config configs ih =>
      rw [List.foldlM_cons] at hout
      cases hnext : buildHook policy hooks config with
      | error ret =>
          rw [hnext] at hout
          cases hout
      | ok next =>
          rw [hnext] at hout
          exact ih (buildHook_normal h hnext) hout

/-- What is built from a sound configuration is normal. -/
theorem YamlConfig.Sound.build_normal {config : YamlConfig} (h : config.Sound)
    {snapshot : PolicySnapshot} (hbuild : config.build = .ok snapshot) :
    normalizeSnapshot snapshot = .ok snapshot := by
  unfold YamlConfig.build buildPolicyFromYaml at hbuild
  obtain ⟨-, hbuild⟩ := Machine.check_passed hbuild (by simp)
  obtain ⟨-, hbuild⟩ := Machine.check_passed hbuild (by simp)
  obtain ⟨-, hbuild⟩ := Machine.check_passed hbuild (by simp)
  split at hbuild
  · cases hbuild
  · rename_i hooks hhooks
    obtain ⟨hlength, hbuild⟩ := Machine.check_passed hbuild (by simp)
    obtain rfl := Except.ok.inj hbuild
    push Not at hlength
    have hnormal : HooksNormal hooks := foldlM_buildHook_normal (by decide) hhooks
    have hcgroups := buildPatterns_normal h.cgroups fun row hrow =>
      hlength row (List.mem_append_left _ hrow)
    have hpaths := buildPatterns_normal h.paths fun row hrow =>
      hlength row (List.mem_append_right _ hrow)
    obtain ⟨hsupported, haccepted, hconfig⟩ := buildConfig_normal h.policy
    rw [normalizeSnapshot_self_iff]
    exact ⟨⟨hsupported, haccepted, fun i => (hcgroups i).1, fun i => (hpaths i).1,
        fun i => (hnormal i).1⟩, hconfig, fun i => (hcgroups i).2, fun i => (hpaths i).2,
      fun i => (hnormal i).2⟩

/-! ## The root update -/

/-- The bytes that the tool writes for a root policy. -/
def sentBytes (P : Platform) (snapshot : PolicySnapshot) : Bytes :=
  (policyEncodeRequest P.byteOrder (snapshotRequest none snapshot)).image P.byteOrder

/-- The answers that are not about the policy. -/
inductive ToolEnv.Reports (env : ToolEnv) (s : CommitState) (ret : Ret) : Prop where
  | opening (h : ∃ error ∈ env.openError, error.val = ret)
  | copying (h : ∃ error ∈ env.write.copyError, error.val = ret)
  | updating (h : env.write.apply.Reports s ret)

section Update

variable {P : Platform} {snapshot : PolicySnapshot} {s : KernelState}

theorem writtenRet_refusal {written ret : Ret} (hret : Refusal ret) (h : writtenRet written = ret) :
    written = ret := by
  unfold writtenRet at h
  split at h
  · exact absurd h (hret.ne 0 (by decide))
  · split at h
    · exact h
    · exact absurd h (hret.ne (-eio) (by decide))

theorem writeResult_refusal {count : ℕ} {result : Ret × KernelState} {ret : Ret}
    (hret : Refusal ret) (h : (writeResult count result).1 = ret) : result.1 = ret := by
  simp only [writeResult] at h
  split at h
  · exact h
  · have hneg := hret.neg
    rw [← h] at hneg
    exact absurd hneg (not_lt.mpr (Int.natCast_nonneg count))

/-- The tool's call ends before the request is applied, or with what applying it came to. -/
theorem applyPolicySnapshot_cases (h : snapshot.ReservedZero) (env : ToolEnv) :
    (applyPolicySnapshot P env none snapshot s).2 = s ∧
        (∀ ret, Refusal ret → (applyPolicySnapshot P env none snapshot s).1 = ret →
          env.Reports s.engine ret) ∨
      (applyPolicySnapshot P env none snapshot s).2 =
          (policyApply P env.write.apply (some (snapshotRequest none snapshot).request) s).2 ∧
        ∀ ret, Refusal ret → (applyPolicySnapshot P env none snapshot s).1 = ret →
          (policyApply P env.write.apply (some (snapshotRequest none snapshot).request) s).1 =
            ret := by
  have hmemory : (snapshotRequest none snapshot).request.ReservedZero := ⟨rfl, h⟩
  have hsent := image_policyEncodeRequest P.byteOrder hmemory
  unfold applyPolicySnapshot
  rw [if_neg (by simp)]
  cases hopen : env.openError with
  | some error =>
      exact .inl ⟨rfl, fun ret _ hret => .opening ⟨error, hopen, hret⟩⟩
  | none =>
      simp only [hsent, policyApplyWrite, RequestMemory.length_image, ne_eq, not_true_eq_false,
        if_false, decodeRequest_image P.byteOrder hmemory]
      split
      · refine .inl ⟨rfl, fun ret hrefusal hret => ?_⟩
        exact absurd hret (hrefusal.ne (-eperm) (by decide))
      · cases hcopy : env.write.copyError with
        | some error =>
            refine .inl ⟨rfl, fun ret hrefusal hret => ?_⟩
            exact .copying ⟨error, hcopy, writtenRet_refusal hrefusal hret⟩
        | none =>
            refine .inr ⟨rfl, fun ret hrefusal hret => ?_⟩
            exact writeResult_refusal hrefusal (writtenRet_refusal hrefusal hret)

theorem policyApply_snapshotRequest (P : Platform) (env : ApplyEnv) (snapshot : PolicySnapshot)
    (s : KernelState) :
    policyApply P env (some (snapshotRequest none snapshot).request) s =
      applyLocked P env (snapshotRequest none snapshot).request s := by
  have hterminated : terminated (CString.zero namespaceSize) = true := by decide
  have haccepted : (snapshotRequest none snapshot).request.accepted :=
    ⟨rfl, rfl, hterminated, fun hne => absurd rfl hne⟩
  rw [policyApply, if_neg (not_not.mpr haccepted)]

/-- The update publishes nothing, or the snapshot under the next generation, with the digest
of the record as it was sent. -/
theorem rootUpdate_audit {m : ℕ} (hbound : s.policyMap = some m) (hs : (s.maps m).Published)
    (hnormal : normalizeSnapshot snapshot = .ok snapshot) (env : ApplyEnv) :
    ((policyApply P env (some (snapshotRequest none snapshot).request) s).2.maps m).generation =
          (s.maps m).generation ∧
        (policyApply P env (some (snapshotRequest none snapshot).request)
          s).2.globalPolicyChangeHistory = s.globalPolicyChangeHistory ∨
      (policyApply P env (some (snapshotRequest none snapshot).request)
          s).2.globalPolicyChangeHistory = s.globalPolicyChangeHistory ++
        [policyChange P ((s.maps m).generation + 1)
          (snapshotRequest none snapshot).request.record] := by
  have heffect := applyLocked_effect P env (snapshotRequest none snapshot).request s
  rw [policyApply_snapshotRequest]
  generalize applyLocked P env (snapshotRequest none snapshot).request s = result at heffect ⊢
  obtain ⟨ret, t⟩ := result
  cases heffect with
  | refused | unchanged => exact .inl ⟨rfl, rfl⟩
  | attempted m' namespaces snapshot' candidate index metadata hbound' hadded hnormal' hcandidate
      hvalid haudited hpublish hchanged =>
      obtain rfl := Option.some.inj (hbound.symm.trans hbound')
      obtain rfl := Except.ok.inj (hnormal.symm.trans hnormal')
      have hroot : namespaceIndex (s.maps m).active (some (cstr (CString.zero namespaceSize))) =
          some 0 := by
        rw [cstr_zero]
        rfl
      cases hcandidate with
      | appended hmissing => cases hroot.symm.trans hmissing
      | replaced _ hfound =>
          obtain rfl := Option.some.inj (hroot.symm.trans hfound)
          rcases haudited with ⟨-, rfl⟩ | ⟨hne, -⟩
          · cases hpublish with
            | refused => exact .inl ⟨rfl, rfl⟩
            | notCommitted engine hret hcommit hgeneration =>
                refine .inl ⟨?_, rfl⟩
                simp only [maps_stageCandidate, BpfMap.generation_stage]
            | published engine hgeneration hcommit =>
                refine .inr (congrArg (s.globalPolicyChangeHistory ++ [·]) ?_)
                simp only [policyEvent, setRecord_get_same, hs.active_wellFormed.rootId]
                rfl
          · exact absurd rfl hne

/-- The digest that is audited is taken over the record in the request. -/
theorem snapshotDigest_sent (P : Platform) (hnormal : normalizeSnapshot snapshot = .ok snapshot) :
    snapshotDigest P (snapshotRequest none snapshot).request.record =
      P.sha256 (((sentBytes P snapshot).drop 16).take 1380) := by
  obtain ⟨haccepted, -⟩ := normalizeSnapshot_self_iff.mp hnormal
  have hmemory : (snapshotRequest none snapshot).request.ReservedZero :=
    ⟨rfl, haccepted.reservedZero⟩
  rw [snapshotDigest, sentBytes, image_policyEncodeRequest P.byteOrder hmemory,
    RequestMemory.record_image, image_wire P.byteOrder hnormal]

/-- What the tool's update of the root comes to, whatever is asked of the kernel. -/
structure ToolUpdate (P : Platform) (env : ToolEnv) (snapshot : PolicySnapshot) (s : KernelState) :
    Prop where
  notRefused : ∀ ret, Refusal ret → (applyPolicySnapshot P env none snapshot s).1 = ret →
    env.Reports s.engine ret
  audited : ∀ m, s.policyMap = some m →
    ((applyPolicySnapshot P env none snapshot s).2.maps m).generation = (s.maps m).generation ∧
        (applyPolicySnapshot P env none snapshot s).2.globalPolicyChangeHistory =
          s.globalPolicyChangeHistory ∨
      ∃ change,
        (applyPolicySnapshot P env none snapshot s).2.globalPolicyChangeHistory =
          s.globalPolicyChangeHistory ++ [change] ∧
        change.policyString = snprintf maxPolicyStringSize
          (policyString ((s.maps m).generation + 1) []
            (P.sha256 (((sentBytes P snapshot).drop 16).take 1380)))

theorem ToolUpdate.of_normal (hnormal : normalizeSnapshot snapshot = .ok snapshot)
    (htfm : s.engine.systemMerkleRoot.tfm = true) (hs : PolicyBound s) (env : ToolEnv) :
    ToolUpdate P env snapshot s := by
  obtain ⟨haccepted, -⟩ := normalizeSnapshot_self_iff.mp hnormal
  rcases applyPolicySnapshot_cases (P := P) (s := s) haccepted.reservedZero env with
    ⟨hstate, hrefused⟩ | ⟨hstate, hrefused⟩
  · refine ⟨hrefused, fun m hbound => .inl ?_⟩
    rw [hstate]
    exact ⟨rfl, rfl⟩
  · refine ⟨fun ret hret h => .updating ?_, fun m hbound => ?_⟩
    · have happly := hrefused ret hret h
      rw [policyApply_snapshotRequest] at happly
      exact applyLocked_root_refusal htfm rfl (cstr_zero _) hnormal hret happly
    · rw [hstate]
      rcases rootUpdate_audit (P := P) hbound (hs m hbound) hnormal env.write.apply with
        hkept | happended
      · exact .inl hkept
      · refine .inr ⟨_, happended, ?_⟩
        rw [← snapshotDigest_sent P hnormal]
        exact congrArg (fun id => snprintf maxPolicyStringSize (policyString _ id _)) (cstr_zero _)

end Update

/-- What the tool builds from a document that it accepts is normal. No check of the policy
refuses it as the root policy, and the digest in the audit is that of what was sent. -/
theorem yaml_policy_taken_unchanged (strtoul : Strtoul) (file : Option (List Event))
    (memory : YamlConfig) (snapshot : PolicySnapshot)
    (hparse : (parseYamlPolicy strtoul file memory).1 = 0)
    (hbuild : (parseYamlPolicy strtoul file memory).2.build = .ok snapshot) :
    normalizeSnapshot snapshot = .ok snapshot ∧
      ∀ (P : Platform) (maps : ℕ → BpfMap) (tpmPcrIndex : ℤ) (ops : List KernelOp) (env : ToolEnv),
        ToolUpdate P env snapshot (kernelRun P maps tpmPcrIndex ops) := by
  have hnormal := (parseYamlPolicy_sound hparse).build_normal hbuild
  refine ⟨hnormal, fun P maps tpmPcrIndex ops env => ?_⟩
  exact .of_normal hnormal (tfm_kernelRun P maps tpmPcrIndex ops)
    (PolicyBound.of_run P maps tpmPcrIndex ops) env

/-- A document with a policy, a path pattern and a hook. -/
def quietDocument : List Event :=
  [.streamStart, .documentStart, .mappingStart, .scalar "policy".ascii, .mappingStart,
    .scalar "enabled".ascii, .scalar "true".ascii, .scalar "measure_enabled".ascii,
    .scalar "yes".ascii, .scalar "log_level".ascii, .scalar "2".ascii,
    .scalar "filter_flags".ascii, .scalar "255".ascii, .mappingEnd, .scalar "filters".ascii,
    .mappingStart, .scalar "path_patterns".ascii, .sequenceStart, .scalar "/proc/".ascii,
    .sequenceEnd, .mappingEnd, .scalar "hooks".ascii, .sequenceStart, .mappingStart,
    .scalar "name".ascii, .scalar "lsm_mmap_file".ascii, .scalar "enabled".ascii,
    .scalar "No".ascii, .mappingEnd, .sequenceEnd, .mappingEnd, .documentEnd, .streamEnd]

/-- The snapshot of that document. -/
def quietSnapshot : PolicySnapshot where
  config :=
    { PolicyConfig.zero with
      enabled := 1
      filterFlags := 255
      actionFlags := 0x47
      maxPathDepth := 32
      logLevel := 2
      merkleHistoryMaxSize := 1000 }
  cgroups := .replicate _ .zero
  paths := (List.Vector.replicate _ .zero).set 0
    { PatternEntry.zero with
      pattern := snprintf _ "/proc/".ascii, enabled := 1, matchType := 1 }
  hooks := defaultHooks.set 3 .zero

theorem yaml_policy_taken_unchanged_quietDocument :
    (parseYamlPolicy decimalStrtoul (some quietDocument) clearedConfig).1 = 0 ∧
      (parseYamlPolicy decimalStrtoul (some quietDocument) clearedConfig).2.build =
        .ok quietSnapshot ∧
      normalizeSnapshot quietSnapshot = .ok quietSnapshot ∧
      ToolUpdate referencePlatform ⟨none, ⟨1, true, none, workingApply⟩⟩ quietSnapshot
        (kernelRun referencePlatform (fun _ => unboundPolicyMap) 10
          [.policyBindMap workingBind]) := by
  have hparse : (parseYamlPolicy decimalStrtoul (some quietDocument) clearedConfig).1 = 0 := by
    decide +kernel
  have hbuild : (parseYamlPolicy decimalStrtoul (some quietDocument) clearedConfig).2.build =
      .ok quietSnapshot := by decide +kernel
  obtain ⟨hnormal, hupdate⟩ := yaml_policy_taken_unchanged decimalStrtoul (some quietDocument)
    clearedConfig quietSnapshot hparse hbuild
  exact ⟨hparse, hbuild, hnormal, hupdate _ _ _ _ _⟩

/-- The kernel's side of an update during which the TPM is as given. -/
def applyWithTpm (tpm : TpmEnv) : ToolEnv :=
  ⟨none, ⟨1, true, none,
    { workingApply with publish := { workingPublish with commit := { workingCommit with tpm } } }⟩⟩

/-- The TPM has the last word: a command that fails with `-EINVAL`, and a chip that has only the
bank of SHA-1 (algorithm 4), end the update of a normal snapshot with the codes of a refusal. -/
theorem tool_update_refused_by_tpm :
    (parseYamlPolicy decimalStrtoul (some quietDocument) clearedConfig).1 = 0 ∧
      (parseYamlPolicy decimalStrtoul (some quietDocument) clearedConfig).2.build =
        .ok quietSnapshot ∧
      (applyPolicySnapshot referencePlatform
        (applyWithTpm { workingTpm with commandRet := -einval }) none quietSnapshot
        (kernelRun referencePlatform (fun _ => unboundPolicyMap) 10
          [.policyBindMap workingBind])).1 = -einval ∧
      (applyPolicySnapshot referencePlatform
        (applyWithTpm { workingTpm with chip := some ⟨[4]⟩ }) none quietSnapshot
        (kernelRun referencePlatform (fun _ => unboundPolicyMap) 10
          [.policyBindMap workingBind])).1 = -eopnotsupp := by
  refine ⟨?_, ?_, ?_, ?_⟩
  all_goals decide +kernel

end BpfIma
