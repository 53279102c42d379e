import Mathlib.Data.Vector.Mem
import BpfIma.Verification.Operator.Encoder

/-! # What the operator lets through

`BuildPolicyRequest` checks its namespace and nothing of its policy: it emits what the kernel
asks for exactly if the policy is one that the kernel can be asked for. -/

namespace BpfIma.Operator

open CString

/-! ## Decoding what was built -/

theorem Holds.reserved {entries : List V1alpha1.PatternEntry} {out : List.Vector BPFPatternEntry 8}
    (h : Holds out entries) (i : Fin 8) :
    ((out.map BPFPatternEntry.kernel).get i).reserved = 0 := by
  rw [List.Vector.get_map]
  have hmem := List.Vector.get_mem i out
  rw [h, List.mem_append, List.mem_map] at hmem
  rcases hmem with ⟨entry, -, heq⟩ | hzero
  · rw [← heq]
    rfl
  · rw [List.eq_of_mem_replicate hzero]
    rfl

/-- Every request that is built reads back as it was meant, on either host. -/
theorem Built.decode {policy : V1alpha1.Policy} {name : Bytes} {generation : UInt64}
    {request : PolicyRequest} (h : Built policy name generation request) (order : ByteOrder) :
    decodeRequest order request.marshal = request.kernel := by
  rw [← request.image_kernel]
  apply decodeRequest_image order
  refine ⟨h.reserved, ?_, h.cgroups.reserved, h.paths.reserved, fun i => ?_⟩
  · change request.snapshot.config.reserved = 0
    rw [h.config]
    rfl
  · change (request.snapshot.kernel.hooks.get i).reserved = 0
    rw [h.get_hooks]

/-! ## Too many patterns -/

theorem buildPatternsFrom_full {entries : List V1alpha1.PatternEntry} {index : ℕ}
    {result : List.Vector BPFPatternEntry 8} (hindex : index ≤ 8)
    (hfull : 8 < index + (entries.filter (·.enabled)).length) :
    buildPatternsFrom result index entries = .error (.indexOutOfRange 8 8) := by
  induction entries generalizing index result with
  | nil =>
      simp only [List.filter_nil, List.length_nil, Nat.add_zero] at hfull
      omega
  | cons entry entries ih =>
      rw [buildPatternsFrom]
      by_cases henabled : entry.enabled = true
      · simp only [List.filter_cons, henabled, if_true, List.length_cons] at hfull
        by_cases hroom : index < 8
        · rw [if_neg (not_not.mpr henabled), dif_pos hroom]
          exact ih hroom (by omega)
        · obtain rfl : index = 8 := by omega
          rw [if_neg (not_not.mpr henabled), dif_neg hroom]
      · rw [List.filter_cons_of_neg henabled] at hfull
        rw [if_pos henabled]
        exact ih hindex hfull

/-- A ninth enabled pattern is written past the array. -/
theorem buildPatterns_full {entries : List V1alpha1.PatternEntry}
    (hfull : 8 < (entries.filter (·.enabled)).length) :
    buildPatterns entries = .error (.indexOutOfRange 8 8) :=
  buildPatternsFrom_full (Nat.zero_le 8) (by omega)

/-! ## The contract -/

/-- Every enabled pattern stands in the array with all its bytes and its match type. -/
def Appear {n : ℕ} (entries : List V1alpha1.PatternEntry)
    (patterns : List.Vector BpfIma.PatternEntry n) : Prop :=
  ∀ entry ∈ entries, entry.enabled = true → ∃ i, (patterns.get i).enabled ≠ 0 ∧
    cstr (patterns.get i).pattern = entry.pattern ∧
    ((patterns.get i).matchType.toNat : ℤ) = entry.matchType.toInt

/-- What a request for the policy has to be: the kernel accepts the snapshot that it decodes,
and nothing of the policy is cut or left out. -/
structure Faithful (spec : V1alpha1.PolicySpec) (request : PolicyRequest) : Prop where
  accepted : ∀ order, ∃ output,
    normalizeSnapshot (decodeRequest order request.marshal).request.record.snapshot = .ok output
  cgroups : ∀ order, Appear spec.cgroupPatterns
    (decodeRequest order request.marshal).request.record.snapshot.cgroups
  paths : ∀ order, Appear spec.pathPatterns
    (decodeRequest order request.marshal).request.record.snapshot.paths
  overrides : ∀ id, ∀ hook ∈ spec.hooks.setting id,
    hook.filterOverride = 0 ∧ hook.actionOverride = 0

/-- `BuildPolicyRequest` returns a faithful request or an error. -/
structure FailsClosed (policy : Option V1alpha1.Policy) (name : Bytes) (generation : UInt64) :
    Prop where
  noPanic : ∀ index length,
    buildPolicyRequest policy name generation ≠ .error (.indexOutOfRange index length)
  faithful : ∀ request, buildPolicyRequest policy name generation = .ok request →
    ∃ resource ∈ policy, Faithful resource.spec request

/-! ## Encodable policies -/

theorem appear_of_holds {entries : List V1alpha1.PatternEntry}
    {out : List.Vector BPFPatternEntry 8} (h : Holds out (entries.filter (·.enabled)))
    (hvalid : ∀ entry ∈ entries, entry.enabled = true → entry.Valid) :
    Appear entries (out.map BPFPatternEntry.kernel) := by
  intro entry hentry henabled
  have hslot : encodePattern entry ∈ out.toList := by
    rw [h]
    exact List.mem_append_left _ (List.mem_map_of_mem (List.mem_filter.mpr ⟨hentry, henabled⟩))
  obtain ⟨i, hi⟩ := (List.Vector.mem_iff_get _ _).mp hslot
  have hentry := hvalid entry hentry henabled
  refine ⟨i, ?_⟩
  rw [List.Vector.get_map, hi]
  refine ⟨(by decide : (1 : UInt8) ≠ 0), hentry.cstr_encode, ?_⟩
  change ((encodePattern entry).matchType.toNat : ℤ) = _
  rw [hentry.matchType_encode, Int.toNat_of_nonneg hentry.matchType.1]

/-- The kernel's view of a slot says what the pattern is. -/
theorem valid_of_appear {n : ℕ} {entries : List V1alpha1.PatternEntry}
    {patterns : List.Vector BpfIma.PatternEntry n} (h : Appear entries patterns)
    (haccepted : ∀ i, (patterns.get i).accepted) :
    ∀ entry ∈ entries, entry.enabled = true → entry.Valid := by
  intro entry hentry henabled
  obtain ⟨i, hon, hpattern, htype⟩ := h entry hentry henabled
  obtain ⟨-, hsmall, -, hterminated, hnonempty⟩ := haccepted i
  have hlength := length_cstr_lt hterminated
  have hne := hnonempty hon
  rw [ne_eq, ← cstr_eq_nil_iff, hpattern] at hne
  have hsmall : (patterns.get i).matchType.toNat ≤ 3 := UInt8.le_iff_toNat_le.mp hsmall
  refine ⟨List.length_pos_iff.mpr hne, ?_, ?_, by omega, by omega⟩
  · rw [hpattern] at hlength
    exact Nat.le_of_lt_succ hlength
  · rw [← hpattern]
    exact zero_notMem_cstr _

theorem small_of_toUInt32_le {x : Int32} {bound : UInt32} (hbound : bound.toNat ≤ 32)
    (h : x.toUInt32 ≤ bound) : 0 ≤ x.toInt ∧ x.toInt ≤ bound.toNat := by
  have hcond := BitVec.toInt_eq_toNat_cond x.toBitVec
  have hnat : x.toUInt32.toNat = x.toBitVec.toNat := rfl
  have hle := UInt32.le_iff_toNat_le.mp h
  rw [Int32.toInt]
  split at hcond <;> omega

theorem mandatory_of_accepted {a : V1alpha1.ActionConfig}
    (hrequired : computeActionFlags a &&& requiredActions = requiredActions)
    (hsupported :
      computeActionFlags a &&& (PolicyAction.alertSuspicious ||| PolicyAction.block) = 0) :
    (a.extendTPM = true ∧ a.logSecurityFS = true) ∧
      a.alertSuspicious = false ∧ a.block = false := by
  obtain ⟨extendTPM, logSecurityFS, logKernel, alertSuspicious, block, trackContainer, buildDeps⟩ :=
    a
  revert hrequired hsupported
  revert extendTPM logSecurityFS logKernel alertSuspicious block trackContainer buildDeps
  decide

/-- The policy of a faithful request can be encoded. -/
theorem Built.encodable {policy : V1alpha1.Policy} {name : Bytes} {generation : UInt64}
    {request : PolicyRequest} (h : Built policy name generation request)
    (hfaithful : Faithful policy.spec request)
    (hcgroupCount : (policy.spec.cgroupPatterns.filter (·.enabled)).length ≤ 8)
    (hpathCount : (policy.spec.pathPatterns.filter (·.enabled)).length ≤ 8) :
    policy.spec.Encodable := by
  obtain ⟨output, hok⟩ := hfaithful.accepted .little
  have hcgroups := hfaithful.cgroups .little
  have hpaths := hfaithful.paths .little
  rw [h.decode] at hok hcgroups hpaths
  have haccepted := (normalizeSnapshot_eq_ok.mp hok).1
  have hconfig : request.kernel.request.record.snapshot.config =
      (computeValue policy.spec.policy policy.spec.filters policy.spec.actions).kernel := by
    rw [← h.config]
    rfl
  have hsupported := haccepted.supported
  have hranges := haccepted.config
  rw [hconfig] at hsupported hranges
  obtain ⟨-, -, -, hrequired, hlevel, hdepth, -, -⟩ := hranges
  obtain ⟨hmandatory, hunsupported⟩ := mandatory_of_accepted hrequired hsupported
  exact ⟨hmandatory, hunsupported, small_of_toUInt32_le (by decide) hlevel,
    small_of_toUInt32_le (by decide) hdepth, hcgroupCount, hpathCount,
    valid_of_appear hcgroups haccepted.cgroups, valid_of_appear hpaths haccepted.paths,
    hfaithful.overrides⟩

theorem Built.faithful {policy : V1alpha1.Policy} {name : Bytes} {generation : UInt64}
    {request : PolicyRequest} (h : Built policy name generation request)
    (hencodable : policy.spec.Encodable) : Faithful policy.spec request where
  accepted := fun order => by
    rw [h.decode]
    exact ⟨_, h.normal hencodable⟩
  cgroups := fun order => by
    rw [h.decode]
    exact appear_of_holds h.cgroups hencodable.cgroups
  paths := fun order => by
    rw [h.decode]
    exact appear_of_holds h.paths hencodable.paths
  overrides := hencodable.overrides

/-! ## The exact condition -/

theorem buildPolicyRequest_refused {policy : Option V1alpha1.Policy} {name : Bytes}
    (h : policy = none ∨ 128 ≤ name.length) (generation : UInt64) :
    buildPolicyRequest policy name generation =
      .error (.error "invalid policy or namespace") := by
  cases policy with
  | none => rfl
  | some policy => simp [buildPolicyRequest, h.resolve_left (by simp)]

/-- Nine enabled patterns end the call in a panic. -/
theorem buildPolicyRequest_panic {policy : V1alpha1.Policy} {name : Bytes}
    (hname : name.length < 128)
    (hfull : 8 < (policy.spec.cgroupPatterns.filter (·.enabled)).length ∨
      8 < (policy.spec.pathPatterns.filter (·.enabled)).length) (generation : UInt64) :
    buildPolicyRequest (some policy) name generation = .error (.indexOutOfRange 8 8) := by
  rw [buildPolicyRequest]
  simp only [if_neg (Nat.not_le.mpr hname)]
  by_cases hcgroups : 8 < (policy.spec.cgroupPatterns.filter (·.enabled)).length
  · rw [buildPatterns_full hcgroups]
    rfl
  · obtain ⟨cgroups, hok, -⟩ := buildPatterns_ok (Nat.not_lt.mp hcgroups)
    rw [hok, buildPatterns_full (hfull.resolve_left hcgroups)]
    rfl

/-- `BuildPolicyRequest` fails closed exactly if it refuses its arguments or the policy is one
that can be encoded. -/
theorem failsClosed_iff (policy : Option V1alpha1.Policy) (name : Bytes) (generation : UInt64) :
    FailsClosed policy name generation ↔
      policy = none ∨ 128 ≤ name.length ∨ ∃ resource ∈ policy, resource.spec.Encodable := by
  by_cases hrefused : policy = none ∨ 128 ≤ name.length
  · have herror := buildPolicyRequest_refused hrefused generation
    refine iff_of_true ⟨fun index length => ?_, fun request hok => ?_⟩ (or_assoc.mp (.inl hrefused))
    · rw [herror]
      exact fun h => Failure.noConfusion (Except.error.inj h)
    · rw [herror] at hok
      cases hok
  · rw [not_or, Nat.not_le] at hrefused
    obtain ⟨hsome, hname⟩ := hrefused
    obtain ⟨policy, rfl⟩ := Option.ne_none_iff_exists'.mp hsome
    simp only [reduceCtorEq, false_or, Nat.not_le.mpr hname, Option.mem_some_iff, exists_eq_left']
    by_cases hfull : 8 < (policy.spec.cgroupPatterns.filter (·.enabled)).length ∨
        8 < (policy.spec.pathPatterns.filter (·.enabled)).length
    · refine iff_of_false (fun h => ?_) fun h => ?_
      · exact h.noPanic 8 8 (buildPolicyRequest_panic hname hfull generation)
      · rcases hfull with hfull | hfull
        · exact absurd h.cgroupCount (Nat.not_le.mpr hfull)
        · exact absurd h.pathCount (Nat.not_le.mpr hfull)
    · rw [not_or, Nat.not_lt, Nat.not_lt] at hfull
      obtain ⟨hcgroups, hpaths⟩ := hfull
      obtain ⟨request, hbuilt⟩ := exists_built hcgroups hpaths hname generation
      constructor
      · intro h
        obtain ⟨resource, hresource, hfaithful⟩ := h.faithful request hbuilt.build
        obtain rfl := Option.some.inj hresource
        exact hbuilt.encodable hfaithful hcgroups hpaths
      · intro hencodable
        refine ⟨fun index length herror => ?_, fun other hok => ?_⟩
        · rw [hbuilt.build] at herror
          cases herror
        · obtain rfl := Except.ok.inj (hbuilt.build.symm.trans hok)
          exact ⟨policy, rfl, hbuilt.faithful hencodable⟩

/-- A policy that switches the extension of the TPM off. -/
def unextendedPolicy : V1alpha1.Policy where
  spec :=
    { verbosePolicy.spec with
      actions := { verbosePolicy.spec.actions with extendTPM := false } }

theorem not_failsClosed_unextendedPolicy : ¬ FailsClosed (some unextendedPolicy) [] 0 := by
  intro h
  obtain ⟨request, hbuilt⟩ : ∃ request, Built unextendedPolicy [] 0 request :=
    exists_built (by decide) (by decide) (by decide) 0
  obtain ⟨resource, hresource, hfaithful⟩ := h.faithful request hbuilt.build
  obtain rfl := Option.some.inj hresource
  have hencodable := hbuilt.encodable hfaithful (by decide) (by decide)
  exact absurd hencodable.mandatory.1 (by decide)

end BpfIma.Operator
