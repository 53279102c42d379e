import BpfIma.Library.Bits
import BpfIma.Model.Kernel
import BpfIma.Verification.Policy.Effects
import BpfIma.Verification.Policy.Snapshot

/-! # What an extension can and cannot do to the root policy

Whatever a namespace record holds, it never makes a decision weaker than the root's; one
that the manager accepted takes effect as it is written. -/

namespace BpfIma

open CString

/-! ## Composition -/

/-- At least as strong as the root policy, for one hook. -/
structure PolicyResult.Covers (result : PolicyResult) (root : PolicySnapshot) (hook : Fin hookMax) :
    Prop where
  enabled : root.config.enabled ≤ result.config.enabled
  actionFlags : Bits.Subset root.config.actionFlags result.config.actionFlags
  maxPathDepth : root.config.maxPathDepth ≤ result.config.maxPathDepth
  logLevel : root.config.logLevel ≤ result.config.logLevel
  hookFlags : Bits.Subset (root.hooks.get hook).flags result.hook.flags
  filterFlags : Bits.Subset result.config.filterFlags root.config.filterFlags
  minFileSize : result.config.minFileSize ≤ root.config.minFileSize
  historyMaxSize : result.config.merkleHistoryMaxSize = root.config.merkleHistoryMaxSize
  historyScope : result.config.merkleHistoryScope = root.config.merkleHistoryScope

theorem mergeConfig_some_bounds (root extra : PolicyConfig) :
    root.maxPathDepth ≤ (mergeConfig root (some extra)).maxPathDepth ∧
      root.logLevel ≤ (mergeConfig root (some extra)).logLevel ∧
      (mergeConfig root (some extra)).minFileSize ≤ root.minFileSize := by
  refine ⟨?_, ?_, ?_⟩ <;> simp only [mergeConfig] <;> split
  all_goals first
    | exact UInt32.le_refl _
    | exact UInt32.le_of_lt (by assumption)

theorem resolveSnapshots_covers (generation : UInt64) (root : PolicySnapshot)
    (extra : Option PolicySnapshot) (context : PolicyContext) :
    (resolveSnapshots generation root extra context).Covers root
      (Fin.ofNat hookMax context.hook.toNat) := by
  cases extra with
  | none =>
      constructor <;> simp [resolveSnapshots, mergeConfig, Bits.Subset.refl]
  | some extra =>
      obtain ⟨hdepth, hlevel, hsize⟩ := mergeConfig_some_bounds root.config extra.config
      exact ⟨UInt8.left_le_or, Bits.subset_or_left _ _, hdepth, hlevel, Bits.subset_or_left _ _,
        Bits.and_subset_left _ _, hsize, rfl, rfl⟩

theorem resolveSnapshots_skip_eq_zero {generation : UInt64} {root : PolicySnapshot}
    {extra : Option PolicySnapshot} {context : PolicyContext} :
    (resolveSnapshots generation root extra context).skip = 0 ↔
      (resolveSnapshots generation root extra context).config.enabled ≠ 0 ∧
      (resolveSnapshots generation root extra context).hook.flags &&& HookFlag.enabled ≠ 0 ∧
      (context.flags &&& ContextFlag.file ≠ 0 →
        (resolveSnapshots generation root extra context).hook.flags &&& HookFlag.measureHash ≠ 0) ∧
      (filtered root context = true → ∃ e ∈ extra, filtered e context = false) := by
  simp only [resolveSnapshots]
  cases extra <;> simp [and_assoc]

/-- A record can only add to what is measured. -/
theorem skip_resolveSnapshots_of_root (generation : UInt64) (root : PolicySnapshot)
    (extra : Option PolicySnapshot) (context : PolicyContext)
    (h : (resolveSnapshots generation root none context).skip = 0) :
    (resolveSnapshots generation root extra context).skip = 0 := by
  rw [resolveSnapshots_skip_eq_zero] at h ⊢
  obtain ⟨henabled, hhook, hmeasure, hfiltered⟩ := h
  have hcovers := resolveSnapshots_covers generation root extra context
  have hflags : (resolveSnapshots generation root none context).hook.flags =
      (root.hooks.get (Fin.ofNat hookMax context.hook.toNat)).flags := by simp [resolveSnapshots]
  rw [hflags] at hhook hmeasure
  refine ⟨?_, hcovers.hookFlags.and_ne_zero hhook,
    fun hfile => hcovers.hookFlags.and_ne_zero (hmeasure hfile), ?_⟩
  · intro hzero
    have hle := hcovers.enabled
    rw [hzero, UInt8.le_zero_iff] at hle
    exact henabled hle
  · intro hroot
    obtain ⟨e, he, -⟩ := hfiltered hroot
    cases he

/-! ## Decisions of the manager -/

/-- The map with all namespace records of its active state dropped. -/
def BpfMap.withoutRecords (map : BpfMap) : BpfMap :=
  { map with
    slots := map.slots.set (stateSlot map.generation)
      { map.slots.get (stateSlot map.generation) with namespaceCount := 0 } }

/-- The same manager if no namespace had a record. -/
def KernelState.withoutRecords (s : KernelState) : KernelState :=
  { s with maps := fun m => (s.maps m).withoutRecords }

theorem BpfMap.active_withoutRecords (map : BpfMap) :
    map.withoutRecords.active = { map.active with namespaceCount := 0 } := by
  have hgeneration : map.withoutRecords.generation = map.generation := by
    rw [BpfMap.generation, BpfMap.withoutRecords, List.Vector.get_set_of_ne (stateSlot_ne_zero _)]
    rfl
  by_cases hzero : map.generation = 0
  · simp only [BpfMap.active, activeState, hgeneration, hzero, if_true]
    rfl
  · simp only [BpfMap.active, activeState, hgeneration, hzero, if_false, Option.getD_some]
    simp [BpfMap.withoutRecords]

theorem namespaceIndex_of_count_zero {state : PolicyState} (h : state.namespaceCount = 0)
    {id : Option Bytes} {index : Fin (policyNamespaces + 1)}
    (hindex : namespaceIndex state id = some index) : index = 0 := by
  rcases namespaceIndex_some hindex with ⟨-, hroot⟩ | ⟨-, hlive, -⟩
  · exact hroot
  · simp only [PolicyState.Live, h, UInt32.toNat_zero] at hlive
    omega

/-- Without records the root decides alone. -/
theorem resolveState_of_count_zero {state : PolicyState} (h : state.namespaceCount = 0)
    (context : PolicyContext) :
    resolveState state context =
      resolveSnapshots state.generation (state.records.get 0).snapshot none context := by
  unfold resolveState
  cases hindex : namespaceIndex state (some (cstr context.namespaceId)) with
  | none => rfl
  | some index =>
      obtain rfl := namespaceIndex_of_count_zero h hindex
      rfl

theorem policyResolveContext_of_wellFormed {context : PolicyContext} (hcontext : context.wellFormed)
    {s : KernelState} {m : ℕ} (hbound : s.policyMap = some m) :
    policyResolveContext context s = .ok (resolveState (s.maps m).active context) := by
  simp [policyResolveContext, hcontext, hbound]

/-- In every reachable state, what the root measures is measured with the record of a
namespace too, and the configuration is at least as strong as the root's. -/
theorem extension_keeps_root_coverage (P : Platform) (maps : ℕ → BpfMap) (tpmPcrIndex : ℤ)
    (ops : List KernelOp) (m : ℕ) (hbound : (kernelRun P maps tpmPcrIndex ops).policyMap = some m)
    (context : PolicyContext) (hcontext : context.wellFormed) :
    ∃ result rootResult,
      policyResolveContext context (kernelRun P maps tpmPcrIndex ops) = .ok result ∧
      policyResolveContext context (kernelRun P maps tpmPcrIndex ops).withoutRecords =
        .ok rootResult ∧
      (rootResult.skip = 0 → result.skip = 0) ∧
      result.Covers (((kernelRun P maps tpmPcrIndex ops).maps m).active.records.get 0).snapshot
        (Fin.ofNat hookMax context.hook.toNat) := by
  generalize kernelRun P maps tpmPcrIndex ops = s at hbound ⊢
  have hbound' : s.withoutRecords.policyMap = some m := hbound
  refine ⟨_, _, policyResolveContext_of_wellFormed hcontext hbound,
    policyResolveContext_of_wellFormed hcontext hbound', ?_, ?_⟩
  · have hactive : (s.withoutRecords.maps m).active =
        { (s.maps m).active with namespaceCount := 0 } := (s.maps m).active_withoutRecords
    rw [hactive, resolveState_of_count_zero rfl]
    exact skip_resolveSnapshots_of_root _ _ _ _
  · exact resolveSnapshots_covers _ _ _ _

/-- A record, and a change of the root after it. -/
def movedRootOps : List KernelOp :=
  [.policyBindMap workingBind, .policyApply workingApply (some verboseRequest),
    .policyUpdateField true workingApply none (some "min_file_size".ascii) 4096]

/-- A file that is executed in the namespace of `verboseRequest`. -/
def executionContext : PolicyContext where
  namespaceId := strscpy (CString.zero _) "web".ascii
  cgroup := strscpy (CString.zero _) "/kube/web".ascii
  path := strscpy (CString.zero _) "/bin/ls".ascii
  fileSize := 100
  hook := 0
  flags := ContextFlag.file ||| ContextFlag.executable

theorem extension_keeps_root_coverage_movedRoot :
    (kernelRun referencePlatform (fun _ => unboundPolicyMap) 10 movedRootOps).policyMap = some 0 ∧
      ∃ result rootResult,
        policyResolveContext executionContext
          (kernelRun referencePlatform (fun _ => unboundPolicyMap) 10 movedRootOps) = .ok result ∧
        policyResolveContext executionContext
          (kernelRun referencePlatform (fun _ => unboundPolicyMap) 10 movedRootOps).withoutRecords =
            .ok rootResult ∧
        (rootResult.skip = 0 → result.skip = 0) := by
  have hbound :
      (kernelRun referencePlatform (fun _ => unboundPolicyMap) 10 movedRootOps).policyMap =
        some 0 := by decide +kernel
  obtain ⟨result, rootResult, hresult, hroot, hskip, -⟩ := extension_keeps_root_coverage
    referencePlatform (fun _ => unboundPolicyMap) 10 movedRootOps 0 hbound executionContext
    (by decide +kernel)
  exact ⟨hbound, result, rootResult, hresult, hroot, hskip⟩

/-! ## Pattern subsets -/

/-- The subset test is sound on all texts. -/
theorem patternMatches_of_isSubset {extra root : PatternEntry}
    (hsubset : patternIsSubset extra root = true) {text : Bytes}
    (hmatch : patternMatches extra text = true) : patternMatches root text = true := by
  unfold patternMatches at hmatch
  split at hmatch
  · cases hmatch
  · rename_i hlive
    rw [not_or] at hlive
    obtain ⟨hextra, htext⟩ := hlive
    unfold patternIsSubset at hsubset
    rw [if_neg hextra] at hsubset
    split at hsubset
    · cases hsubset
    · rename_i hroot
      split at hsubset
      · rename_i hexact
        simp only [hexact, UInt8.toNat_zero, beq_iff_eq] at hmatch
        rw [hmatch]
        exact hsubset
      · split at hsubset
        · rename_i htype
          rw [patternMatches, if_neg (not_or.mpr ⟨hroot, htext⟩), ← htype]
          simp only at hsubset
          -- Prefix, suffix and infix are transitive.
          split at hsubset
          · rename_i hn
            simp only [hn, strncmp_length_iff] at hmatch hsubset ⊢
            exact hsubset.trans hmatch
          · rename_i hn
            simp only [hn, Bool.and_eq_true, decide_eq_true_eq, beq_iff_eq, drop_eq_iff_suffix]
              at hmatch hsubset ⊢
            exact hsubset.trans hmatch
          · rename_i hn
            simp only [hn, strstr_isSome] at hmatch hsubset ⊢
            exact hsubset.trans hmatch
          · cases hsubset
        · cases hsubset

/-- A pattern in a state that `normalize_snapshot` lets through. -/
structure PatternEntry.Proper (entry : PatternEntry) : Prop where
  terminated : terminated entry.pattern = true
  nonempty : entry.enabled ≠ 0 → cstr entry.pattern ≠ []
  matchType : entry.matchType.toNat ≤ 3

theorem patternMatches_self {entry : PatternEntry} (h : entry.Proper)
    (henabled : entry.enabled ≠ 0) : patternMatches entry (cstr entry.pattern) = true := by
  have hlive : ¬ (entry.enabled = 0 ∨ cstr entry.pattern = []) :=
    not_or.mpr ⟨henabled, h.nonempty henabled⟩
  have htype := h.matchType
  rw [patternMatches, if_neg hlive]
  generalize entry.matchType.toNat = matchType at htype
  -- each of the four relations is reflexive
  rcases matchType with _ | _ | _ | _ | matchType
  · simp
  · simp [strncmp]
  · simp
  · exact (strstr_isSome _ _).mpr List.infix_rfl
  · omega

/-- Where the test decides, it asks whether the root's pattern matches the other's text. -/
theorem patternIsSubset_of_matches {extra root : PatternEntry} (hextra : extra.enabled ≠ 0)
    (hdecides : extra.matchType = 0 ∨ extra.matchType = root.matchType)
    (hmatch : patternMatches root (cstr extra.pattern) = true) :
    patternIsSubset extra root = true := by
  have hroot : root.enabled ≠ 0 := by
    intro hzero
    simp [patternMatches, hzero] at hmatch
  rw [patternIsSubset, if_neg hextra, if_neg hroot]
  by_cases hexact : extra.matchType = 0
  · rw [if_pos hexact]
    exact hmatch
  · have htype : extra.matchType = root.matchType := hdecides.resolve_left hexact
    have hnat : extra.matchType.toNat ≠ 0 := fun h => hexact (UInt8.toNat_inj.mp h)
    rw [if_neg hexact, if_pos htype]
    unfold patternMatches at hmatch
    split at hmatch
    · cases hmatch
    · rw [← htype] at hmatch
      generalize extra.matchType.toNat = matchType at hnat hmatch
      rcases matchType with _ | _ | _ | _ | matchType
      · contradiction
      · exact hmatch
      · exact hmatch
      · exact hmatch
      · cases hmatch

/-- The subset test is sound, and exact for an enabled pattern that is exact or of the root's
kind. Of the root's pattern nothing is asked. -/
theorem patternIsSubset_exact (extra root : PatternEntry) (hextra : extra.Proper) :
    (patternIsSubset extra root = true →
      ∀ text : Bytes, 0 ∉ text → patternMatches extra text = true →
        patternMatches root text = true) ∧
    (extra.enabled ≠ 0 → extra.matchType = 0 ∨ extra.matchType = root.matchType →
      (patternIsSubset extra root = true ↔
        ∀ text : Bytes, 0 ∉ text → patternMatches extra text = true →
          patternMatches root text = true)) := by
  have hsound : patternIsSubset extra root = true →
      ∀ text : Bytes, 0 ∉ text → patternMatches extra text = true →
        patternMatches root text = true :=
    fun hsubset _ _ hmatch => patternMatches_of_isSubset hsubset hmatch
  refine ⟨hsound, fun henabled hdecides => ⟨hsound, fun hincluded => ?_⟩⟩
  -- the text of the pattern itself is the one that tells
  apply patternIsSubset_of_matches henabled hdecides
  exact hincluded _ (zero_notMem_cstr _) (patternMatches_self hextra henabled)

def libraryPattern : PatternEntry :=
  { PatternEntry.zero with
    pattern := strscpy (CString.zero _) "/usr/lib/".ascii, enabled := 1, matchType := 1 }

def systemPattern : PatternEntry :=
  { PatternEntry.zero with
    pattern := strscpy (CString.zero _) "/usr/".ascii, enabled := 1, matchType := 1 }

theorem patternIsSubset_exact_libraryPattern :
    (∀ text : Bytes, 0 ∉ text → patternMatches libraryPattern text = true →
      patternMatches systemPattern text = true) ∧
    ¬ ∀ text : Bytes, 0 ∉ text → patternMatches systemPattern text = true →
      patternMatches libraryPattern text = true := by
  have hlibrary : libraryPattern.Proper := ⟨by decide, by decide, by decide⟩
  have hsystem : systemPattern.Proper := ⟨by decide, by decide, by decide⟩
  refine ⟨(patternIsSubset_exact _ _ hlibrary).1 (by decide), fun hincluded => ?_⟩
  have hsubset := ((patternIsSubset_exact systemPattern libraryPattern hsystem).2 (by decide)
    (.inr rfl)).mpr hincluded
  exact absurd hsubset (by decide)

theorem patternsMatch_of_covered {count : ℕ} {extra root : List.Vector PatternEntry count}
    (hcovered : ∀ i, patternCovered (extra.get i) root = true) {text : Bytes}
    (hmatch : patternsMatch extra text = true) : patternsMatch root text = true := by
  simp only [patternsMatch, decide_eq_true_eq] at hmatch ⊢
  obtain ⟨i, hi⟩ := hmatch
  have hcover := hcovered i
  simp only [patternCovered, decide_eq_true_eq] at hcover
  rcases hcover with hdisabled | ⟨j, hj⟩
  · simp [patternMatches, hdisabled] at hi
  · exact ⟨j, patternMatches_of_isSubset hj hi⟩

/-! ## Accepted extensions -/

/-- What `validate_extension` asks for. -/
structure ExtensionOf (root extra : PolicySnapshot) : Prop where
  enabled : root.config.enabled ≤ extra.config.enabled
  filterFlags : Bits.Subset extra.config.filterFlags root.config.filterFlags
  actionFlags : Bits.Subset root.config.actionFlags extra.config.actionFlags
  minFileSize : extra.config.minFileSize ≤ root.config.minFileSize
  maxPathDepth : root.config.maxPathDepth ≤ extra.config.maxPathDepth
  logLevel : root.config.logLevel ≤ extra.config.logLevel
  historyMaxSize : extra.config.merkleHistoryMaxSize = root.config.merkleHistoryMaxSize
  historyScope : extra.config.merkleHistoryScope = root.config.merkleHistoryScope
  hooks : ∀ i, Bits.Subset (root.hooks.get i).flags (extra.hooks.get i).flags
  cgroups : ∀ i, patternCovered (extra.cgroups.get i) root.cgroups = true
  paths : ∀ i, patternCovered (extra.paths.get i) root.paths = true

theorem ExtensionOf.of_valid {root extra : PolicySnapshot} (h : validateExtension root extra = 0) :
    ExtensionOf root extra := by
  unfold validateExtension at h
  obtain ⟨hconfig, h⟩ := Machine.check_passed h (by decide)
  obtain ⟨hhooks, h⟩ := Machine.check_passed h (by decide)
  obtain ⟨hpatterns, -⟩ := Machine.check_passed h (by decide)
  simp only [not_or, UInt8.not_lt, UInt32.not_lt, gt_iff_lt, ne_eq, not_not, not_exists]
    at hconfig hhooks hpatterns
  obtain ⟨h1, h2, h3, h4, h5, h6, h7, h8⟩ := hconfig
  exact ⟨h1, h2, h3, h4, h5, h6, h7, h8, hhooks, hpatterns.1, hpatterns.2⟩

/-- What an accepted extension filters, the root filters. -/
theorem ExtensionOf.filtered {root extra : PolicySnapshot} (h : ExtensionOf root extra)
    {context : PolicyContext} (hfiltered : filtered extra context = true) :
    filtered root context = true := by
  have hflag : ∀ {flag : UInt32}, extra.config.filterFlags &&& flag ≠ 0 →
      root.config.filterFlags &&& flag ≠ 0 := h.filterFlags.and_ne_zero
  have hsize : extra.config.minFileSize.toNat ≤ root.config.minFileSize.toNat :=
    UInt32.le_iff_toNat_le.mp h.minFileSize
  simp only [BpfIma.filtered, Bool.or_eq_true, Bool.and_eq_true, bne_iff_ne, decide_eq_true_eq]
    at hfiltered ⊢
  refine hfiltered.imp (Or.imp (Or.imp (Or.imp (Or.imp (Or.imp ?_ ?_) ?_) ?_) ?_) ?_) ?_
  · exact patternsMatch_of_covered h.cgroups
  · exact patternsMatch_of_covered h.paths
  · exact And.imp_left hflag
  · exact And.imp_left hflag
  · exact And.imp_left hflag
  · exact And.imp_left hflag
  · refine And.imp_right (Or.imp (Or.imp (Or.imp ?_ ?_) ?_) ?_)
    · exact fun ⟨hsmall, hlt⟩ => ⟨hflag hsmall, lt_of_lt_of_le hlt hsize⟩
    · exact And.imp_left hflag
    · exact And.imp_left hflag
    · exact And.imp_left hflag

theorem or_eq_of_le_one {a b : UInt8} (hab : a ≤ b) (hb : b ≤ 1) : a ||| b = b := by
  have hcases : ∀ c : UInt8, c ≤ 1 → c = 0 ∨ c = 1 := by
    intro c hc
    have hnat := UInt8.le_iff_toNat_le.mp hc
    rcases Nat.le_one_iff_eq_zero_or_eq_one.mp hnat with h | h
    · exact .inl (UInt8.toNat_inj.mp h)
    · exact .inr (UInt8.toNat_inj.mp h)
  rcases hcases a (UInt8.le_trans hab hb) with rfl | rfl <;> rcases hcases b hb with rfl | rfl
  · rfl
  · rfl
  · exact absurd hab (by decide)
  · rfl

/-- The merged configuration is the extension's own. -/
theorem ExtensionOf.mergeConfig_eq {root extra : PolicySnapshot} (h : ExtensionOf root extra)
    {rootInput extraInput : PolicySnapshot} (hroot : normalizeSnapshot rootInput = .ok root)
    (hextra : normalizeSnapshot extraInput = .ok extra) :
    mergeConfig root.config (some extra.config) = extra.config := by
  obtain ⟨-, rfl⟩ := normalizeSnapshot_eq_ok.mp hroot
  obtain ⟨haccepted, rfl⟩ := normalizeSnapshot_eq_ok.mp hextra
  have henabled := or_eq_of_le_one h.enabled haccepted.config.1
  have hmin : ∀ {a b : UInt32}, a ≤ b → (if a < b then a else b) = a := by
    intro a b hab
    split
    · rfl
    · rename_i hlt
      exact UInt32.le_antisymm (UInt32.not_lt.mp hlt) hab
  have hmax : ∀ {a b : UInt32}, b ≤ a → (if a > b then a else b) = a := by
    intro a b hab
    split
    · rfl
    · rename_i hlt
      exact UInt32.le_antisymm hab (UInt32.not_lt.mp hlt)
  simp only [mergeConfig, henabled, h.filterFlags.and_eq, h.actionFlags.or_eq, hmin h.minFileSize,
    hmax h.maxPathDepth, hmax h.logLevel, ← h.historyMaxSize, ← h.historyScope]
  rfl

/-- The map with `root` as the only record of its active state. -/
def BpfMap.withOnlyRoot (root : PolicySnapshot) (map : BpfMap) : BpfMap :=
  let state := map.slots.get (stateSlot map.generation)
  { map with
    slots := map.slots.set (stateSlot map.generation)
      ({ state with namespaceCount := 0 }.setRecord 0
        { state.records.get 0 with snapshot := root }) }

theorem BpfMap.active_withOnlyRoot (root : PolicySnapshot) {map : BpfMap} (h : map.generation ≠ 0) :
    (map.withOnlyRoot root).active =
      { map.active with namespaceCount := 0 }.setRecord 0
        { map.active.records.get 0 with snapshot := root } := by
  have hgeneration : (map.withOnlyRoot root).generation = map.generation := by
    rw [BpfMap.generation, BpfMap.withOnlyRoot, List.Vector.get_set_of_ne (stateSlot_ne_zero _)]
    rfl
  simp only [BpfMap.active, activeState, hgeneration, h, if_false, Option.getD_some]
  simp [BpfMap.withOnlyRoot]

/-- The decision under an accepted extension is the one that the extension makes alone. -/
theorem ExtensionOf.resolveSnapshots_eq {root extra : PolicySnapshot} (h : ExtensionOf root extra)
    (hconfig : mergeConfig root.config (some extra.config) = extra.config) (generation : UInt64)
    (context : PolicyContext) :
    resolveSnapshots generation root (some extra) context =
      resolveSnapshots generation extra none context := by
  have hflags := (h.hooks (Fin.ofNat hookMax context.hook.toNat)).or_eq
  have hfiltered : (BpfIma.filtered root context && BpfIma.filtered extra context) =
      BpfIma.filtered extra context := by
    cases hextra : BpfIma.filtered extra context with
    | false => simp
    | true => simp [h.filtered hextra]
  simp only [resolveSnapshots, Option.map_some, Option.map_none, Option.getD_some, Option.getD_none,
    hconfig, hflags, hfiltered, UInt32.or_zero, Bool.and_true]
  rfl

theorem generation_ne_zero_of_index {map : BpfMap} {id : Option Bytes}
    {index : Fin (policyNamespaces + 1)} (hindex : namespaceIndex map.active id = some index)
    (hne : index ≠ 0) : map.generation ≠ 0 := by
  intro hzero
  have hactive : map.active = .zero := by simp [BpfMap.active, activeState, hzero]
  rw [hactive] at hindex
  exact hne (namespaceIndex_of_count_zero rfl hindex)

/-- An accepted extension filters nothing that the root keeps, and its namespace is decided
on as if the extension were the root policy itself. -/
theorem accepted_extension_takes_effect (rootInput extraInput root extra : PolicySnapshot)
    (hroot : normalizeSnapshot rootInput = .ok root)
    (hextra : normalizeSnapshot extraInput = .ok extra)
    (hvalid : validateExtension root extra = 0) :
    (∀ context, filtered extra context = true → filtered root context = true) ∧
      ∀ (s : KernelState) (m : ℕ) (context : PolicyContext) (index : Fin (policyNamespaces + 1)),
        s.policyMap = some m → context.wellFormed →
        ((s.maps m).active.records.get 0).snapshot = root →
        namespaceIndex (s.maps m).active (some (cstr context.namespaceId)) = some index →
        index ≠ 0 →
        ((s.maps m).active.records.get index).snapshot = extra →
        ∃ result alone, policyResolveContext context s = .ok result ∧
          policyResolveContext context (s.setMap m ((s.maps m).withOnlyRoot extra)) = .ok alone ∧
          result.config = alone.config ∧ result.hook = alone.hook ∧ result.skip = alone.skip := by
  have hextension := ExtensionOf.of_valid hvalid
  refine ⟨fun context => hextension.filtered, ?_⟩
  intro s m context index hbound hcontext hrecord hindex hne hstored
  have hgeneration := generation_ne_zero_of_index hindex hne
  refine ⟨_, _, policyResolveContext_of_wellFormed hcontext hbound,
    policyResolveContext_of_wellFormed hcontext hbound, ?_⟩
  have hresult : resolveState (s.maps m).active context =
      resolveSnapshots (s.maps m).active.generation extra none context := by
    rw [← hextension.resolveSnapshots_eq (hextension.mergeConfig_eq hroot hextra)]
    simp only [resolveState, hindex, hne, if_false, hrecord, hstored]
  rw [hresult, KernelState.setMap_maps_self, BpfMap.active_withOnlyRoot extra hgeneration,
    resolveState_of_count_zero rfl]
  simp only [PolicyState.setRecord, List.Vector.get_set_same, and_self]

/-- The manager with the record of `verboseRequest`. -/
def extendedManager : KernelState :=
  kernelRun referencePlatform (fun _ => unboundPolicyMap) 10
    [.policyBindMap workingBind, .policyApply workingApply (some verboseRequest)]

theorem accepted_extension_takes_effect_verboseRequest :
    validateExtension initDefaultSnapshot verboseRequest.record.snapshot = 0 ∧
      ∃ result alone, policyResolveContext executionContext extendedManager = .ok result ∧
        policyResolveContext executionContext (extendedManager.setMap 0
          ((extendedManager.maps 0).withOnlyRoot verboseRequest.record.snapshot)) = .ok alone ∧
        result.config = alone.config ∧ result.hook = alone.hook ∧ result.skip = alone.skip := by
  have hroot : normalizeSnapshot initDefaultSnapshot = .ok initDefaultSnapshot := by decide +kernel
  have hextra : normalizeSnapshot verboseRequest.record.snapshot =
      .ok verboseRequest.record.snapshot := by decide +kernel
  have hvalid : validateExtension initDefaultSnapshot verboseRequest.record.snapshot = 0 := by
    decide +kernel
  have hstate : extendedManager.policyMap = some 0 ∧ executionContext.wellFormed ∧
      ((extendedManager.maps 0).active.records.get 0).snapshot = initDefaultSnapshot ∧
      namespaceIndex (extendedManager.maps 0).active (some (cstr executionContext.namespaceId)) =
        some 1 ∧
      ((extendedManager.maps 0).active.records.get 1).snapshot =
        verboseRequest.record.snapshot := by
    decide +kernel
  obtain ⟨hbound, hcontext, hrecord, hindex, hstored⟩ := hstate
  exact ⟨hvalid, (accepted_extension_takes_effect initDefaultSnapshot verboseRequest.record.snapshot
    initDefaultSnapshot verboseRequest.record.snapshot hroot hextra hvalid).2 extendedManager 0
    executionContext 1 hbound hcontext hrecord hindex (by decide) hstored⟩

end BpfIma
