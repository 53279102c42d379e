import BpfIma.Verification.Policy.Coverage

/-! # Rebasing an extension

`rebase_extension` puts the additions of a namespace over the current root. Whatever the
root was when the record was stored, the result is an extension that the manager accepts,
and a record that is one already is left as it is. -/

namespace BpfIma

open CString Errno

/-! ## The check of an extension -/

theorem validateExtension_eq_zero_iff {root extra : PolicySnapshot} :
    validateExtension root extra = 0 ↔ ExtensionOf root extra := by
  constructor
  · exact ExtensionOf.of_valid
  · intro h
    have hconfig : ¬ (extra.config.enabled < root.config.enabled ∨
        extra.config.filterFlags &&& ~~~root.config.filterFlags ≠ 0 ∨
        root.config.actionFlags &&& ~~~extra.config.actionFlags ≠ 0 ∨
        extra.config.minFileSize > root.config.minFileSize ∨
        extra.config.maxPathDepth < root.config.maxPathDepth ∨
        extra.config.logLevel < root.config.logLevel ∨
        extra.config.merkleHistoryMaxSize ≠ root.config.merkleHistoryMaxSize ∨
        extra.config.merkleHistoryScope ≠ root.config.merkleHistoryScope) := by
      simp only [not_or, UInt8.not_lt, UInt32.not_lt, gt_iff_lt, ne_eq, not_not]
      exact ⟨h.enabled, h.filterFlags, h.actionFlags, h.minFileSize, h.maxPathDepth, h.logLevel,
        h.historyMaxSize, h.historyScope⟩
    have hhooks : ¬ ∃ i, (root.hooks.get i).flags &&& ~~~(extra.hooks.get i).flags ≠ 0 := by
      rintro ⟨i, hi⟩
      exact hi (h.hooks i)
    rw [validateExtension, if_neg hconfig, if_neg hhooks,
      if_neg (not_not.mpr ⟨h.cgroups, h.paths⟩)]

theorem validateExtension_of_not {root extra : PolicySnapshot} (h : ¬ ExtensionOf root extra) :
    validateExtension root extra = -eperm := by
  have hne : validateExtension root extra ≠ 0 := mt validateExtension_eq_zero_iff.mp h
  unfold validateExtension at hne ⊢
  split
  · rfl
  · rename_i hconfig
    split
    · rfl
    · rename_i hhooks
      split
      · rfl
      · rename_i hpatterns
        rw [if_neg hconfig, if_neg hhooks, if_neg hpatterns] at hne
        exact absurd rfl hne

/-! ## A snapshot extends itself -/

theorem patternIsSubset_self {entry : PatternEntry} (h : entry.accepted)
    (hlive : entry.enabled ≠ 0) : patternIsSubset entry entry = true := by
  obtain ⟨-, htype, -, -, hpattern⟩ := h
  have htext : cstr entry.pattern ≠ [] := fun hnil => hpattern hlive ((cstr_eq_nil_iff _).mp hnil)
  have hcases : entry.matchType.toNat ≤ 3 := UInt8.le_iff_toNat_le.mp htype
  rw [patternIsSubset, if_neg hlive, if_neg hlive]
  by_cases hexact : entry.matchType = 0
  · rw [if_pos hexact, patternMatches, if_neg (not_or.mpr ⟨hlive, htext⟩), hexact]
    exact beq_self_eq_true _
  · have hne : entry.matchType.toNat ≠ 0 := fun hzero => hexact (UInt8.toNat_inj.mp hzero)
    have htypes : entry.matchType.toNat = 1 ∨ entry.matchType.toNat = 2 ∨
        entry.matchType.toNat = 3 := by
      generalize entry.matchType.toNat = n at hcases hne ⊢
      omega
    rw [if_neg hexact, if_pos rfl]
    -- Prefix, suffix and infix are reflexive.
    rcases htypes with hn | hn | hn <;> simp only [hn]
    · exact (strncmp_length_iff _ _).mpr List.prefix_rfl
    · simp
    · exact (strstr_isSome _ _).mpr List.infix_rfl

theorem patternCovered_self {count : ℕ} {patterns : List.Vector PatternEntry count}
    (h : ∀ i, (patterns.get i).accepted) (i : Fin count) :
    patternCovered (patterns.get i) patterns = true := by
  rw [patternCovered, decide_eq_true_eq]
  by_cases hlive : (patterns.get i).enabled = 0
  · exact .inl hlive
  · exact .inr ⟨i, patternIsSubset_self (h i) hlive⟩

theorem ExtensionOf.refl {root : PolicySnapshot} (h : root.Accepted) : ExtensionOf root root :=
  ⟨UInt8.le_refl _, .refl _, .refl _, UInt32.le_refl _, UInt32.le_refl _, UInt32.le_refl _, rfl,
    rfl, fun _ => .refl _, patternCovered_self h.cgroups, patternCovered_self h.paths⟩

/-! ## Rebased extensions -/

theorem mergeConfig_bounded {root extra : PolicyConfig} {depth level : UInt32}
    (hroot : root.maxPathDepth ≤ depth ∧ root.logLevel ≤ level)
    (hextra : extra.maxPathDepth ≤ depth ∧ extra.logLevel ≤ level) :
    (mergeConfig root (some extra)).maxPathDepth ≤ depth ∧
      (mergeConfig root (some extra)).logLevel ≤ level := by
  refine ⟨?_, ?_⟩ <;> simp only [mergeConfig] <;> split
  · exact hextra.1
  · exact hroot.1
  · exact hextra.2
  · exact hroot.2

theorem patternCovered_rebased {count : ℕ} (entry : PatternEntry)
    (base : List.Vector PatternEntry count) :
    patternCovered (if patternCovered entry base then entry else .zero) base = true := by
  split
  · assumption
  · rw [patternCovered, decide_eq_true_eq]
    exact .inl rfl

theorem ExtensionOf.rebase (root snapshot : PolicySnapshot) :
    ExtensionOf root (rebaseExtension root snapshot) := by
  obtain ⟨hdepth, hlevel, hsize⟩ := mergeConfig_some_bounds root.config snapshot.config
  refine ⟨UInt8.left_le_or, Bits.and_subset_left _ _, Bits.subset_or_left _ _, hsize, hdepth,
    hlevel, rfl, rfl, ?_, ?_, ?_⟩
  · intro i
    simp only [rebaseExtension, List.Vector.get_ofFn]
    rw [UInt32.or_comm]
    exact Bits.subset_or_left _ _
  · intro i
    simp only [rebaseExtension, List.Vector.get_map]
    exact patternCovered_rebased _ _
  · intro i
    simp only [rebaseExtension, List.Vector.get_map]
    exact patternCovered_rebased _ _

/-- A snapshot that normalisation accepts and leaves as it is, part by part. -/
theorem normalizeSnapshot_self_iff {snapshot : PolicySnapshot} :
    normalizeSnapshot snapshot = .ok snapshot ↔
      snapshot.Accepted ∧ snapshot.config.normalize = snapshot.config ∧
        (∀ i, (snapshot.cgroups.get i).normalize = snapshot.cgroups.get i) ∧
        (∀ i, (snapshot.paths.get i).normalize = snapshot.paths.get i) ∧
        ∀ i, (snapshot.hooks.get i).normalize = snapshot.hooks.get i := by
  rw [normalizeSnapshot_eq_ok]
  refine and_congr_right fun _ => ?_
  cases snapshot
  simp only [PolicySnapshot.normalize, PolicySnapshot.mk.injEq, map_eq_self_iff]

theorem PatternEntry.rebased {count : ℕ} {entry : PatternEntry}
    (base : List.Vector PatternEntry count) (haccepted : entry.accepted)
    (hnormal : entry.normalize = entry) :
    (if patternCovered entry base then entry else .zero).accepted ∧
      (if patternCovered entry base then entry else .zero).normalize =
        if patternCovered entry base then entry else .zero := by
  split
  · exact ⟨haccepted, hnormal⟩
  · exact ⟨by decide, by decide⟩

theorem or_le_one {a b : UInt8} (ha : a ≤ 1) (hb : b ≤ 1) : a ||| b ≤ 1 := by
  rcases UInt8.le_total a b with hab | hba
  · rw [or_eq_of_le_one hab hb]
    exact hb
  · rw [UInt8.or_comm, or_eq_of_le_one hba ha]
    exact ha

theorem PolicyConfig.merged {root extra : PolicyConfig} (hroot : root.accepted)
    (hextra : extra.accepted) (hnormal : root.normalize = root) :
    (mergeConfig root (some extra)).accepted ∧
      (mergeConfig root (some extra)).normalize = mergeConfig root (some extra) := by
  obtain ⟨renabled, rfilter, raction, rrequired, rlevel, rdepth, rscope, rreserved⟩ := hroot
  obtain ⟨eenabled, -, eaction, erequired, elevel, edepth, -, -⟩ := hextra
  obtain ⟨hdepth, hlevel⟩ := mergeConfig_bounded ⟨rdepth, rlevel⟩ ⟨edepth, elevel⟩
  have hfilter : (root.filterFlags &&& extra.filterFlags) &&& ~~~0xff = 0 := by
    rw [UInt32.and_comm root.filterFlags, UInt32.and_assoc, rfilter, UInt32.and_zero]
  have hrequired : (root.actionFlags ||| extra.actionFlags) &&& requiredActions =
      requiredActions := by
    rw [Bits.or_and, rrequired, erequired, UInt32.or_self]
  refine ⟨⟨or_le_one renabled eenabled, hfilter, Bits.Subset.or raction eaction, hrequired, hlevel,
    hdepth, rscope, rreserved⟩, ?_⟩
  rw [← hnormal]
  rfl

theorem HookConfig.rebased {hook : HookConfig} {flags : UInt32} (haccepted : hook.accepted)
    (hflags : flags &&& ~~~7 = 0) :
    { hook with flags := hook.flags ||| flags }.accepted ∧
      { hook with flags := hook.flags ||| flags }.normalize =
        { hook with flags := hook.flags ||| flags } := by
  obtain ⟨hown, hfilter, haction, hreserved⟩ := haccepted
  refine ⟨⟨Bits.Subset.or hown hflags, hfilter, haction, hreserved⟩, ?_⟩
  cases hook
  simp_all [HookConfig.normalize, HookConfig.zero]

/-- Normal snapshots rebase to a normal one. -/
theorem normalizeSnapshot_rebase {root snapshot : PolicySnapshot}
    (hroot : normalizeSnapshot root = .ok root)
    (hsnapshot : normalizeSnapshot snapshot = .ok snapshot) :
    normalizeSnapshot (rebaseExtension root snapshot) = .ok (rebaseExtension root snapshot) := by
  obtain ⟨hr, hrconfig, -⟩ := normalizeSnapshot_self_iff.mp hroot
  obtain ⟨he, -, hcgroups, hpaths, -⟩ := normalizeSnapshot_self_iff.mp hsnapshot
  obtain ⟨hconfig, hconfig'⟩ := PolicyConfig.merged hr.config he.config hrconfig
  have hcgroup := fun i => PatternEntry.rebased root.cgroups (he.cgroups i) (hcgroups i)
  have hpath := fun i => PatternEntry.rebased root.paths (he.paths i) (hpaths i)
  have hhook := fun i => HookConfig.rebased (he.hooks i) (hr.hooks i).1
  rw [normalizeSnapshot_self_iff]
  refine ⟨⟨?_, hconfig, ?_, ?_, ?_⟩, hconfig', ?_, ?_, ?_⟩
  · simp only [rebaseExtension, mergeConfig]
    rw [Bits.or_and, hr.supported, he.supported, UInt32.or_zero]
  all_goals
    intro i
    simp only [rebaseExtension, List.Vector.get_map, List.Vector.get_ofFn]
  · exact (hcgroup i).1
  · exact (hpath i).1
  · exact (hhook i).1
  · exact (hcgroup i).2
  · exact (hpath i).2
  · exact (hhook i).2

/-- An extension of the root is what it rebases to. -/
theorem ExtensionOf.rebase_eq {root extra : PolicySnapshot} (h : ExtensionOf root extra)
    (hroot : normalizeSnapshot root = .ok root) (hextra : normalizeSnapshot extra = .ok extra) :
    rebaseExtension root extra = extra := by
  have hpatterns {count : ℕ} {patterns base : List.Vector PatternEntry count}
      (hcovered : ∀ i, patternCovered (patterns.get i) base = true) :
      patterns.map (fun entry => if patternCovered entry base then entry else .zero) =
        patterns := by
    refine List.Vector.ext fun i => ?_
    rw [List.Vector.get_map, if_pos (hcovered i)]
  have hhooks : List.Vector.ofFn (fun i => { extra.hooks.get i with
      flags := (extra.hooks.get i).flags ||| (root.hooks.get i).flags }) = extra.hooks := by
    refine List.Vector.ext fun i => ?_
    rw [List.Vector.get_ofFn, UInt32.or_comm, (h.hooks i).or_eq]
  rw [rebaseExtension, h.mergeConfig_eq hroot hextra, hpatterns h.cgroups, hpatterns h.paths,
    hhooks]

end BpfIma
