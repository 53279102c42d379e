import BpfIma.Verification.Policy.Store
import BpfIma.Verification.Policy.Success

/-! # Normal forms of snapshots

`normalize_snapshot` keeps what a snapshot decides and nothing else, so that comparing two
normal snapshots byte by byte compares their meaning. Applying a request twice is therefore
applying it once. -/

namespace BpfIma

open CString Errno

/-! ## What a snapshot says -/

/-- The same values in all fields, whatever the padding is. -/
structure PolicyConfig.Agree (a b : PolicyConfig) : Prop where
  enabled : a.enabled = b.enabled
  filterFlags : a.filterFlags = b.filterFlags
  actionFlags : a.actionFlags = b.actionFlags
  minFileSize : a.minFileSize = b.minFileSize
  maxPathDepth : a.maxPathDepth = b.maxPathDepth
  logLevel : a.logLevel = b.logLevel
  merkleHistoryMaxSize : a.merkleHistoryMaxSize = b.merkleHistoryMaxSize
  merkleHistoryScope : a.merkleHistoryScope = b.merkleHistoryScope
  reserved : a.reserved = b.reserved

/-- Both disabled, or the same pattern. -/
structure PatternEntry.Agree (a b : PatternEntry) : Prop where
  enabled : a.enabled = b.enabled
  pattern : a.enabled ≠ 0 → cstr a.pattern = cstr b.pattern
  matchType : a.enabled ≠ 0 → a.matchType = b.matchType

/-- Two snapshots that say the same. -/
structure PolicySnapshot.Agree (a b : PolicySnapshot) : Prop where
  config : a.config.Agree b.config
  cgroups : ∀ i, (a.cgroups.get i).Agree (b.cgroups.get i)
  paths : ∀ i, (a.paths.get i).Agree (b.paths.get i)
  hookFlags : ∀ i, (a.hooks.get i).flags = (b.hooks.get i).flags

/-! ## Normalisation keeps it -/

theorem PolicyConfig.normalize_agree {config : PolicyConfig} (h : config.accepted) :
    config.normalize.Agree config :=
  ⟨rfl, rfl, rfl, rfl, rfl, rfl, rfl, rfl, h.2.2.2.2.2.2.2.symm⟩

theorem PatternEntry.normalize_agree {entry : PatternEntry} (h : entry.accepted) :
    entry.normalize.Agree entry := by
  obtain ⟨henabled, -, -, hterminated, -⟩ := h
  by_cases hlive : entry.enabled = 0
  · have hzero : entry.normalize = .zero := if_neg (not_not.mpr hlive)
    rw [hzero]
    exact ⟨hlive.symm, fun hne => absurd rfl hne, fun hne => absurd rfl hne⟩
  · have hone : entry.enabled = 1 := by
      rcases Nat.le_one_iff_eq_zero_or_eq_one.mp (UInt8.le_iff_toNat_le.mp henabled) with h | h
      · exact absurd (UInt8.toNat_inj.mp h) hlive
      · exact UInt8.toNat_inj.mp h
    rw [PatternEntry.normalize, if_pos hlive]
    refine ⟨hone.symm, fun _ => ?_, fun _ => rfl⟩
    exact cstr_strscpy (length_cstr_lt hterminated) (zero_notMem_cstr _)

theorem PolicySnapshot.normalize_agree {input : PolicySnapshot} (h : input.Accepted) :
    input.normalize.Agree input := by
  refine ⟨PolicyConfig.normalize_agree h.config, fun i => ?_, fun i => ?_, fun i => ?_⟩
  · rw [PolicySnapshot.normalize, List.Vector.get_map]
    exact PatternEntry.normalize_agree (h.cgroups i)
  · rw [PolicySnapshot.normalize, List.Vector.get_map]
    exact PatternEntry.normalize_agree (h.paths i)
  · rw [PolicySnapshot.normalize, List.Vector.get_map]
    rfl

/-- A pattern matches by what it says. -/
theorem PatternEntry.Agree.patternMatches {a b : PatternEntry} (h : a.Agree b) (text : Bytes) :
    patternMatches a text = patternMatches b text := by
  by_cases hlive : a.enabled = 0
  · have hlive' : b.enabled = 0 := h.enabled ▸ hlive
    simp [BpfIma.patternMatches, hlive, hlive']
  · simp only [BpfIma.patternMatches, h.enabled, h.pattern hlive, h.matchType hlive]

theorem patternsMatch_of_agree {count : ℕ} {a b : List.Vector PatternEntry count}
    (h : ∀ i, (a.get i).Agree (b.get i)) (text : Bytes) :
    patternsMatch a text = patternsMatch b text := by
  simp only [patternsMatch, (h _).patternMatches text]

theorem PolicySnapshot.Agree.filtered {a b : PolicySnapshot} (h : a.Agree b)
    (context : PolicyContext) : filtered a context = filtered b context := by
  simp only [BpfIma.filtered, patternsMatch_of_agree h.cgroups, patternsMatch_of_agree h.paths,
    h.config.filterFlags, h.config.minFileSize]

/-! ## Normal forms are equal when they say the same -/

theorem PolicyConfig.normalize_eq_iff {a b : PolicyConfig} (ha : a.accepted) (hb : b.accepted) :
    a.normalize = b.normalize ↔ a.Agree b := by
  constructor
  · intro h
    simp only [PolicyConfig.normalize, PolicyConfig.mk.injEq] at h
    obtain ⟨h1, -, h2, h3, h4, h5, h6, h7, h8, -, -⟩ := h
    exact ⟨h1, h2, h3, h4, h5, h6, h7, h8,
      ha.2.2.2.2.2.2.2.trans hb.2.2.2.2.2.2.2.symm⟩
  · rintro ⟨h1, h2, h3, h4, h5, h6, h7, h8, -⟩
    simp only [PolicyConfig.normalize, h1, h2, h3, h4, h5, h6, h7, h8]

theorem PatternEntry.normalize_eq_iff {a b : PatternEntry} (ha : a.accepted) (hb : b.accepted) :
    a.normalize = b.normalize ↔ a.Agree b := by
  constructor
  · intro h
    have hagree := (PatternEntry.normalize_agree hb)
    rw [← h] at hagree
    have hself := PatternEntry.normalize_agree ha
    have henabled : a.enabled = b.enabled := hself.enabled.symm.trans hagree.enabled
    refine ⟨henabled, fun hlive => ?_, fun hlive => ?_⟩
    · rw [← hself.pattern (by rwa [hself.enabled]), ← hagree.pattern (by rwa [hself.enabled])]
    · rw [← hself.matchType (by rwa [hself.enabled]), ← hagree.matchType (by rwa [hself.enabled])]
  · intro h
    by_cases hlive : a.enabled = 0
    · rw [PatternEntry.normalize, PatternEntry.normalize, if_neg (not_not.mpr hlive),
        if_neg (not_not.mpr (h.enabled ▸ hlive))]
    · rw [PatternEntry.normalize, PatternEntry.normalize, if_pos hlive,
        if_pos (h.enabled ▸ hlive), h.pattern hlive, h.matchType hlive]

theorem HookConfig.normalize_eq_iff {a b : HookConfig} :
    a.normalize = b.normalize ↔ a.flags = b.flags := by
  simp [HookConfig.normalize]

theorem map_eq_map_iff {α β : Type*} {n : ℕ} {f : α → β} {v w : List.Vector α n} :
    v.map f = w.map f ↔ ∀ i, f (v.get i) = f (w.get i) := by
  constructor
  · intro h i
    have hi := congrArg (fun x => x.get i) h
    simpa only [List.Vector.get_map] using hi
  · intro h
    refine List.Vector.ext fun i => ?_
    rw [List.Vector.get_map, List.Vector.get_map, h i]

theorem PolicySnapshot.normalize_eq_iff {a b : PolicySnapshot} (ha : a.Accepted)
    (hb : b.Accepted) : a.normalize = b.normalize ↔ a.Agree b := by
  simp only [PolicySnapshot.normalize, PolicySnapshot.mk.injEq, map_eq_map_iff,
    PolicyConfig.normalize_eq_iff ha.config hb.config,
    PatternEntry.normalize_eq_iff (ha.cgroups _) (hb.cgroups _),
    PatternEntry.normalize_eq_iff (ha.paths _) (hb.paths _), HookConfig.normalize_eq_iff]
  constructor
  · intro h
    exact ⟨h.1, h.2.1, h.2.2.1, h.2.2.2⟩
  · intro h
    exact ⟨h.config, h.cgroups, h.paths, h.hookFlags⟩

/-! ## A request that was applied -/

/-- How an update that returned zero came to that: the policy held the snapshot already, or it
was published. -/
theorem applyLocked_eq_zero {P : Platform} {env : ApplyEnv} {request : PolicyRequest}
    {s t : KernelState} {m : ℕ} (hbound : s.policyMap = some m)
    (h : applyLocked P env request s = (0, t)) :
    s.engine.commitError = 0 ∧ ∃ snapshot candidate index metadata namespaces,
      Acceptable (s.maps m).active (cstr request.record.namespaceId) request.record.snapshot
        snapshot candidate index ∧
      AuditedIn namespaces (cstr request.record.namespaceId) index metadata ∧
      ((s.maps m).active.Holds index snapshot ∧ t = { s with policyNamespaceList := namespaces } ∨
        ∃ engine, (s.maps m).generation + 1 ≠ 0 ∧ CommittedFrom s.engine engine ∧
          t = publishedState P { s with policyNamespaceList := namespaces } m candidate index
            metadata engine) := by
  have hpublished {candidate : PolicyState} {index : Fin (policyNamespaces + 1)}
      {metadata : Option ℕ} {namespaces : List PolicyNamespace}
      (hpublish : publishPolicyLocked P env.publish { s with policyNamespaceList := namespaces } m
        candidate index metadata = (0, t)) :
      ∃ engine, (s.maps m).generation + 1 ≠ 0 ∧ CommittedFrom s.engine engine ∧
        t = publishedState P { s with policyNamespaceList := namespaces } m candidate index
          metadata engine := by
    have heffect := publishPolicyLocked_effect P env.publish
      { s with policyNamespaceList := namespaces } m candidate index metadata
    rw [hpublish] at heffect
    cases heffect with
    | refused hne | notCommitted _ hne => exact absurd rfl hne
    | published engine hgeneration hcommit => exact ⟨engine, hgeneration, .of_call hcommit, rfl⟩
  unfold applyLocked at h
  split at h
  · rename_i hnone
    cases hnone.symm.trans hbound
  · rename_i m' hbound'
    obtain rfl := Option.some.inj (hbound'.symm.trans hbound)
    by_cases hcheck : (commitCheckLocked env.available s.engine).1 = 0
    · obtain ⟨hunlatched, hstate⟩ := commitCheckLocked_zero hcheck
      refine ⟨hunlatched, ?_⟩
      have hfails {ret : Ret} {u : KernelState} (hret : ret ≠ 0) : (ret, u) ≠ (0, t) :=
        fun heq => hret (congrArg Prod.fst heq)
      simp only [hcheck, hstate, ne_eq, not_true_eq_false, if_false] at h
      obtain ⟨-, h⟩ := Machine.check_passed h (hfails (by decide))
      obtain ⟨-, h⟩ := Machine.check_passed h (hfails (by decide))
      cases hcandidate : candidateFor (s.maps m').active (cstr request.record.namespaceId) with
      | none =>
          rw [hcandidate] at h
          exact absurd h (hfails (by decide))
      | some found =>
          obtain ⟨candidate, index⟩ := found
          rw [hcandidate] at h
          simp only at h
          cases hnormal : normalizeSnapshot request.record.snapshot with
          | error ret =>
              rw [hnormal] at h
              exact absurd h (hfails (normalizeSnapshot_error hnormal))
          | ok snapshot =>
              have hof := candidateFor_some hcandidate snapshot
              rw [hnormal] at h
              simp only at h
              generalize candidate.setRecord index
                { candidate.records.get index with snapshot := snapshot } = next at hof h
              by_cases hroot : index = 0
              · subst hroot
                simp only [if_true, not_true_eq_false, if_false] at h
                refine ⟨snapshot, next, 0, none, s.policyNamespaceList, ⟨hnormal, hof, absurd rfl⟩,
                  .inl ⟨rfl, rfl⟩, ?_⟩
                split at h
                · rename_i hholds
                  exact .inl ⟨hholds, (congrArg Prod.snd h).symm⟩
                · exact .inr (hpublished h)
              · simp only [hroot, if_false] at h
                have hvalid : validateExtension (next.records.get 0).snapshot snapshot = 0 := by
                  by_contra hinvalid
                  rw [if_pos hinvalid] at h
                  exact hfails hinvalid h
                simp only [hvalid, not_true_eq_false, if_false] at h
                rcases policyNamespaceGetLocked_spec env.metadataAlloc
                    (cstr request.record.namespaceId) s with
                  ⟨ret, hret, hget⟩ | ⟨i, namespaces, entry, -, hentry, hid, hget⟩
                · simp only [hget, Except.map] at h
                  exact absurd h (hfails hret)
                · simp only [hget, Except.map] at h
                  refine ⟨snapshot, next, index, some i, namespaces,
                    ⟨hnormal, hof, fun _ => .of_valid hvalid⟩,
                    .inr ⟨hroot, i, entry, rfl, hentry, hid (zero_notMem_cstr _)⟩, ?_⟩
                  split at h
                  · rename_i hholds
                    exact .inl ⟨hholds, (congrArg Prod.snd h).symm⟩
                  · exact .inr (hpublished h)
    · simp only [ne_eq, hcheck, not_false_eq_true, if_true] at h
      exact absurd (congrArg Prod.fst h) hcheck

/-- The policy in the map at `m` holds the snapshot of the request, and its namespace has audit
metadata. -/
structure Settled (m : ℕ) (request : PolicyRequest) (t : KernelState)
    (index : Fin (policyNamespaces + 1)) (snapshot : PolicySnapshot) : Prop where
  bound : t.policyMap = some m
  normal : normalizeSnapshot request.record.snapshot = .ok snapshot
  found : namespaceIndex (t.maps m).active (some (cstr request.record.namespaceId)) = some index
  stored : ((t.maps m).active.records.get index).snapshot = snapshot
  extension : index ≠ 0 → ExtensionOf ((t.maps m).active.records.get 0).snapshot snapshot
  audited : index ≠ 0 →
    ∃ entry ∈ t.policyNamespaceList, cstr entry.namespaceId = cstr request.record.namespaceId

theorem AuditedIn.exists_entry {namespaces : List PolicyNamespace} {id : Bytes}
    {index : Fin (policyNamespaces + 1)} {metadata : Option ℕ}
    (h : AuditedIn namespaces id index metadata) (hindex : index ≠ 0) :
    ∃ i entry, metadata = some i ∧ namespaces[i]? = some entry ∧ cstr entry.namespaceId = id := by
  rcases h with ⟨hzero, -⟩ | ⟨-, hentry⟩
  · exact absurd hzero hindex
  · exact hentry

/-- After an update that returned zero the policy holds the request. -/
theorem applyLocked_settles {P : Platform} {env : ApplyEnv} {request : PolicyRequest}
    {s t : KernelState} {m : ℕ} (hbound : s.policyMap = some m) (hs : (s.maps m).Published)
    (hname : cstr request.record.namespaceId ≠ [] →
      validNamespace (cstr request.record.namespaceId) = true)
    (h : applyLocked P env request s = (0, t)) :
    t.engine.commitError = 0 ∧ ∃ index snapshot, Settled m request t index snapshot := by
  have hwf := hs.active_wellFormed
  obtain ⟨hunlatched, snapshot, candidate, index, metadata, namespaces, hacceptable, haudited,
    hresult⟩ := applyLocked_eq_zero hbound h
  have hcandidate := hacceptable.replaces
  rcases hresult with ⟨hholds, rfl⟩ | ⟨engine, hgeneration, hcommitted, rfl⟩
  · refine ⟨hunlatched, index, snapshot, hbound, hacceptable.normal, ?_, hholds.2.symm, ?_, ?_⟩
    · cases hcandidate with
      | replaced _ hindex => exact hindex
      | appended hindex hcount =>
          have hval := (PolicyState.Appended.of_count hwf.count hcount
            ⟨strscpy (CString.zero _) (cstr request.record.namespaceId), snapshot⟩).index_val
          have hle := hholds.1
          omega
    · intro hindex
      have hextension := hacceptable.extension hindex
      rwa [(hcandidate.root (hcandidate.id_ne_nil hindex) hwf).2] at hextension
    · intro hindex
      obtain ⟨i, entry, -, hentry, hid⟩ := haudited.exists_entry hindex
      exact ⟨entry, List.mem_of_getElem? hentry, hid⟩
  · have hnormal := normalizeSnapshot_idempotent hacceptable.normal
    have hwf' := hwf.candidate hname hnormal hcandidate
    obtain ⟨hfound, hstored, -⟩ := hcandidate.record hwf hwf' hname
    have hmap := maps_publishedState P { s with policyNamespaceList := namespaces } m candidate
      index metadata engine
    have hactive : ((publishedState P { s with policyNamespaceList := namespaces } m candidate index
        metadata engine).maps m).active = nextCandidate (s.maps m) candidate := by
      rw [hmap]
      exact (s.maps m).active_publish_stage (nextCandidate (s.maps m) candidate) hgeneration
    refine ⟨?_, index, snapshot, ?_, hacceptable.normal, ?_, ?_, ?_, ?_⟩
    · rw [engine_publishedState]
      exact hcommitted.unlatched
    · cases metadata <;> exact hbound
    · rw [hactive, ← hfound]
      exact congrFun (namespaceIndex_congr rfl fun _ => rfl) _
    · rw [hactive]
      exact hstored
    · rw [hactive]
      exact hacceptable.extension
    · intro hindex
      obtain ⟨i, entry, rfl, hentry, hid⟩ := haudited.exists_entry hindex
      refine ⟨PolicyNamespace.append P (policyEvent P (s.maps m) candidate index) entry, ?_, hid⟩
      refine List.mem_of_getElem? (i := i) ?_
      change (namespaces.modify i _)[i]? = _
      rw [List.getElem?_modify_eq, hentry]
      rfl

theorem policyNamespaceGetLocked_found {id : Bytes} (hid : validNamespace id = true) (alloc : Bool)
    {s : KernelState} (h : ∃ entry ∈ s.policyNamespaceList, cstr entry.namespaceId = id) :
    ∃ i, policyNamespaceGetLocked alloc id s = (.ok i, s) := by
  obtain ⟨entry, hentry, hname⟩ := h
  rw [policyNamespaceGetLocked, if_neg (validNamespace_passed hid)]
  cases hfind : findPolicyNamespace s.policyNamespaceList id with
  | some i => exact ⟨i, rfl⟩
  | none =>
      rw [findPolicyNamespace, List.findIdx?_eq_none_iff] at hfind
      have hnot := hfind entry hentry
      rw [hname] at hnot
      simp at hnot

/-- An update with what the policy holds does no more than the commit check. -/
theorem applyLocked_settled {P : Platform} (env : ApplyEnv) {request : PolicyRequest}
    {t : KernelState} {m : ℕ} {index : Fin (policyNamespaces + 1)} {snapshot : PolicySnapshot}
    (hgeneration : request.expectedGeneration = 0)
    (hname : cstr request.record.namespaceId ≠ [] →
      validNamespace (cstr request.record.namespaceId) = true)
    (h : Settled m request t index snapshot) :
    applyLocked P env request t =
      if (commitCheckLocked env.available t.engine).1 ≠ 0 then
        ((commitCheckLocked env.available t.engine).1,
          { t with engine := (commitCheckLocked env.available t.engine).2 })
      else if ¬ env.candidateAlloc then (-enomem, t) else (0, t) := by
  have hcandidate : candidateFor (t.maps m).active (cstr request.record.namespaceId) =
      some ((t.maps m).active, index) := by
    simp [candidateFor, h.found]
  have hholds : index.val ≤ (t.maps m).active.namespaceCount.toNat ∧
      snapshot = ((t.maps m).active.records.get index).snapshot :=
    ⟨index_le_of_found h.found, h.stored.symm⟩
  unfold applyLocked
  split
  · rename_i hnone
    cases hnone.symm.trans h.bound
  · rename_i m' hbound'
    obtain rfl := Option.some.inj (hbound'.symm.trans h.bound)
    by_cases hcheck : (commitCheckLocked env.available t.engine).1 = 0
    · obtain ⟨-, hstate⟩ := commitCheckLocked_zero hcheck
      simp only [hcheck, hstate, hgeneration, ne_eq, not_true_eq_false, false_and, if_false]
      split
      · rfl
      · simp only [hcandidate, h.normal]
        by_cases hroot : index = 0
        · simp only [hroot, if_true, not_true_eq_false, if_false]
          rw [hroot] at hholds
          exact if_pos hholds
        · have hvalid :
              validateExtension ((t.maps m').active.records.get 0).snapshot snapshot = 0 :=
            validateExtension_eq_zero_iff.mpr (h.extension hroot)
          have hne : cstr request.record.namespaceId ≠ [] := by
            intro hempty
            have hfound := h.found
            rw [hempty, namespaceIndex_root] at hfound
            exact hroot (Option.some.inj hfound).symm
          obtain ⟨i, hget⟩ := policyNamespaceGetLocked_found (hname hne) env.metadataAlloc
            (h.audited hroot)
          simp only [hroot, if_false, setRecord_get_of_ne _ _ hroot, hvalid, not_true_eq_false,
            hget, Except.map]
          exact if_pos hholds
    · simp only [ne_eq, hcheck, not_false_eq_true, if_true]

/-- Everything is the same but for a latched error: the maps and the policy in them, the
histories, the audit lists and the TPM. -/
def SameButError (t u : KernelState) : Prop :=
  ∃ error, u = { t with engine := { t.engine with commitError := error } }

/-- Normalisation is canonical: it is idempotent, keeps what the snapshot decides, and gives
equal results for exactly those snapshots that say the same. Applying a request again right
after it succeeded changes nothing but a latched error: if the TPM is as available as the epoch
requires, it returns zero or has no memory for its candidate, and else it latches and returns the
error of the epoch. -/
theorem normalisation_canonical (P : Platform) (maps : ℕ → BpfMap) (tpmPcrIndex : ℤ)
    (ops : List KernelOp) :
    (∀ input out, normalizeSnapshot input = .ok out →
      normalizeSnapshot out = .ok out ∧ (∀ context, filtered out context = filtered input context) ∧
        out.config.Agree input.config ∧
        (∀ i, (out.hooks.get i).flags = (input.hooks.get i).flags) ∧
        ∀ input' out', normalizeSnapshot input' = .ok out' → (out = out' ↔ input.Agree input')) ∧
      ∀ (request : PolicyRequest) (env env' : ApplyEnv) (t : KernelState), request.accepted →
        request.expectedGeneration = 0 →
        policyApply P env (some request) (kernelRun P maps tpmPcrIndex ops) = (0, t) →
        SameButError t (policyApply P env' (some request) t).2 ∧
          (EpochFits env'.available t.engine →
            policyApply P env' (some request) t =
              (if env'.candidateAlloc then 0 else -enomem, t)) ∧
          (¬ EpochFits env'.available t.engine →
            policyApply P env' (some request) t =
              (epochError t.engine,
                { t with engine := { t.engine with commitError := epochError t.engine } })) := by
  refine ⟨?_, ?_⟩
  · intro input out hout
    obtain ⟨haccepted, rfl⟩ := normalizeSnapshot_eq_ok.mp hout
    have hagree := PolicySnapshot.normalize_agree haccepted
    refine ⟨normalizeSnapshot_idempotent hout, hagree.filtered, hagree.config, hagree.hookFlags, ?_⟩
    intro input' out' hout'
    obtain ⟨haccepted', rfl⟩ := normalizeSnapshot_eq_ok.mp hout'
    exact PolicySnapshot.normalize_eq_iff haccepted haccepted'
  · intro request env env' t haccepted hgeneration hfirst
    have hs := PolicyBound.of_run P maps tpmPcrIndex ops
    generalize kernelRun P maps tpmPcrIndex ops = s at hs hfirst
    have hname : cstr request.record.namespaceId ≠ [] →
        validNamespace (cstr request.record.namespaceId) = true :=
      fun hne => haccepted.2.2.2 fun hzero => hne ((cstr_eq_nil_iff _).mpr hzero)
    have hcall (env : ApplyEnv) (u : KernelState) :
        policyApply P env (some request) u = applyLocked P env request u :=
      if_neg (not_not.mpr haccepted)
    rw [hcall] at hfirst
    rw [hcall]
    cases hbound : s.policyMap with
    | none =>
        have hret : (applyLocked P env request s).1 = -enxio := by simp [applyLocked, hbound]
        rw [hfirst] at hret
        exact absurd (show (0 : Ret) = -enxio from hret) (by decide)
    | some m =>
        obtain ⟨hunlatched, index, snapshot, hsettled⟩ :=
          applyLocked_settles hbound (hs m hbound) hname hfirst
        rw [applyLocked_settled env' hgeneration hname hsettled]
        refine ⟨?_, fun hfits => ?_, fun hunfit => ?_⟩
        · split
          · exact ⟨_, rfl⟩
          · split
            · exact ⟨t.engine.commitError, rfl⟩
            · exact ⟨t.engine.commitError, rfl⟩
        · rw [commitCheckLocked_of_fits hunlatched hfits]
          cases henv : env'.candidateAlloc <;> simp
        · rw [commitCheckLocked_of_not_fits hunlatched hunfit]
          exact if_pos (epochError_ne_zero t.engine)

/-- A snapshot with stale bytes in a disabled entry and after a terminator, and its request. -/
def untidyRequest : PolicyRequest :=
  { verboseRequest with
    record :=
      { verboseRequest.record with
        snapshot :=
          { verboseRequest.record.snapshot with
            cgroups := verboseRequest.record.snapshot.cgroups.set 3
              { PatternEntry.zero with
                matchType := 2
                pattern := strscpy (CString.zero _) "x".ascii }
            config := { verboseRequest.record.snapshot.config with
              pad0 := List.Vector.replicate 3 0xff } } } }

theorem normalisation_canonical_untidyRequest :
    (policyApply referencePlatform workingApply (some untidyRequest) extendedManager).1 = 0 ∧
      policyApply referencePlatform workingApply (some untidyRequest)
          (policyApply referencePlatform workingApply (some untidyRequest) extendedManager).2 =
        (0, (policyApply referencePlatform workingApply (some untidyRequest)
          extendedManager).2) := by
  have hfirst : (policyApply referencePlatform workingApply (some untidyRequest)
      extendedManager).1 = 0 := by decide +kernel
  have hepoch : (policyApply referencePlatform workingApply (some untidyRequest)
      extendedManager).2.engine.hardwareAnchored = true := by decide +kernel
  have hfits : EpochFits true (policyApply referencePlatform workingApply (some untidyRequest)
      extendedManager).2.engine :=
    ⟨fun _ => rfl, fun hnot => by simp [commitHardwareAllowedLocked, hepoch] at hnot⟩
  exact ⟨hfirst, ((normalisation_canonical referencePlatform (fun _ => unboundPolicyMap) 10
    [.policyBindMap workingBind, .policyApply workingApply (some verboseRequest)]).2 untidyRequest
    workingApply workingApply _ (by decide +kernel) rfl (Prod.ext hfirst rfl)).2.1 hfits⟩

/-- The device has gone when the request is applied again: the call reports it and changes
nothing else. -/
theorem normalisation_canonical_device_gone :
    verboseRequest.accepted ∧ verboseRequest.expectedGeneration = 0 ∧
      (policyApply referencePlatform workingApply (some verboseRequest)
        (kernelRun referencePlatform (fun _ => unboundPolicyMap) 10
          [.policyBindMap workingBind])).1 = 0 ∧
      (policyApply referencePlatform { workingApply with available := false } (some verboseRequest)
        (policyApply referencePlatform workingApply (some verboseRequest)
          (kernelRun referencePlatform (fun _ => unboundPolicyMap) 10
            [.policyBindMap workingBind])).2).1 = -enodev := by
  decide +kernel

end BpfIma
