import BpfIma.Verification.Kernel.Effects

/-! # The root history as the verifier relies on it

Every container's leaves occur in the history in order, and every value of the history is a
leaf of a container or the digest of an audited policy event. -/

namespace BpfIma

open CString Machine

/-! ## The engine -/

/-- No part of the history was aggregated. -/
def Intact (s : CommitState) : Prop := ∀ entry ∈ s.merkleRootHistory, entry.isAggregate = false

instance (s : CommitState) : Decidable (Intact s) := inferInstanceAs (Decidable (∀ _ ∈ _, _))

/-- The leaves a container has had. -/
def ContainerNode.leaves (S : HashSuite) (c : ContainerNode) : List Digest :=
  S.digestContents zeroDigest c.digests

/-- The value of a successful root commit. -/
def CommitOp.rootValue (op : CommitOp) (ret : Ret) : Option Digest :=
  match op with
  | .commitRoot _ _ value _ => if ret = 0 then value else none
  | _ => none

/-- The values of the PCR are the roots after each commit of the history, and nothing
else. -/
def AllExtended (S : HashSuite) (s : CommitState) : Prop :=
  s.tpm.extended = S.digestContents zeroDigest s.historyValues

instance (S : HashSuite) (s : CommitState) : Decidable (AllExtended S s) :=
  inferInstanceAs (Decidable (_ = _))

/-- What the PCR holds. -/
def pcrValue (S : HashSuite) (s : CommitState) : Digest := S.foldDigests s.tpm.extended

/-- How the history of an engine comes about, when `roots` holds the values of the root
commits. -/
structure AuditTrail (S : HashSuite) (roots : List Digest) (s : CommitState) : Prop where
  leafHash : ∀ c ∈ s.containers, c.leafHash = S.foldDigests c.digests
  interleaved : ∀ c ∈ s.containers, (c.leaves S).Sublist s.historyValues
  origin : ∀ v ∈ s.historyValues, (∃ c ∈ s.containers, v ∈ c.leaves S) ∨ v ∈ roots

theorem Intact.of_commit {S : HashSuite} {config : PolicyConfig} {env : TrimEnv}
    {sourceId : Option Bytes} {s : CommitState} {hardware : Bool} {p : PreparedEvent}
    {container : Option ContainerRef} {entry : Option MeasurementEntry}
    (h : Intact (trimHistoryLocked S config env sourceId
      (publishEvent (anchorRoot s hardware p.newRoot) container entry p))) :
    Intact s ∧ trimHistoryLocked S config env sourceId
        (publishEvent (anchorRoot s hardware p.newRoot) container entry p) =
      publishEvent (anchorRoot s hardware p.newRoot) container entry p := by
  rcases trimHistoryLocked_cases S config env sourceId
      (publishEvent (anchorRoot s hardware p.newRoot) container entry p) with
    hsame | ⟨aggregate, hmem, haggregate⟩
  · refine ⟨?_, hsame⟩
    rw [hsame] at h
    have hhistory : (anchorRoot s hardware p.newRoot).merkleRootHistory = s.merkleRootHistory := by
      cases hardware <;> rfl
    intro e he
    refine h e (List.mem_append_left _ ?_)
    rw [hhistory]
    exact he
  · rw [h aggregate hmem] at haggregate
    cases haggregate

/-- An aggregate never goes away. -/
theorem StepEffect.intact {S : HashSuite} {s t : CommitState} {op : CommitOp} {ret : Ret}
    (heffect : StepEffect S s op ret t) (h : Intact t) : Intact s := by
  cases heffect with
  | refused | commandFailed | checked | created => exact h
  | measured | rootCommitted => exact h.of_commit.1

/-- `t` was reached from `s` without a trim. -/
def Extends (s t : CommitState) : Prop :=
  Intact t → Intact s ∧ s.merkleRootHistory <+: t.merkleRootHistory

theorem Extends.refl (s : CommitState) : Extends s s := fun h => ⟨h, List.prefix_refl _⟩

theorem Extends.trans {s t u : CommitState} (hst : Extends s t) (htu : Extends t u) :
    Extends s u := by
  intro hu
  obtain ⟨ht, htu'⟩ := htu hu
  obtain ⟨hs, hst'⟩ := hst ht
  exact ⟨hs, hst'.trans htu'⟩

theorem StepEffect.extends {S : HashSuite} {s t : CommitState} {op : CommitOp} {ret : Ret}
    (heffect : StepEffect S s op ret t) : Extends s t := by
  intro h
  refine ⟨heffect.intact h, ?_⟩
  cases heffect with
  | refused | commandFailed | checked | created => exact List.prefix_refl _
  | measured node entry hardware p | rootCommitted v hardware p =>
      rw [h.of_commit.2]
      cases hardware <;> exact List.prefix_append _ _

namespace AuditTrail

variable {S : HashSuite} {roots : List Digest} {s t : CommitState}

theorem mono (h : AuditTrail S roots s) {roots' : List Digest} (hsub : roots ⊆ roots') :
    AuditTrail S roots' s :=
  ⟨h.leafHash, h.interleaved, fun v hv => (h.origin v hv).imp_right fun hr => hsub hr⟩

theorem congr_audit (h : AuditTrail S roots s) (hcontainers : t.containers = s.containers)
    (hhistory : t.merkleRootHistory = s.merkleRootHistory) : AuditTrail S roots t := by
  have hvalues : t.historyValues = s.historyValues :=
    congrArg (List.map MerkleRootEntry.value) hhistory
  constructor
  · rw [hcontainers]
    exact h.leafHash
  · rw [hcontainers, hvalues]
    exact h.interleaved
  · rw [hcontainers, hvalues]
    exact h.origin

theorem leaves_append (node : ContainerNode) (entry : MeasurementEntry) (newLeaf : Digest) :
    (node.append entry newLeaf).leaves S =
      node.leaves S ++ [S.extendHash (S.foldDigests node.digests) entry.digest] := by
  rw [ContainerNode.leaves, ContainerNode.append, ContainerNode.digests, List.map_append,
    S.digestContents_append]
  rfl

theorem measure (h : AuditTrail S roots s) {i : ℕ} {node : ContainerNode}
    {entry : MeasurementEntry} {value : Digest} {deduplicate : Bool} {p : PreparedEvent}
    (hnode : s.containers[i]? = some node)
    (hp : Prepares S s (some (i, node)) (some entry) value deduplicate p) :
    AuditTrail S roots (publishEvent s (some (i, node)) (some entry) p) := by
  have hmem := List.mem_of_getElem? hnode
  have hleaf : p.newLeaf = S.extendHash (S.foldDigests node.digests) entry.digest := by
    rw [hp.leaf, eventLeaf, h.leafHash node hmem]
  have hhistory : (publishEvent s (some (i, node)) (some entry) p).historyValues =
      s.historyValues ++ [p.newLeaf] := by
    simp [CommitState.historyValues, publishEvent, hp.history_value]
  have hself : ∀ c, s.containers[i]? = some c → c = node := fun c hc =>
    Option.some.inj (hc.symm.trans hnode)
  have hleaves : (node.append entry p.newLeaf).leaves S = node.leaves S ++ [p.newLeaf] := by
    rw [leaves_append, hleaf]
  have happended : node.append entry p.newLeaf ∈
      (publishEvent s (some (i, node)) (some entry) p).containers := by
    apply List.mem_of_getElem? (i := i)
    simp [publishEvent, List.getElem?_modify_eq, hnode]
  constructor
  · refine forall_mem_modify h.leafHash ?_
    intro c hc
    rw [hself c hc, ContainerNode.digests]
    simp only [ContainerNode.append, List.map_append, List.map_cons, List.map_nil,
      S.foldDigests_concat]
    exact hleaf
  · rw [hhistory]
    refine forall_mem_modify
      (fun c hc => (h.interleaved c hc).trans (List.sublist_append_left _ _)) ?_
    intro c hc
    rw [hself c hc, hleaves]
    exact (h.interleaved node hmem).append (List.Sublist.refl _)
  · rw [hhistory]
    intro v hv
    rcases List.mem_append.mp hv with hv | hv
    · rcases h.origin v hv with ⟨c, hc, hvc⟩ | hroot
      · obtain ⟨j, hj⟩ := List.mem_iff_getElem?.mp hc
        by_cases hij : i = j
        · obtain rfl := hself c (hij ▸ hj)
          exact .inl ⟨_, happended, by rw [hleaves]; exact List.mem_append_left _ hvc⟩
        · refine .inl ⟨c, List.mem_of_getElem? (i := j) ?_, hvc⟩
          simp [publishEvent, hij, hj]
      · exact .inr hroot
    · rw [List.mem_singleton.mp hv]
      exact .inl ⟨_, happended, by rw [hleaves]; simp⟩

theorem commitRoot (h : AuditTrail S roots s) {v : Digest} {deduplicate : Bool} {p : PreparedEvent}
    (hp : Prepares S s none none v deduplicate p) :
    AuditTrail S (roots ++ [v]) (publishEvent s none none p) := by
  have hleaf : p.newLeaf = v := hp.leaf
  have hhistory : (publishEvent s none none p).historyValues = s.historyValues ++ [v] := by
    simp [CommitState.historyValues, publishEvent, hp.history_value, hleaf]
  refine ⟨h.leafHash, ?_, ?_⟩
  · rw [hhistory]
    exact fun c hc => (h.interleaved c hc).trans (List.sublist_append_left _ _)
  · rw [hhistory]
    intro w hw
    rcases List.mem_append.mp hw with hw | hw
    · exact (h.origin w hw).imp_right fun hr => List.mem_append_left _ hr
    · exact .inr (List.mem_append_right _ hw)

theorem create (h : AuditTrail S roots s) (containerId : Bytes) :
    AuditTrail S roots { s with containers := s.containers ++ [freshContainer containerId] } := by
  refine ⟨?_, ?_, ?_⟩
  · intro c hc
    rcases List.mem_append.mp hc with hc | hc
    · exact h.leafHash c hc
    · obtain rfl := List.mem_singleton.mp hc
      rfl
  · intro c hc
    rcases List.mem_append.mp hc with hc | hc
    · exact h.interleaved c hc
    · obtain rfl := List.mem_singleton.mp hc
      exact List.nil_sublist _
  · intro v hv
    rcases h.origin v hv with ⟨c, hc, hvc⟩ | hroot
    · exact .inl ⟨c, List.mem_append_left _ hc, hvc⟩
    · exact .inr hroot

/-- The step lemma, for steps after which the history is still intact. -/
theorem step (h : AuditTrail S roots s) {op : CommitOp} {ret : Ret}
    (heffect : StepEffect S s op ret t) (hintact : Intact t) :
    AuditTrail S (roots ++ (op.rootValue ret).toList) t := by
  have hmore : roots ⊆ roots ++ (op.rootValue ret).toList := List.subset_append_left _ _
  cases heffect with
  | refused | commandFailed => exact (h.mono hmore).congr_audit rfl rfl
  | measured node entry hardware p hnode hentry hunlatched hhardware hsoftware hp =>
      rw [hintact.of_commit.2]
      refine AuditTrail.mono ((h.measure hnode hp).congr_audit ?_ ?_) hmore
      all_goals cases hardware <;> rfl
  | rootCommitted v hardware p hunlatched hhardware hsoftware hp =>
      rw [hintact.of_commit.2]
      refine (h.commitRoot hp).congr_audit ?_ ?_
      all_goals cases hardware <;> rfl
  | checked => exact h.mono hmore
  | created containerId => exact (h.create containerId).mono hmore

end AuditTrail

/-! ## The module -/

/-- All audit entries of policy updates. -/
def KernelState.policyChanges (s : KernelState) : List PolicyChange :=
  s.globalPolicyChangeHistory ++ s.policyNamespaceList.flatMap PolicyNamespace.changeHistory

/-- What a recorded policy change must be for its digest not to pass for a leaf: an input
of the hash that is longer than those of an extend. -/
structure PolicyChange.WellFormed (P : Platform) (change : PolicyChange) : Prop where
  changeHash : change.changeHash = P.sha256 (cstr change.policyString)
  long : 2 * merkleHashSize < (cstr change.policyString).length

/-- The invariant of the module: while the history is intact, its values are leaves and
digests of audited policy changes. -/
structure AuditedHistory (P : Platform) (s : KernelState) : Prop where
  trail : Intact s.engine →
    AuditTrail P.toHashSuite (s.policyChanges.map PolicyChange.changeHash) s.engine
  changes : ∀ change ∈ s.policyChanges, change.WellFormed P

theorem policyChange_wellFormed (P : Platform) (generation : UInt64) (record : PolicyRecord) :
    (policyChange P generation record).WellFormed P := by
  refine ⟨rfl, ?_⟩
  have hlong : 2 * merkleHashSize < (policyString generation (cstr record.namespaceId)
      (snapshotDigest P record)).length := by
    have hprefix : "policy_v2:".ascii.length = 10 := by decide
    simp only [policyString, List.length_append, Text.length_hexEncode, List.Vector.toList_length,
      hprefix]
    omega
  simp only [policyChange, snprintf]
  rw [cstr_strscpy_take (by decide) (zero_notMem_policyString (zero_notMem_cstr _) _ _),
    List.length_take]
  exact lt_min (by decide) hlong

theorem mem_policyChanges_recordChange {P : Platform} {metadata : Option ℕ} {change : PolicyChange}
    {s : KernelState} (hvalid : ∀ i ∈ metadata, i < s.policyNamespaceList.length)
    (c : PolicyChange) :
    c ∈ (recordChange P metadata change s).policyChanges ↔ c ∈ s.policyChanges ∨ c = change := by
  cases metadata with
  | none => simp [recordChange, KernelState.policyChanges, or_comm, or_left_comm]
  | some i =>
      obtain ⟨before, entry, after, hlist, -, hmodify⟩ :=
        List.exists_of_modify (PolicyNamespace.append P change) (hvalid i rfl)
      simp only [recordChange, KernelState.policyChanges, hmodify]
      rw [hlist]
      simp [PolicyNamespace.append, or_comm, or_left_comm]

/-! ### Steps -/

namespace AuditedHistory

variable {P : Platform} {s : KernelState}

/-- Only the engine and the audit lists matter. -/
theorem congr_audit (h : AuditedHistory P s) {t : KernelState} (hengine : t.engine = s.engine)
    (hchanges : t.policyChanges = s.policyChanges) : AuditedHistory P t := by
  refine ⟨?_, ?_⟩
  · rw [hengine, hchanges]
    exact h.trail
  · rw [hchanges]
    exact h.changes

theorem moves (h : AuditedHistory P s) {t : KernelState}
    (hmoves : EngineMoves P.toHashSuite s.engine t.engine)
    (hchanges : t.policyChanges = s.policyChanges) : AuditedHistory P t := by
  refine ⟨?_, by rw [hchanges]; exact h.changes⟩
  rw [hchanges]
  refine hmoves.invariant (I := fun e => Intact e →
    AuditTrail P.toHashSuite (s.policyChanges.map PolicyChange.changeHash) e) ?_ h.trail
  intro e e' op ret hop heffect ih hintact
  have hstep := (ih (heffect.intact hintact)).step heffect hintact
  cases op with
  | commitRoot => exact absurd trivial hop
  | addMeasurement | getError | createContainer => simpa [CommitOp.rootValue] using hstep

theorem policyChanges_grown {namespaces : List PolicyNamespace}
    (hgrown : MetadataGrown s.policyNamespaceList namespaces) (engine : CommitState) :
    ({ s with engine := engine, policyNamespaceList := namespaces } : KernelState).policyChanges =
      s.policyChanges := by
  obtain ⟨id, rfl | rfl⟩ := hgrown
  · rfl
  · simp [KernelState.policyChanges, freshPolicyNamespace]

/-- A root commit that fails adds nothing, one that succeeds adds its value. -/
theorem commitRoot (h : AuditedHistory P s) {config : PolicyConfig} {env : CommitEnv} {v : Digest}
    {sourceId : Option Bytes} {ret : Ret} {engine : CommitState}
    (hcommit : commitRootLocked P.toHashSuite config env s.engine (some v) sourceId = (ret, engine))
    (hintact : Intact engine) :
    AuditTrail P.toHashSuite (s.policyChanges.map PolicyChange.changeHash ++
      if ret = 0 then [v] else []) engine := by
  have heffect := commitStep_effect P.toHashSuite s.engine
    (.commitRoot config env (some v) sourceId)
  simp only [commitStep, hcommit] at heffect
  have hstep := (h.trail (heffect.intact hintact)).step heffect hintact
  have hvalue : (CommitOp.rootValue (.commitRoot config env (some v) sourceId) ret).toList =
      if ret = 0 then [v] else [] := by
    simp only [CommitOp.rootValue]
    split <;> rfl
  rwa [hvalue] at hstep

theorem notCommitted (h : AuditedHistory P s) {config : PolicyConfig} {env : CommitEnv} {v : Digest}
    {sourceId : Option Bytes} {ret : Ret} {t : KernelState}
    (hcommit : commitRootLocked P.toHashSuite config env s.engine (some v) sourceId =
      (ret, t.engine))
    (hret : ret ≠ 0) (hchanges : t.policyChanges = s.policyChanges) : AuditedHistory P t := by
  refine ⟨fun hintact => ?_, by rw [hchanges]; exact h.changes⟩
  have hstep := h.commitRoot hcommit hintact
  rw [if_neg hret, List.append_nil] at hstep
  rwa [hchanges]

theorem published (h : AuditedHistory P s) {env : PublishEnv} {m : ℕ} {candidate : PolicyState}
    {index : Fin (policyNamespaces + 1)} {metadata : Option ℕ} {engine : CommitState}
    (hcommit : commitPolicy P env s m candidate index = (0, engine))
    (hvalid : ∀ i ∈ metadata, i < s.policyNamespaceList.length) :
    AuditedHistory P (publishedState P s m candidate index metadata engine) := by
  have hmem : ∀ c, c ∈ (publishedState P s m candidate index metadata engine).policyChanges ↔
      c ∈ s.policyChanges ∨ c = policyEvent P (s.maps m) candidate index :=
    mem_policyChanges_recordChange hvalid
  have hengine : (publishedState P s m candidate index metadata engine).engine = engine := by
    cases metadata <;> rfl
  refine ⟨?_, ?_⟩
  · rw [hengine]
    intro hintact
    refine (h.commitRoot hcommit hintact).mono ?_
    intro v hv
    rw [List.mem_map]
    rcases List.mem_append.mp hv with hv | hv
    · obtain ⟨c, hc, rfl⟩ := List.mem_map.mp hv
      exact ⟨c, (hmem c).mpr (.inl hc), rfl⟩
    · rw [if_pos rfl, List.mem_singleton] at hv
      exact ⟨_, (hmem _).mpr (.inr rfl), hv.symm⟩
  · intro c hc
    rcases (hmem c).mp hc with hc | rfl
    · exact h.changes c hc
    · exact policyChange_wellFormed P _ _

theorem step (h : AuditedHistory P s) {ret : Ret} {t : KernelState}
    (heffect : KernelEffect P s ret t) : AuditedHistory P t := by
  cases heffect with
  | engine engine namespaces hmoves hgrown =>
      exact h.moves hmoves (policyChanges_grown hgrown engine)
  | mapSyscall m map hreach => exact h.congr_audit rfl rfl
  | bind env hbind =>
      cases hbind with
      | refused error hret herror hnonpos => exact h.moves (.latch hret herror hnonpos) rfl
      | alreadyBound => exact h
      | notCommitted m engine hret hbound hcommit => exact h.notCommitted hcommit hret rfl
      | bound m engine hbound hfrozen hzero hcommit =>
          have hget : AuditedHistory P (s.mapGet m) := h.congr_audit rfl rfl
          exact (hget.published hcommit (by simp)).congr_audit rfl rfl
  | update env hupdate =>
      cases hupdate with
      | refused => exact h
      | applied request hname happly =>
          cases happly with
          | refused error namespaces hret herror hadded hnonpos =>
              exact h.moves (.latch hret herror hnonpos) (policyChanges_grown ⟨_, hadded⟩ _)
          | unchanged m namespaces hbound hadded =>
              exact h.congr_audit rfl (policyChanges_grown ⟨_, hadded⟩ s.engine)
          | attempted m namespaces snapshot candidate index metadata hbound hadded hnormal
              hcandidate hvalid haudited hpublish =>
              have hgrownState : AuditedHistory P { s with policyNamespaceList := namespaces } :=
                h.congr_audit rfl (policyChanges_grown ⟨_, hadded⟩ s.engine)
              cases hpublish with
              | refused => exact hgrownState
              | notCommitted engine hret hcommit => exact hgrownState.notCommitted hcommit hret rfl
              | published engine hgeneration hcommit =>
                  refine hgrownState.published hcommit ?_
                  rintro i rfl
                  rcases haudited with ⟨-, hnone⟩ | ⟨-, j, entry, hsome, hentry, -⟩
                  · cases hnone
                  · obtain rfl := Option.some.inj hsome
                    exact (List.getElem?_eq_some_iff.mp hentry).1

theorem of_run (P : Platform) (maps : ℕ → BpfMap) (tpmPcrIndex : ℤ) (ops : List KernelOp) :
    AuditedHistory P (kernelRun P maps tpmPcrIndex ops) := by
  refine run_invariant (fun s op h => h.step (kernelStep_effect P s op)) ops ⟨fun _ => ?_, ?_⟩
  · refine ⟨?_, ?_, ?_⟩ <;> simp [moduleLoaded, CommitState.historyValues]
  · simp [moduleLoaded, KernelState.policyChanges]

end AuditedHistory

/-! ### Later states -/

theorem EngineMoves.extends {S : HashSuite} {s t : CommitState} (h : EngineMoves S s t) :
    Extends s t :=
  h.invariant (fun _ heffect hs => hs.trans heffect.extends) (.refl s)

theorem KernelEffect.extends {P : Platform} {s t : KernelState} {ret : Ret}
    (h : KernelEffect P s ret t) : Extends s.engine t.engine := by
  rcases h.engine_cases with hmoves | ⟨config, env, value, sourceId, hcommit⟩
  · exact hmoves.extends
  · rw [hcommit]
    exact (commitStep_effect P.toHashSuite s.engine (.commitRoot config env value sourceId)).extends

theorem extends_kernelRun (P : Platform) (maps : ℕ → BpfMap) (tpmPcrIndex : ℤ)
    (ops rest : List KernelOp) :
    Extends (kernelRun P maps tpmPcrIndex ops).engine
      (kernelRun P maps tpmPcrIndex (ops ++ rest)).engine := by
  rw [kernelRun, kernelRun, run_append]
  exact run_invariant (P := fun t => Extends _ t.engine)
    (fun t op h => h.trans (kernelStep_effect P t op).extends) rest (.refl _)

theorem Extends.take_historyValues {s t : CommitState} (h : Extends s t) (ht : Intact t) :
    t.historyValues.take s.merkleRootHistory.length = s.historyValues := by
  obtain ⟨later, hlater⟩ := (h ht).2
  rw [CommitState.historyValues, ← hlater, ← List.map_take, List.take_left]
  rfl

/-! ## Two containers on a working host -/

/-- The measurement of a file with the given content hash. -/
def fileMeasured (container : ℕ) (fileHash : Bytes) : KernelOp :=
  .addMeasurement workingAdd (some container) (some "exec".ascii) (some fileHash) (some [])
    (some (referencePlatform.sha256 fileHash))

/-- One measurement in each container. -/
def interleavedOps : List KernelOp :=
  [.containerGetOrCreate workingCreate (some ("a".ascii ++ [0])),
    .containerGetOrCreate workingCreate (some ("b".ascii ++ [0])),
    fileMeasured 1 "y".ascii, fileMeasured 0 "x".ascii]

/-- The module after some calls, with no map to bind. -/
def workingRun (ops : List KernelOp) : KernelState :=
  kernelRun referencePlatform (fun _ => otherMap) 10 ops

end BpfIma
