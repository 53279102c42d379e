import BpfIma.Verification.Attestation.History
import BpfIma.Verification.Commit.Replay
import BpfIma.Verification.Kernel.EntryPoints

/-! # The ledger of the engine

What the registers of the engine and of the device hold, in terms of its lists, in every state of
the module. Trimming rewrites the history only, so the containers are exact for ever and the rest
is as long as nothing was aggregated. -/

namespace BpfIma

open CString Errno Machine

structure Ledger (S : HashSuite) (s : CommitState) : Prop where
  leaf : ∀ c ∈ s.containers, c.leafHash = S.foldDigests c.digests
  count : ∀ c ∈ s.containers, c.measurementCount = UInt32.ofNat c.measurementList.length
  root : Intact s → s.systemMerkleRoot.rootHash = S.foldDigests s.historyValues
  extended : s.commitError = 0 → Intact s →
    s.tpm.extended = if s.hardwareAnchored then S.digestContents zeroDigest s.historyValues else []
  uncommitted : s.hardwareAnchored = false → s.softwareCommitted = false → s.historyValues = []

namespace Ledger

variable {S : HashSuite} {s t : CommitState}

/-- Latching an error changes nothing of it. -/
theorem latch (h : Ledger S s) {error : Ret}
    (herror : error = s.commitError ∨ s.commitError = 0) : Ledger S { s with commitError := error }
    where
  leaf := h.leaf
  count := h.count
  root := h.root
  extended hunlatched := by
    refine h.extended ?_
    rcases herror with hsame | hzero
    · exact hsame.symm.trans hunlatched
    · exact hzero
  uncommitted := h.uncommitted

theorem commandFailed (h : Ledger S s) {error : Ret} (herror : error < 0) (tpm : Tpm) :
    Ledger S { s with commitError := error, tpm := tpm } where
  leaf := h.leaf
  count := h.count
  root := h.root
  extended hunlatched := absurd hunlatched herror.ne
  uncommitted := h.uncommitted

theorem create (h : Ledger S s) (containerId : Bytes) :
    Ledger S { s with containers := s.containers ++ [freshContainer containerId] } where
  leaf c hc := by
    rcases List.mem_append.mp hc with hc | hc
    · exact h.leaf c hc
    · rw [List.mem_singleton.mp hc]
      rfl
  count c hc := by
    rcases List.mem_append.mp hc with hc | hc
    · exact h.count c hc
    · rw [List.mem_singleton.mp hc]
      rfl
  root := h.root
  extended := h.extended
  uncommitted := h.uncommitted

/-- In an epoch that the device may take part in, it holds the root after each commit. -/
theorem allExtended (h : Ledger S s) (hunlatched : s.commitError = 0) (hintact : Intact s)
    (hallowed : commitHardwareAllowedLocked s = true) : AllExtended S s := by
  rw [AllExtended, h.extended hunlatched hintact]
  split
  · rfl
  · rename_i hanchored
    have hunanchored : s.hardwareAnchored = false := by simpa using hanchored
    have hnone : s.softwareCommitted = false := by
      simpa [commitHardwareAllowedLocked, hunanchored] using hallowed
    rw [h.uncommitted hunanchored hnone]
    rfl

/-- The containers after the publication of a prepared event. -/
theorem publish_containers (h : Ledger S s) {container : Option ContainerRef}
    {entry : Option MeasurementEntry} {value : Digest} {deduplicate : Bool} {p : PreparedEvent}
    (hnode : ∀ c ∈ container, s.containers[c.1]? = some c.2)
    (hp : Prepares S s container entry value deduplicate p) (hardware : Bool) :
    ∀ c ∈ (publishEvent (anchorRoot s hardware p.newRoot) container entry p).containers,
      c.leafHash = S.foldDigests c.digests ∧
        c.measurementCount = UInt32.ofNat c.measurementList.length := by
  have hold : ∀ c ∈ (anchorRoot s hardware p.newRoot).containers,
      c.leafHash = S.foldDigests c.digests ∧
        c.measurementCount = UInt32.ofNat c.measurementList.length := by
    intro c hc
    have hmem : c ∈ s.containers := by cases hardware <;> exact hc
    exact ⟨h.leaf c hmem, h.count c hmem⟩
  match container, entry with
  | some (i, node), some entry =>
      refine forall_mem_modify hold ?_
      intro c hc
      have hc' : s.containers[i]? = some c := by cases hardware <;> exact hc
      obtain rfl : node = c := Option.some.inj ((hnode _ rfl).symm.trans hc')
      have hmem := List.mem_of_getElem? hc'
      constructor
      · simp only [ContainerNode.append, ContainerNode.digests, List.map_append, List.map_cons,
          List.map_nil, S.foldDigests_concat, hp.leaf, eventLeaf]
        rw [h.leaf node hmem, ContainerNode.digests]
      · simp [ContainerNode.append, h.count node hmem]
  | some _, none | none, some _ | none, none => exact hold

/-- A commit adds one value to the history, its root to the register and, if the epoch is
anchored, to the device. -/
theorem commit (h : Ledger S s) {container : Option ContainerRef}
    {entry : Option MeasurementEntry} {value : Digest} {deduplicate hardware : Bool}
    {p : PreparedEvent} {config : PolicyConfig} {env : TrimEnv} {sourceId : Option Bytes}
    (hunlatched : s.commitError = 0)
    (hhardware : hardware = true → commitHardwareAllowedLocked s = true)
    (hsoftware : hardware = false → s.hardwareAnchored = false)
    (hnode : ∀ c ∈ container, s.containers[c.1]? = some c.2)
    (hp : Prepares S s container entry value deduplicate p) :
    Ledger S (trimHistoryLocked S config env sourceId
      (publishEvent (anchorRoot s hardware p.newRoot) container entry p)) := by
  have hcontainers := h.publish_containers hnode hp hardware
  have hsame := containers_trimHistoryLocked S config env sourceId
    (publishEvent (anchorRoot s hardware p.newRoot) container entry p)
  have hvalues : (publishEvent (anchorRoot s hardware p.newRoot) container entry p).historyValues =
      s.historyValues ++ [p.newLeaf] := by
    cases hardware <;>
      simp [CommitState.historyValues, publishEvent, anchorRoot, hp.history_value]
  have hroot (hintact : Intact s) : p.newRoot = S.foldDigests (s.historyValues ++ [p.newLeaf]) := by
    rw [S.foldDigests_concat, ← h.root hintact]
    exact hp.root
  refine ⟨?_, ?_, ?_, ?_, ?_⟩
  · rw [hsame]
    exact fun c hc => (hcontainers c hc).1
  · rw [hsame]
    exact fun c hc => (hcontainers c hc).2
  · intro hintact
    obtain ⟨hbefore, huntrimmed⟩ := hintact.of_commit
    rw [huntrimmed, hvalues, ← hroot hbefore]
    rfl
  · intro _ hintact
    obtain ⟨hbefore, huntrimmed⟩ := hintact.of_commit
    have hold := h.extended hunlatched hbefore
    rw [huntrimmed, hvalues]
    cases hardware with
    | true =>
        have hextended : AllExtended S s := h.allExtended hunlatched hbefore (hhardware rfl)
        rw [AllExtended] at hextended
        simp only [publishEvent, anchorRoot, if_true, hextended, S.digestContents_append,
          HashSuite.digestContents]
        rw [hroot hbefore, S.foldDigests_concat]
        rfl
    | false =>
        simp only [publishEvent, anchorRoot, Bool.false_eq_true, if_false] at hold ⊢
        rw [hold, hsoftware rfl]
        rfl
  · intro _ hcommitted
    obtain ⟨history, count, hframe⟩ := trimHistoryLocked_frame S config env sourceId
      (publishEvent (anchorRoot s hardware p.newRoot) container entry p)
    rw [hframe] at hcommitted
    cases hcommitted

theorem step (h : Ledger S s) {op : CommitOp} {ret : Ret} (heffect : StepEffect S s op ret t) :
    Ledger S t := by
  cases heffect with
  | refused error hret herror =>
      refine h.latch ?_
      rcases herror with hsame | ⟨hzero, -⟩
      · exact .inl hsame
      · exact .inr hzero
  | commandFailed extra hunlatched hallowed hret hextra => exact h.commandFailed hret _
  | measured node entry hardware p hnode hentry hunlatched hhardware hsoftware hp =>
      exact h.commit hunlatched hhardware hsoftware (by simpa using hnode) hp
  | rootCommitted v hardware p hunlatched hhardware hsoftware hp =>
      exact h.commit hunlatched hhardware hsoftware (by simp) hp
  | checked => exact h
  | created containerId => exact h.create containerId

theorem kernelStep {P : Platform} {s : KernelState} (h : Ledger P.toHashSuite s.engine)
    (op : KernelOp) : Ledger P.toHashSuite (BpfIma.kernelStep P s op).2.engine := by
  rcases (kernelStep_effect P s op).engine_cases with
    hmoves | ⟨config, env, value, sourceId, hcommit⟩
  · exact hmoves.invariant (fun _ heffect hs => hs.step heffect) h
  · rw [hcommit]
    exact h.step (commitStep_effect P.toHashSuite s.engine (.commitRoot config env value sourceId))

theorem of_kernelRun (P : Platform) (maps : ℕ → BpfMap) (tpmPcrIndex : ℤ) (ops : List KernelOp) :
    Ledger P.toHashSuite (kernelRun P maps tpmPcrIndex ops).engine := by
  refine run_invariant (P := fun s : KernelState => Ledger P.toHashSuite s.engine)
    (fun s op h => h.kernelStep op) ops ⟨?_, ?_, ?_, ?_, ?_⟩
  · intro c hc
    cases hc
  · intro c hc
    cases hc
  · exact fun _ => rfl
  · exact fun _ _ => rfl
  · exact fun _ _ => rfl

end Ledger

end BpfIma
