import BpfIma.Verification.Commit.Effects

/-! # Replay of the commit engine

The leaf of every container, the root history and the system root are what a replay
of the measurement lists and of the history computes, along every run in which the
history is not trimmed. -/

namespace BpfIma

open CString Machine

/-! ## Runs without trimming -/

/-- The state in which the module calls `bpfima_commit_init`. -/
structure Boot (s : CommitState) : Prop where
  rootHash : s.systemMerkleRoot.rootHash = zeroDigest
  history : s.merkleRootHistory = []
  historyCount : s.merkleRootHistoryCount = 0
  containers : ∀ c ∈ s.containers,
    c.leafHash = zeroDigest ∧ c.measurementList = [] ∧ c.measurementCount = 0

/-- The history limit that a call works under. -/
def CommitOp.historyLimit : CommitOp → Option UInt32
  | .addMeasurement config .. => some config.merkleHistoryMaxSize
  | .commitRoot config .. => some config.merkleHistoryMaxSize
  | .getError _ => none
  | .createContainer _ => none

/-- A commit that succeeds leaves the history within its limit. -/
def CommitOp.WithinLimit (op : CommitOp) (s : CommitState) (ret : Ret) : Prop :=
  ∀ limit ∈ op.historyLimit, ret = 0 → limit = 0 ∨ s.merkleRootHistoryCount + 1 ≤ limit

instance (op : CommitOp) (s : CommitState) (ret : Ret) : Decidable (op.WithinLimit s ret) :=
  Option.decidableForallMem op.historyLimit

/-- The value a call that returned `ret` in state `s` stands for in the history: none if it
failed, the container's leaf after a measurement, the value of a root commit. -/
def CommitOp.committedValue (op : CommitOp) (ret : Ret) (s : CommitState) : Option Digest :=
  if ret ≠ 0 then none
  else
    match op with
    | .addMeasurement _ _ container _ _ _ _ =>
        container.bind fun i => s.containers[i]?.map ContainerNode.leafHash
    | .commitRoot _ _ value _ => value
    | .getError _ => none
    | .createContainer _ => none

theorem CommitOp.committedValue_of_ne {op : CommitOp} {ret : Ret} {s : CommitState} (h : ret ≠ 0) :
    op.committedValue ret s = none :=
  if_pos h

/-- A measurement commits the leaf of its container. -/
theorem committedValue_measured {S : HashSuite} {s : CommitState} {i : ℕ} {node : ContainerNode}
    (hnode : s.containers[i]? = some node) {config : PolicyConfig} {env : AddEnv} {trim : TrimEnv}
    {name data dependencies sourceId : Option Bytes} {digest : Option Digest}
    {entry : MeasurementEntry} {hardware : Bool} {p : PreparedEvent} :
    (CommitOp.addMeasurement config env (some i) name data dependencies digest).committedValue 0
      (trimHistoryLocked S config trim sourceId
        (publishEvent (anchorRoot s hardware p.newRoot) (some (i, node)) (some entry) p)) =
      some p.newLeaf := by
  have hself : (anchorRoot s hardware p.newRoot).containers = s.containers := by
    cases hardware <;> rfl
  simp [CommitOp.committedValue, containers_trimHistoryLocked, publishEvent, hself,
    List.getElem?_modify_eq, hnode, ContainerNode.append]

/-- The history never grows beyond the limit in force. -/
def Untrimmed (S : HashSuite) : CommitState → List CommitOp → Prop :=
  Along (commitStep S) fun s op => op.WithinLimit s (commitStep S s op).1

instance (S : HashSuite) (s : CommitState) (ops : List CommitOp) : Decidable (Untrimmed S s ops) :=
  decidableAlong _ _ s ops

/-- The values of the successful commits of a run, oldest first. -/
def committedValues (S : HashSuite) : CommitState → List CommitOp → List Digest :=
  collect (commitStep S) fun s op => op.committedValue (commitStep S s op).1 (commitStep S s op).2

/-- What a replay of the audit state finds, with the values committed so far. -/
structure Replayed (S : HashSuite) (s : CommitState) (values : List Digest) : Prop where
  leaf : ∀ c ∈ s.containers, c.leafHash = S.foldDigests c.digests
  count : ∀ c ∈ s.containers, c.measurementCount = UInt32.ofNat c.measurementList.length
  history : s.historyValues = values
  root : s.systemMerkleRoot.rootHash = S.foldDigests s.historyValues
  historyCount : s.merkleRootHistoryCount = UInt32.ofNat s.merkleRootHistory.length

namespace Replayed

variable {S : HashSuite} {s : CommitState} {values : List Digest}

theorem of_boot (h : Boot s) : Replayed S (commitInit s) [] where
  leaf c hc := by
    obtain ⟨hleaf, hlist, -⟩ := h.containers c hc
    simp [ContainerNode.digests, hlist, hleaf]
  count c hc := by
    obtain ⟨-, hlist, hcount⟩ := h.containers c hc
    simp [hlist, hcount]
  history := by simp [commitInit, CommitState.historyValues, h.history]
  root := by simp [commitInit, CommitState.historyValues, h.history, h.rootHash]
  historyCount := by simp [commitInit, h.history, h.historyCount]

/-- Latching an error or driving the device changes nothing a replay reads. -/
theorem congr_audit (h : Replayed S s values) {t : CommitState}
    (hcontainers : t.containers = s.containers)
    (hhistory : t.merkleRootHistory = s.merkleRootHistory)
    (hcount : t.merkleRootHistoryCount = s.merkleRootHistoryCount)
    (hroot : t.systemMerkleRoot = s.systemMerkleRoot) : Replayed S t values := by
  have hvalues : t.historyValues = s.historyValues := by
    rw [CommitState.historyValues, hhistory, CommitState.historyValues]
  constructor
  · rw [hcontainers]
    exact h.leaf
  · rw [hcontainers]
    exact h.count
  · rw [hvalues, h.history]
  · rw [hroot, hvalues, h.root]
  · rw [hcount, hhistory, h.historyCount]

/-- Publishing a prepared event adds its leaf to the replay. -/
theorem publish (h : Replayed S s values) {container : Option ContainerRef}
    {entry : Option MeasurementEntry} {value : Digest} {deduplicate : Bool} {p : PreparedEvent}
    (hnode : ∀ c ∈ container, s.containers[c.1]? = some c.2)
    (hp : Prepares S s container entry value deduplicate p) :
    Replayed S (publishEvent s container entry p) (values ++ [p.newLeaf]) := by
  have hhistory : (publishEvent s container entry p).historyValues =
      s.historyValues ++ [p.newLeaf] := by
    simp [CommitState.historyValues, publishEvent, hp.history_value]
  have hcontainers : ∀ c ∈ (publishEvent s container entry p).containers,
      c.leafHash = S.foldDigests c.digests ∧
        c.measurementCount = UInt32.ofNat c.measurementList.length := by
    have hold : ∀ c ∈ s.containers, c.leafHash = S.foldDigests c.digests ∧
        c.measurementCount = UInt32.ofNat c.measurementList.length :=
      fun c hc => ⟨h.leaf c hc, h.count c hc⟩
    match container, entry with
    | some (i, node), some entry =>
        refine forall_mem_modify hold ?_
        intro c hc
        obtain rfl : node = c := Option.some.inj ((hnode _ rfl).symm.trans hc)
        obtain ⟨hleaf, hcount⟩ := hold node (List.mem_of_getElem? hc)
        constructor
        · simp only [ContainerNode.append, ContainerNode.digests, List.map_append, List.map_cons,
            List.map_nil, S.foldDigests_concat, hp.leaf, eventLeaf]
          rw [hleaf, ContainerNode.digests]
        · simp [ContainerNode.append, hcount]
    | some _, none | none, some _ | none, none => exact hold
  constructor
  · exact fun c hc => (hcontainers c hc).1
  · exact fun c hc => (hcontainers c hc).2
  · rw [hhistory, h.history]
  · rw [hhistory, S.foldDigests_concat, ← h.root]
    exact hp.root
  · simp [publishEvent, h.historyCount]

theorem commit (h : Replayed S s values) {container : Option ContainerRef}
    {entry : Option MeasurementEntry} {value : Digest} {deduplicate hardware : Bool}
    {p : PreparedEvent} {config : PolicyConfig} {env : TrimEnv} {sourceId : Option Bytes}
    (hnode : ∀ c ∈ container, s.containers[c.1]? = some c.2)
    (hp : Prepares S s container entry value deduplicate p)
    (hlimit : config.merkleHistoryMaxSize = 0 ∨
      s.merkleRootHistoryCount + 1 ≤ config.merkleHistoryMaxSize) :
    Replayed S (trimHistoryLocked S config env sourceId
      (publishEvent (anchorRoot s hardware p.newRoot) container entry p))
        (values ++ [p.newLeaf]) := by
  have hcount :
      (publishEvent (anchorRoot s hardware p.newRoot) container entry p).merkleRootHistoryCount =
        s.merkleRootHistoryCount + 1 := by cases hardware <;> rfl
  rw [trimHistoryLocked_within S (by rwa [hcount])]
  refine (h.publish hnode hp).congr_audit ?_ ?_ hcount ?_
  all_goals cases hardware <;> rfl

theorem create (h : Replayed S s values) (containerId : Bytes) :
    Replayed S { s with containers := s.containers ++ [freshContainer containerId] } values where
  leaf c hc := by
    rcases List.mem_append.mp hc with hc | hc
    · exact h.leaf c hc
    · obtain rfl := List.mem_singleton.mp hc
      rfl
  count c hc := by
    rcases List.mem_append.mp hc with hc | hc
    · exact h.count c hc
    · obtain rfl := List.mem_singleton.mp hc
      rfl
  history := h.history
  root := h.root
  historyCount := h.historyCount

/-- The step lemma: every rule of the engine adds to the replay the value it commits. -/
theorem step (h : Replayed S s values) {op : CommitOp} {ret : Ret} {s' : CommitState}
    (heffect : StepEffect S s op ret s') (hlimit : op.WithinLimit s ret) :
    Replayed S s' (values ++ (op.committedValue ret s').toList) := by
  cases heffect with
  | refused error hret herror =>
      rw [CommitOp.committedValue_of_ne hret, Option.toList_none, List.append_nil]
      exact h.congr_audit rfl rfl rfl rfl
  | commandFailed extra hunlatched hallowed hret hextra =>
      rw [CommitOp.committedValue_of_ne hret.ne, Option.toList_none, List.append_nil]
      exact h.congr_audit rfl rfl rfl rfl
  | measured node entry hardware p hnode hentry hunlatched hhardware hsoftware hp =>
      rw [committedValue_measured hnode]
      exact h.commit (by simpa using hnode) hp (hlimit _ rfl rfl)
  | rootCommitted v hardware p hunlatched hhardware hsoftware hp =>
      have hvalue : v = p.newLeaf := hp.leaf.symm
      rw [show CommitOp.committedValue _ 0 _ = some p.newLeaf by
        simp [CommitOp.committedValue, hvalue]]
      exact h.commit (by simp) hp (hlimit _ rfl rfl)
  | checked hunlatched => simpa [CommitOp.committedValue] using h
  | created containerId => simpa [CommitOp.committedValue] using h.create containerId

end Replayed

/-- Every run without trimming from `bpfima_commit_init`: each leaf is the fold of its
container's digests, the history holds the committed values in order, and the system
root is the fold of the history; both counters hold the lengths of their lists in 32 bits. -/
theorem audit_replays (S : HashSuite) (s : CommitState) (hboot : Boot s) (ops : List CommitOp)
    (huntrimmed : Untrimmed S (commitInit s) ops) :
    (∀ c ∈ (run (commitStep S) (commitInit s) ops).containers,
      c.leafHash = c.digests.foldl S.extendHash zeroDigest ∧
        c.measurementCount = UInt32.ofNat c.measurementList.length) ∧
      (run (commitStep S) (commitInit s) ops).historyValues =
        committedValues S (commitInit s) ops ∧
      (run (commitStep S) (commitInit s) ops).systemMerkleRoot.rootHash =
        (run (commitStep S) (commitInit s) ops).historyValues.foldl S.extendHash zeroDigest ∧
      (run (commitStep S) (commitInit s) ops).merkleRootHistoryCount =
        UInt32.ofNat (run (commitStep S) (commitInit s) ops).merkleRootHistory.length := by
  have h : Replayed S (run (commitStep S) (commitInit s) ops)
      (committedValues S (commitInit s) ops) :=
    run_collect (fun s op _ hlimit hlog => hlog.step (commitStep_effect S s op) hlimit) huntrimmed
      (.of_boot hboot)
  exact ⟨fun c hc => ⟨h.leaf c hc, h.count c hc⟩, h.history, h.root, h.historyCount⟩

/-- Two containers, one of them measured twice around a policy event, with a duplicate and
a commit that fails for lack of memory. -/
def mixedRun : List CommitOp :=
  let digest (b : UInt8) : Digest := List.Vector.replicate 32 b
  let name : Option Bytes := some "file_mmap".ascii
  let config := initDefaultConfig .zero
  [.addMeasurement config workingAdd (some 0) name none none (some (digest 1)),
    .commitRoot config workingCommit (some (digest 7)) (some "global_policy".ascii),
    .addMeasurement config workingAdd (some 1) name none none (some (digest 1)),
    .addMeasurement config workingAdd (some 0) name none none (some (digest 1)),
    .addMeasurement config { workingAdd with entryAlloc := false } (some 0) name none none
      (some (digest 2)),
    .addMeasurement config workingAdd (some 0) name none none (some (digest 2))]

theorem bootState_boot : Boot (bootState 2) := by
  constructor <;> decide +kernel

theorem audit_replays_mixedRun :
    Boot (bootState 2) ∧
      Untrimmed referencePlatform.toHashSuite (commitInit (bootState 2)) mixedRun ∧
      (run (commitStep referencePlatform.toHashSuite) (commitInit (bootState 2))
        mixedRun).merkleRootHistory.length = 4 ∧
      (run (commitStep referencePlatform.toHashSuite) (commitInit (bootState 2))
        mixedRun).historyValues =
          committedValues referencePlatform.toHashSuite (commitInit (bootState 2)) mixedRun := by
  have huntrimmed : Untrimmed referencePlatform.toHashSuite (commitInit (bootState 2))
      mixedRun := by
    decide +kernel
  refine ⟨bootState_boot, huntrimmed, by decide +kernel, ?_⟩
  exact (audit_replays _ _ bootState_boot _ huntrimmed).2.1

end BpfIma
