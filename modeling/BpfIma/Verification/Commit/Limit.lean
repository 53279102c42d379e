import BpfIma.Verification.Commit.Trimming

/-! # The history limit

A trim removes half of the entries, rounded down, and adds the aggregate. From a limit of three
entries on this makes room for the entry that was just committed. Under a limit of one or two the
history stays one entry above it. The largest limit of all is as far as the counter goes: one
entry more and it starts at zero again, below every limit. -/

namespace BpfIma

open CString Errno Machine

/-- Allocations and hashes of a trim succeed. -/
structure TrimEnv.Succeeds (env : TrimEnv) : Prop where
  aggregateAlloc : env.aggregateAlloc = true
  descAlloc : env.descAlloc = true
  hashRet : ∀ i, 0 ≤ env.hashRet i

/-- The configuration that a commit works under, and the outcomes of its trim. -/
def CommitOp.trimming : CommitOp → Option (PolicyConfig × TrimEnv)
  | .addMeasurement config env .. => some (config, env.commit.trim)
  | .commitRoot config env .. => some (config, env.trim)
  | .getError _ => none
  | .createContainer _ => none

/-! ## The length a trim leaves -/

section

variable (S : HashSuite) {env : TrimEnv}

theorem aggregateLoop_succeeds (henv : env.Succeeds) (count : ℕ) (acc : Digest)
    {entries : List MerkleRootEntry} (hsome : count ≠ 0 ∨ entries ≠ []) :
    ∃ result, aggregateLoop S env count acc entries = .ok result := by
  induction entries generalizing count acc with
  | nil =>
      have hcount : count ≠ 0 := hsome.resolve_right fun h => h rfl
      exact ⟨_, if_neg hcount⟩
  | cons entry entries ih =>
      rw [aggregateLoop, if_neg (not_lt.mpr (henv.hashRet count))]
      exact ih _ _ (.inl count.succ_ne_zero)

/-- A trim that succeeds replaces the oldest half. -/
theorem trimMerkleRootHistoryLocked_succeeds (henv : env.Succeeds) {maxSize : UInt32}
    {s : CommitState} (htfm : s.systemMerkleRoot.tfm = true)
    (hcount : s.merkleRootHistoryCount.toNat = s.merkleRootHistory.length) (hmax : maxSize ≠ 0)
    (hmany : maxSize < s.merkleRootHistoryCount) :
    (trimMerkleRootHistoryLocked S env maxSize s).2.merkleRootHistory.length =
      s.merkleRootHistory.length - s.merkleRootHistory.length / 2 + 1 := by
  have hpositive := toNat_limit_ne_zero hmax
  have hlarger := UInt32.lt_iff_toNat_lt.mp hmany
  have hhalf : s.merkleRootHistory.length / 2 ≠ 0 := by omega
  have htoDelete : (trimToDelete s.merkleRootHistoryCount).toNat =
      s.merkleRootHistory.length / 2 := by rw [toNat_trimToDelete, hcount, if_neg hhalf]
  have hmoved : s.merkleRootHistory.take (s.merkleRootHistory.length / 2) ≠ [] := by
    rw [ne_eq, List.take_eq_nil_iff, not_or]
    refine ⟨hhalf, ?_⟩
    rintro hnil
    simp [hnil] at hhalf
  obtain ⟨⟨hash, count⟩, haggregate⟩ :=
    aggregateLoop_succeeds S henv 0 zeroDigest (.inr hmoved)
  rw [trimMerkleRootHistoryLocked, if_neg (UInt32.not_le.mpr hmany), htoDelete]
  simp [henv.aggregateAlloc, aggregateMerkleEntries, htfm, henv.descAlloc, haggregate]

theorem trimHistoryLocked_length (henv : env.Succeeds) {config : PolicyConfig}
    {s : CommitState} (htfm : s.systemMerkleRoot.tfm = true)
    (hcount : s.merkleRootHistoryCount.toNat = s.merkleRootHistory.length)
    (hmax : config.merkleHistoryMaxSize ≠ 0) (hscope : config.merkleHistoryScope ≠ scopeRootOnly)
    (sourceId : Option Bytes) :
    (trimHistoryLocked S config env sourceId s).merkleRootHistory.length =
      if config.merkleHistoryMaxSize.toNat < s.merkleRootHistory.length then
        s.merkleRootHistory.length - s.merkleRootHistory.length / 2 + 1
      else s.merkleRootHistory.length := by
  have hexceeds : config.merkleHistoryMaxSize < s.merkleRootHistoryCount ↔
      config.merkleHistoryMaxSize.toNat < s.merkleRootHistory.length := by
    rw [UInt32.lt_iff_toNat_lt, hcount]
  rw [trimHistoryLocked, if_neg fun h => hscope h.1]
  split
  · rename_i hmany
    rw [if_pos (hexceeds.mp hmany.2)]
    exact trimMerkleRootHistoryLocked_succeeds S henv htfm hcount hmax hmany.2
  · rename_i hfew
    rw [if_neg fun hmany => hfew ⟨hmax, hexceeds.mpr hmany⟩]

/-- The trim behind one entry more than a limit allows makes room again, except under the smallest
limits and under the largest, where the counter has wrapped. -/
theorem trimHistoryLocked_kept_iff (henv : env.Succeeds) {config : PolicyConfig}
    {s : CommitState} (htfm : s.systemMerkleRoot.tfm = true)
    (hcount : s.merkleRootHistoryCount = UInt32.ofNat s.merkleRootHistory.length)
    (hmax : config.merkleHistoryMaxSize ≠ 0) (hscope : config.merkleHistoryScope ≠ scopeRootOnly)
    (sourceId : Option Bytes) {before : ℕ} (hlength : s.merkleRootHistory.length = before + 1)
    (hlimit : before ≤ config.merkleHistoryMaxSize.toNat) :
    (trimHistoryLocked S config env sourceId s).merkleRootHistory.length ≤
        config.merkleHistoryMaxSize.toNat ↔
      (3 ≤ config.merkleHistoryMaxSize.toNat ∧ config.merkleHistoryMaxSize ≠ 0xffffffff) ∨
        before < config.merkleHistoryMaxSize.toNat := by
  have hpositive := toNat_limit_ne_zero hmax
  have hbound := config.merkleHistoryMaxSize.toNat_lt
  have hlargest : config.merkleHistoryMaxSize ≠ 0xffffffff ↔
      config.merkleHistoryMaxSize.toNat ≠ 2 ^ 32 - 1 := by rw [ne_eq, ← UInt32.toNat_inj]; rfl
  rw [hlargest]
  by_cases hwraps : before = 2 ^ 32 - 1
  · have hzero : s.merkleRootHistoryCount ≤ config.merkleHistoryMaxSize := by
      rw [hcount, hlength, hwraps]
      exact UInt32.le_iff_toNat_le.mpr (Nat.zero_le _)
    rw [trimHistoryLocked_within S (.inr hzero), hlength]
    omega
  · have hfits : s.merkleRootHistory.length < 2 ^ 32 := by omega
    have hexact : s.merkleRootHistoryCount.toNat = s.merkleRootHistory.length := by
      rw [hcount]
      exact UInt32.toNat_ofNat_of_lt' hfits
    rw [trimHistoryLocked_length S henv htfm hexact hmax hscope sourceId, hlength]
    split <;> omega

end

/-! ## Commits -/

/-- Nothing is committed without the transform of the root. -/
theorem commitEventLocked_tfm {S : HashSuite} {config : PolicyConfig} {env : CommitEnv}
    {s : CommitState} {container : Option ContainerRef} {entry : Option MeasurementEntry}
    {value : Option Digest} {sourceId : Option Bytes} {deduplicate : Bool}
    (h : (commitEventLocked S config env s container entry value sourceId deduplicate).1 = 0) :
    s.systemMerkleRoot.tfm = true := by
  by_contra htfm
  by_cases hcheck : (commitCheckLocked env.available s).1 = 0
  · obtain ⟨-, hstate⟩ := commitCheckLocked_zero hcheck
    have hprep : prepareEvent S env s container entry value sourceId deduplicate =
        .error (-einval) := by
      cases value with
      | none => rfl
      | some v => exact if_pos (.inl htfm)
    simp only [commitEventLocked, hcheck, hstate, hprep, ne_eq, not_true_eq_false, if_false] at h
    exact absurd h (by decide)
  · simp only [commitEventLocked, ne_eq, hcheck, not_false_eq_true, if_true] at h

theorem commitStep_tfm {S : HashSuite} {s : CommitState} {op : CommitOp}
    {trimming : PolicyConfig × TrimEnv} (htrimming : op.trimming = some trimming)
    (h : (commitStep S s op).1 = 0) : s.systemMerkleRoot.tfm = true := by
  cases op with
  | addMeasurement config env container eventName eventData dependencies digest =>
      simp only [commitStep, addContainerMeasurement] at h
      split at h
      · split at h
        · exact absurd h (show -ewouldblock ≠ 0 by decide)
        · split at h
          · rename_i hcheck
            exact absurd h hcheck
          · rename_i hcheck
            obtain ⟨-, hstate⟩ := commitCheckLocked_zero (not_not.mp hcheck)
            rw [hstate] at h
            split at h
            · exact absurd h (show (1 : Ret) ≠ 0 by decide)
            · split at h
              · exact absurd h (show -enomem ≠ 0 by decide)
              · exact commitEventLocked_tfm h
      · exact absurd h (show -einval ≠ 0 by decide)
  | commitRoot config env value sourceId => exact commitEventLocked_tfm h
  | getError | createContainer => cases htrimming

/-- A successful commit appends its entry and then trims. -/
theorem StepEffect.committed {S : HashSuite} {s t : CommitState} {op : CommitOp} {ret : Ret}
    {config : PolicyConfig} {env : TrimEnv} (h : StepEffect S s op ret t)
    (htrimming : op.trimming = some (config, env)) (hret : ret = 0) :
    ∃ published entry sourceId, t = trimHistoryLocked S config env sourceId published ∧
      published.merkleRootHistory = s.merkleRootHistory ++ [entry] ∧
      published.merkleRootHistoryCount = s.merkleRootHistoryCount + 1 ∧
      published.systemMerkleRoot.tfm = s.systemMerkleRoot.tfm ∧
      entry.isAggregate = false ∧ op.committedValue ret t = some entry.value := by
  cases h with
  | refused error hne => exact absurd hret hne
  | commandFailed extra hunlatched hallowed hneg => exact absurd hret hneg.ne
  | measured node entry hardware p hnode hentry hunlatched hhardware hsoftware hp =>
      obtain ⟨rfl, rfl⟩ := Prod.mk.inj (Option.some.inj htrimming)
      refine ⟨_, p.history, _, rfl, ?_⟩
      rw [committedValue_measured hnode, hp.history_value]
      cases hardware <;> exact ⟨rfl, rfl, rfl, hp.history_plain.1, rfl⟩
  | rootCommitted v hardware p hunlatched hhardware hsoftware hp =>
      obtain ⟨rfl, rfl⟩ := Prod.mk.inj (Option.some.inj htrimming)
      refine ⟨_, p.history, _, rfl, ?_⟩
      have hvalue : p.history.value = v := hp.history_value.trans hp.leaf
      rw [hvalue]
      cases hardware <;> exact ⟨rfl, rfl, rfl, hp.history_plain.1, rfl⟩
  | checked | created => cases htrimming

/-- For every commit that succeeds on a history within its limit: the history is within the limit
afterwards, and counted right, exactly if the limit is at least three and not the largest of all,
or was not reached. -/
theorem history_limit_kept_iff (S : HashSuite) (s : CommitState) (hboot : Boot s)
    (ops : List CommitOp) (op : CommitOp) (config : PolicyConfig) (env : TrimEnv)
    (htrimming : op.trimming = some (config, env))
    (hmax : config.merkleHistoryMaxSize ≠ 0) (hscope : config.merkleHistoryScope = scopeGlobal)
    (hret : (commitStep S (run (commitStep S) (commitInit s) ops) op).1 = 0)
    (henv : env.Succeeds)
    (hlimit : (run (commitStep S) (commitInit s) ops).merkleRootHistory.length ≤
      config.merkleHistoryMaxSize.toNat) :
    (run (commitStep S) (commitInit s) (ops ++ [op])).merkleRootHistory.length ≤
          config.merkleHistoryMaxSize.toNat ∧
        (run (commitStep S) (commitInit s) (ops ++ [op])).merkleRootHistoryCount.toNat =
          (run (commitStep S) (commitInit s) (ops ++ [op])).merkleRootHistory.length ↔
      (3 ≤ config.merkleHistoryMaxSize.toNat ∧ config.merkleHistoryMaxSize ≠ 0xffffffff) ∨
        (run (commitStep S) (commitInit s) ops).merkleRootHistory.length <
          config.merkleHistoryMaxSize.toNat := by
  have hcount := (Summarised.of_run (S := S) hboot ops).historyCount
  have htfm := commitStep_tfm htrimming hret
  rw [run_append]
  generalize run (commitStep S) (commitInit s) ops = before at *
  obtain ⟨published, entry, sourceId, hafter, hhistory, hcounted, hroot, -⟩ :=
    (commitStep_effect S before op).committed htrimming hret
  have hlength : published.merkleRootHistory.length = before.merkleRootHistory.length + 1 := by
    rw [hhistory, List.length_append, List.length_singleton]
  have hpublished : published.merkleRootHistoryCount =
      UInt32.ofNat published.merkleRootHistory.length := by
    rw [hcounted, hcount, hlength, UInt32.ofNat_add]
    rfl
  have hrun : run (commitStep S) before [op] = trimHistoryLocked S config env sourceId published :=
    hafter
  -- A history within its limit is no longer than the counter can say.
  have hsound (hkept : (trimHistoryLocked S config env sourceId
      published).merkleRootHistory.length ≤ config.merkleHistoryMaxSize.toNat) :
      (trimHistoryLocked S config env sourceId published).merkleRootHistoryCount.toNat =
        (trimHistoryLocked S config env sourceId published).merkleRootHistory.length := by
    rw [trimHistoryLocked_count hpublished]
    exact UInt32.toNat_ofNat_of_lt' (hkept.trans_lt config.merkleHistoryMaxSize.toNat_lt)
  rw [hrun, and_iff_left_of_imp hsound]
  exact trimHistoryLocked_kept_iff S henv (hroot.trans htfm) hpublished hmax
    (by rw [hscope]; decide) sourceId hlength hlimit

/-- The commit of a policy change under a history limit of `limit` entries. -/
def limitedCommit (limit : UInt32) (value : UInt8) : CommitOp :=
  .commitRoot { initDefaultConfig .zero with merkleHistoryMaxSize := limit } workingCommit
    (some (List.Vector.replicate 32 value)) (some "global_policy".ascii)

theorem history_limit_kept_iff_three :
    (run (commitStep referencePlatform.toHashSuite) (commitInit (bootState 0))
        [limitedCommit 3 0, limitedCommit 3 1, limitedCommit 3 2]).merkleRootHistory.length = 3 ∧
      (run (commitStep referencePlatform.toHashSuite) (commitInit (bootState 0))
        ([limitedCommit 3 0, limitedCommit 3 1, limitedCommit 3 2] ++
          [limitedCommit 3 3])).merkleRootHistory.length ≤ 3 := by
  have hboot : Boot (bootState 0) := by constructor <;> decide +kernel
  have henv : workingCommit.trim.Succeeds := ⟨rfl, rfl, fun _ => le_rfl⟩
  have hlength : (run (commitStep referencePlatform.toHashSuite) (commitInit (bootState 0))
      [limitedCommit 3 0, limitedCommit 3 1, limitedCommit 3 2]).merkleRootHistory.length = 3 := by
    decide +kernel
  refine ⟨hlength, ?_⟩
  exact ((history_limit_kept_iff referencePlatform.toHashSuite (bootState 0) hboot
    [limitedCommit 3 0, limitedCommit 3 1, limitedCommit 3 2] (limitedCommit 3 3)
    { initDefaultConfig .zero with merkleHistoryMaxSize := 3 } workingCommit.trim rfl (by decide)
    rfl (by decide +kernel) henv (hlength.le.trans (by decide))).mpr
      (.inl ⟨by decide, by decide⟩)).1

/-- A limit of one entry passes the checks of a policy; the second commit leaves two entries. -/
theorem history_limit_exceeded_one :
    normalizeSnapshot { initDefaultSnapshot with config :=
        { initDefaultConfig .zero with merkleHistoryMaxSize := 1 } } =
      .ok { initDefaultSnapshot with config :=
        { initDefaultConfig .zero with merkleHistoryMaxSize := 1 } } ∧
      Boot (bootState 0) ∧ workingCommit.trim.Succeeds ∧
      (run (commitStep referencePlatform.toHashSuite) (commitInit (bootState 0))
        [limitedCommit 1 0]).merkleRootHistory.length = 1 ∧
      (commitStep referencePlatform.toHashSuite (run (commitStep referencePlatform.toHashSuite)
        (commitInit (bootState 0)) [limitedCommit 1 0]) (limitedCommit 1 1)).1 = 0 ∧
      (run (commitStep referencePlatform.toHashSuite) (commitInit (bootState 0))
        [limitedCommit 1 0, limitedCommit 1 1]).merkleRootHistory.length = 2 := by
  refine ⟨by decide +kernel, by constructor <;> decide +kernel, ⟨rfl, rfl, fun _ => le_rfl⟩, ?_⟩
  decide +kernel

end BpfIma
