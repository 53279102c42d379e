import BpfIma.Model.HistoryLists
import BpfIma.Verification.Commit.Limit

/-! # A trim that fails

The oldest entries are on a list of their own when the hashing of any of them can fail. They
come back to the front of the history, so a trim that fails changes nothing, and the commit
that asked for it has long published its entry. -/

namespace BpfIma

open CString Errno Machine

/-! ## Moving entries out -/

section Lists

variable {toDelete deletedCount : UInt32}

/-- The loop counts what it moves, and moves what it is asked to as long as there are entries. -/
theorem moveOldest_take (entriesToDelete history : List MerkleRootEntry)
    (hle : deletedCount ≤ toDelete) :
    moveOldest toDelete deletedCount entriesToDelete history =
      (deletedCount + UInt32.ofNat (min (toDelete.toNat - deletedCount.toNat) history.length),
        entriesToDelete ++ history.take (toDelete.toNat - deletedCount.toNat),
        history.drop (toDelete.toNat - deletedCount.toNat)) := by
  induction history generalizing deletedCount entriesToDelete with
  | nil => simp [moveOldest]
  | cons entry history ih =>
      have hbound : toDelete.toNat < 2 ^ 32 := toDelete.toNat_lt
      rw [UInt32.le_iff_toNat_le] at hle
      rw [moveOldest]
      split_ifs with hdone
      · have hzero : toDelete.toNat - deletedCount.toNat = 0 := by
          rw [ge_iff_le, UInt32.le_iff_toNat_le] at hdone
          omega
        simp [hzero]
      · rw [ge_iff_le, UInt32.le_iff_toNat_le] at hdone
        have hnext : (deletedCount + 1).toNat = deletedCount.toNat + 1 := by
          rw [UInt32.toNat_add]
          exact Nat.mod_eq_of_lt (by change deletedCount.toNat + 1 < 2 ^ 32; omega)
        obtain ⟨left, hleft⟩ : ∃ left, toDelete.toNat - deletedCount.toNat = left + 1 :=
          ⟨toDelete.toNat - deletedCount.toNat - 1, by omega⟩
        have hleft' : toDelete.toNat - (deletedCount + 1).toNat = left := by omega
        rw [ih _ (by rw [UInt32.le_iff_toNat_le, hnext]; omega), hleft', hleft]
        have hcount : deletedCount + 1 + UInt32.ofNat (min left history.length) =
            deletedCount + UInt32.ofNat (min (left + 1) (history.length + 1)) := by
          rw [Nat.add_min_add_right, UInt32.ofNat_add, UInt32.add_assoc, UInt32.add_comm 1]
          rfl
        rw [hcount, List.append_assoc, List.singleton_append, List.take_succ_cons,
          List.drop_succ_cons, List.length_cons]

end Lists

/-! ## Failing steps -/

/-- One of the calls of the hash API fails. -/
def ShashRets.Fails (rets : ShashRets) : Prop :=
  rets.init < 0 ∨ rets.updateCurrent < 0 ∨ rets.updateEntry < 0 ∨ rets.final < 0

/-- A trim of `currentCount` entries is due and one of its steps fails: an allocation, or a call
of the hash API for one of the entries to be deleted. -/
structure TrimSteps.Fails (steps : TrimSteps) (currentCount maxSize : UInt32) : Prop where
  due : maxSize < currentCount
  step : steps.aggregateAlloc = false ∨ steps.descAlloc = false ∨
    ∃ i < (trimToDelete currentCount).toNat, (steps.shash i).Fails

theorem ShashRets.ret_neg {rets : ShashRets} (h : rets.Fails) : rets.ret < 0 := by
  rw [ShashRets.ret]
  split_ifs with hinit hcurrent hentry
  · exact hinit
  · exact hcurrent
  · exact hentry
  · exact ((h.resolve_left hinit).resolve_left hcurrent).resolve_left hentry

theorem TrimSteps.Fails.env_step {steps : TrimSteps} {currentCount maxSize : UInt32}
    (h : steps.Fails currentCount maxSize) :
    steps.env.aggregateAlloc = false ∨ steps.env.descAlloc = false ∨
      ∃ i < (trimToDelete currentCount).toNat, steps.env.hashRet i < 0 := by
  rcases h.step with haggregate | hdesc | ⟨i, hi, hfails⟩
  · exact .inl haggregate
  · exact .inr (.inl hdesc)
  · exact .inr (.inr ⟨i, hi, ShashRets.ret_neg hfails⟩)

section Failing

variable {S : HashSuite} {env : TrimEnv}

/-- The loop stops at the first entry that it cannot hash. -/
theorem aggregateLoop_fails {entries : List MerkleRootEntry} {count : ℕ} (acc : Digest)
    (h : ∃ i < entries.length, env.hashRet (count + i) < 0) :
    ∃ ret < 0, aggregateLoop S env count acc entries = .error ret := by
  induction entries generalizing count acc with
  | nil =>
      obtain ⟨i, hi, -⟩ := h
      exact absurd hi (Nat.not_lt_zero i)
  | cons entry entries ih =>
      rw [aggregateLoop]
      by_cases hret : env.hashRet count < 0
      · exact ⟨_, hret, if_pos hret⟩
      · rw [if_neg hret]
        obtain ⟨i, hi, hfails⟩ := h
        cases i with
        | zero => exact absurd hfails hret
        | succ i =>
            refine ih _ ⟨i, Nat.lt_of_succ_lt_succ hi, ?_⟩
            rwa [Nat.add_assoc, Nat.add_comm 1]

/-- The entries that were moved out cannot be aggregated if hashing one of them fails. -/
theorem aggregateMerkleEntries_fails (tfm : Bool) {history : List MerkleRootEntry}
    {toDelete : ℕ} (hlength : toDelete ≤ history.length)
    (h : env.descAlloc = false ∨ ∃ i < toDelete, env.hashRet i < 0) :
    ∃ ret < 0, aggregateMerkleEntries S env tfm (history.take toDelete) = .error ret := by
  rw [aggregateMerkleEntries]
  cases tfm with
  | false => exact ⟨-einval, by decide, rfl⟩
  | true =>
      rcases h with hdesc | ⟨i, hi, hfails⟩
      · exact ⟨-enomem, by decide, by simp [hdesc]⟩
      · cases halloc : env.descAlloc with
        | false => exact ⟨-enomem, by decide, rfl⟩
        | true =>
            refine aggregateLoop_fails zeroDigest ⟨i, ?_, by rwa [Nat.zero_add]⟩
            rw [List.length_take]
            omega

/-- A trim that cannot aggregate what it has moved changes nothing. -/
theorem trimMerkleRootHistoryLocked_fails {maxSize : UInt32} {s : CommitState}
    (hdue : maxSize < s.merkleRootHistoryCount)
    (hlength : (trimToDelete s.merkleRootHistoryCount).toNat ≤ s.merkleRootHistory.length)
    (h : env.aggregateAlloc = false ∨ env.descAlloc = false ∨
      ∃ i < (trimToDelete s.merkleRootHistoryCount).toNat, env.hashRet i < 0) :
    ∃ ret < 0, trimMerkleRootHistoryLocked S env maxSize s = (ret, s) := by
  rw [trimMerkleRootHistoryLocked, if_neg (UInt32.not_le.mpr hdue)]
  cases halloc : env.aggregateAlloc with
  | false => exact ⟨-enomem, by decide, rfl⟩
  | true =>
      obtain ⟨ret, hret, haggregate⟩ := aggregateMerkleEntries_fails (S := S)
        s.systemMerkleRoot.tfm hlength (h.resolve_left (by simp [halloc]))
      refine ⟨ret, hret, ?_⟩
      dsimp only
      rw [if_neg (by simp), haggregate, List.take_append_drop]

end Failing

/-! ## Entry by entry -/

/-- The history of a state in memory. -/
def CommitState.historyMemory (s : CommitState) : HistoryMemory :=
  ⟨s.merkleRootHistory, s.merkleRootHistoryCount⟩

theorem moveOldest_zero (toDelete : UInt32) (history : List MerkleRootEntry) :
    moveOldest toDelete 0 [] history =
      (UInt32.ofNat (history.take toDelete.toNat).length, history.take toDelete.toNat,
        history.drop toDelete.toNat) := by
  have hle : (0 : UInt32) ≤ toDelete := UInt32.le_iff_toNat_le.mpr (Nat.zero_le _)
  rw [moveOldest_take [] history hle]
  simp

/-- Moving entries one by one comes to cutting the list in two. -/
theorem trimHistoryLists_refines (S : HashSuite) (steps : TrimSteps) (maxSize : UInt32)
    (s : CommitState) :
    trimHistoryLists S steps s.systemMerkleRoot.tfm maxSize s.historyMemory =
      ((trimMerkleRootHistoryLocked S steps.env maxSize s).1,
        (trimMerkleRootHistoryLocked S steps.env maxSize s).2.historyMemory) := by
  have hmemory : s.historyMemory = ⟨s.merkleRootHistory, s.merkleRootHistoryCount⟩ := rfl
  have halloc : steps.env.aggregateAlloc = steps.aggregateAlloc := rfl
  rw [trimHistoryLists, trimMerkleRootHistoryLocked, hmemory, halloc, moveOldest_zero]
  dsimp only
  split_ifs
  · rfl
  · cases aggregateMerkleEntries S steps.env s.systemMerkleRoot.tfm
        (s.merkleRootHistory.take (trimToDelete s.merkleRootHistoryCount).toNat) with
    | error ret => rfl
    | ok result => rfl
  · rfl

/-! ## A trim that fails -/

/-- The trim of this history returns an error and leaves it, with its count, as it was. -/
structure TrimRestores (S : HashSuite) (steps : TrimSteps) (maxSize : UInt32) (s : CommitState) :
    Prop where
  error : (trimHistoryLists S steps s.systemMerkleRoot.tfm maxSize s.historyMemory).1 < 0
  history : (trimHistoryLists S steps s.systemMerkleRoot.tfm maxSize
    s.historyMemory).2.history = s.merkleRootHistory
  count : (trimHistoryLists S steps s.systemMerkleRoot.tfm maxSize s.historyMemory).2.count =
    UInt32.ofNat s.merkleRootHistory.length

section Restores

variable {S : HashSuite} {steps : TrimSteps} {maxSize : UInt32} {s : CommitState}
  (hcount : s.merkleRootHistoryCount = UInt32.ofNat s.merkleRootHistory.length)
  (h : steps.Fails s.historyMemory.count maxSize)

include hcount h

theorem TrimSteps.Fails.trim_eq :
    ∃ ret < 0, trimMerkleRootHistoryLocked S steps.env maxSize s = (ret, s) := by
  -- A counter that has wrapped says less than there is: the entries to delete are there.
  have hcounted : s.merkleRootHistoryCount.toNat ≤ s.merkleRootHistory.length := by
    rw [hcount]
    exact Nat.mod_le _ _
  have hdue : maxSize.toNat < s.merkleRootHistoryCount.toNat := UInt32.lt_iff_toNat_lt.mp h.due
  refine trimMerkleRootHistoryLocked_fails h.due ?_ h.env_step
  rw [toNat_trimToDelete]
  split_ifs <;> omega

theorem TrimSteps.Fails.restores : TrimRestores S steps maxSize s := by
  obtain ⟨ret, hret, htrim⟩ := h.trim_eq (S := S) hcount
  have hmemory : trimHistoryLists S steps s.systemMerkleRoot.tfm maxSize s.historyMemory =
      (ret, s.historyMemory) := by rw [trimHistoryLists_refines, htrim]
  constructor
  · rwa [hmemory]
  · rw [hmemory]
    rfl
  · rw [hmemory, ← hcount]
    rfl

/-- With such steps `bpfima_trim_history_locked` leaves the state as it is. -/
theorem TrimSteps.Fails.trimHistoryLocked_eq {config : PolicyConfig}
    (hmax : config.merkleHistoryMaxSize = maxSize) (sourceId : Option Bytes) :
    trimHistoryLocked S config steps.env sourceId s = s := by
  obtain ⟨ret, -, htrim⟩ := h.trim_eq (S := S) hcount
  rw [trimHistoryLocked, hmax, htrim]
  simp

end Restores

/-! ## The commit that asked for the trim -/

section Commit

variable {S : HashSuite} {config : PolicyConfig} {env : CommitEnv} {s t : CommitState}
  {container : Option ContainerRef} {entry : Option MeasurementEntry} {value : Option Digest}
  {sourceId : Option Bytes} {deduplicate : Bool}

/-- What a commit returns does not depend on its trim. -/
theorem commitEventLocked_eq :
    commitEventLocked S config env s container entry value sourceId deduplicate =
      match publishedEvent S env s container entry value sourceId deduplicate with
      | .error left => left
      | .ok t => (0, trimHistoryLocked S config env.trim sourceId t) := by
  rw [commitEventLocked, publishedEvent]
  dsimp only
  by_cases hcheck : (commitCheckLocked env.available s).1 ≠ 0
  · rw [if_pos hcheck, if_pos hcheck]
  rw [if_neg hcheck, if_neg hcheck]
  generalize (commitCheckLocked env.available s).2 = checked
  cases prepareEvent S env checked container entry value sourceId deduplicate with
  | error ret => rfl
  | ok p =>
      dsimp only
      split_ifs <;> rfl

theorem publishedEvent_trim (trim : TrimEnv) :
    publishedEvent S { env with trim := trim } s container entry value sourceId deduplicate =
      publishedEvent S env s container entry value sourceId deduplicate := rfl

/-- What has been published when the trim is called. -/
theorem publishedEvent_ok
    (h : publishedEvent S env s container entry value sourceId deduplicate = .ok t) :
    ∃ history, t.merkleRootHistory = s.merkleRootHistory ++ [history] ∧
      t.merkleRootHistoryCount = s.merkleRootHistoryCount + 1 ∧
      (∀ v ∈ value, history.value = eventLeaf S container entry v) ∧
      ∀ c ∈ container, ∀ e ∈ entry,
        t.containers = s.containers.modify c.1 (ContainerNode.append e history.value) := by
  -- a commit without a limit stops here
  have hcommit : commitEventLocked S { initDefaultConfig .zero with merkleHistoryMaxSize := 0 } env
      s container entry value sourceId deduplicate = (0, t) := by
    rw [commitEventLocked_eq, h]
    dsimp only
    rw [trimHistoryLocked_within S (.inl rfl)]
  have heffect := commitEventLocked_effect S
    { initDefaultConfig .zero with merkleHistoryMaxSize := 0 } env s container entry value sourceId
    deduplicate
  rw [hcommit] at heffect
  dsimp only at heffect
  generalize hret : (0 : Ret) = ret at heffect
  generalize hleft : t = left at heffect
  cases heffect with
  | refused error hne => exact absurd hret.symm hne
  | commandFailed extra hunlatched hallowed hneg => exact absurd hret.symm hneg.ne
  | committed hardware p v hunlatched hhardware hsoftware hvalue hentry hprepares =>
      rw [trimHistoryLocked_within S (.inl rfl)] at hleft
      subst hvalue hleft
      refine ⟨p.history, ?_, ?_, ?_, ?_⟩
      · cases hardware <;> rfl
      · cases hardware <;> rfl
      · rintro v ⟨rfl⟩
        rw [hprepares.history_value, hprepares.leaf]
      · rintro c ⟨rfl⟩ e ⟨rfl⟩
        rw [hprepares.history_value]
        cases hardware <;> rfl

end Commit

/-- On every history that a run leads to, and on every one that a commit then publishes: a trim
with a step that fails returns an error and leaves the history and its count as they were. The
commit returns zero and leaves the state that it has published. -/
theorem failed_trim_restores_history (S : HashSuite) (boot : CommitState) (hboot : Boot boot)
    (ops : List CommitOp) (steps : TrimSteps) :
    let s := run (commitStep S) (commitInit boot) ops
    (∀ maxSize, steps.Fails s.historyMemory.count maxSize → TrimRestores S steps maxSize s) ∧
      ∀ (config : PolicyConfig) (env : CommitEnv) (container : Option ContainerRef)
        (entry : Option MeasurementEntry) (value : Option Digest) (sourceId : Option Bytes)
        (deduplicate : Bool) (t : CommitState),
        publishedEvent S env s container entry value sourceId deduplicate = .ok t →
        steps.Fails t.historyMemory.count config.merkleHistoryMaxSize →
        TrimRestores S steps config.merkleHistoryMaxSize t ∧
          commitEventLocked S config { env with trim := steps.env } s container entry value
            sourceId deduplicate = (0, t) ∧
          t.merkleRootHistoryCount = UInt32.ofNat t.merkleRootHistory.length ∧
          ∃ history, t.merkleRootHistory = s.merkleRootHistory ++ [history] ∧
            (∀ v ∈ value, history.value = eventLeaf S container entry v) ∧
            ∀ c ∈ container, ∀ e ∈ entry,
              t.containers = s.containers.modify c.1 (ContainerNode.append e history.value) := by
  intro s
  have hcount : s.merkleRootHistoryCount = UInt32.ofNat s.merkleRootHistory.length :=
    (Summarised.of_run (S := S) hboot ops).historyCount
  refine ⟨fun maxSize hfails => hfails.restores hcount, ?_⟩
  intro config env container entry value sourceId deduplicate t hpublished hfails
  obtain ⟨history, hhistory, hcounted, hvalue, hcontainers⟩ := publishedEvent_ok hpublished
  have hcount' : t.merkleRootHistoryCount = UInt32.ofNat t.merkleRootHistory.length := by
    rw [hcounted, hcount, hhistory, List.length_append, List.length_singleton, UInt32.ofNat_add]
    rfl
  refine ⟨hfails.restores hcount', ?_, hcount', history, hhistory, hvalue, hcontainers⟩
  rw [commitEventLocked_eq, publishedEvent_trim, hpublished]
  dsimp only
  rw [hfails.trimHistoryLocked_eq hcount' rfl]

/-- The hash of the second entry cannot be finished. -/
def secondEntryFails : TrimSteps :=
  ⟨true, true, fun i => ⟨0, 0, 0, if i = 1 then -eio else 0⟩⟩

theorem secondEntryFails_fails {currentCount maxSize : UInt32} (hdue : maxSize < currentCount)
    (htwo : 1 < (trimToDelete currentCount).toNat) :
    secondEntryFails.Fails currentCount maxSize :=
  ⟨hdue, .inr (.inr ⟨1, htwo, .inr (.inr (.inr (by decide)))⟩)⟩

/-- Four commits without a limit. -/
def fourCommits : List CommitOp :=
  [limitedCommit 0 0, limitedCommit 0 1, limitedCommit 0 2, limitedCommit 0 3]

/-- The trim of four entries, and that of five by the commit of the last of them. -/
theorem failed_trim_restores_history_second_entry :
    let s := run (commitStep referencePlatform.toHashSuite) (commitInit (bootState 0)) fourCommits
    TrimRestores referencePlatform.toHashSuite secondEntryFails 3 s ∧
      ∃ t, commitEventLocked referencePlatform.toHashSuite
          { initDefaultConfig .zero with merkleHistoryMaxSize := 3 }
          { workingCommit with trim := secondEntryFails.env } s none none
          (some (List.Vector.replicate 32 4)) none false = (0, t) ∧
        TrimRestores referencePlatform.toHashSuite secondEntryFails 3 t ∧
        t.merkleRootHistory.length = 5 := by
  intro s
  have hboot : Boot (bootState 0) := by constructor <;> decide +kernel
  have hcount : s.merkleRootHistoryCount = 4 := by decide +kernel
  have hlength : s.merkleRootHistory.length = 4 := by decide +kernel
  have hfour : s.historyMemory.count = 4 := hcount
  obtain ⟨hfirst, hsecond⟩ := failed_trim_restores_history referencePlatform.toHashSuite
    (bootState 0) hboot fourCommits secondEntryFails
  refine ⟨hfirst 3 (secondEntryFails_fails (by rw [hfour]; decide) (by rw [hfour]; decide)), ?_⟩
  have hreaches : (publishedEvent referencePlatform.toHashSuite workingCommit s none none
      (some (List.Vector.replicate 32 4)) none false).isOk = true := by decide +kernel
  cases hpublished : publishedEvent referencePlatform.toHashSuite workingCommit s none none
      (some (List.Vector.replicate 32 4)) none false with
  | error left =>
      rw [hpublished] at hreaches
      cases hreaches
  | ok t =>
      obtain ⟨history, hhistory, hcounted, -⟩ := publishedEvent_ok hpublished
      have hfive : t.historyMemory.count = 5 := by
        rw [CommitState.historyMemory, hcounted, hcount]
        rfl
      obtain ⟨hrestores, hcommit, -⟩ := hsecond
        { initDefaultConfig .zero with merkleHistoryMaxSize := 3 } workingCommit none none
        (some (List.Vector.replicate 32 4)) none false t hpublished
        (secondEntryFails_fails (by rw [hfive]; decide) (by rw [hfive]; decide))
      refine ⟨t, hcommit, hrestores, ?_⟩
      rw [hhistory, List.length_append, hlength]
      rfl

end BpfIma
