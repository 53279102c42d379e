import BpfIma.Verification.Commit.Replay

/-! # What a trimmed history still says

A trim replaces the oldest half of the root history by one aggregate, whose value is the
fold of the values it stands for. The first trim of a run loses nothing that a replay of the
history needs. The next one moves the aggregate into a new one as if it were the value of a
single commit. -/

namespace BpfIma

open CString Machine

/-! ## Replaying a history with an aggregate -/

/-- The value a replay starts from: that of a leading aggregate, or zeros. -/
def historySeed : List MerkleRootEntry → Digest
  | [] => zeroDigest
  | entry :: _ => if entry.isAggregate then entry.value else zeroDigest

/-- The values of the entries that stand for one commit each. -/
def plainValues (history : List MerkleRootEntry) : List Digest :=
  (history.filter fun entry => !entry.isAggregate).map MerkleRootEntry.value

/-- The root that a replay of the history computes. -/
def historySummary (S : HashSuite) (history : List MerkleRootEntry) : Digest :=
  (plainValues history).foldl S.extendHash (historySeed history)

/-- How many commits an entry stands for. -/
def MerkleRootEntry.represented (entry : MerkleRootEntry) : ℕ :=
  if entry.isAggregate then entry.aggregatedCount else 1

def representedCommits : List MerkleRootEntry → ℕ
  | [] => 0
  | entry :: history => entry.represented + representedCommits history

/-- Every entry stands for one commit. -/
def Plain (history : List MerkleRootEntry) : Prop := ∀ entry ∈ history, entry.isAggregate = false

theorem historySeed_append (history : List MerkleRootEntry) {entry : MerkleRootEntry}
    (h : entry.isAggregate = false) : historySeed (history ++ [entry]) = historySeed history := by
  cases history with
  | nil => simp [historySeed, h]
  | cons e history => rfl

theorem historySummary_append (S : HashSuite) (history : List MerkleRootEntry)
    {entry : MerkleRootEntry} (h : entry.isAggregate = false) :
    historySummary S (history ++ [entry]) =
      S.extendHash (historySummary S history) entry.value := by
  simp [historySummary, historySeed_append history h, plainValues, h]

theorem representedCommits_append (history : List MerkleRootEntry) {entry : MerkleRootEntry}
    (h : entry.isAggregate = false) :
    representedCommits (history ++ [entry]) = representedCommits history + 1 := by
  induction history with
  | nil => simp [representedCommits, MerkleRootEntry.represented, h]
  | cons e history ih =>
      rw [List.cons_append, representedCommits, ih, representedCommits, Nat.add_assoc]

namespace Plain

variable {history moved rest : List MerkleRootEntry}

theorem plainValues_eq (h : Plain history) :
    plainValues history = history.map MerkleRootEntry.value := by
  rw [plainValues, List.filter_eq_self.mpr fun entry hentry => by simp [h entry hentry]]

theorem historySeed_eq (h : Plain history) : historySeed history = zeroDigest := by
  cases history with
  | nil => rfl
  | cons entry history => simp [historySeed, h entry List.mem_cons_self]

theorem representedCommits_eq (h : Plain history) :
    representedCommits history = history.length := by
  induction history with
  | nil => rfl
  | cons entry history ih =>
      have hentry : entry.represented = 1 := by
        simp [MerkleRootEntry.represented, h entry List.mem_cons_self]
      have hrest := ih fun e he => h e (List.mem_cons_of_mem _ he)
      rw [representedCommits, hentry, hrest, List.length_cons, Nat.add_comm]

theorem append (h : Plain history) {entry : MerkleRootEntry} (hentry : entry.isAggregate = false) :
    Plain (history ++ [entry]) := by
  intro e he
  rcases List.mem_append.mp he with he | he
  · exact h e he
  · rwa [List.mem_singleton.mp he]

/-- The aggregate of plain entries replays to where they did. -/
theorem historySummary_aggregated (S : HashSuite) (s : CommitState) (h : Plain (moved ++ rest)) :
    historySummary S (aggregated S s moved rest).merkleRootHistory =
      historySummary S (moved ++ rest) := by
  have hrest : Plain rest := fun e he => h e (List.mem_append_right _ he)
  rw [historySummary, historySummary, h.plainValues_eq, h.historySeed_eq, List.map_append,
    List.foldl_append, ← hrest.plainValues_eq]
  rfl

/-- The aggregate of plain entries counts each of them. -/
theorem representedCommits_aggregated (S : HashSuite) (s : CommitState)
    (h : Plain (moved ++ rest)) :
    representedCommits (aggregated S s moved rest).merkleRootHistory =
      representedCommits (moved ++ rest) := by
  have hrest : Plain rest := fun e he => h e (List.mem_append_right _ he)
  rw [h.representedCommits_eq, List.length_append, ← hrest.representedCommits_eq]
  rfl

end Plain

/-! ## Runs with trims -/

/-- A successful commit trims if the history it leaves is not the former one with an entry
at its end. -/
def CommitOp.Trims (op : CommitOp) (ret : Ret) (s t : CommitState) : Prop :=
  (op.committedValue ret t).isSome = true ∧ t.merkleRootHistory.dropLast ≠ s.merkleRootHistory

instance (op : CommitOp) (ret : Ret) (s t : CommitState) : Decidable (op.Trims ret s t) :=
  inferInstanceAs (Decidable (_ ∧ _))

/-- The calls of a run whose trim took effect, oldest first. -/
def trims (S : HashSuite) : CommitState → List CommitOp → List CommitOp :=
  collect (commitStep S) fun s op =>
    if op.Trims (commitStep S s op).1 s (commitStep S s op).2 then some op else none

/-- A trim takes off the counter what it takes out of the history. -/
theorem count_aggregated {S : HashSuite} {s : CommitState} {moved rest : List MerkleRootEntry}
    (hcount : s.merkleRootHistoryCount = UInt32.ofNat s.merkleRootHistory.length)
    (hmoved : s.merkleRootHistory = moved ++ rest) :
    (aggregated S s moved rest).merkleRootHistoryCount =
      UInt32.ofNat (aggregated S s moved rest).merkleRootHistory.length := by
  rw [hmoved, List.length_append, UInt32.ofNat_add, UInt32.add_comm] at hcount
  simp only [aggregated, List.length_cons, hcount, UInt32.ofNat_add, UInt32.add_sub_cancel]
  rfl

/-- The history after the commits `values` and the trims `trimmed`: it is a faithful summary
as long as there was at most one trim. -/
structure Summarised (S : HashSuite) (s : CommitState) (values : List Digest)
    (trimmed : List CommitOp) : Prop where
  historyCount : s.merkleRootHistoryCount = UInt32.ofNat s.merkleRootHistory.length
  plain : trimmed = [] → Plain s.merkleRootHistory
  root : trimmed.length ≤ 1 → historySummary S s.merkleRootHistory = s.systemMerkleRoot.rootHash
  count : trimmed.length ≤ 1 → representedCommits s.merkleRootHistory = values.length

namespace Summarised

variable {S : HashSuite} {s : CommitState} {values : List Digest} {trimmed : List CommitOp}

theorem of_boot (h : Boot s) : Summarised S (commitInit s) [] [] where
  historyCount := by simp [commitInit, h.history, h.historyCount]
  plain _ := by simp [commitInit, h.history, Plain]
  root _ := by simp [commitInit, h.history, h.rootHash, historySummary, plainValues, historySeed]
  count _ := by simp [commitInit, h.history, representedCommits]

theorem congr_history (h : Summarised S s values trimmed) {t : CommitState}
    (hhistory : t.merkleRootHistory = s.merkleRootHistory)
    (hcount : t.merkleRootHistoryCount = s.merkleRootHistoryCount)
    (hroot : t.systemMerkleRoot = s.systemMerkleRoot) : Summarised S t values trimmed := by
  constructor
  · rw [hcount, hhistory, h.historyCount]
  · rw [hhistory]
    exact h.plain
  · rw [hhistory, hroot]
    exact h.root
  · rw [hhistory]
    exact h.count

/-- A commit without a trim adds its value at the end. -/
theorem append (h : Summarised S s values trimmed) {t : CommitState} {entry : MerkleRootEntry}
    (hentry : entry.isAggregate = false)
    (hhistory : t.merkleRootHistory = s.merkleRootHistory ++ [entry])
    (hcount : t.merkleRootHistoryCount = UInt32.ofNat t.merkleRootHistory.length)
    (hroot : t.systemMerkleRoot.rootHash =
      S.extendHash s.systemMerkleRoot.rootHash entry.value) :
    Summarised S t (values ++ [entry.value]) trimmed where
  historyCount := hcount
  plain htrimmed := by
    rw [hhistory]
    exact (h.plain htrimmed).append hentry
  root hone := by rw [hhistory, historySummary_append S _ hentry, h.root hone, hroot]
  count hone := by
    rw [hhistory, representedCommits_append _ hentry, h.count hone, List.length_append,
      List.length_singleton]

/-- The first trim of a run: all entries are plain, and their aggregate stands for them. -/
theorem trim (h : Summarised S s values []) {moved rest : List MerkleRootEntry}
    (hmoved : s.merkleRootHistory = moved ++ rest) (op : CommitOp) :
    Summarised S (aggregated S s moved rest) values [op] where
  historyCount := count_aggregated h.historyCount hmoved
  plain hnone := absurd hnone (List.cons_ne_nil op [])
  root _ := by
    have hplain := h.plain rfl
    rw [hmoved] at hplain
    rw [hplain.historySummary_aggregated, ← hmoved]
    exact h.root (Nat.zero_le 1)
  count _ := by
    have hplain := h.plain rfl
    rw [hmoved] at hplain
    rw [hplain.representedCommits_aggregated, ← hmoved]
    exact h.count (Nat.zero_le 1)

/-- After the second trim only the length of the history is still known. -/
theorem of_length {t : CommitState}
    (hcount : t.merkleRootHistoryCount = UInt32.ofNat t.merkleRootHistory.length)
    (htrimmed : 1 < trimmed.length) : Summarised S t values trimmed where
  historyCount := hcount
  plain hnone := by simp [hnone] at htrimmed
  root hone := absurd htrimmed (Nat.not_lt.mpr hone)
  count hone := absurd htrimmed (Nat.not_lt.mpr hone)

end Summarised

/-- A trim that leaves the former history in front of the last entry has changed nothing. -/
theorem trimHistoryLocked_history {S : HashSuite} {config : PolicyConfig} {env : TrimEnv}
    {sourceId : Option Bytes} {s : CommitState} {history : List MerkleRootEntry}
    {entry : MerkleRootEntry}
    (hcount : s.merkleRootHistoryCount = UInt32.ofNat s.merkleRootHistory.length)
    (hhistory : s.merkleRootHistory = history ++ [entry])
    (hlast : (trimHistoryLocked S config env sourceId s).merkleRootHistory.dropLast = history) :
    (trimHistoryLocked S config env sourceId s).merkleRootHistory = history ++ [entry] := by
  rcases trimHistoryLocked_spec S config env sourceId s with h | ⟨hmany, moved, rest, -, hmoved, h⟩
  · rw [h, hhistory]
  · rw [h] at hlast ⊢
    rcases List.eq_nil_or_concat rest with rfl | ⟨rest, last, rfl⟩
    · -- an aggregate alone would stand for the entry just added and nothing before it
      obtain rfl : history = [] := hlast.symm
      simp [hcount, hhistory] at hmany
    · rw [List.concat_eq_append] at hlast hmoved ⊢
      obtain ⟨-, hentry⟩ := List.append_inj' (hhistory.symm.trans
        (hmoved.trans (List.append_assoc moved rest [last]).symm)) rfl
      rw [hentry, ← hlast]
      simp only [aggregated, ← List.cons_append, List.dropLast_concat]

theorem trimHistoryLocked_count {S : HashSuite} {config : PolicyConfig} {env : TrimEnv}
    {sourceId : Option Bytes} {s : CommitState}
    (hcount : s.merkleRootHistoryCount = UInt32.ofNat s.merkleRootHistory.length) :
    (trimHistoryLocked S config env sourceId s).merkleRootHistoryCount =
      UInt32.ofNat (trimHistoryLocked S config env sourceId s).merkleRootHistory.length := by
  rcases trimHistoryLocked_spec S config env sourceId s with h | ⟨-, moved, rest, -, hmoved, h⟩
  · rw [h, hcount]
  · rw [h]
    exact count_aggregated hcount hmoved

namespace Summarised

variable {S : HashSuite} {s : CommitState} {values : List Digest} {trimmed : List CommitOp}

theorem publish (h : Summarised S s values trimmed) {container : Option ContainerRef}
    {entry : Option MeasurementEntry} {value : Digest} {deduplicate hardware : Bool}
    {p : PreparedEvent} (hp : Prepares S s container entry value deduplicate p) :
    Summarised S (publishEvent (anchorRoot s hardware p.newRoot) container entry p)
      (values ++ [p.newLeaf]) trimmed := by
  have hhistory : (anchorRoot s hardware p.newRoot).merkleRootHistory = s.merkleRootHistory := by
    cases hardware <;> rfl
  have hcount : (anchorRoot s hardware p.newRoot).merkleRootHistoryCount =
      s.merkleRootHistoryCount := by cases hardware <;> rfl
  rw [← hp.history_value]
  refine h.append hp.history_plain.1 ?_ ?_ ?_
  · simp only [publishEvent, hhistory]
  · simp only [publishEvent, hhistory, hcount, h.historyCount, List.length_append,
      List.length_singleton, UInt32.ofNat_add]
    rfl
  · rw [hp.history_value, ← hp.root]
    rfl

theorem commit (h : Summarised S s values trimmed) {container : Option ContainerRef}
    {entry : Option MeasurementEntry} {value : Digest} {deduplicate hardware : Bool}
    {p : PreparedEvent} {config : PolicyConfig} {env : TrimEnv} {sourceId : Option Bytes}
    {t : CommitState} (op : CommitOp) (hp : Prepares S s container entry value deduplicate p)
    (ht : t = trimHistoryLocked S config env sourceId
      (publishEvent (anchorRoot s hardware p.newRoot) container entry p)) :
    Summarised S t (values ++ [p.newLeaf])
      (trimmed ++
        if t.merkleRootHistory.dropLast ≠ s.merkleRootHistory then [op] else []) := by
  have hpublished : Summarised S (publishEvent (anchorRoot s hardware p.newRoot) container entry p)
      (values ++ [p.newLeaf]) trimmed := h.publish hp
  have hhistory : (publishEvent (anchorRoot s hardware p.newRoot) container entry
      p).merkleRootHistory = s.merkleRootHistory ++ [p.history] := by cases hardware <;> rfl
  have hcount : t.merkleRootHistoryCount = UInt32.ofNat t.merkleRootHistory.length := by
    rw [ht]
    exact trimHistoryLocked_count hpublished.historyCount
  by_cases hlast : t.merkleRootHistory.dropLast = s.merkleRootHistory
  · rw [if_neg (not_not_intro hlast), List.append_nil]
    have hkept : t.merkleRootHistory = s.merkleRootHistory ++ [p.history] := by
      rw [ht] at hlast ⊢
      exact trimHistoryLocked_history hpublished.historyCount hhistory hlast
    refine hpublished.congr_history (hkept.trans hhistory.symm) ?_ ?_
    · rw [hcount, hpublished.historyCount, hkept, hhistory]
    · rw [ht, systemMerkleRoot_trimHistoryLocked]
  · rw [if_pos hlast]
    cases trimmed with
    | nil =>
        rcases trimHistoryLocked_spec S config env sourceId (publishEvent
          (anchorRoot s hardware p.newRoot) container entry p) with hsame | ⟨-, _, _, -, hmoved, h⟩
        · rw [ht, hsame, hhistory, List.dropLast_concat] at hlast
          exact absurd rfl hlast
        · rw [ht, h]
          exact hpublished.trim hmoved op
    | cons first trimmed => exact .of_length hcount (by simp)

/-- The step lemma: a call adds to the two logs the value it commits and the trim it makes. -/
theorem step (h : Summarised S s values trimmed) {op : CommitOp} {ret : Ret} {s' : CommitState}
    (heffect : StepEffect S s op ret s') :
    Summarised S s' (values ++ (op.committedValue ret s').toList)
      (trimmed ++ (if op.Trims ret s s' then some op else none).toList) := by
  have hquiet (t : CommitState) (hnone : op.committedValue ret s' = none)
      (hhistory : t.merkleRootHistory = s.merkleRootHistory)
      (hcount : t.merkleRootHistoryCount = s.merkleRootHistoryCount)
      (hroot : t.systemMerkleRoot = s.systemMerkleRoot) :
      Summarised S t (values ++ (op.committedValue ret s').toList)
        (trimmed ++ (if op.Trims ret s s' then some op else none).toList) := by
    rw [if_neg (fun htrims => by simp [CommitOp.Trims, hnone] at htrims), hnone, Option.toList_none,
      Option.toList_none, List.append_nil, List.append_nil]
    exact h.congr_history hhistory hcount hroot
  have hcommit {leaf : Digest} (hvalue : op.committedValue ret s' = some leaf)
      (hs' : Summarised S s' (values ++ [leaf]) (trimmed ++
        if s'.merkleRootHistory.dropLast ≠ s.merkleRootHistory then [op] else [])) :
      Summarised S s' (values ++ (op.committedValue ret s').toList)
        (trimmed ++ (if op.Trims ret s s' then some op else none).toList) := by
    have htrims : op.Trims ret s s' ↔ s'.merkleRootHistory.dropLast ≠ s.merkleRootHistory := by
      simp [CommitOp.Trims, hvalue]
    rw [hvalue, Option.toList_some]
    by_cases hlast : s'.merkleRootHistory.dropLast ≠ s.merkleRootHistory
    · rw [if_pos hlast] at hs'
      rwa [if_pos (htrims.mpr hlast), Option.toList_some]
    · rw [if_neg hlast] at hs'
      rwa [if_neg (mt htrims.mp hlast), Option.toList_none]
  cases heffect with
  | refused error hret herror => exact hquiet _ (CommitOp.committedValue_of_ne hret) rfl rfl rfl
  | commandFailed extra hunlatched hallowed hret hextra =>
      exact hquiet _ (CommitOp.committedValue_of_ne hret.ne) rfl rfl rfl
  | measured node entry hardware p hnode hentry hunlatched hhardware hsoftware hp =>
      exact hcommit (committedValue_measured hnode) (h.commit _ hp rfl)
  | rootCommitted v hardware p hunlatched hhardware hsoftware hp =>
      refine hcommit ?_ (h.commit _ hp rfl)
      simp [CommitOp.committedValue, hp.leaf, eventLeaf]
  | checked hunlatched => exact hquiet _ rfl rfl rfl rfl
  | created containerId => exact hquiet _ rfl rfl rfl rfl

theorem of_run (hboot : Boot s) (ops : List CommitOp) :
    Summarised S (run (commitStep S) (commitInit s) ops) (committedValues S (commitInit s) ops)
      (trims S (commitInit s) ops) := by
  have h : Summarised S (run (commitStep S) (commitInit s) ops)
      ([] ++ committedValues S (commitInit s) ops) ([] ++ trims S (commitInit s) ops) :=
    run_collect_both (G := fun _ _ => True)
      (fun s op _ _ _ hlogs => hlogs.step (commitStep_effect S s op))
      (along_true _ _ (fun _ _ => trivial) _ _) (.of_boot hboot)
  exact h

end Summarised

/-- Every run in which at most one trim took effect: the root is what a replay of the history
computes, starting from the aggregate if there is one, and the entries of the history stand
for as many commits as there were. -/
theorem trimmed_history_summary (S : HashSuite) (s : CommitState) (hboot : Boot s)
    (ops : List CommitOp) (htrims : (trims S (commitInit s) ops).length ≤ 1) :
    historySummary S (run (commitStep S) (commitInit s) ops).merkleRootHistory =
        (run (commitStep S) (commitInit s) ops).systemMerkleRoot.rootHash ∧
      representedCommits (run (commitStep S) (commitInit s) ops).merkleRootHistory =
        (committedValues S (commitInit s) ops).length := by
  have h := Summarised.of_run (S := S) hboot ops
  exact ⟨h.root htrims, h.count htrims⟩

/-- Root commits of `n` different values under a history limit of three entries. -/
def limitedRun (n : ℕ) : List CommitOp :=
  (List.range n).map fun i =>
    .commitRoot { initDefaultConfig .zero with merkleHistoryMaxSize := 3 } workingCommit
      (some (List.Vector.replicate 32 i.toUInt8)) none

theorem trimmed_history_summary_limitedRun :
    (trims referencePlatform.toHashSuite (commitInit (bootState 0)) (limitedRun 4)).length = 1 ∧
      historySummary referencePlatform.toHashSuite (run (commitStep referencePlatform.toHashSuite)
          (commitInit (bootState 0)) (limitedRun 4)).merkleRootHistory =
        (run (commitStep referencePlatform.toHashSuite) (commitInit (bootState 0))
          (limitedRun 4)).systemMerkleRoot.rootHash ∧
      representedCommits (run (commitStep referencePlatform.toHashSuite)
          (commitInit (bootState 0)) (limitedRun 4)).merkleRootHistory = 4 := by
  have hboot : Boot (bootState 0) := by constructor <;> decide +kernel
  have htrims : (trims referencePlatform.toHashSuite (commitInit (bootState 0))
      (limitedRun 4)).length = 1 := by decide +kernel
  obtain ⟨hroot, hcount⟩ := trimmed_history_summary referencePlatform.toHashSuite (bootState 0)
    hboot (limitedRun 4) htrims.le
  refine ⟨htrims, hroot, hcount.trans ?_⟩
  decide +kernel

/-- The fifth commit trims again: the history then replays to another root and stands for
four commits. -/
theorem trimmed_history_summary_second_trim :
    Boot (bootState 0) ∧
      (trims referencePlatform.toHashSuite (commitInit (bootState 0)) (limitedRun 5)).length = 2 ∧
      historySummary referencePlatform.toHashSuite (run (commitStep referencePlatform.toHashSuite)
          (commitInit (bootState 0)) (limitedRun 5)).merkleRootHistory ≠
        (run (commitStep referencePlatform.toHashSuite) (commitInit (bootState 0))
          (limitedRun 5)).systemMerkleRoot.rootHash ∧
      representedCommits (run (commitStep referencePlatform.toHashSuite)
          (commitInit (bootState 0)) (limitedRun 5)).merkleRootHistory = 4 ∧
      (committedValues referencePlatform.toHashSuite (commitInit (bootState 0))
        (limitedRun 5)).length = 5 := by
  refine ⟨by constructor <;> decide +kernel, ?_⟩
  decide +kernel

end BpfIma
