import BpfIma.Model.HistoryReaders
import BpfIma.Verification.Commit.Limit

/-! # What readers of the root history see

The sections of a commit one after the other are the commit. A reader that runs between two of
them sees the history before or after the trim, or, while the trim has its entries out, the
history without its oldest half. -/

namespace BpfIma

open CString Errno Machine

section

variable (S : HashSuite)

/-! ## The sections of one call -/

theorem trimHistoryLocked_withoutLimit (config : PolicyConfig) (env : TrimEnv)
    (sourceId : Option Bytes) (s : CommitState) :
    trimHistoryLocked S { config with merkleHistoryMaxSize := 0 } env sourceId s = s := by
  simp [trimHistoryLocked]

theorem commitFailLocked_ne_zero (error : Ret) (s : CommitState) :
    (commitFailLocked error s).1 ≠ 0 := by
  unfold commitFailLocked
  dsimp only
  split
  · assumption
  · split
    · exact ne_of_lt ‹_›
    · decide

/-- A commit is its publication and then its trim. -/
theorem commitEventLocked_withoutLimit (config : PolicyConfig) (env : CommitEnv) (s : CommitState)
    (container : Option ContainerRef) (entry : Option MeasurementEntry) (value : Option Digest)
    (sourceId : Option Bytes) (deduplicate : Bool) {ret : Ret} {t : CommitState}
    (h : commitEventLocked S { config with merkleHistoryMaxSize := 0 } env s container entry value
      sourceId deduplicate = (ret, t)) :
    commitEventLocked S config env s container entry value sourceId deduplicate =
      (ret, if ret = 0 then trimHistoryLocked S config env.trim sourceId t else t) := by
  by_cases hcheck : (commitCheckLocked env.available s).1 = 0
  · obtain ⟨hunlatched, hstate⟩ := commitCheckLocked_zero hcheck
    simp only [commitEventLocked, hcheck, hstate, ne_eq, not_true_eq_false, if_false] at h ⊢
    cases hprep : prepareEvent S env s container entry value sourceId deduplicate with
    | error error =>
        have herror : error ≠ 0 := by
          rcases prepareEvent_error S hprep with hneg | ⟨rfl, -⟩
          · exact hneg.ne
          · decide
        simp only [hprep] at h ⊢
        obtain ⟨rfl, rfl⟩ := Prod.mk.inj h
        rw [if_neg herror]
    | ok p =>
        simp only [hprep] at h ⊢
        split at h
        · -- the command failed: the same error on both sides
          rename_i hfailed
          have hret : ret ≠ 0 := by
            split at h
            · obtain ⟨rfl, -⟩ := Prod.mk.inj h
              exact (freeHistoryRet_neg (commitFailLocked_ne_zero _ _)).ne
            · obtain ⟨rfl, -⟩ := Prod.mk.inj h
              exact (freeHistoryRet_neg hfailed.1).ne
          rw [if_pos hfailed, if_neg hret]
          exact h
        · rename_i hanchored
          rw [trimHistoryLocked_withoutLimit] at h
          obtain ⟨rfl, rfl⟩ := Prod.mk.inj h
          rw [if_neg hanchored, if_pos rfl]
  · simp only [commitEventLocked, ne_eq, hcheck, not_false_eq_true, if_true] at h ⊢
    obtain ⟨rfl, rfl⟩ := Prod.mk.inj h
    rw [if_neg hcheck]

/-- The trim that a call ends with. -/
def TrimPoint.finish : TrimPoint → CommitState → CommitState
  | .published config env sourceId, s => trimHistoryLocked S config env sourceId s
  | .idle, s => s
  | .moved .., s => s

/-- A call is its publication and then its trim. -/
theorem commitStep_withoutLimit (s : CommitState) (op : CommitOp) {ret : Ret} {t : CommitState}
    (h : commitStep S s op.withoutLimit = (ret, t)) :
    commitStep S s op = (ret, if ret = 0 then (op.trimPoint s).finish S t else t) := by
  cases op with
  | addMeasurement config env container eventName eventData dependencies digest =>
      simp only [commitStep, CommitOp.withoutLimit, addContainerMeasurement, CommitOp.trimPoint,
        TrimPoint.finish] at h ⊢
      -- a call that returns early returns an error under either policy
      have hearly {error : Ret} {u : CommitState} (herror : error ≠ 0)
          (hreturned : (error, u) = (ret, t)) {trimmed : CommitState} :
          (error, u) = (ret, if ret = 0 then trimmed else t) := by
        obtain ⟨rfl, rfl⟩ := Prod.mk.inj hreturned
        rw [if_neg herror]
      split at h
      · rename_i c name digest hcontainer
        simp only [hcontainer]
        split at h
        · rename_i hsleep
          rw [if_pos hsleep]
          exact hearly (by decide) h
        · rename_i hsleep
          rw [if_neg hsleep]
          split at h
          · rename_i hcheck
            rw [if_pos hcheck]
            exact hearly hcheck h
          · rename_i hcheck
            rw [if_neg hcheck]
            obtain ⟨-, hstate⟩ := commitCheckLocked_zero (not_not.mp hcheck)
            rw [hstate] at h ⊢
            split at h
            · rename_i hduplicate
              rw [if_pos hduplicate]
              exact hearly (by decide) h
            · rename_i hfresh
              rw [if_neg hfresh]
              split at h
              · exact hearly (by decide) h
              · exact commitEventLocked_withoutLimit S config env.commit s _ _ _ _ true h
      · exact hearly (by decide) h
  | commitRoot config env value sourceId =>
      exact commitEventLocked_withoutLimit S config env s none none value sourceId false h
  | getError available | createContainer containerId =>
      rw [CommitOp.trimPoint, TrimPoint.finish, ite_self]
      exact h

/-- The two sections of a trim are the trim. -/
theorem putBack_moveOut (config : PolicyConfig) (env : TrimEnv) (sourceId : Option Bytes)
    (s : CommitState) :
    (historyStep S (moveOut config env sourceId s) .putBack).2 =
      ⟨trimHistoryLocked S config env sourceId s, .idle⟩ := by
  unfold moveOut trimHistoryLocked
  split
  · rfl
  · split
    · rename_i hmany
      rw [trimMerkleRootHistoryLocked, if_neg (UInt32.not_le.mpr hmany.2)]
      dsimp only
      split
      · rfl
      · simp only [historyStep, putBack]
        cases aggregateMerkleEntries S env s.systemMerkleRoot.tfm
            (s.merkleRootHistory.take (trimToDelete s.merkleRootHistoryCount).toNat) with
        | error ret => rfl
        | ok aggregate => rfl
    · rfl

/-! ## Any interleaving -/

/-- The call that a section starts. -/
def startedCall (s : HistoryState) (sect : HistorySection) : Option CommitOp :=
  match s.trim, sect with
  | .idle, .call op => some op
  | _, _ => none

/-- The calls that have entered their first section, oldest first. -/
def startedCalls : HistoryState → List HistorySection → List CommitOp :=
  collect (historyStep S) startedCall

/-- The history before and after the trim of each call. -/
def historyViews : CommitState → List CommitOp → List (List MerkleRootEntry)
  | _, [] => []
  | s, op :: ops =>
      (commitStep S s op.withoutLimit).2.merkleRootHistory ::
        (commitStep S s op).2.merkleRootHistory :: historyViews (commitStep S s op).2 ops

theorem historyViews_append (s : CommitState) (ops rest : List CommitOp) :
    historyViews S s (ops ++ rest) =
      historyViews S s ops ++ historyViews S (run (commitStep S) s ops) rest := by
  induction ops generalizing s with
  | nil => rfl
  | cons op ops ih => simp [historyViews, ih]

/-- The states of the section machine by what the calls so far would do without readers. -/
inductive Reached (s₀ : CommitState) : HistoryState → List CommitOp → Prop where
  | idle (log : List CommitOp) : Reached s₀ ⟨run (commitStep S) s₀ log, .idle⟩ log
  | published {log : List CommitOp} {op : CommitOp} {t : CommitState} {config : PolicyConfig}
      {env : TrimEnv} {sourceId : Option Bytes}
      (hcommit : commitStep S (run (commitStep S) s₀ log) op.withoutLimit = (0, t))
      (hpoint : op.trimPoint (run (commitStep S) s₀ log) = .published config env sourceId) :
      Reached s₀ ⟨t, .published config env sourceId⟩ (log ++ [op])
  | moved {log : List CommitOp} {op : CommitOp} {t u : CommitState} {config : PolicyConfig}
      {env env' : TrimEnv} {sourceId : Option Bytes} {entries : List MerkleRootEntry}
      (hcommit : commitStep S (run (commitStep S) s₀ log) op.withoutLimit = (0, t))
      (hpoint : op.trimPoint (run (commitStep S) s₀ log) = .published config env sourceId)
      (hmoved : moveOut config env sourceId t = ⟨u, .moved env' entries⟩) :
      Reached s₀ ⟨u, .moved env' entries⟩ (log ++ [op])

variable {S}

/-- A call that is through has done what the commit does. -/
theorem Reached.finished {s₀ t : CommitState} {log : List CommitOp} {op : CommitOp} {ret : Ret}
    (hcommit : commitStep S (run (commitStep S) s₀ log) op.withoutLimit = (ret, t))
    {u : CommitState}
    (hu : u = if ret = 0 then (op.trimPoint (run (commitStep S) s₀ log)).finish S t else t) :
    Reached S s₀ ⟨u, .idle⟩ (log ++ [op]) := by
  have hrun : run (commitStep S) s₀ (log ++ [op]) = u := by
    rw [run_append, run_cons, run_nil, commitStep_withoutLimit S _ op hcommit, hu]
  rw [← hrun]
  exact .idle _

theorem Reached.trimmed {s₀ t : CommitState} {log : List CommitOp} {op : CommitOp}
    {config : PolicyConfig} {env : TrimEnv} {sourceId : Option Bytes}
    (hcommit : commitStep S (run (commitStep S) s₀ log) op.withoutLimit = (0, t))
    (hpoint : op.trimPoint (run (commitStep S) s₀ log) = .published config env sourceId) :
    Reached S s₀ ⟨trimHistoryLocked S config env sourceId t, .idle⟩ (log ++ [op]) := by
  refine .finished hcommit ?_
  rw [hpoint, if_pos rfl]
  rfl

/-- The step lemma: every section leads from one of these states to another. -/
theorem Reached.step {s₀ : CommitState} {s : HistoryState} {log : List CommitOp}
    (h : Reached S s₀ s log) (sect : HistorySection) :
    Reached S s₀ (historyStep S s sect).2 (log ++ (startedCall s sect).toList) := by
  have hwait (hstep : (historyStep S s sect).2 = s) (hnone : startedCall s sect = none) :
      Reached S s₀ (historyStep S s sect).2 (log ++ (startedCall s sect).toList) := by
    rw [hstep, hnone, Option.toList_none, List.append_nil]
    exact h
  cases h with
  | idle =>
      cases sect with
      | call op =>
          rcases hcommit : commitStep S (run (commitStep S) s₀ log) op.withoutLimit with ⟨ret, t⟩
          simp only [historyStep, hcommit]
          change Reached S s₀ _ (log ++ [op])
          by_cases hret : ret = 0
          · subst hret
            rw [if_pos rfl]
            cases hpoint : op.trimPoint (run (commitStep S) s₀ log) with
            | idle => exact .finished hcommit (by rw [hpoint, if_pos rfl]; rfl)
            | published config env sourceId => exact .published hcommit hpoint
            | moved => cases op <;> cases hpoint
          · rw [if_neg hret]
            exact .finished hcommit (if_neg hret).symm
      | moveOut | putBack => exact hwait rfl rfl
  | @published log op t config env sourceId hcommit hpoint =>
      cases sect with
      | moveOut =>
          change Reached S s₀ (moveOut config env sourceId t) (log ++ [op] ++ [])
          rw [List.append_nil]
          have htrim := putBack_moveOut S config env sourceId t
          rcases hmoved : moveOut config env sourceId t with ⟨u, _ | _ | _⟩
          · rw [hmoved] at htrim
            obtain rfl : u = trimHistoryLocked S config env sourceId t :=
              congrArg HistoryState.engine htrim
            exact .trimmed hcommit hpoint
          · rw [hmoved] at htrim
            cases congrArg HistoryState.trim htrim
          · exact .moved hcommit hpoint hmoved
      | call | putBack => exact hwait rfl rfl
  | @moved log op t u config env env' sourceId entries hcommit hpoint hmoved =>
      cases sect with
      | putBack =>
          have htrim := putBack_moveOut S config env sourceId t
          rw [hmoved] at htrim
          change Reached S s₀ _ (log ++ [op] ++ [])
          rw [htrim, List.append_nil]
          exact .trimmed hcommit hpoint
      | call | moveOut => exact hwait rfl rfl

/-- What a trim has taken out while it aggregates: the oldest half, as far as the counter goes. -/
theorem moveOut_moved {config : PolicyConfig} {env env' : TrimEnv} {sourceId : Option Bytes}
    {t u : CommitState} {entries : List MerkleRootEntry}
    (hcount : t.merkleRootHistoryCount = UInt32.ofNat t.merkleRootHistory.length)
    (h : moveOut config env sourceId t = ⟨u, .moved env' entries⟩) :
    entries = t.merkleRootHistory.take (t.merkleRootHistory.length % 2 ^ 32 / 2) ∧
      u.merkleRootHistory =
        t.merkleRootHistory.drop (t.merkleRootHistory.length % 2 ^ 32 / 2) := by
  have hcounted : t.merkleRootHistoryCount.toNat = t.merkleRootHistory.length % 2 ^ 32 := by
    rw [hcount]
    exact UInt32.toNat_ofNat'
  unfold moveOut at h
  split at h
  · cases h
  · split at h
    · rename_i hmany
      have hpositive := toNat_limit_ne_zero hmany.1
      have hlarger := UInt32.lt_iff_toNat_lt.mp hmany.2
      have hhalf : t.merkleRootHistoryCount.toNat / 2 ≠ 0 := by omega
      dsimp only at h
      rw [toNat_trimToDelete, if_neg hhalf, hcounted] at h
      split at h
      · cases h
      · cases h
        exact ⟨rfl, rfl⟩
    · cases h

end

/-- For every interleaving of the sections of any calls, a reader that traverses the history under
its lock sees the history before or after the trim of one of these calls; or a trim has its entries
out, and the reader sees the history before that trim without its oldest half, which is half of what
the 32-bit counter says. -/
theorem reader_sees_history (S : HashSuite) (s : CommitState) (hboot : Boot s)
    (sections : List HistorySection) :
    (run (historyStep S) ⟨commitInit s, .idle⟩ sections).engine.merkleRootHistory ∈
        [] :: historyViews S (commitInit s) (startedCalls S ⟨commitInit s, .idle⟩ sections) ∨
      ∃ env entries, ∃ before ∈ historyViews S (commitInit s)
          (startedCalls S ⟨commitInit s, .idle⟩ sections),
        (run (historyStep S) ⟨commitInit s, .idle⟩ sections).trim = .moved env entries ∧
        entries = before.take (before.length % 2 ^ 32 / 2) ∧
        (run (historyStep S) ⟨commitInit s, .idle⟩ sections).engine.merkleRootHistory =
          before.drop (before.length % 2 ^ 32 / 2) := by
  have hreached : Reached S (commitInit s) (run (historyStep S) ⟨commitInit s, .idle⟩ sections)
      (startedCalls S ⟨commitInit s, .idle⟩ sections) :=
    run_collect (P := Reached S (commitInit s)) (fun s sect log _ h => h.step sect)
      (along_true _ (fun _ _ => True) (fun _ _ => trivial) _ _) (.idle [])
  generalize run (historyStep S) ⟨commitInit s, .idle⟩ sections = t,
    startedCalls S ⟨commitInit s, .idle⟩ sections = log at hreached ⊢
  cases hreached with
  | idle =>
      left
      rcases List.eq_nil_or_concat log with rfl | ⟨log, op, rfl⟩
      · rw [run_nil, commitInit, hboot.history]
        exact List.mem_cons_self
      · rw [List.concat_eq_append, historyViews_append, run_append]
        simp [historyViews]
  | @published log op t config env sourceId hcommit hpoint =>
      left
      rw [historyViews_append]
      simp [historyViews, hcommit]
  | @moved log op t u config env env' sourceId entries hcommit hpoint hmoved =>
      right
      have hcount := (Summarised.of_run (S := S) hboot (log ++ [op.withoutLimit])).historyCount
      rw [run_append, run_cons, run_nil, hcommit] at hcount
      obtain ⟨hentries, hhistory⟩ := moveOut_moved hcount hmoved
      refine ⟨env', entries, t.merkleRootHistory, ?_, rfl, hentries, hhistory⟩
      rw [historyViews_append]
      simp [historyViews, hcommit]

/-- Four commits under a limit of three entries, of which the last one has begun to trim. -/
def trimmingSections : List HistorySection :=
  [.call (limitedCommit 3 0), .moveOut, .call (limitedCommit 3 1), .moveOut,
    .call (limitedCommit 3 2), .moveOut, .call (limitedCommit 3 3), .moveOut]

theorem reader_sees_history_trimmingSections :
    ∃ env entries, ∃ before ∈ historyViews referencePlatform.toHashSuite (commitInit (bootState 0))
        [limitedCommit 3 0, limitedCommit 3 1, limitedCommit 3 2, limitedCommit 3 3],
      (run (historyStep referencePlatform.toHashSuite) ⟨commitInit (bootState 0), .idle⟩
        trimmingSections).trim = .moved env entries ∧
      entries = before.take (before.length % 2 ^ 32 / 2) ∧
      (run (historyStep referencePlatform.toHashSuite) ⟨commitInit (bootState 0), .idle⟩
        trimmingSections).engine.merkleRootHistory = before.drop (before.length % 2 ^ 32 / 2) := by
  have hboot : Boot (bootState 0) := by constructor <;> decide +kernel
  refine (reader_sees_history referencePlatform.toHashSuite (bootState 0) hboot
    trimmingSections).resolve_left ?_
  decide +kernel

/-- A reader sees the last two entries only: this is the history neither before nor after the trim
of any of the commits. -/
theorem reader_sees_half_history :
    Boot (bootState 0) ∧
      startedCalls referencePlatform.toHashSuite ⟨commitInit (bootState 0), .idle⟩
        trimmingSections = [limitedCommit 3 0, limitedCommit 3 1, limitedCommit 3 2,
          limitedCommit 3 3] ∧
      (run (historyStep referencePlatform.toHashSuite) ⟨commitInit (bootState 0), .idle⟩
        trimmingSections).engine.historyValues =
          [List.Vector.replicate 32 2, List.Vector.replicate 32 3] ∧
      (run (historyStep referencePlatform.toHashSuite) ⟨commitInit (bootState 0), .idle⟩
        trimmingSections).engine.merkleRootHistory ∉
          [] :: historyViews referencePlatform.toHashSuite (commitInit (bootState 0))
            [limitedCommit 3 0, limitedCommit 3 1, limitedCommit 3 2, limitedCommit 3 3] := by
  refine ⟨by constructor <;> decide +kernel, rfl, ?_⟩
  decide +kernel

end BpfIma
