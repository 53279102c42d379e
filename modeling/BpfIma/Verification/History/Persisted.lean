import BpfIma.Verification.History.Sections

/-! # The persisted root history

The daemon keeps a list index into `merkle_root_history`. As long as nothing is taken out of the
list, the lines it has written are those of the committed values up to that index. -/

namespace BpfIma

open CString Errno Machine

/-! ## One read -/

/-- The line of a committed value. -/
def renderValue (value : Digest) : Bytes := Text.hexEncode value.toList ++ [Text.lineFeed]

theorem renderHistory_plain {history : List MerkleRootEntry} (h : Plain history) :
    renderHistory history = (history.map MerkleRootEntry.value).flatMap renderValue := by
  induction history with
  | nil => rfl
  | cons entry history ih =>
      have hentry : merkleRootHistorySeqShow entry = renderValue entry.value := by
        simp [merkleRootHistorySeqShow, renderValue, h entry List.mem_cons_self]
      have hrest := ih fun e he => h e (List.mem_cons_of_mem _ he)
      rw [renderHistory, List.flatMap_cons, hentry, ← renderHistory, hrest, List.map_cons,
        List.flatMap_cons]

theorem seqFill_isPrefix (count : ℕ) (entries : List MerkleRootEntry) :
    seqFill count entries <+: entries := by
  induction entries generalizing count with
  | nil => exact List.prefix_rfl
  | cons entry entries ih =>
      rw [seqFill]
      split
      · exact List.prefix_cons_inj entry |>.mpr (ih _)
      · exact List.nil_prefix

theorem renderHistory_ne_nil (entry : MerkleRootEntry) (entries : List MerkleRootEntry) :
    renderHistory (entry :: entries) ≠ [] := by
  simp [renderHistory, merkleRootHistorySeqShow]

/-- A read is at the end of the list, or returns the next lines. -/
theorem seqRead_cases (index : ℕ) (history : List MerkleRootEntry) :
    seqRead index history = ([], index) ∧ history.length ≤ index ∨
      ∃ shown, shown ≠ [] ∧ shown <+: history.drop index ∧
        seqRead index history = (renderHistory shown, index + shown.length) := by
  rw [seqRead]
  split
  · rename_i hend
    exact .inl ⟨rfl, List.drop_eq_nil_iff.mp hend⟩
  · rename_i entry entries hdrop
    refine .inr ⟨_, List.cons_ne_nil _ _, ?_, rfl⟩
    rw [hdrop]
    exact (List.prefix_cons_inj entry).mpr (seqFill_isPrefix _ _)

/-! ## One commit -/

theorem committedValue_withoutLimit (op : CommitOp) (ret : Ret) (s : CommitState) :
    op.withoutLimit.committedValue ret s = op.committedValue ret s := by
  cases op <;> rfl

theorem StepEffect.history_of_none {S : HashSuite} {s t : CommitState} {op : CommitOp} {ret : Ret}
    (h : StepEffect S s op ret t) (hnone : op.committedValue ret t = none) :
    t.merkleRootHistory = s.merkleRootHistory := by
  cases h with
  | refused | commandFailed | checked | created => rfl
  | measured node entry hardware p hnode =>
      rw [committedValue_measured hnode] at hnone
      cases hnone
  | rootCommitted => cases hnone

theorem trimming_withoutLimit {op : CommitOp} {ret : Ret} {t : CommitState} {value : Digest}
    (h : op.committedValue ret t = some value) :
    ret = 0 ∧ ∃ (config : PolicyConfig) (env : TrimEnv),
      op.withoutLimit.trimming = some ({ config with merkleHistoryMaxSize := 0 }, env) := by
  have hret : ret = 0 := by
    by_contra hne
    rw [CommitOp.committedValue_of_ne hne] at h
    cases h
  subst hret
  cases op with
  | addMeasurement config env => exact ⟨rfl, config, env.commit.trim, rfl⟩
  | commitRoot config env => exact ⟨rfl, config, env.trim, rfl⟩
  | getError | createContainer => cases h

/-- The publication of a call appends the value that the call commits. -/
theorem history_withoutLimit (S : HashSuite) (s : CommitState) (op : CommitOp) {ret : Ret}
    {t : CommitState} (h : commitStep S s op.withoutLimit = (ret, t)) :
    ∃ entries, t.merkleRootHistory = s.merkleRootHistory ++ entries ∧ Plain entries ∧
      entries.map MerkleRootEntry.value = (op.committedValue ret t).toList := by
  have heffect := commitStep_effect S s op.withoutLimit
  rw [h] at heffect
  cases hvalue : op.committedValue ret t with
  | none =>
      rw [← committedValue_withoutLimit] at hvalue
      refine ⟨[], ?_, ?_, rfl⟩
      · rw [heffect.history_of_none hvalue, List.append_nil]
      · intro entry hentry
        cases hentry
  | some value =>
      obtain ⟨hret, config, env, htrimming⟩ := trimming_withoutLimit hvalue
      obtain ⟨published, entry, sourceId, ht, hhistory, -, -, hplain, hentry⟩ :=
        heffect.committed htrimming hret
      rw [trimHistoryLocked_withoutLimit] at ht
      rw [committedValue_withoutLimit, hvalue] at hentry
      obtain rfl : t = published := ht
      refine ⟨[entry], hhistory, ?_, by rw [hentry]; rfl⟩
      intro e he
      rwa [List.mem_singleton.mp he]

/-! ## Runs -/

def TrimPoint.isMoved : TrimPoint → Bool
  | .moved .. => true
  | .idle => false
  | .published .. => false

/-- What the first section of a trim asks before it takes entries out fails: the commit is out of
scope, the limit is zero or not exceeded, or the aggregate's entry cannot be allocated. -/
def TrimPoint.LeavesList (s : CommitState) : TrimPoint → Prop
  | .published config env sourceId =>
      (config.merkleHistoryScope = scopeRootOnly ∧ sourceId.getD [] ≠ []) ∨
        config.merkleHistoryMaxSize = 0 ∨
        s.merkleRootHistoryCount ≤ config.merkleHistoryMaxSize ∨ env.aggregateAlloc = false
  | .idle | .moved .. => True

instance (s : CommitState) : DecidablePred (TrimPoint.LeavesList s)
  | .published config env sourceId =>
      inferInstanceAs (Decidable (
        (config.merkleHistoryScope = scopeRootOnly ∧ sourceId.getD [] ≠ []) ∨
          config.merkleHistoryMaxSize = 0 ∨
          s.merkleRootHistoryCount ≤ config.merkleHistoryMaxSize ∨ env.aggregateAlloc = false))
  | .idle | .moved .. => inferInstanceAs (Decidable True)

/-- The section takes nothing out of the list. -/
def HistorySection.Untrimmed (s : HistoryState) : HistorySection → Prop
  | .moveOut => s.trim.LeavesList s.engine
  | .call _ | .putBack => True

instance (s : HistoryState) : DecidablePred (HistorySection.Untrimmed s)
  | .moveOut => inferInstanceAs (Decidable (s.trim.LeavesList s.engine))
  | .call _ | .putBack => inferInstanceAs (Decidable True)

theorem moveOut_leavesList {config : PolicyConfig} {env : TrimEnv} {sourceId : Option Bytes}
    {s : CommitState} (h : (TrimPoint.published config env sourceId).LeavesList s) :
    moveOut config env sourceId s = ⟨s, .idle⟩ := by
  have hlimited (hnot : ¬ (config.merkleHistoryMaxSize ≠ 0 ∧
      config.merkleHistoryMaxSize < s.merkleRootHistoryCount)) :
      moveOut config env sourceId s = ⟨s, .idle⟩ := by
    rw [moveOut, if_neg hnot, ite_self]
  rcases h with hscope | hlimit | hfew | halloc
  · rw [moveOut, if_pos hscope]
  · exact hlimited fun hmany => hmany.1 hlimit
  · exact hlimited fun hmany => UInt32.not_lt.mpr hfew hmany.2
  · simp only [moveOut, halloc, Bool.false_eq_true, not_false_eq_true, if_true, ite_self]

theorem historyStep_unmoved (S : HashSuite) {s : HistoryState} {sect : HistorySection}
    (hs : s.trim.isMoved = false) (huntrimmed : sect.Untrimmed s) :
    (historyStep S s sect).2.trim.isMoved = false := by
  obtain ⟨engine, trim⟩ := s
  cases trim with
  | idle =>
      cases sect with
      | call op =>
          simp only [historyStep]
          split
          · cases op <;> rfl
          · rfl
      | moveOut | putBack => rfl
  | published config env sourceId =>
      cases sect with
      | moveOut => simp only [historyStep, moveOut_leavesList huntrimmed, TrimPoint.isMoved]
      | call | putBack => rfl
  | moved => cases hs

/-- The value that a section publishes. -/
def publishedValue (S : HashSuite) (s : HistoryState) (sect : HistorySection) : Option Digest :=
  (startedCall s sect).bind fun op =>
    op.committedValue (historyStep S s sect).1 (historyStep S s sect).2.engine

/-- A section that takes nothing out of the list appends what it publishes. -/
theorem history_historyStep (S : HashSuite) {s : HistoryState} {sect : HistorySection}
    (hs : s.trim.isMoved = false) (huntrimmed : sect.Untrimmed s) :
    ∃ entries, (historyStep S s sect).2.engine.merkleRootHistory =
        s.engine.merkleRootHistory ++ entries ∧ Plain entries ∧
      entries.map MerkleRootEntry.value = (publishedValue S s sect).toList := by
  have hsame (hengine : (historyStep S s sect).2.engine = s.engine)
      (hnone : startedCall s sect = none) :
      ∃ entries, (historyStep S s sect).2.engine.merkleRootHistory =
          s.engine.merkleRootHistory ++ entries ∧ Plain entries ∧
        entries.map MerkleRootEntry.value = (publishedValue S s sect).toList := by
    refine ⟨[], by rw [hengine, List.append_nil], ?_, by rw [publishedValue, hnone]; rfl⟩
    intro entry hentry
    cases hentry
  obtain ⟨engine, trim⟩ := s
  cases trim with
  | idle =>
      cases sect with
      | call op =>
          rcases hcommit : commitStep S engine op.withoutLimit with ⟨ret, t⟩
          have hpublished := history_withoutLimit S engine op hcommit
          simpa only [publishedValue, startedCall, Option.bind_some, historyStep, hcommit]
            using hpublished
      | moveOut | putBack => exact hsame rfl rfl
  | published config env sourceId =>
      cases sect with
      | moveOut => exact hsame (by simp only [historyStep, moveOut_leavesList huntrimmed]) rfl
      | call | putBack => exact hsame rfl rfl
  | moved => cases hs

/-- The condition of `HistorySection.Untrimmed`, in a run with the daemon. -/
def DumpOp.Untrimmed (s : DumpState) : DumpOp → Prop
  | .kernel sect => sect.Untrimmed s.history
  | .appendNewContent _ | .read => True

instance (s : DumpState) : DecidablePred (DumpOp.Untrimmed s)
  | .kernel sect => inferInstanceAs (Decidable (sect.Untrimmed s.history))
  | .appendNewContent _ | .read => inferInstanceAs (Decidable True)

/-- The value that a step of the kernel or of the daemon publishes. -/
def dumpedValue (S : HashSuite) (s : DumpState) : DumpOp → Option Digest
  | .kernel sect => publishedValue S s.history sect
  | .appendNewContent _ => none
  | .read => none

/-- The values published in a run with the daemon, oldest first. -/
def publishedValues (S : HashSuite) : DumpState → List DumpOp → List Digest :=
  collect (dumpStep S) (dumpedValue S)

/-- How many entries the list has when a round ends. -/
def roundEnd (S : HashSuite) (s : DumpState) (op : DumpOp) : Option ℕ :=
  if s.inRound = true ∧ (dumpStep S s op).2.inRound = false then
    some s.history.engine.merkleRootHistory.length
  else none

/-- The lengths of the list at the ends of the rounds, oldest first. -/
def roundEnds (S : HashSuite) : DumpState → List DumpOp → List ℕ :=
  collect (dumpStep S) (roundEnd S)

/-- The daemon's file against the values published so far and the rounds completed so far. -/
structure Dumped (t : DumpState) (values : List Digest) (rounds : List ℕ) : Prop where
  unmoved : t.history.trim.isMoved = false
  plain : Plain t.history.engine.merkleRootHistory
  history : t.history.engine.historyValues = values
  index_le : t.fd.getD 0 ≤ values.length
  file : t.file = (values.take (t.fd.getD 0)).flatMap renderValue
  opened : t.inRound = true → t.fd.isSome = true
  between : t.inRound = false → t.fd.getD 0 = rounds.getLast?.getD 0

namespace Dumped

variable {S : HashSuite} {t : DumpState} {values : List Digest} {rounds : List ℕ}

/-- A section of the kernel adds values behind those that were written. -/
theorem kernel (h : Dumped t values rounds) {sect : HistorySection}
    (huntrimmed : sect.Untrimmed t.history) :
    Dumped { t with history := (historyStep S t.history sect).2 }
      (values ++ (publishedValue S t.history sect).toList) rounds := by
  obtain ⟨entries, hhistory, hplain, hvalues⟩ := history_historyStep S h.unmoved huntrimmed
  refine ⟨historyStep_unmoved S h.unmoved huntrimmed, ?_, ?_, ?_, ?_, h.opened, h.between⟩
  · intro entry hentry
    rw [hhistory] at hentry
    exact (List.mem_append.mp hentry).elim (h.plain entry) (hplain entry)
  · rw [CommitState.historyValues, hhistory, List.map_append, hvalues, ← h.history]
    rfl
  · rw [List.length_append]
    exact h.index_le.trans (Nat.le_add_right _ _)
  · rw [List.take_append_of_le_length h.index_le]
    exact h.file

theorem length_history (h : Dumped t values rounds) :
    t.history.engine.merkleRootHistory.length = values.length := by
  rw [← h.history, CommitState.historyValues, List.length_map]

/-- A read at the end of the list ends the round; another one writes the next lines. -/
theorem read (h : Dumped t values rounds) :
    Dumped (dumpStep S t .read).2 values (rounds ++ (roundEnd S t .read).toList) := by
  by_cases hround : t.inRound = true
  · obtain ⟨index, hfd⟩ := Option.isSome_iff_exists.mp (h.opened hround)
    have hindex := h.index_le
    have hfile := h.file
    rw [hfd, Option.getD_some] at hindex hfile
    rcases seqRead_cases index t.history.engine.merkleRootHistory with
      ⟨hread, hend⟩ | ⟨shown, hne, hshown, hread⟩
    · have hstep : (dumpStep S t .read).2 = { t with fd := some index, inRound := false } := by
        simp only [dumpStep, hround, hfd, hread, if_true]
      rw [h.length_history] at hend
      rw [roundEnd, hstep, if_pos ⟨hround, rfl⟩]
      refine ⟨h.unmoved, h.plain, h.history, hindex, hfile, fun hfalse => ?_, fun _ => ?_⟩
      · cases hfalse
      · rw [Option.toList_some, List.getLast?_concat, h.length_history]
        exact le_antisymm hindex hend
    · have hbytes : renderHistory shown ≠ [] := by
        obtain ⟨entry, entries, rfl⟩ := List.exists_cons_of_ne_nil hne
        exact renderHistory_ne_nil entry entries
      have hstep : (dumpStep S t .read).2 = { t with
          fd := some (index + shown.length)
          file := t.file ++ renderHistory shown } := by
        simp only [dumpStep, hround, hfd, hread, if_neg hbytes]
      have hvalues : (values.drop index).take shown.length =
          shown.map MerkleRootEntry.value := by
        rw [← h.history, CommitState.historyValues, ← List.map_drop, ← List.map_take,
          ← List.prefix_iff_eq_take.mp hshown]
      have hplain : Plain shown := fun entry hentry =>
        h.plain entry (List.mem_of_mem_drop (hshown.subset hentry))
      rw [roundEnd, hstep, if_neg (by simp [hround]), Option.toList_none, List.append_nil]
      refine ⟨h.unmoved, h.plain, h.history, ?_, ?_, fun _ => rfl, fun hfalse => ?_⟩
      · have hle := hshown.length_le
        rw [List.length_drop, h.length_history] at hle
        simp only [Option.getD_some]
        omega
      · simp only [Option.getD_some]
        rw [hfile, renderHistory_plain hplain, ← hvalues, List.take_add, List.flatMap_append]
      · rw [hround] at hfalse
        cases hfalse
  · have hstep : (dumpStep S t .read).2 = t := by
      simp only [dumpStep, hround]
    rw [roundEnd, hstep, if_neg (fun hend => hround hend.1), Option.toList_none, List.append_nil]
    exact h

theorem step (h : Dumped t values rounds) {op : DumpOp} (huntrimmed : op.Untrimmed t) :
    Dumped (dumpStep S t op).2 (values ++ (dumpedValue S t op).toList)
      (rounds ++ (roundEnd S t op).toList) := by
  have hnone (hgoes : t.inRound = true → (dumpStep S t op).2.inRound = true) :
      rounds ++ (roundEnd S t op).toList = rounds := by
    have hopen : ¬ (t.inRound = true ∧ (dumpStep S t op).2.inRound = false) := by
      rintro ⟨hround, hends⟩
      rw [hgoes hround] at hends
      cases hends
    rw [roundEnd, if_neg hopen, Option.toList_none, List.append_nil]
  cases op with
  | kernel sect =>
      rw [hnone id]
      exact h.kernel huntrimmed
  | appendNewContent opened =>
      rw [dumpedValue, Option.toList_none, List.append_nil]
      cases hfd : t.fd with
      | some index =>
          have hstep : (dumpStep S t (.appendNewContent opened)).2 =
              { t with inRound := true } := by
            simp only [dumpStep, hfd]
          rw [hnone (fun _ => by rw [hstep]), hstep]
          refine ⟨h.unmoved, h.plain, h.history, h.index_le, h.file, fun _ => ?_, fun hfalse => ?_⟩
          · simp only [hfd, Option.isSome_some]
          · cases hfalse
      | none =>
          have hfile := h.file
          rw [hfd, Option.getD_none] at hfile
          cases opened with
          | true =>
              have hstep : (dumpStep S t (.appendNewContent true)).2 =
                  { t with fd := some 0, inRound := true } := by
                simp only [dumpStep, hfd, if_true]
              rw [hnone (fun _ => by rw [hstep]), hstep]
              refine ⟨h.unmoved, h.plain, h.history, Nat.zero_le _, hfile, fun _ => rfl,
                fun hfalse => ?_⟩
              cases hfalse
          | false =>
              have hstep : (dumpStep S t (.appendNewContent false)).2 = t := by
                simp [dumpStep, hfd]
              rw [hnone (fun hround => by rw [hstep, hround]), hstep]
              exact h
  | read =>
      rw [dumpedValue, Option.toList_none, List.append_nil]
      exact h.read

end Dumped

/-- The daemon has started and no call was made yet. -/
def dumpStart (s : CommitState) : DumpState := ⟨⟨commitInit s, .idle⟩, none, false, []⟩

/-- In every run in which no trim takes entries out of the history, the file holds the lines of the
committed values in their order, without a gap or a repetition, up to some value; between two
rounds these are the values that were in the history at the end of the last round. -/
theorem persisted_history_complete (S : HashSuite) (s : CommitState) (hboot : Boot s)
    (ops : List DumpOp)
    (huntrimmed : Along (dumpStep S) (fun t op => op.Untrimmed t) (dumpStart s) ops) :
    ∃ n ≤ (publishedValues S (dumpStart s) ops).length,
      (run (dumpStep S) (dumpStart s) ops).file =
        ((publishedValues S (dumpStart s) ops).take n).flatMap renderValue ∧
      ((run (dumpStep S) (dumpStart s) ops).inRound = false →
        n = (roundEnds S (dumpStart s) ops).getLast?.getD 0) := by
  have hstart : Dumped (dumpStart s) [] [] := by
    refine ⟨rfl, ?_, ?_, le_rfl, rfl, fun hfalse => ?_, fun _ => rfl⟩
    · simp [dumpStart, commitInit, hboot.history, Plain]
    · simp [dumpStart, commitInit, CommitState.historyValues, hboot.history]
    · cases hfalse
  have h : Dumped (run (dumpStep S) (dumpStart s) ops)
      ([] ++ publishedValues S (dumpStart s) ops) ([] ++ roundEnds S (dumpStart s) ops) :=
    run_collect_both (fun t op _ _ hop hdumped => hdumped.step hop) huntrimmed hstart
  exact ⟨_, h.index_le, h.file, h.between⟩

/-- A round with two reads: the second one is at the end. -/
def dumpRound : List DumpOp := [.appendNewContent true, .read, .read]

/-- A commit under a limit of three entries, with its trim. -/
def limitedDump (value : UInt8) : List DumpOp :=
  [.kernel (.call (limitedCommit 3 value)), .kernel .moveOut, .kernel .putBack]

theorem persisted_history_complete_three :
    (run (dumpStep referencePlatform.toHashSuite) (dumpStart (bootState 0))
        (limitedDump 0 ++ limitedDump 1 ++ dumpRound ++ limitedDump 2)).file =
      [List.Vector.replicate 32 0, List.Vector.replicate 32 1].flatMap renderValue := by
  have hboot : Boot (bootState 0) := by constructor <;> decide +kernel
  obtain ⟨n, -, hfile, hn⟩ := persisted_history_complete referencePlatform.toHashSuite
    (bootState 0) hboot (limitedDump 0 ++ limitedDump 1 ++ dumpRound ++ limitedDump 2)
    (by decide +kernel)
  rw [hfile, hn (by decide +kernel)]
  decide +kernel

/-- Two more commits under the limit: each trims the history to three entries, where the daemon's
index already is. The second round ends with five values committed and three of them in the
file. -/
theorem persisted_history_loses_two :
    (publishedValues referencePlatform.toHashSuite (dumpStart (bootState 0))
        (limitedDump 0 ++ limitedDump 1 ++ limitedDump 2 ++ dumpRound ++ limitedDump 3 ++
          limitedDump 4 ++ dumpRound)).length = 5 ∧
      (roundEnds referencePlatform.toHashSuite (dumpStart (bootState 0))
        (limitedDump 0 ++ limitedDump 1 ++ limitedDump 2 ++ dumpRound ++ limitedDump 3 ++
          limitedDump 4 ++ dumpRound)).length = 2 ∧
      (run (dumpStep referencePlatform.toHashSuite) (dumpStart (bootState 0))
        (limitedDump 0 ++ limitedDump 1 ++ limitedDump 2 ++ dumpRound ++ limitedDump 3 ++
          limitedDump 4 ++ dumpRound)).file =
        [List.Vector.replicate 32 0, List.Vector.replicate 32 1,
          List.Vector.replicate 32 2].flatMap renderValue := by
  decide +kernel

end BpfIma
