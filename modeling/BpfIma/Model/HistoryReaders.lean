import BpfIma.Model.Measurement

/-! # Readers of the root history

A commit holds the commit mutex to its end, and `merkle_root_history_lock` while it publishes its
entry, while it takes the oldest entries out for a trim, and while it puts their aggregate or the
entries themselves back. Readers take that lock alone, so they run between these sections. The
daemon of `tools/bpfima_tool.c` is such a reader. -/

namespace BpfIma

open CString Errno

/-! ## The sections of a commit -/

/-- How far the call that holds the commit mutex has come after its publication. -/
inductive TrimPoint where
  | idle
  | published (config : PolicyConfig) (env : TrimEnv) (sourceId : Option Bytes)
  | moved (env : TrimEnv) (entriesToDelete : List MerkleRootEntry)

structure HistoryState where
  engine : CommitState
  trim : TrimPoint

inductive HistorySection where
  | call (op : CommitOp)
  | moveOut
  | putBack

/-- The call under a policy that trims nothing. -/
def CommitOp.withoutLimit : CommitOp → CommitOp
  | .addMeasurement config env container eventName eventData dependencies digest =>
      .addMeasurement { config with merkleHistoryMaxSize := 0 } env container eventName eventData
        dependencies digest
  | .commitRoot config env value sourceId =>
      .commitRoot { config with merkleHistoryMaxSize := 0 } env value sourceId
  | .getError available => .getError available
  | .createContainer containerId => .createContainer containerId

/-- What is left to do after the publication of a commit. -/
def CommitOp.trimPoint (s : CommitState) : CommitOp → TrimPoint
  | .addMeasurement config env container _ _ _ _ =>
      .published config env.commit.trim ((containerRef s container).map fun c => cstr c.2.id)
  | .commitRoot config env _ sourceId => .published config env.trim sourceId
  | .getError _ => .idle
  | .createContainer _ => .idle

/-- `bpfima_trim_history_locked` up to its first section, which moves the oldest half of the
history to a list of its own. -/
def moveOut (config : PolicyConfig) (env : TrimEnv) (sourceId : Option Bytes) (s : CommitState) :
    HistoryState :=
  if config.merkleHistoryScope = scopeRootOnly ∧ sourceId.getD [] ≠ [] then ⟨s, .idle⟩
  else if config.merkleHistoryMaxSize ≠ 0 ∧
      config.merkleHistoryMaxSize < s.merkleRootHistoryCount then
    let toDelete := (trimToDelete s.merkleRootHistoryCount).toNat
    if ¬ env.aggregateAlloc then ⟨s, .idle⟩
    else
      ⟨{ s with merkleRootHistory := s.merkleRootHistory.drop toDelete },
        .moved env (s.merkleRootHistory.take toDelete)⟩
  else ⟨s, .idle⟩

/-- The rest of a trim: its last section puts the aggregate, or else the entries, at the front. -/
def putBack (S : HashSuite) (env : TrimEnv) (entriesToDelete : List MerkleRootEntry)
    (s : CommitState) : CommitState :=
  match aggregateMerkleEntries S env s.systemMerkleRoot.tfm entriesToDelete with
  | .error _ => { s with merkleRootHistory := entriesToDelete ++ s.merkleRootHistory }
  | .ok (hash, count) =>
      let aggregate : MerkleRootEntry :=
        ⟨hash, strscpy (CString.zero _) "[AGGREGATE]".ascii, true, count⟩
      { s with
        merkleRootHistory := aggregate :: s.merkleRootHistory
        merkleRootHistoryCount :=
          s.merkleRootHistoryCount - UInt32.ofNat entriesToDelete.length + 1 }

/-- One section; a section out of turn does nothing, and a call waits for the mutex. -/
def historyStep (S : HashSuite) (s : HistoryState) : HistorySection → Ret × HistoryState
  | .call op =>
      match s.trim with
      | .idle =>
          let (ret, engine) := commitStep S s.engine op.withoutLimit
          (ret, ⟨engine, if ret = 0 then op.trimPoint s.engine else .idle⟩)
      | .published .. | .moved .. => (0, s)
  | .moveOut =>
      match s.trim with
      | .published config env sourceId => (0, moveOut config env sourceId s.engine)
      | .idle | .moved .. => (0, s)
  | .putBack =>
      match s.trim with
      | .moved env entriesToDelete => (0, ⟨putBack S env entriesToDelete s.engine, .idle⟩)
      | .idle | .published .. => (0, s)

/-! ## The daemon -/

/-- The size of a seq_file buffer, and of the daemon's. -/
def pageSize : ℕ := 4096

/-- The entries that `seq_read` adds to a buffer of `count` bytes: whole lines that fit. -/
def seqFill : ℕ → List MerkleRootEntry → List MerkleRootEntry
  | _, [] => []
  | count, entry :: entries =>
      if count + (merkleRootHistorySeqShow entry).length < pageSize then
        entry :: seqFill (count + (merkleRootHistorySeqShow entry).length) entries
      else []

/-- One `read` of `merkle_root_history` at list index `index`: the bytes, and the next index. -/
def seqRead (index : ℕ) (history : List MerkleRootEntry) : Bytes × ℕ :=
  match history.drop index with
  | [] => ([], index)
  | entry :: entries =>
      let shown := entry :: seqFill (merkleRootHistorySeqShow entry).length entries
      (renderHistory shown, index + shown.length)

/-- The daemon's view of one monitored file: the list index of its open descriptor, whether it
is in the loop of `append_new_content`, and the file it writes. -/
structure DumpState where
  history : HistoryState
  fd : Option ℕ
  inRound : Bool
  file : Bytes

inductive DumpOp where
  | kernel (sect : HistorySection)
  | appendNewContent (opened : Bool)
  | read

/-- A step of the kernel, the start of a round, or one turn of the round's loop, with the bytes
that it read. -/
def dumpStep (S : HashSuite) (s : DumpState) : DumpOp → Bytes × DumpState
  | .kernel sect => ([], { s with history := (historyStep S s.history sect).2 })
  | .appendNewContent opened =>
      match s.fd with
      | some _ => ([], { s with inRound := true })
      | none => ([], if opened then { s with fd := some 0, inRound := true } else s)
  | .read =>
      match s.inRound, s.fd with
      | true, some index =>
          let (bytes, index) := seqRead index s.history.engine.merkleRootHistory
          if bytes = [] then ([], { s with fd := some index, inRound := false })
          else (bytes, { s with fd := some index, file := s.file ++ bytes })
      | _, _ => ([], s)

end BpfIma
