import BpfIma.Model.Commit

/-! # The root history in memory

`trim_merkle_root_history_locked` on the linked list: entries are moved to a list of their own one
by one and counted in 32 bits, and spliced back if they cannot be aggregated.
`commit_event_locked` up to this call stands by itself. -/

namespace BpfIma

open CString Errno

/-- What the calls of the hash API return for one entry. -/
structure ShashRets where
  init : Ret
  updateCurrent : Ret
  updateEntry : Ret
  final : Ret

/-- The return value with which the hashing of one entry ends. -/
def ShashRets.ret (rets : ShashRets) : Ret :=
  if rets.init < 0 then rets.init
  else if rets.updateCurrent < 0 then rets.updateCurrent
  else if rets.updateEntry < 0 then rets.updateEntry
  else rets.final

/-- The outcomes of a trim, call by call. -/
structure TrimSteps where
  aggregateAlloc : Bool
  descAlloc : Bool
  shash : ℕ → ShashRets

def TrimSteps.env (steps : TrimSteps) : TrimEnv where
  aggregateAlloc := steps.aggregateAlloc
  descAlloc := steps.descAlloc
  hashRet i := (steps.shash i).ret

/-- `merkle_root_history` and `merkle_root_history_count`. -/
structure HistoryMemory where
  history : List MerkleRootEntry
  count : UInt32

/-- `list_splice`: all of `list` goes to the front of `head`. -/
def listSplice (list head : List MerkleRootEntry) : List MerkleRootEntry := list ++ head

/-- The loop that moves the oldest entries to `entries_to_delete`: the number of entries moved,
the entries and what is left of the history. -/
def moveOldest (toDelete : UInt32) :
    UInt32 → List MerkleRootEntry → List MerkleRootEntry →
      UInt32 × List MerkleRootEntry × List MerkleRootEntry
  | deletedCount, entriesToDelete, [] => (deletedCount, entriesToDelete, [])
  | deletedCount, entriesToDelete, entry :: history =>
      if deletedCount ≥ toDelete then (deletedCount, entriesToDelete, entry :: history)
      else moveOldest toDelete (deletedCount + 1) (entriesToDelete ++ [entry]) history

/-- `trim_merkle_root_history_locked`. -/
def trimHistoryLists (S : HashSuite) (steps : TrimSteps) (tfm : Bool) (maxSize : UInt32)
    (m : HistoryMemory) : Ret × HistoryMemory :=
  if m.count ≤ maxSize then (0, m)
  else if ¬ steps.aggregateAlloc then (-enomem, m)
  else
    let (deletedCount, entriesToDelete, history) := moveOldest (trimToDelete m.count) 0 [] m.history
    match aggregateMerkleEntries S steps.env tfm entriesToDelete with
    | .error ret => (ret, { m with history := listSplice entriesToDelete history })
    | .ok (hash, aggregatedCount) =>
        let aggregate : MerkleRootEntry :=
          ⟨hash, strscpy (CString.zero _) "[AGGREGATE]".ascii, true, aggregatedCount⟩
        (0, ⟨aggregate :: history, m.count - deletedCount + 1⟩)

/-- `commit_event_locked` up to its trim: the state that it has published, or what it returns
and leaves if it does not get that far. -/
def publishedEvent (S : HashSuite) (env : CommitEnv) (s : CommitState)
    (container : Option ContainerRef) (entry : Option MeasurementEntry) (value : Option Digest)
    (sourceId : Option Bytes) (deduplicate : Bool) : Except (Ret × CommitState) CommitState :=
  let (ret, s) := commitCheckLocked env.available s
  if ret ≠ 0 then .error (ret, s)
  else
    match prepareEvent S env s container entry value sourceId deduplicate with
    | .error ret => .error (ret, s)
    | .ok p =>
        let (ret, commandStarted, tpm) :=
          extendTpmPcr env.tpm s.tpmPcrIndex s.tpm p.newRoot (commitHardwareAllowedLocked s)
        let s := { s with tpm := tpm }
        if ret ≠ 0 ∧ (commandStarted = true ∨ ret ≠ -enodev ∨ s.hardwareAnchored = true) then
          if commandStarted = true ∨ ret ≠ -enomem then
            let (ret, s) := commitFailLocked ret s
            .error (freeHistoryRet ret, s)
          else .error (freeHistoryRet ret, s)
        else
          let s := if ret = 0 then { s with hardwareAnchored := true } else s
          .ok (publishEvent s container entry p)

end BpfIma
