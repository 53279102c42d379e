import BpfIma.Verification.Commit.Effects

/-! # Epochs and the TPM

From `bpfima_commit_init` on, either every successful commit is extended into the PCR
or none is, and a latched error ends the epoch. -/

namespace BpfIma

open Machine

/-- The root after a call that returned `ret` in state `s`, if it was a successful commit. -/
def CommitOp.committedRoot (op : CommitOp) (ret : Ret) (s : CommitState) : Option Digest :=
  if ret ≠ 0 then none
  else
    match op with
    | .addMeasurement .. => some s.systemMerkleRoot.rootHash
    | .commitRoot .. => some s.systemMerkleRoot.rootHash
    | .getError _ => none
    | .createContainer _ => none

theorem CommitOp.committedRoot_of_ne {op : CommitOp} {ret : Ret} {s : CommitState} (h : ret ≠ 0) :
    op.committedRoot ret s = none :=
  if_pos h

/-- The roots after the successful commits of a run, oldest first. -/
def committedRoots (S : HashSuite) : CommitState → List CommitOp → List Digest :=
  collect (commitStep S) fun s op => op.committedRoot (commitStep S s op).1 (commitStep S s op).2

/-- How the device stands to the roots committed since `bpfima_commit_init`, when it
held `tpm`. `extra` is what a failed command left in the PCR. -/
structure Epoch (tpm : Tpm) (s : CommitState) (roots : List Digest) : Prop where
  extended : ∃ extra : List Digest, extra.length ≤ 1 ∧
    s.tpm.extended = tpm.extended ++ (if s.hardwareAnchored then roots else []) ++ extra ∧
    (s.commitError = 0 ∨ s.hardwareAnchored = false ∧ roots ≠ [] → extra = [])
  commands : s.commitError = 0 → s.hardwareAnchored = false → s.tpm.commands = tpm.commands
  software : s.softwareCommitted = true ↔ roots ≠ []

namespace Epoch

variable {S : HashSuite} {tpm : Tpm} {s : CommitState} {roots : List Digest}

theorem of_init (s : CommitState) : Epoch s.tpm (commitInit s) [] where
  extended := ⟨[], by simp [commitInit]⟩
  commands _ _ := rfl
  software := by simp [commitInit]

theorem extended_of_unlatched (h : Epoch tpm s roots) (hunlatched : s.commitError = 0) :
    s.tpm.extended = tpm.extended ++ if s.hardwareAnchored then roots else [] := by
  obtain ⟨extra, -, hextended, hextra⟩ := h.extended
  rw [hextended, hextra (.inl hunlatched), List.append_nil]

/-- An error is latched at most once and before that there is nothing to explain. -/
theorem latch (h : Epoch tpm s roots) {error : Ret}
    (herror : error = s.commitError ∨ s.commitError = 0) :
    Epoch tpm { s with commitError := error } roots where
  extended := by
    obtain ⟨extra, hlength, hextended, hextra⟩ := h.extended
    refine ⟨extra, hlength, hextended, ?_⟩
    intro hcase
    rcases herror with rfl | hunlatched
    · exact hextra hcase
    · exact hextra (.inl hunlatched)
  commands herror' hanchored := by
    refine h.commands ?_ hanchored
    rcases herror with rfl | hunlatched
    · exact herror'
    · exact hunlatched
  software := h.software

theorem commandFailed (h : Epoch tpm s roots) {ret : Ret} {extra : List Digest}
    (hunlatched : s.commitError = 0) (hallowed : commitHardwareAllowedLocked s = true)
    (hret : ret < 0) (hextra : extra.length ≤ 1) :
    Epoch tpm
      { s with
        commitError := ret
        tpm := ⟨s.tpm.extended ++ extra, s.tpm.commands + 1⟩ } roots where
  extended := by
    refine ⟨extra, hextra, ?_, ?_⟩
    · simp [h.extended_of_unlatched hunlatched]
    · rintro (hzero | ⟨hanchored, hroots⟩)
      · exact absurd hzero hret.ne
      · -- A software-only epoch does not reach the device.
        have hsoftware := h.software.mpr hroots
        simp only [commitHardwareAllowedLocked] at hallowed
        simp_all
  commands hzero := absurd hzero hret.ne
  software := h.software

/-- A commit keeps the mode of the epoch: hardware is used from the first commit on or
never. -/
theorem commit (h : Epoch tpm s roots) {hardware : Bool} {p : PreparedEvent}
    {container : Option ContainerRef} {entry : Option MeasurementEntry} {config : PolicyConfig}
    {env : TrimEnv} {sourceId : Option Bytes} (hunlatched : s.commitError = 0)
    (hhardware : hardware = true → commitHardwareAllowedLocked s = true)
    (hsoftware : hardware = false → s.hardwareAnchored = false) :
    Epoch tpm (trimHistoryLocked S config env sourceId
      (publishEvent (anchorRoot s hardware p.newRoot) container entry p))
        (roots ++ [p.newRoot]) := by
  obtain ⟨history, count, htrim⟩ := trimHistoryLocked_frame S config env sourceId
    (publishEvent (anchorRoot s hardware p.newRoot) container entry p)
  have hextended := h.extended_of_unlatched hunlatched
  rw [htrim]
  cases hardware with
  | true =>
      have hroots : s.hardwareAnchored = false → roots = [] := by
        intro hanchored
        by_contra hne
        have hallowed := hhardware rfl
        simp [commitHardwareAllowedLocked, h.software.mpr hne, hanchored] at hallowed
      constructor
      · refine ⟨[], by simp, ?_, by simp⟩
        cases hanchored : s.hardwareAnchored with
        | true => simp [publishEvent, anchorRoot, hextended, hanchored]
        | false => simp [publishEvent, anchorRoot, hextended, hanchored, hroots hanchored]
      · simp [publishEvent, anchorRoot]
      · simp [publishEvent]
  | false =>
      have hanchored := hsoftware rfl
      constructor
      · refine ⟨[], by simp, ?_, by simp⟩
        simp [publishEvent, anchorRoot, hextended, hanchored]
      · intro _ _
        exact h.commands hunlatched hanchored
      · simp [publishEvent]

theorem step (h : Epoch tpm s roots) {op : CommitOp} {ret : Ret} {s' : CommitState}
    (heffect : StepEffect S s op ret s') :
    Epoch tpm s' (roots ++ (op.committedRoot ret s').toList) := by
  cases heffect with
  | refused error hret herror =>
      rw [CommitOp.committedRoot_of_ne hret, Option.toList_none, List.append_nil]
      exact h.latch (herror.imp_right And.left)
  | commandFailed extra hunlatched hallowed hret hextra =>
      rw [CommitOp.committedRoot_of_ne hret.ne, Option.toList_none, List.append_nil]
      exact h.commandFailed hunlatched hallowed hret hextra
  | measured node entry hardware p hnode hentry hunlatched hhardware hsoftware hp =>
      rw [show CommitOp.committedRoot _ 0 _ = some p.newRoot by
        simp [CommitOp.committedRoot, systemMerkleRoot_trimHistoryLocked, publishEvent]]
      exact h.commit hunlatched hhardware hsoftware
  | rootCommitted v hardware p hunlatched hhardware hsoftware hp =>
      rw [show CommitOp.committedRoot _ 0 _ = some p.newRoot by
        simp [CommitOp.committedRoot, systemMerkleRoot_trimHistoryLocked, publishEvent]]
      exact h.commit hunlatched hhardware hsoftware
  | checked hunlatched => simpa [CommitOp.committedRoot] using h
  | created containerId =>
      rw [show CommitOp.committedRoot (.createContainer containerId) 0 _ = none from rfl,
        Option.toList_none, List.append_nil]
      exact ⟨h.extended, h.commands, h.software⟩

theorem of_run (s : CommitState) (ops : List CommitOp) :
    Epoch s.tpm (run (commitStep S) (commitInit s) ops) (committedRoots S (commitInit s) ops) :=
  run_collect (fun t op _ _ hlog => hlog.step (commitStep_effect S t op))
    (along_true _ (fun _ _ => True) (fun _ _ => trivial) _ ops) (.of_init s)

end Epoch

/-! ## Latched errors -/

/-- A latched engine: the error and the device stay, and nothing commits. -/
structure Latched (error : Ret) (tpm : Tpm) (s : CommitState) (roots : List Digest) : Prop where
  commitError : s.commitError = error
  device : s.tpm = tpm
  roots_nil : roots = []

theorem Latched.step {S : HashSuite} {error : Ret} {tpm : Tpm} {s s' : CommitState}
    {roots : List Digest} (h : Latched error tpm s roots) (herror : error ≠ 0) {op : CommitOp}
    {ret : Ret} (heffect : StepEffect S s op ret s') :
    Latched error tpm s' (roots ++ (op.committedRoot ret s').toList) := by
  have hlatched : s.commitError ≠ 0 := by
    rw [h.commitError]
    exact herror
  cases heffect with
  | refused error' hret herror' =>
      rw [CommitOp.committedRoot_of_ne hret, Option.toList_none, List.append_nil]
      rcases herror' with rfl | ⟨hunlatched, -⟩
      · exact ⟨h.commitError, h.device, h.roots_nil⟩
      · exact absurd hunlatched hlatched
  | commandFailed extra hunlatched => exact absurd hunlatched hlatched
  | measured node entry hardware p hnode hentry hunlatched => exact absurd hunlatched hlatched
  | rootCommitted v hardware p hunlatched => exact absurd hunlatched hlatched
  | checked hunlatched => exact absurd hunlatched hlatched
  | created containerId =>
      rw [show CommitOp.committedRoot (.createContainer containerId) 0 _ = none from rfl,
        Option.toList_none, List.append_nil]
      exact ⟨h.commitError, h.device, h.roots_nil⟩

theorem Latched.of_run {S : HashSuite} {s : CommitState} (h : s.commitError ≠ 0)
    (ops : List CommitOp) :
    Latched s.commitError s.tpm (run (commitStep S) s ops) (committedRoots S s ops) :=
  run_collect (fun t op _ _ hlog => hlog.step h (commitStep_effect S t op))
    (along_true _ (fun _ _ => True) (fun _ _ => trivial) _ ops) ⟨rfl, rfl, rfl⟩

/-- Along every run from `bpfima_commit_init`: (1) an anchored epoch has extended exactly
its roots; (2) an epoch that is not anchored has started no command, and in both cases
all of its commits or none were extended; (3) once an error is latched it stays, nothing
commits, the device is left alone and holds at most one value more, and none more in an
epoch that committed without it. -/
theorem epoch_mode_fixed (S : HashSuite) (s : CommitState) (ops : List CommitOp) :
    ((run (commitStep S) (commitInit s) ops).commitError = 0 →
      (run (commitStep S) (commitInit s) ops).hardwareAnchored = true →
        (run (commitStep S) (commitInit s) ops).tpm.extended =
          s.tpm.extended ++ committedRoots S (commitInit s) ops) ∧
      ((run (commitStep S) (commitInit s) ops).commitError = 0 →
        (run (commitStep S) (commitInit s) ops).hardwareAnchored = false →
          (run (commitStep S) (commitInit s) ops).tpm.commands = s.tpm.commands ∧
            (run (commitStep S) (commitInit s) ops).tpm.extended = s.tpm.extended) ∧
      ((run (commitStep S) (commitInit s) ops).commitError ≠ 0 →
        (∀ rest, (run (commitStep S) (commitInit s) (ops ++ rest)).commitError =
              (run (commitStep S) (commitInit s) ops).commitError ∧
            committedRoots S (commitInit s) (ops ++ rest) =
              committedRoots S (commitInit s) ops ∧
            (run (commitStep S) (commitInit s) (ops ++ rest)).tpm =
              (run (commitStep S) (commitInit s) ops).tpm) ∧
          ∃ extra : List Digest, extra.length ≤ 1 ∧
            (run (commitStep S) (commitInit s) ops).tpm.extended =
              s.tpm.extended ++
                (if (run (commitStep S) (commitInit s) ops).hardwareAnchored then
                  committedRoots S (commitInit s) ops else []) ++ extra ∧
            ((run (commitStep S) (commitInit s) ops).hardwareAnchored = false →
              committedRoots S (commitInit s) ops ≠ [] → extra = [])) := by
  have h := Epoch.of_run (S := S) s ops
  refine ⟨?_, ?_, ?_⟩
  · intro hunlatched hanchored
    rw [h.extended_of_unlatched hunlatched, if_pos hanchored]
  · intro hunlatched hanchored
    refine ⟨h.commands hunlatched hanchored, ?_⟩
    rw [h.extended_of_unlatched hunlatched, hanchored]
    simp
  · intro hlatched
    obtain ⟨extra, hlength, hextended, hextra⟩ := h.extended
    refine ⟨fun rest => ?_, extra, hlength, hextended, fun ha hr => hextra (.inr ⟨ha, hr⟩)⟩
    have hrest := Latched.of_run (S := S) hlatched rest
    rw [run_append, committedRoots, collect_append]
    refine ⟨hrest.commitError, ?_, hrest.device⟩
    exact (congrArg _ hrest.roots_nil).trans (List.append_nil _)

/-- A commit, then a command that fails after it reached the PCR, then a working host. -/
def brokenCommandRun : List CommitOp :=
  let broken : CommitEnv :=
    { workingCommit with
      tpm := { workingTpm with commandRet := -Errno.eio, appliedOnFailure := true } }
  let value : Option Digest := some (List.Vector.replicate 32 7)
  [.commitRoot (initDefaultConfig .zero) workingCommit value none,
    .commitRoot (initDefaultConfig .zero) broken value none,
    .commitRoot (initDefaultConfig .zero) workingCommit value none]

theorem epoch_mode_fixed_brokenCommandRun :
    (run (commitStep referencePlatform.toHashSuite) (commitInit (bootState 0))
      brokenCommandRun).commitError = -Errno.eio ∧
      (committedRoots referencePlatform.toHashSuite (commitInit (bootState 0))
        brokenCommandRun).length = 1 ∧
      ∃ extra : List Digest, extra.length ≤ 1 ∧
        (run (commitStep referencePlatform.toHashSuite) (commitInit (bootState 0))
          brokenCommandRun).tpm.extended =
            committedRoots referencePlatform.toHashSuite (commitInit (bootState 0))
              brokenCommandRun ++ extra := by
  have hanchored : (run (commitStep referencePlatform.toHashSuite) (commitInit (bootState 0))
      brokenCommandRun).hardwareAnchored = true := by decide +kernel
  obtain ⟨-, extra, hlength, hextended, -⟩ :=
    (epoch_mode_fixed referencePlatform.toHashSuite (bootState 0) brokenCommandRun).2.2
      (by decide +kernel)
  refine ⟨by decide +kernel, by decide +kernel, extra, hlength, ?_⟩
  rw [hextended, if_pos hanchored]
  rfl

end BpfIma
