import BpfIma.Verification.Policy.Edit

/-! # Runs to any generation

The generation of the policy is a 64-bit counter that an update refuses to wrap. Toggling one
field of the root reaches every generation. -/

namespace BpfIma

open CString Errno Machine

/-- A run on a host whose maps all wait to be bound. -/
abbrev referenceRun (ops : List KernelOp) : KernelState :=
  kernelRun referencePlatform (fun _ => unboundPolicyMap) 10 ops

/-- The namespace with a record in the runs below. -/
def webId : Bytes := "web".ascii

/-- A module on a host on which nothing fails, after `n` publications. -/
structure Toggled (n : ℕ) (s : KernelState) : Prop where
  bound : s.policyMap = some 0
  unlatched : s.engine.commitError = 0
  anchored : s.engine.hardwareAnchored = true
  pcrIndex : s.engine.tpmPcrIndex = 10
  generation : (s.maps 0).generation.toNat = n
  rootLevel : (s.maps 0).active.root.config.logLevel = 2
  rootFilter : (s.maps 0).active.root.config.filterFlags = 0
  record : (s.maps 0).active.store.value webId = some verboseRequest.record.snapshot

theorem workingCommit_succeeds {s : CommitState} (hanchored : s.hardwareAnchored = true)
    (hpcr : s.tpmPcrIndex = 10) : workingCommit.Succeeds s := by
  have hallowed : commitHardwareAllowedLocked s = true := by
    simp [commitHardwareAllowedLocked, hanchored]
  refine ⟨⟨fun _ => rfl, fun hnot => ?_⟩, rfl, rfl, fun value => .inl ?_⟩
  · rw [hallowed] at hnot
    cases hnot
  · simp [extendTpmPcr, workingCommit, workingTpm, hpcr, hallowed, tpmPcrExtend]

theorem workingApply_succeeds {s : CommitState} (hanchored : s.hardwareAnchored = true)
    (hpcr : s.tpmPcrIndex = 10) : workingApply.Succeeds s := by
  have hcommit := workingCommit_succeeds hanchored hpcr
  exact ⟨hcommit.fits, rfl, rfl, ⟨rfl, rfl, rfl, rfl, rfl, hcommit⟩⟩

/-- The edit that toggles the root. -/
def toggleOp (s : KernelState) : KernelOp :=
  .policyUpdateField true workingApply none (some "min_file_size".ascii)
    (if (s.maps 0).active.root.config.minFileSize = 0 then 1 else 0)

theorem Toggled.step {n : ℕ} {s : KernelState} (h : Toggled n s) (hs : (s.maps 0).Published)
    (htfm : s.engine.systemMerkleRoot.tfm = true) (hn : n + 1 < 2 ^ 64) :
    Toggled (n + 1) (kernelStep referencePlatform s (toggleOp s)).2 := by
  have hbound := ((kernelStep_effect referencePlatform s (toggleOp s)).activeStep h.bound hs).1
  have hv : (if (s.maps 0).active.root.config.minFileSize = 0 then (1 : UInt32) else 0) ≠
      (s.maps 0).active.root.config.minFileSize := by
    split
    · rename_i hzero
      rw [hzero]
      decide
    · exact Ne.symm ‹_›
  have hedit : EditOutcome s 0 [] .minFileSize
      (if (s.maps 0).active.root.config.minFileSize = 0 then 1 else 0)
      (kernelStep referencePlatform s (toggleOp s)).1
      (kernelStep referencePlatform s (toggleOp s)).2 :=
    policyUpdateField_edit h.bound hs h.unlatched htfm
      (workingApply_succeeds h.anchored h.pcrIndex) none (by simp) .minFileSize _
  generalize (if (s.maps 0).active.root.config.minFileSize = 0 then (1 : UInt32) else 0) = v
    at hv hedit
  generalize (kernelStep referencePlatform s (toggleOp s)).1 = ret,
    (kernelStep referencePlatform s (toggleOp s)).2 = t at hbound hedit ⊢
  cases hedit with
  | refused hrefusal =>
      simp [PolicyState.editRefusal, ScalarField.Overlarge, candidateFor, ScalarField.Forbids]
        at hrefusal
  | same namespaces haccepted hkept =>
      rw [value_store_root, editBase_root, Option.some_inj] at hkept
      exact absurd (congrArg (fun x : PolicySnapshot => x.config.minFileSize) hkept).symm hv
  | exhausted namespaces haccepted hchanged hmax =>
      have hgeneration := h.generation
      rw [hmax] at hgeneration
      rw [← hgeneration] at hn
      exact absurd hn (by decide)
  | published haccepted hmax hgeneration hvalue hcommitted =>
      have hroot : (t.maps 0).active.root =
          ScalarField.edit (s.maps 0).active.root v .minFileSize := by
        have hnew := congrFun hvalue []
        rw [value_store_root, Function.update_self, editBase_root, Option.some_inj] at hnew
        exact hnew
      refine ⟨hbound, hcommitted.unlatched, hcommitted.anchored h.anchored,
        hcommitted.pcrIndex.trans h.pcrIndex, ?_, ?_, ?_, ?_⟩
      · rw [hgeneration, toNat_succ_of_ne_zero (succ_ne_zero_of_ne_max hmax), h.generation]
      · rw [hroot]
        exact h.rootLevel
      · rw [hroot]
        exact h.rootFilter
      · rw [hvalue, Function.update_of_ne (by decide)]
        exact h.record

/-- Another logging level of the record is neither weaker than the root's nor what is stored. -/
theorem Toggled.webLevel {n : ℕ} {s : KernelState} (h : Toggled n s) :
    ¬ ScalarField.logLevel.WeakerThan (s.maps 0).active.root.config 2 ∧
      ∀ base, verboseRequest.record.snapshot ≠ ScalarField.logLevel.edit base 2 := by
  refine ⟨by simp [ScalarField.WeakerThan, h.rootLevel], fun base heq => ?_⟩
  have hlevel : verboseRequest.record.snapshot.config.logLevel = 2 :=
    congrArg (fun x : PolicySnapshot => x.config.logLevel) heq
  exact absurd hlevel (by decide)

/-- Every generation from the second on is reached. -/
theorem exists_toggled (n : ℕ) (htwo : 2 ≤ n) (hn : n < 2 ^ 64) :
    ∃ ops, Toggled n (referenceRun ops) := by
  induction n, htwo using Nat.le_induction with
  | base =>
      refine ⟨[.policyBindMap workingBind, .policyApply workingApply (some verboseRequest)], ?_⟩
      constructor <;> decide +kernel
  | succ n _ ih =>
      obtain ⟨ops, h⟩ := ih (Nat.lt_of_succ_lt hn)
      have hs := PolicyBound.of_run _ _ _ _ 0 h.bound
      have htfm := tfm_kernelRun referencePlatform (fun _ => unboundPolicyMap) 10 ops
      have hstep := h.step hs htfm hn
      refine ⟨ops ++ [toggleOp (referenceRun ops)], ?_⟩
      rwa [referenceRun, kernelRun, run_append]

end BpfIma
