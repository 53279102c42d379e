import BpfIma.Verification.Commit.Limit
import BpfIma.Verification.Policy.LongRun

/-! # The root-only history scope

Under `MERKLE_HISTORY_SCOPE_ROOT_ONLY` a commit trims only if its source id is empty. The policy
manager gives every commit a source id, that of a namespace or `global_policy`. So the history of
a run of policy updates grows with every one of them. -/

namespace BpfIma

open CString Errno Machine

/-- The call publishes another root policy. -/
def RootUpdate (P : Platform) (s : KernelState) (op : KernelOp) : Prop :=
  ∃ m, s.policyMap = some m ∧
    ((kernelStep P s op).2.maps m).active.root ≠ (s.maps m).active.root

/-- The active root policy trims for the root only. -/
def RootOnly (s : KernelState) : Prop := (policyGetConfig s).merkleHistoryScope = scopeRootOnly

/-- A candidate that is staged is not in force yet. -/
theorem policyGetConfig_stageCandidate {s : KernelState} {m : ℕ} (hbound : s.policyMap = some m)
    (candidate : PolicyState) :
    policyGetConfig (stageCandidate s m candidate) = policyGetConfig s := by
  have hstaged : (stageCandidate s m candidate).policyMap = some m := hbound
  simp only [policyGetConfig, hstaged, hbound, maps_stageCandidate, BpfMap.generation_stage]
  rw [BpfMap.activeSlot_stage _ _ rfl]

theorem policySource_ne_nil (id : Bytes) : policySource id ≠ [] := by
  unfold policySource
  split
  · decide
  · assumption

/-- A commit that is out of the scope is appended and nothing else. -/
theorem commitRootLocked_out_of_scope {S : HashSuite} {config : PolicyConfig} {env : CommitEnv}
    {s t : CommitState} {value : Option Digest} {source : Bytes}
    (h : commitRootLocked S config env s value (some source) = (0, t))
    (hscope : config.merkleHistoryScope = scopeRootOnly) (hsource : source ≠ []) :
    ∃ entry, t.merkleRootHistory = s.merkleRootHistory ++ [entry] := by
  have heffect := commitStep_effect S s (.commitRoot config env value (some source))
  simp only [commitStep, h] at heffect
  cases heffect with
  | refused error hret => exact absurd rfl hret
  | commandFailed extra hunlatched hallowed hret => exact absurd hret (lt_irrefl 0)
  | rootCommitted v hardware p =>
      refine ⟨p.history, ?_⟩
      rw [trimHistoryLocked, if_pos ⟨hscope, hsource⟩]
      cases hardware <;> rfl

theorem PublishEffect.out_of_scope {P : Platform} {env : PublishEnv} {s t : KernelState} {m : ℕ}
    {candidate : PolicyState} {index : Fin (policyNamespaces + 1)} {metadata : Option ℕ} {ret : Ret}
    (h : PublishEffect P env s m candidate index metadata ret t) (hbound : s.policyMap = some m)
    (hscope : RootOnly s) (hchanged : (t.maps m).active ≠ (s.maps m).active) :
    ∃ entry, t.engine.merkleRootHistory = s.engine.merkleRootHistory ++ [entry] := by
  cases h with
  | refused => exact absurd rfl hchanged
  | notCommitted engine hret hcommit hgeneration =>
      refine absurd ?_ hchanged
      change ((stageCandidate s m candidate).maps m).active = _
      rw [maps_stageCandidate]
      exact (s.maps m).active_stage _ rfl
  | published engine hgeneration hcommit =>
      rw [engine_publishedState]
      refine commitRootLocked_out_of_scope hcommit ?_ (policySource_ne_nil _)
      rw [policyGetConfig_stageCandidate hbound]
      exact hscope

/-- The step lemma: whatever changes the active policy is appended to the history. -/
theorem KernelEffect.out_of_scope {P : Platform} {s t : KernelState} {ret : Ret} {m : ℕ}
    (h : KernelEffect P s ret t) (hbound : s.policyMap = some m) (hs : (s.maps m).Published)
    (hscope : RootOnly s) (hchanged : (t.maps m).active ≠ (s.maps m).active) :
    ∃ entry, t.engine.merkleRootHistory = s.engine.merkleRootHistory ++ [entry] := by
  cases h with
  | engine => exact absurd rfl hchanged
  | mapSyscall m' map hreach =>
      refine absurd ?_ hchanged
      rw [s.setMap_maps_of_ne map]
      rintro rfl
      exact hreach hs.sealed
  | bind env hbind =>
      cases hbind with
      | refused | alreadyBound => exact absurd rfl hchanged
      | notCommitted m' engine hret hnone | bound m' engine hnone =>
          rw [hbound] at hnone
          cases hnone
  | update env hupdate =>
      cases hupdate with
      | refused => exact absurd rfl hchanged
      | applied request hname happly =>
          cases happly with
          | refused | unchanged => exact absurd rfl hchanged
          | attempted m' namespaces snapshot candidate index metadata hbound' hadded hnormal
              hcandidate hvalid haudited hpublish =>
              obtain rfl := Option.some.inj (hbound.symm.trans hbound')
              exact hpublish.out_of_scope hbound hscope hchanged

/-- An update of the root is appended to the history. -/
theorem RootUpdate.appends {P : Platform} {s : KernelState} {op : KernelOp}
    (h : RootUpdate P s op) (hs : PolicyBound s) (hscope : RootOnly s) :
    ∃ entry, (kernelStep P s op).2.engine.merkleRootHistory =
      s.engine.merkleRootHistory ++ [entry] := by
  obtain ⟨m, hbound, hroot⟩ := h
  refine (kernelStep_effect P s op).out_of_scope hbound (hs m hbound) hscope ?_
  intro hactive
  rw [hactive] at hroot
  exact hroot rfl

theorem length_history_updates {P : Platform} {s : KernelState} (hs : PolicyBound s)
    {updates : List KernelOp}
    (hupdates : Along (kernelStep P) (fun s op => RootOnly s ∧ RootUpdate P s op) s updates) :
    (run (kernelStep P) s updates).engine.merkleRootHistory.length =
      s.engine.merkleRootHistory.length + updates.length := by
  induction updates generalizing s with
  | nil => rfl
  | cons op updates ih =>
      obtain ⟨⟨hscope, hroot⟩, hrest⟩ := hupdates
      obtain ⟨entry, happends⟩ := hroot.appends hs hscope
      rw [run_cons, ih (hs.step (kernelStep_effect P s op)) hrest, happends, List.length_append,
        List.length_singleton, List.length_cons]
      omega

/-- The root-only scope bounds nothing. In every reachable state under it an update of the root
leaves more entries in the history than there were, however many there were; and a run of such
updates leaves one more entry for each. -/
theorem root_only_history_grows (P : Platform) (maps : ℕ → BpfMap) (tpmPcrIndex : ℤ)
    (ops : List KernelOp) :
    (∀ op, RootOnly (kernelRun P maps tpmPcrIndex ops) →
      RootUpdate P (kernelRun P maps tpmPcrIndex ops) op →
      ¬ (kernelRun P maps tpmPcrIndex (ops ++ [op])).engine.merkleRootHistory.length ≤
        (kernelRun P maps tpmPcrIndex ops).engine.merkleRootHistory.length) ∧
      ∀ updates, Along (kernelStep P) (fun s op => RootOnly s ∧ RootUpdate P s op)
          (kernelRun P maps tpmPcrIndex ops) updates →
        (kernelRun P maps tpmPcrIndex (ops ++ updates)).engine.merkleRootHistory.length =
          (kernelRun P maps tpmPcrIndex ops).engine.merkleRootHistory.length +
            updates.length := by
  have hgrows (updates : List KernelOp) (hupdates : Along (kernelStep P)
      (fun s op => RootOnly s ∧ RootUpdate P s op) (kernelRun P maps tpmPcrIndex ops) updates) :
      (kernelRun P maps tpmPcrIndex (ops ++ updates)).engine.merkleRootHistory.length =
        (kernelRun P maps tpmPcrIndex ops).engine.merkleRootHistory.length + updates.length := by
    rw [kernelRun, run_append]
    exact length_history_updates (PolicyBound.of_run P maps tpmPcrIndex ops) hupdates
  refine ⟨fun op hscope hroot => ?_, hgrows⟩
  rw [hgrows [op] ⟨⟨hscope, hroot⟩, trivial⟩, List.length_singleton]
  omega

/-- A root policy that keeps three entries, for the root only. -/
def rootOnlyRequest : PolicyRequest :=
  { verboseRequest with
    record :=
      { namespaceId := CString.zero _
        snapshot :=
          { initDefaultSnapshot with
            config :=
              { initDefaultSnapshot.config with
                merkleHistoryMaxSize := 3
                merkleHistoryScope := scopeRootOnly } } } }

/-- An edit of the root. -/
def rootEdit (value : UInt32) : KernelOp :=
  .policyUpdateField true workingApply none (some "min_file_size".ascii) value

/-- The root-only policy is published and edited twice. -/
def rootOnlyOps : List KernelOp :=
  [.policyBindMap workingBind, .policyApply workingApply (some rootOnlyRequest), rootEdit 1,
    rootEdit 2]

theorem rootUpdate_rootOnlyOps :
    RootOnly (referenceRun rootOnlyOps) ∧
      RootUpdate referencePlatform (referenceRun rootOnlyOps) (rootEdit 3) := by
  have hscope : (policyGetConfig (referenceRun rootOnlyOps)).merkleHistoryScope =
      scopeRootOnly := by decide +kernel
  have hbound : (referenceRun rootOnlyOps).policyMap = some 0 := by decide +kernel
  refine ⟨hscope, 0, hbound, ?_⟩
  intro hroot
  have hsize := congrArg (fun x : PolicySnapshot => x.config.minFileSize) hroot
  revert hsize
  decide +kernel

theorem root_only_history_grows_rootOnlyOps :
    (referenceRun rootOnlyOps).engine.merkleRootHistory.length <
      (referenceRun (rootOnlyOps ++ [rootEdit 3])).engine.merkleRootHistory.length := by
  obtain ⟨hscope, hupdate⟩ := rootUpdate_rootOnlyOps
  exact not_le.mp ((root_only_history_grows referencePlatform (fun _ => unboundPolicyMap) 10
    rootOnlyOps).1 (rootEdit 3) hscope hupdate)

/-- Four entries under a limit of three: the update of the root is published as the fifth. -/
theorem root_only_history_exceeds :
    (policyGetConfig (referenceRun rootOnlyOps)).merkleHistoryMaxSize = 3 ∧
      RootOnly (referenceRun rootOnlyOps) ∧
      RootUpdate referencePlatform (referenceRun rootOnlyOps) (rootEdit 3) ∧
      workingCommit.trim.Succeeds ∧
      (referenceRun rootOnlyOps).engine.merkleRootHistory.length = 4 ∧
      (referenceRun (rootOnlyOps ++ [rootEdit 3])).engine.merkleRootHistory.length = 5 := by
  obtain ⟨hscope, hupdate⟩ := rootUpdate_rootOnlyOps
  refine ⟨by decide +kernel, hscope, hupdate, ⟨rfl, rfl, fun _ => le_rfl⟩, ?_⟩
  decide +kernel

end BpfIma
