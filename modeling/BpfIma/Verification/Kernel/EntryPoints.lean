import BpfIma.Model.EntryPoints
import BpfIma.Verification.Policy.Coverage
import BpfIma.Verification.Policy.Files

/-! # What can be reached through the entry points

Every call of a file or a kfunc is a few calls of the machine below. In a module that was loaded
read-only none of them is an update of the root. -/

namespace BpfIma

open CString Errno Machine

/-- A call that does not update the root policy. -/
def KernelOp.SparesRoot : KernelOp → Prop
  | .policyApply _ _ => False
  | .policyUpdateField _ _ id _ _ => id ≠ none
  | _ => True

/-- `t` is reached from `s` by calls, which spare the root in a read-only module. -/
def EntryMoves (P : Platform) (writable : ℤ) (s t : KernelState) : Prop :=
  ∃ calls : List KernelOp, (∀ call ∈ calls, writable = 0 → call.SparesRoot) ∧
    t = run (kernelStep P) s calls

namespace EntryMoves

variable {P : Platform} {writable : ℤ} {s t u : KernelState}

theorem refl : EntryMoves P writable s s := ⟨[], by simp, rfl⟩

theorem call (op : KernelOp) (hop : writable = 0 → op.SparesRoot) :
    EntryMoves P writable s (kernelStep P s op).2 :=
  ⟨[op], by simpa using hop, rfl⟩

theorem trans (hst : EntryMoves P writable s t) (htu : EntryMoves P writable t u) :
    EntryMoves P writable s u := by
  obtain ⟨first, hfirst, rfl⟩ := hst
  obtain ⟨rest, hrest, rfl⟩ := htu
  refine ⟨first ++ rest, fun op hop => ?_, (run_append _ _ _ _).symm⟩
  rcases List.mem_append.mp hop with hop | hop
  · exact hfirst op hop
  · exact hrest op hop

theorem check (available : Bool) :
    EntryMoves P writable s { s with engine := (commitCheckLocked available s.engine).2 } :=
  call (.commitGetError available) fun _ => trivial

theorem metadata (alloc : Bool) (id : Bytes) :
    EntryMoves P writable s (policyNamespaceGetLocked alloc id s).2 := by
  have hcall : EntryMoves P writable s (kernelStep P s (.policyNamespaceGet alloc id)).2 :=
    call _ fun _ => trivial
  have hstep : (kernelStep P s (.policyNamespaceGet alloc id)).2 =
      (policyNamespaceGetLocked alloc id s).2 := by
    simp only [kernelStep]
    rcases policyNamespaceGetLocked alloc id s with ⟨_ | _, t⟩ <;> rfl
  rwa [hstep] at hcall

end EntryMoves

/-! ## Each entry point -/

section Calls

variable {P : Platform} {writable : ℤ} {s : KernelState}

theorem copyWritten_readOnly {env : TextWriteEnv} (h : env.securityfsPolicyWritable = 0)
    (userBuf : Bytes) : copyWritten env userBuf = .error (-eperm) := if_pos h

theorem parseAndUpdatePolicy_moves {env : TextWriteEnv} (buf : Bytes) {id : Option Bytes}
    (hid : writable = 0 → id ≠ none) :
    EntryMoves P writable s (parseAndUpdatePolicy P env buf id s).2 := by
  unfold parseAndUpdatePolicy
  split
  · exact .refl
  · split
    · exact .refl
    · split
      · exact .refl
      · exact .call (.policyUpdateField _ _ _ _ _) hid

theorem globalPolicyWrite_moves {env : TextWriteEnv} (userBuf : Bytes)
    (hwritable : env.securityfsPolicyWritable = writable) :
    EntryMoves P writable s (globalPolicyWrite P env userBuf s).2 := by
  unfold globalPolicyWrite
  by_cases hreadOnly : writable = 0
  · rw [copyWritten_readOnly (hwritable.trans hreadOnly)]
    exact .refl
  · split
    · exact .refl
    · exact parseAndUpdatePolicy_moves _ fun h => absurd h hreadOnly

theorem policyUpdateWrite_moves {env : TextWriteEnv} (namespaceId : Option Bytes)
    (userBuf : Bytes) :
    EntryMoves P writable s (policyUpdateWrite P env namespaceId userBuf s).2 := by
  unfold policyUpdateWrite
  split
  · exact .refl
  · split
    · exact .refl
    · exact parseAndUpdatePolicy_moves _ fun _ => Option.some_ne_none _

theorem policyApplyWrite_moves {env : WriteEnv} (buffer : Bytes)
    (hwritable : env.securityfsPolicyWritable = writable) :
    EntryMoves P writable s (policyApplyWrite P env buffer s).2 := by
  unfold policyApplyWrite
  split
  · exact .refl
  · rename_i hpermitted
    split
    · exact .refl
    · split
      · exact .refl
      · refine .call (.policyApply env.apply _) fun hreadOnly => ?_
        exact absurd (.inl (hwritable.trans hreadOnly)) hpermitted

theorem policyMapWrite_moves {env : MapWriteEnv} (buffer : Bytes) :
    EntryMoves P writable s (policyMapWrite P env buffer s).2 := by
  unfold policyMapWrite
  split
  · exact .refl
  · split
    · exact .refl
    · split
      · exact .refl
      · split
        · exact .refl
        · split
          · exact .refl
          · exact .call (.policyBindMap _) fun _ => trivial

theorem policyShow_moves (alloc : Bool) (id : Option Bytes) :
    EntryMoves P writable s (showResult (policyShow alloc id s)).2 := by
  cases id with
  | none => exact .refl
  | some id =>
      have hmetadata : EntryMoves P writable s (policyNamespaceGetLocked alloc id s).2 :=
        .metadata alloc id
      simp only [policyShow]
      cases policyReadLocked (some id) s with
      | error ret => exact .refl
      | ok shown =>
          generalize policyNamespaceGetLocked alloc id s = found at hmetadata ⊢
          rcases found with ⟨_ | _, t⟩ <;> exact hmetadata

theorem policyChangesShow_moves (alloc : Bool) (id : Option Bytes) :
    EntryMoves P writable s (showResult (policyChangesShow alloc id s)).2 := by
  cases id with
  | none => exact .refl
  | some id =>
      have hmetadata : EntryMoves P writable s (policyNamespaceGetLocked alloc id s).2 :=
        .metadata alloc id
      simp only [policyChangesShow]
      generalize policyNamespaceGetLocked alloc id s = found at hmetadata ⊢
      rcases found with ⟨_ | _, t⟩ <;> exact hmetadata

theorem policyUpdateKfunc_moves (field : String) (requestAlloc : Bool) (env : ApplyEnv)
    (namespaceId : Option Bytes) (value : UInt32) :
    EntryMoves P writable s
      (policyUpdateKfunc P field requestAlloc env namespaceId value s).2 := by
  unfold policyUpdateKfunc
  split
  · exact .refl
  · split
    · exact .refl
    · exact .call (.policyUpdateField _ _ _ _ _) fun _ => Option.some_ne_none _

/-- The errors that reading the PCR latches are those of a second check. -/
theorem tpmGetPcrValue_moves (env : PcrEnv) (size : Option ℕ) :
    EntryMoves P writable s (tpmGetPcrValue env size s).2.2 := by
  unfold tpmGetPcrValue
  split
  · exact .refl
  · split
    · exact .refl
    · simp only
      split
      · exact .refl
      · have hfirst : EntryMoves P writable s
            { s with engine := (commitCheckLocked env.available s.engine).2 } := .check _
        split
        · exact hfirst
        · rename_i hpassed
          rw [not_not] at hpassed
          obtain ⟨hunlatched, hsame⟩ := commitCheckLocked_zero hpassed
          rw [hsame]
          split
          · split
            · rename_i hanchored
              have hnegative : -enodev < 0 := by decide
              have hlatch : commitFailLocked (-enodev) s.engine =
                  commitCheckLocked false s.engine := by
                simp only [commitFailLocked, commitCheckLocked, hunlatched, hanchored, ne_eq,
                  not_true, if_false, if_true, Bool.not_false, Bool.and_true, hnegative]
              rw [hlatch]
              exact .check false
            · exact .refl
          · split
            · rename_i hsoftware
              have hlatch : commitFailLocked (-eio) s.engine =
                  commitCheckLocked true s.engine := by
                simp [commitFailLocked, commitCheckLocked, hunlatched, hsoftware]
              rw [hlatch]
              exact .check true
            · split <;> exact .refl

theorem entryStep_moves (P : Platform) (writable : ℤ) (s : KernelState) (op : EntryOp) :
    EntryMoves P writable s (entryStep P writable s op).2 := by
  cases op with
  | globalPolicyWrite env userBuf => exact globalPolicyWrite_moves userBuf rfl
  | policyUpdateWrite env namespaceId userBuf => exact policyUpdateWrite_moves namespaceId userBuf
  | policyApplyWrite env buffer => exact policyApplyWrite_moves buffer rfl
  | policyMapWrite env buffer => exact policyMapWrite_moves buffer
  | policyShow alloc id => exact policyShow_moves alloc id
  | policyChangesShow alloc id => exact policyChangesShow_moves alloc id
  | statusShow mapIds chip available => exact .check available
  | measurementExtend env data dataSize =>
      exact .call (.measurementExtend env data dataSize) fun _ => trivial
  | tpmGetPcrValue env size => exact tpmGetPcrValue_moves env size
  | containerGetOrCreate env containerId =>
      exact .call (.containerGetOrCreate env containerId) fun _ => trivial
  | policyUpdateFilterFlags | policyUpdateActionFlags | policyUpdateMinFileSize
  | policyUpdateLogLevel => exact policyUpdateKfunc_moves _ _ _ _ _
  | mapSyscall m map => exact .call (.mapSyscall m map) fun _ => trivial

end Calls

/-- A run of entry points is a run of the machine below. -/
theorem entryRun_eq_kernelRun (P : Platform) (writable : ℤ) (maps : ℕ → BpfMap) (tpmPcrIndex : ℤ)
    (ops : List EntryOp) :
    ∃ calls : List KernelOp, (∀ call ∈ calls, writable = 0 → call.SparesRoot) ∧
      entryRun P writable maps tpmPcrIndex ops = kernelRun P maps tpmPcrIndex calls :=
  run_simulates (entryStep_moves P writable) _ ops

/-! ## Calls that spare the root -/

theorem ApplyEffect.root_kept {P : Platform} {env : ApplyEnv} {request : PolicyRequest}
    {s t : KernelState} {ret : Ret} {m : ℕ} (h : ApplyEffect P env request s ret t)
    (hbound : s.policyMap = some m) (hs : (s.maps m).Published)
    (hid : cstr request.record.namespaceId ≠ [])
    (hname : validNamespace (cstr request.record.namespaceId) = true) :
    (t.maps m).active.root = (s.maps m).active.root := by
  cases h with
  | refused | unchanged => rfl
  | attempted m' namespaces snapshot candidate index metadata hbound' hadded hnormal hcandidate
      hvalid haudited hpublish =>
      obtain rfl := Option.some.inj (hbound.symm.trans hbound')
      have hwf := hs.active_wellFormed
      obtain ⟨-, -, hactive | hactive⟩ := hpublish.keeps_published hs
        (hwf.candidate (fun _ => hname) (normalizeSnapshot_idempotent hnormal) hcandidate)
      · rw [hactive]
      · rw [hactive]
        exact congrArg PolicyRecord.snapshot (hcandidate.root hid hwf).2

theorem policyUpdateField_root_kept {P : Platform} {s : KernelState} {m : ℕ}
    (hbound : s.policyMap = some m) (hs : (s.maps m).Published) (requestAlloc : Bool)
    (env : ApplyEnv) (id : Bytes) (field : Option Bytes) (value : UInt32) :
    ((policyUpdateField P requestAlloc env (some id) field value s).2.maps m).active.root =
      (s.maps m).active.root := by
  unfold policyUpdateField
  split
  · rfl
  · split
    · rfl
    · rename_i hvalid
      split
      · rfl
      · split
        · rfl
        · split
          · rfl
          · rename_i request hrequest
            have hname : ∀ name ∈ some id, validNamespace name = true := by simpa using hvalid
            have hcstr := fieldRequest_namespaceId hname hrequest
            have hid : validNamespace id = true := hname id rfl
            simp only [Option.getD_some] at hcstr
            refine (applyLocked_effect P env request s).root_kept hbound hs ?_ ?_
            · rw [hcstr]
              exact (validNamespace_spec hid).2.1
            · rw [hcstr]
              exact hid

/-- The bound map holds the default root. -/
structure DefaultRoot (s : KernelState) : Prop where
  published : PolicyBound s
  root : ∀ m, s.policyMap = some m → (s.maps m).active.root = initDefaultSnapshot

/-- A call that updates no policy leaves the active state of a bound map alone. -/
theorem active_of_not_update {P : Platform} {s : KernelState} {m : ℕ}
    (hbound : s.policyMap = some m) (hs : (s.maps m).Published) {op : KernelOp}
    (hop : op.isPolicyCall = false ∨ ∃ env, op = .policyBindMap env) :
    ((kernelStep P s op).2.maps m).active = (s.maps m).active := by
  rcases hop with hop | ⟨env, rfl⟩
  · have heffect := kernelStep_other P s hop
    generalize kernelStep P s op = result at heffect ⊢
    obtain ⟨ret, t⟩ := result
    cases heffect with
    | engine => rfl
    | mapSyscall m' map hreach =>
        have hne : m ≠ m' := by
          rintro rfl
          exact hreach hs.sealed
        exact congrArg BpfMap.active (s.setMap_maps_of_ne map hne)
  · have heffect := policyBindMap_effect P env s
    simp only [kernelStep]
    generalize policyBindMap P env s = result at heffect ⊢
    obtain ⟨ret, t⟩ := result
    cases heffect with
    | refused | alreadyBound => rfl
    | notCommitted m' engine hret hnone | bound m' engine hnone => cases hnone.symm.trans hbound

theorem DefaultRoot.step {P : Platform} {s : KernelState} (h : DefaultRoot s) (op : KernelOp)
    (hop : op.SparesRoot) : DefaultRoot (kernelStep P s op).2 := by
  have heffect := kernelStep_effect P s op
  refine ⟨h.published.step heffect, fun m hm => ?_⟩
  cases hmap : s.policyMap with
  | none =>
      obtain ⟨engine, hfrozen, hzero, heq⟩ := heffect.bound_of_none hmap hm
      rw [heq]
      exact congrArg PolicyState.root (published_of_bound (P := P) hfrozen hzero engine).2
  | some m' =>
      have hs := h.published m' hmap
      obtain ⟨hbound, -, -⟩ := heffect.activeStep hmap hs
      obtain rfl := Option.some.inj (hbound.symm.trans hm)
      rw [← h.root m' hmap]
      cases op with
      | policyApply env request => exact hop.elim
      | policyUpdateField requestAlloc env id field value =>
          cases id with
          | none => exact absurd rfl hop
          | some id => exact policyUpdateField_root_kept hmap hs requestAlloc env id field value
      | policyBindMap env => rw [active_of_not_update hmap hs (.inr ⟨env, rfl⟩)]
      | measurementExtend | addMeasurement | containerGetOrCreate | commitGetError
      | policyNamespaceGet | mapSyscall => rw [active_of_not_update hmap hs (.inl rfl)]

/-- In a module that was loaded with a read-only policy interface, no run of file writes, file
reads and kfunc calls changes the root policy: whatever the default root measures is measured,
in every namespace and whatever its record, and with at least the default actions. -/
theorem readonly_module_measures_default (P : Platform) (maps : ℕ → BpfMap) (tpmPcrIndex : ℤ)
    (ops : List EntryOp) (m : ℕ)
    (hbound : (entryRun P 0 maps tpmPcrIndex ops).policyMap = some m) (context : PolicyContext)
    (hcontext : context.wellFormed) :
    ((entryRun P 0 maps tpmPcrIndex ops).maps m).active.root = initDefaultSnapshot ∧
      ∃ result, policyResolveContext context (entryRun P 0 maps tpmPcrIndex ops) = .ok result ∧
        ((resolveSnapshots 1 initDefaultSnapshot none context).skip = 0 → result.skip = 0) ∧
        result.Covers initDefaultSnapshot (Fin.ofNat hookMax context.hook.toNat) := by
  obtain ⟨calls, hcalls, hrun⟩ := entryRun_eq_kernelRun P 0 maps tpmPcrIndex ops
  rw [hrun] at hbound ⊢
  have hdefault : DefaultRoot (kernelRun P maps tpmPcrIndex calls) := by
    refine run_induction (fun s op hop hs => hs.step op hop)
      (along_of_forall_mem _ (fun call hcall => hcalls call hcall rfl) _) ⟨?_, ?_⟩
    · intro m hm
      cases hm
    · intro m hm
      cases hm
  generalize kernelRun P maps tpmPcrIndex calls = s at hbound hdefault ⊢
  have hroot := hdefault.root m hbound
  refine ⟨hroot, _, policyResolveContext_of_wellFormed hcontext hbound, ?_, ?_⟩
  · intro hskip
    refine skip_resolveSnapshots_of_root _ _ _ _ ?_
    rw [PolicyState.root] at hroot
    rw [hroot]
    exact hskip
  · rw [← hroot]
    exact resolveSnapshots_covers _ _ _ _

/-- The map is bound through its file; a BPF program then edits a namespace. -/
def readonlyOps : List EntryOp :=
  [.policyMapWrite ⟨true, false, fun _ => workingBind⟩ "7\n".ascii,
    .globalPolicyWrite workingTextWrite "enabled=0\n".ascii,
    .policyUpdateLogLevel true workingApply (some (webId ++ [0])) 3]

theorem readonly_module_measures_default_readonlyOps :
    (entryRun referencePlatform 0 (fun _ => unboundPolicyMap) 10 readonlyOps).policyMap = some 0 ∧
      executionContext.wellFormed ∧
      ((entryRun referencePlatform 0 (fun _ => unboundPolicyMap) 10 readonlyOps).maps
        0).active.root = initDefaultSnapshot := by
  have hbound : (entryRun referencePlatform 0 (fun _ => unboundPolicyMap) 10
      readonlyOps).policyMap = some 0 := by decide +kernel
  have hcontext : executionContext.wellFormed := by decide +kernel
  exact ⟨hbound, hcontext, (readonly_module_measures_default referencePlatform
    (fun _ => unboundPolicyMap) 10 readonlyOps 0 hbound executionContext hcontext).1⟩

end BpfIma
