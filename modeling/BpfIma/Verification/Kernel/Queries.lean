import BpfIma.Verification.Kernel.Ledger
import BpfIma.Verification.Policy.Audit

/-! # What can be asked

The kfuncs that tell a BPF program about a container or about the changes of a policy answer from
the lists that the files show, in every state of the module. -/

namespace BpfIma

open CString Errno

/-- Looking an entry up by its id finds one that has it, or there is none. -/
theorem findIdx?_id_cases {α : Type} (entries : List α) (idOf : α → Bytes) (id : Bytes) :
    (∃ i entry, entries.findIdx? (fun e => idOf e == id) = some i ∧ entries[i]? = some entry ∧
        entry ∈ entries ∧ idOf entry = id) ∨
      entries.findIdx? (fun e => idOf e == id) = none ∧ ∀ entry ∈ entries, idOf entry ≠ id := by
  cases hfind : entries.findIdx? fun e => idOf e == id with
  | none =>
      refine .inr ⟨rfl, fun entry hmem hid => ?_⟩
      have hother := List.findIdx?_eq_none_iff.mp hfind entry hmem
      rw [hid, beq_self_eq_true] at hother
      cases hother
  | some i =>
      obtain ⟨hi, hid, -⟩ := List.findIdx?_eq_some_iff_getElem.mp hfind
      exact .inl ⟨i, entries[i], rfl, List.getElem?_eq_getElem hi, List.getElem_mem hi,
        eq_of_beq hid⟩

theorem kfuncContainerId_eq_some {containerId : Option Bytes} {id : Bytes}
    (h : kfuncContainerId containerId = some id) :
    copyKfuncString namespaceSize containerId false = .ok id ∧ validateNamespace id = 0 := by
  unfold kfuncContainerId at h
  cases hcopy : copyKfuncString namespaceSize containerId false with
  | error ret =>
      rw [hcopy] at h
      cases h
  | ok copied =>
      simp only [hcopy] at h
      split_ifs at h with hvalid
      obtain rfl := Option.some.inj h
      exact ⟨rfl, not_not.mp hvalid⟩

/-- The container kfuncs find a container exactly if there is one with the id, and report the
length of its list, in the 32 bits of its counter, and the fold of its digests. -/
theorem container_queries_agree (P : Platform) (writable : ℤ) (maps : ℕ → BpfMap)
    (tpmPcrIndex : ℤ) (ops : List EntryOp) (containerId : Option Bytes) (id : Bytes)
    (hid : kfuncContainerId containerId = some id) (buffer : Bytes)
    (hbuffer : buffer.length = merkleHashSize) :
    let s := entryRun P writable maps tpmPcrIndex ops
    (∃ c ∈ s.engine.containers, cstr c.id = id ∧ containerExists containerId s = 1 ∧
      containerGetMeasurementCount containerId s =
        (UInt32.ofNat c.measurementList.length).toInt32.toInt ∧
      containerGetLeafHash containerId (some buffer) s =
        (0, some (P.foldDigests c.digests).toList)) ∨
    (∀ c ∈ s.engine.containers, cstr c.id ≠ id) ∧ containerExists containerId s = 0 ∧
      containerGetMeasurementCount containerId s = -enoent ∧
      containerGetLeafHash containerId (some buffer) s = (-enoent, some buffer) := by
  intro s
  obtain ⟨calls, -, hrun⟩ := entryRun_eq_kernelRun P writable maps tpmPcrIndex ops
  have hledger : Ledger P.toHashSuite s.engine := by
    change Ledger P.toHashSuite (entryRun P writable maps tpmPcrIndex ops).engine
    rw [hrun]
    exact .of_kernelRun P maps tpmPcrIndex calls
  have hcontainer : containerById s id =
      (s.engine.containers.findIdx? fun c => cstr c.id == id).bind fun i =>
        s.engine.containers[i]? := rfl
  rcases findIdx?_id_cases s.engine.containers (fun c => cstr c.id) id with
    ⟨i, c, hfind, hget, hc, hcid⟩ | ⟨hfind, hnone⟩
  · have hfound : containerById s id = some c := by
      rw [hcontainer, hfind, Option.bind_some, hget]
    refine .inl ⟨c, hc, hcid, ?_, ?_, ?_⟩
    · simp [containerExists, hid, hfound]
    · simp only [containerGetMeasurementCount, hid, hfound, hledger.count c hc]
    · simp [containerGetLeafHash, hid, hfound, hbuffer, hledger.leaf c hc]
  · have hmissing : containerById s id = none := by rw [hcontainer, hfind, Option.bind_none]
    refine .inr ⟨hnone, ?_, ?_, ?_⟩
    · simp [containerExists, hid, hmissing]
    · simp only [containerGetMeasurementCount, hid, hmissing]
    · simp [containerGetLeafHash, hid, hmissing, hbuffer]

/-- The hash of a namespace's changes is the fold of what its file shows, and the file of the root
shows the updates of the root in the order of their generations. -/
theorem change_queries_agree (P : Platform) (maps : ℕ → BpfMap) (tpmPcrIndex : ℤ)
    (ops : List KernelOp) :
    let s := kernelRun P maps tpmPcrIndex ops
    globalPolicyChangesShow s =
        ((publishedUpdates (policyCalls P (moduleLoaded maps tpmPcrIndex) ops)).filter
          fun u => u.index = 0).flatMap (fun u => changeLine (u.change P)) ∧
      ∀ (namespaceId : Option Bytes) (id buffer : Bytes), kfuncContainerId namespaceId = some id →
        buffer.length = merkleHashSize →
        (∃ ns ∈ s.policyNamespaceList, cstr ns.namespaceId = id ∧
          policyGetChangesHash namespaceId (some buffer) s =
            (0, some (P.foldDigests (ns.changeHistory.map PolicyChange.changeHash)).toList)) ∨
        (∀ ns ∈ s.policyNamespaceList, cstr ns.namespaceId ≠ id) ∧
          policyGetChangesHash namespaceId (some buffer) s = (-enoent, some buffer) := by
  intro s
  have hlog : AuditLog P s (policyCalls P (moduleLoaded maps tpmPcrIndex) ops) :=
    .of_run P maps tpmPcrIndex ops
  refine ⟨?_, fun namespaceId id buffer hid hbuffer => ?_⟩
  · rw [globalPolicyChangesShow, hlog.root, List.flatMap_map]
  · obtain ⟨hcopy, hvalid⟩ := kfuncContainerId_eq_some hid
    rcases findIdx?_id_cases s.policyNamespaceList (fun ns => cstr ns.namespaceId) id with
      ⟨i, ns, hfind, hget, hns, hnsid⟩ | ⟨hfind, hnone⟩
    · refine .inl ⟨ns, hns, hnsid, ?_⟩
      rw [← hlog.folded ns hns]
      simp [policyGetChangesHash, findPolicyNamespace, hcopy, hvalid, hbuffer, hfind, hget]
    · refine .inr ⟨hnone, ?_⟩
      simp [policyGetChangesHash, findPolicyNamespace, hcopy, hvalid, hbuffer, hfind]

end BpfIma
