import BpfIma.Model.Kernel
import BpfIma.Model.PolicyFiles

/-! # The entry points of the module

What user space and BPF programs can call: the files in securityfs and the registered kfuncs.
First those that tell a BPF program about the engine, then all of them as one machine. -/

namespace BpfIma

open CString Errno

/-! ## Queries -/

/-- The id that a container kfunc is called with. -/
def kfuncContainerId (containerId : Option Bytes) : Option Bytes :=
  match copyKfuncString namespaceSize containerId false with
  | .error _ => none
  | .ok id => if validateNamespace id ≠ 0 then none else some id

/-- The node that `find_container_by_id_rcu` finds. -/
def containerById (s : KernelState) (id : Bytes) : Option ContainerNode :=
  (findContainerById s id).bind fun i => s.engine.containers[i]?

/-- `bpfima_merkle_get_root` into `rootHash`; `none` is a `NULL` buffer. -/
def merkleGetRoot (rootHash : Option Bytes) (s : KernelState) : Ret × Option Bytes :=
  if rootHash.map List.length ≠ some merkleHashSize then (-einval, rootHash)
  else (0, some s.engine.systemMerkleRoot.rootHash.toList)

def containerGetMeasurementCount (containerId : Option Bytes) (s : KernelState) : Ret :=
  match kfuncContainerId containerId with
  | none => -einval
  | some id =>
      match containerById s id with
      | none => -enoent
      -- `atomic_read` is signed.
      | some container => container.measurementCount.toInt32.toInt

def containerExists (containerId : Option Bytes) (s : KernelState) : Ret :=
  match kfuncContainerId containerId with
  | none => -einval
  | some id => if (containerById s id).isSome then 1 else 0

/-- `bpfima_container_get_leaf_hash` into `leafHash`; `none` is a `NULL` buffer. -/
def containerGetLeafHash (containerId leafHash : Option Bytes) (s : KernelState) :
    Ret × Option Bytes :=
  match kfuncContainerId containerId with
  | none => (-einval, leafHash)
  | some id =>
      if leafHash.map List.length ≠ some merkleHashSize then (-einval, leafHash)
      else
        match containerById s id with
        | none => (-enoent, leafHash)
        | some container => (0, some container.leafHash.toList)

/-! ## The PCR as text -/

/-- `BPFIMA_PCR_BUFFER_SIZE`. -/
def pcrBufferSize : ℕ := 80

/-- The outcomes of one `bpfima_tpm_get_pcr_value`: `chip` tells whether there is a default chip
when the call asks for it, `digest` is what the chip reads. -/
structure PcrEnv where
  canSleep : Bool
  available : Bool
  chip : Bool
  readRet : Ret
  digest : Digest

/-- `%d`. -/
def formatInt (n : ℤ) : Bytes :=
  if n < 0 then "-".ascii ++ Text.decimal n.natAbs else Text.decimal n.natAbs

/-- The text that starts every answer. -/
def pcrLabel (tpmPcrIndex : ℤ) (label : String) : Bytes :=
  "PCR".ascii ++ formatInt tpmPcrIndex ++ label.ascii

/-- The loop that appends the digest while there is room, with what `snprintf` cuts off. -/
def appendPcrDigest (size : ℕ) : Bytes → Bytes → Bytes
  | text, [] => text
  | text, b :: digest =>
      if text.length < size - 3 then
        appendPcrDigest size (text ++ fitted (size - text.length) (Text.hexByte b)) digest
      else text

/-- `bpfima_tpm_get_pcr_value` into a buffer of `size` bytes, `none` for `NULL`: the return value
and the string in the buffer, if one was written. -/
def tpmGetPcrValue (env : PcrEnv) (size : Option ℕ) (s : KernelState) :
    Ret × Option Bytes × KernelState :=
  match size with
  | none => (-einval, none, s)
  | some size =>
      if size < pcrBufferSize then (-einval, none, s)
      else
        let index := s.engine.tpmPcrIndex
        if env.canSleep = false then
          (0, some (fitted size (pcrLabel index "_ATOMIC_CONTEXT")), s)
        else
          let (ret, engine) := commitCheckLocked env.available s.engine
          let s := { s with engine := engine }
          if ret ≠ 0 then (ret, none, s)
          else if env.chip = false then
            if s.engine.hardwareAnchored then
              (-enodev, none, { s with engine := (commitFailLocked (-enodev) s.engine).2 })
            else (0, some (fitted size (pcrLabel index "_HASH_SIMULATION")), s)
          else if commitHardwareAllowedLocked s.engine = false then
            (-eio, none, { s with engine := (commitFailLocked (-eio) s.engine).2 })
          else if env.readRet ≠ 0 then
            (if env.readRet > 0 then -eio else env.readRet,
              some (fitted size (pcrLabel index "_HASH_SIMULATION")), s)
          else
            (0, some (appendPcrDigest size (fitted size (pcrLabel index "_REAL:"))
              env.digest.toList), s)

/-! ## Status -/

/-- `bpfima_policy_map_id`; `mapIds` are the ids of the maps. -/
def policyMapId (mapIds : ℕ → UInt32) (s : KernelState) : UInt32 := (s.policyMap.map mapIds).getD 0

/-- `status_show`; `chip` is what it finds itself, `available` what the check of the commit engine
finds. -/
def statusShow (mapIds : ℕ → UInt32) (chip available : Bool) (s : KernelState) :
    Bytes × KernelState :=
  let (error, engine) := commitCheckLocked available s.engine
  (fieldLine "module" "bpfima".ascii ++
    fieldLine "pcr_index" (formatInt s.engine.tpmPcrIndex) ++
    fieldLine "tpm_available" (if chip then "yes".ascii else "no".ascii) ++
    fieldLine "digest_algorithm" "sha256".ascii ++
    fieldLine "commit_error" (formatInt error) ++
    fieldLine "policy_generation" (Text.decimal (policyGeneration s).toNat) ++
    fieldLine "policy_map_id" (Text.decimal (policyMapId mapIds s).toNat),
    { s with engine := engine })

/-! ## The machine -/

/-- The calls that can change something. -/
inductive EntryOp where
  | globalPolicyWrite (env : TextWriteEnv) (userBuf : Bytes)
  | policyUpdateWrite (env : TextWriteEnv) (namespaceId : Option Bytes) (userBuf : Bytes)
  | policyApplyWrite (env : WriteEnv) (buffer : Bytes)
  | policyMapWrite (env : MapWriteEnv) (buffer : Bytes)
  | policyShow (alloc : Bool) (id : Option Bytes)
  | policyChangesShow (alloc : Bool) (id : Option Bytes)
  | statusShow (mapIds : ℕ → UInt32) (chip available : Bool)
  | measurementExtend (env : ExtendEnv) (data : Option MeasurementRequest) (dataSize : ℕ)
  | tpmGetPcrValue (env : PcrEnv) (size : Option ℕ)
  | containerGetOrCreate (env : CreateEnv) (containerId : Option Bytes)
  | policyUpdateFilterFlags (requestAlloc : Bool) (env : ApplyEnv) (namespaceId : Option Bytes)
      (newFlags : UInt32)
  | policyUpdateActionFlags (requestAlloc : Bool) (env : ApplyEnv) (namespaceId : Option Bytes)
      (newFlags : UInt32)
  | policyUpdateMinFileSize (requestAlloc : Bool) (env : ApplyEnv) (namespaceId : Option Bytes)
      (newSize : UInt32)
  | policyUpdateLogLevel (requestAlloc : Bool) (env : ApplyEnv) (namespaceId : Option Bytes)
      (newLevel : UInt32)
  /-- Whatever user space does to a map with the `bpf` system call. -/
  | mapSyscall (m : ℕ) (map : BpfMap)

/-- The return value of a `show` function. -/
def showResult (result : Except Ret Bytes × KernelState) : Ret × KernelState :=
  match result with
  | (.error ret, s) => (ret, s)
  | (.ok _, s) => (0, s)

/-- One call into a module that was loaded with the given `securityfs_policy_writable`. -/
def entryStep (P : Platform) (writable : ℤ) (s : KernelState) : EntryOp → Ret × KernelState
  | .globalPolicyWrite env userBuf =>
      globalPolicyWrite P { env with securityfsPolicyWritable := writable } userBuf s
  | .policyUpdateWrite env namespaceId userBuf =>
      policyUpdateWrite P { env with securityfsPolicyWritable := writable } namespaceId userBuf s
  | .policyApplyWrite env buffer =>
      policyApplyWrite P { env with securityfsPolicyWritable := writable } buffer s
  | .policyMapWrite env buffer => policyMapWrite P env buffer s
  | .policyShow alloc id => showResult (policyShow alloc id s)
  | .policyChangesShow alloc id => showResult (policyChangesShow alloc id s)
  | .statusShow mapIds chip available => (0, (statusShow mapIds chip available s).2)
  | .measurementExtend env data dataSize => measurementExtend P env data dataSize s
  | .tpmGetPcrValue env size =>
      let (ret, _, s) := tpmGetPcrValue env size s
      (ret, s)
  | .containerGetOrCreate env containerId => containerGetOrCreate env containerId s
  | .policyUpdateFilterFlags requestAlloc env namespaceId newFlags =>
      policyUpdateFilterFlags P requestAlloc env namespaceId newFlags s
  | .policyUpdateActionFlags requestAlloc env namespaceId newFlags =>
      policyUpdateActionFlags P requestAlloc env namespaceId newFlags s
  | .policyUpdateMinFileSize requestAlloc env namespaceId newSize =>
      policyUpdateMinFileSize P requestAlloc env namespaceId newSize s
  | .policyUpdateLogLevel requestAlloc env namespaceId newLevel =>
      policyUpdateLogLevel P requestAlloc env namespaceId newLevel s
  | .mapSyscall m map => kernelStep P s (.mapSyscall m map)

/-- The state after a run of calls on a freshly loaded module. -/
def entryRun (P : Platform) (writable : ℤ) (maps : ℕ → BpfMap) (tpmPcrIndex : ℤ)
    (ops : List EntryOp) : KernelState :=
  Machine.run (entryStep P writable) (moduleLoaded maps tpmPcrIndex) ops

end BpfIma
