import BpfIma.Library.Machine
import BpfIma.Model.Measurement

/-! # The kernel module as a machine

One step is one call into the module. The locks make calls atomic towards each other:
a commit holds the commit mutex, a policy call the namespace mutex. -/

namespace BpfIma

open Errno

/-- The calls of the module, with the outcomes of each. -/
inductive KernelOp where
  | measurementExtend (env : ExtendEnv) (data : Option MeasurementRequest) (dataSize : ℕ)
  | addMeasurement (env : AddEnv) (container : Option ℕ)
      (eventName eventData dependencies : Option Bytes)
      (digest : Option Digest)
  | containerGetOrCreate (env : CreateEnv) (containerId : Option Bytes)
  | commitGetError (available : Bool)
  | policyNamespaceGet (alloc : Bool) (id : Bytes)
  | policyBindMap (env : BindEnv)
  | policyApply (env : ApplyEnv) (request : Option PolicyRequest)
  | policyUpdateField (requestAlloc : Bool) (env : ApplyEnv) (id field : Option Bytes)
      (value : UInt32)
  /-- Whatever user space does to a map. A frozen map without writers is out of its reach. -/
  | mapSyscall (m : ℕ) (map : BpfMap)

def kernelStep (P : Platform) (s : KernelState) : KernelOp → Ret × KernelState
  | .measurementExtend env data dataSize => measurementExtend P env data dataSize s
  | .addMeasurement env container eventName eventData dependencies digest =>
      let (ret, engine) := addContainerMeasurement P.toHashSuite (policyGetConfig s) env s.engine
        container eventName eventData dependencies digest
      (ret, { s with engine := engine })
  | .containerGetOrCreate env containerId => containerGetOrCreate env containerId s
  | .commitGetError available =>
      let (ret, engine) := commitCheckLocked available s.engine
      (ret, { s with engine := engine })
  | .policyNamespaceGet alloc id =>
      match policyNamespaceGetLocked alloc id s with
      | (.ok _, s) => (0, s)
      | (.error ret, s) => (ret, s)
  | .policyBindMap env => policyBindMap P env s
  | .policyApply env request => policyApply P env request s
  | .policyUpdateField requestAlloc env id field value =>
      policyUpdateField P requestAlloc env id field value s
  | .mapSyscall m map =>
      if (s.maps m).frozen = true ∧ (s.maps m).writecnt = 0 then (-eperm, s)
      else (0, s.setMap m map)

/-- A module that was just loaded, on a host with the given BPF maps and PCR number. -/
def moduleLoaded (maps : ℕ → BpfMap) (tpmPcrIndex : ℤ) : KernelState where
  engine :=
    { containers := []
      merkleRootHistory := []
      merkleRootHistoryCount := 0
      systemMerkleRoot := ⟨zeroDigest, true⟩
      sha256HashTable := []
      commitError := 0
      hardwareAnchored := false
      softwareCommitted := false
      tpmPcrIndex := tpmPcrIndex
      tpm := ⟨[], 0⟩ }
  maps := maps
  policyMap := none
  globalPolicyChangeHistory := []
  policyNamespaceList := []

/-- The state after a run of calls on a freshly loaded module. -/
def kernelRun (P : Platform) (maps : ℕ → BpfMap) (tpmPcrIndex : ℤ) (ops : List KernelOp) :
    KernelState :=
  Machine.run (kernelStep P) (moduleLoaded maps tpmPcrIndex) ops

end BpfIma
