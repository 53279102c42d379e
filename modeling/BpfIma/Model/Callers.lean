import BpfIma.Library.Threads
import BpfIma.Model.Kernel

/-! # Concurrent callers

`bpfima_measurement_extend` as a thread. A call locks one thing after the other; between
two of its sections other callers run, and so do the other calls of the module. -/

namespace BpfIma

open CString Errno

/-- How far a call has come, with its local variables. -/
inductive CallPoint where
  | idle
  | hashed (request : MeasurementRequest) (hashValue : Digest)
  | checked (request : MeasurementRequest) (hashValue : Digest)
  | notFound (request : MeasurementRequest) (hashValue : Digest)
  | referenced (request : MeasurementRequest) (hashValue : Digest) (container : ℕ)
  | returned (ret : Ret)
deriving DecidableEq

/-- A caller with the arguments of its last call. -/
structure Caller where
  data : Option MeasurementRequest
  dataSize : ℕ
  point : CallPoint

def Caller.idle : Caller := ⟨none, 0, .idle⟩

/-- The sections of a call, with the outcomes of each. -/
inductive ExtendAction where
  | enter (data : Option MeasurementRequest) (dataSize : ℕ) (hashRet : Ret)
  | commitGetError (available : Bool)
  | findContainerById
  | createContainerNode (env : CreateEnv)
  | addContainerMeasurement (env : AddEnv)

/-- The start of a call: it validates its copy of the request and hashes it. -/
def enterExtend (P : Platform) (data : Option MeasurementRequest) (dataSize : ℕ) (hashRet : Ret) :
    CallPoint :=
  let (ret, mem) := prepareMeasurement data dataSize ⟨.zero, List.replicate concatDataSize 0, 0⟩
  if ret ≠ 0 then .returned ret
  else if hashRet ≠ 0 then .returned hashRet
  else .hashed mem.request (P.sha256 (mem.concatData.take mem.totalLen))

/-- One section of a call; a section out of turn does nothing. -/
def extendAction (P : Platform) (s : KernelState) (caller : Caller) (action : ExtendAction) :
    Caller × KernelState :=
  match caller.point, action with
  | .idle, .enter data dataSize hashRet | .returned _, .enter data dataSize hashRet =>
      (⟨data, dataSize, enterExtend P data dataSize hashRet⟩, s)
  | .hashed request hashValue, .commitGetError available =>
      let (ret, engine) := commitCheckLocked available s.engine
      ({ caller with point := if ret ≠ 0 then .returned ret else .checked request hashValue },
        { s with engine := engine })
  | .checked request hashValue, .findContainerById =>
      match findContainerById s request.effectiveNamespace with
      | some i => ({ caller with point := .referenced request hashValue i }, s)
      | none => ({ caller with point := .notFound request hashValue }, s)
  | .notFound request hashValue, .createContainerNode env =>
      match createContainerNode env request.effectiveNamespace s with
      | (.error ret, s) => ({ caller with point := .returned ret }, s)
      | (.ok i, s) => ({ caller with point := .referenced request hashValue i }, s)
  | .referenced request hashValue i, .addContainerMeasurement env =>
      let (ret, engine) := addContainerMeasurement P.toHashSuite (policyGetConfig s) env s.engine
        (some i) (some (cstr request.eventName)) (some (cstr request.additionalData))
        (some (cstr request.dependencies)) (some hashValue)
      ({ caller with point := .returned (if ret = 1 then 0 else ret) }, { s with engine := engine })
  | _, _ => (caller, s)

/-- The calls that record measurements. -/
def KernelOp.isMeasurement : KernelOp → Bool
  | .measurementExtend .. | .addMeasurement .. => true
  | _ => false

/-- Every other call of the module. -/
def otherCall (P : Platform) (s : KernelState) (op : KernelOp) : KernelState :=
  if op.isMeasurement then s else (kernelStep P s op).2

abbrev SystemState := Threads.State KernelState Caller

abbrev SystemOp := Threads.Op ExtendAction KernelOp

def systemStep (P : Platform) : SystemState → SystemOp → Unit × SystemState :=
  Threads.step (extendAction P) (otherCall P)

/-- A freshly loaded module that nobody has called. -/
def systemLoaded (maps : ℕ → BpfMap) (tpmPcrIndex : ℤ) : SystemState :=
  ⟨moduleLoaded maps tpmPcrIndex, fun _ => .idle⟩

/-- The state after any interleaving of callers. -/
def systemRun (P : Platform) (maps : ℕ → BpfMap) (tpmPcrIndex : ℤ) (ops : List SystemOp) :
    SystemState :=
  Machine.run (systemStep P) (systemLoaded maps tpmPcrIndex) ops

end BpfIma
