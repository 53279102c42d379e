import BpfIma.Model.PolicyManager

/-! # Measurement requests

`bpfima_prepare_measurement`, the container registry as one caller sees it,
`bpfima_measurement_extend`, and the lines that securityfs prints. -/

namespace BpfIma

open CString Errno

/-! ## Requests -/

/-- `struct bpfima_measurement_request`. -/
structure MeasurementRequest where
  eventName : Buffer eventNameSize
  namespaceId : Buffer namespaceSize
  dependencies : Buffer dependenciesSize
  additionalData : Buffer eventDataSize
  additionalDataLen : UInt32
  flags : UInt32
deriving DecidableEq

def MeasurementRequest.zero : MeasurementRequest :=
  ⟨CString.zero _, CString.zero _, CString.zero _, CString.zero _, 0, 0⟩

/-- `BPFIMA_MEASUREMENT_HAS_DEPENDENCIES`. -/
def measurementHasDependencies : UInt32 := 0x01

def MeasurementRequest.hasDependencies (request : MeasurementRequest) : Prop :=
  request.flags &&& measurementHasDependencies ≠ 0

instance (request : MeasurementRequest) : Decidable request.hasDependencies :=
  inferInstanceAs (Decidable (¬ _))

/-- The memory that `bpfima_prepare_measurement` writes. -/
structure PrepareMemory where
  request : MeasurementRequest
  concatData : Bytes
  totalLen : ℕ

/-- `memcpy(buffer + offset, bytes, ...)`. A copy that does not fit makes the buffer
longer. -/
def writeAt (buffer : Bytes) (offset : ℕ) (bytes : Bytes) : Bytes :=
  buffer.take offset ++ bytes ++ buffer.drop (offset + bytes.length)

/-- The field checks of `bpfima_prepare_measurement`. -/
def MeasurementRequest.accepted (request : MeasurementRequest) : Prop :=
  terminated request.eventName = true ∧ request.eventName.get 0 ≠ 0 ∧
    terminated request.namespaceId = true ∧ terminated request.dependencies = true ∧
    request.additionalDataLen.toNat < eventDataSize ∧
    request.flags &&& ~~~measurementHasDependencies = 0 ∧
    (request.namespaceId.get 0 ≠ 0 → validateNamespace (cstr request.namespaceId) = 0) ∧
    (request.hasDependencies ∨ request.dependencies.get 0 = 0)

instance (request : MeasurementRequest) : Decidable request.accepted :=
  inferInstanceAs (Decidable (_ ∧ _))

/-- `additional_data[additional_data_len] = '\0'`. -/
def MeasurementRequest.terminateData (request : MeasurementRequest) : MeasurementRequest :=
  { request with
    additionalData := request.additionalData.set
      (Fin.ofNat eventDataSize request.additionalDataLen.toNat) 0 }

/-- `sizeof(struct bpfima_measurement_request)`. -/
def measurementRequestSize : ℕ := 904

/-- `bpfima_prepare_measurement` of the `dataSize` bytes at `data`, into the caller's
memory. -/
def prepareMeasurement (data : Option MeasurementRequest) (dataSize : ℕ) (mem : PrepareMemory) :
    Ret × PrepareMemory :=
  match data with
  | none => (-einval, mem)
  | some request =>
      if dataSize ≠ measurementRequestSize then (-einval, mem)
      else
        let concatSize := mem.concatData.length
        let mem := { mem with request := request }
        if ¬ request.accepted then (-einval, mem)
        else
          let request := request.terminateData
          let mem := { mem with request := request }
          let dependencies := cstr request.dependencies
          let offset := request.additionalDataLen.toNat
          if concatSize < offset then (-e2big, mem)
          else
            let mem := { mem with
              concatData := writeAt mem.concatData 0 (request.additionalData.toList.take offset) }
            if offset ≠ 0 ∧ request.hasDependencies ∧ offset = concatSize then (-e2big, mem)
            else
              let separator := if offset ≠ 0 ∧ request.hasDependencies then " ".ascii else []
              let mem := { mem with concatData := writeAt mem.concatData offset separator }
              let offset := offset + separator.length
              if concatSize - offset < dependencies.length then (-e2big, mem)
              else
                let mem := { mem with concatData := writeAt mem.concatData offset dependencies }
                let offset := offset + dependencies.length
                if offset = 0 then (-einval, mem) else (0, { mem with totalLen := offset })

/-! ## Containers -/

/-- The outcomes of creating a container node. -/
structure CreateEnv where
  nodeAlloc : Bool
  tfmAlloc : Bool
  securityfsRet : Ret
  metadataAlloc : Bool

def findContainerById (s : KernelState) (id : Bytes) : Option ℕ :=
  s.engine.containers.findIdx? fun c => cstr c.id == id

/-- `create_container_node`, by a caller that no other one overtakes. -/
def createContainerNode (env : CreateEnv) (id : Bytes) (s : KernelState) :
    Except Ret ℕ × KernelState :=
  match findContainerById s id with
  | some i => (.ok i, s)
  | none =>
      if ¬ env.nodeAlloc then (.error (-enomem), s)
      else if ¬ env.tfmAlloc then (.error (-enomem), s)
      else if env.securityfsRet < 0 then (.error env.securityfsRet, s)
      else
        -- The audit metadata is created on the way; that it may fail is only logged.
        let s := (policyNamespaceGetLocked env.metadataAlloc id s).2
        (.ok s.engine.containers.length,
          { s with
            engine := { s.engine with containers := s.engine.containers ++ [freshContainer id] } })

/-- `bpfima_copy_kfunc_string`: the copied C string. -/
def copyKfuncString (destSize : ℕ) (src : Option Bytes) (allowEmpty : Bool) : Except Ret Bytes :=
  match src with
  | none => .error (-einval)
  | some src =>
      if src.length = 0 ∨ destSize < src.length then .error (-einval)
      else if 0 ∉ src then .error (-einval)
      else if allowEmpty = false ∧ src.head? = some 0 then .error (-einval)
      else .ok (src.takeWhile (· != 0))

def containerGetOrCreate (env : CreateEnv) (containerId : Option Bytes) (s : KernelState) :
    Ret × KernelState :=
  match copyKfuncString namespaceSize containerId false with
  | .error _ => (-einval, s)
  | .ok id =>
      if validateNamespace id ≠ 0 then (-einval, s)
      else
        match createContainerNode env id s with
        | (.ok _, s) => (0, s)
        | (.error ret, s) => (ret, s)

/-! ## Extension -/

/-- The outcomes of one `bpfima_measurement_extend`. -/
structure ExtendEnv where
  hashRet : Ret
  available : Bool
  create : CreateEnv
  add : AddEnv

/-- `sizeof(concat_data)`. -/
def concatDataSize : ℕ := eventDataSize + dependenciesSize

/-- The namespace a measurement is recorded under. -/
def MeasurementRequest.effectiveNamespace (request : MeasurementRequest) : Bytes :=
  if request.namespaceId.get 0 ≠ 0 then cstr request.namespaceId else "default".ascii

def measurementExtend (P : Platform) (env : ExtendEnv) (data : Option MeasurementRequest)
    (dataSize : ℕ) (s : KernelState) : Ret × KernelState :=
  let (ret, mem) := prepareMeasurement data dataSize
    ⟨.zero, List.replicate concatDataSize 0, 0⟩
  if ret ≠ 0 then (ret, s)
  else if env.hashRet ≠ 0 then (env.hashRet, s)
  else
    let hashValue := P.sha256 (mem.concatData.take mem.totalLen)
    let (ret, engine) := commitCheckLocked env.available s.engine
    let s := { s with engine := engine }
    if ret ≠ 0 then (ret, s)
    else
      match createContainerNode env.create mem.request.effectiveNamespace s with
      | (.error ret, s) => (ret, s)
      | (.ok i, s) =>
          let (ret, engine) := addContainerMeasurement P.toHashSuite (policyGetConfig s) env.add
            s.engine (some i) (some (cstr mem.request.eventName))
            (some (cstr mem.request.additionalData)) (some (cstr mem.request.dependencies))
            (some hashValue)
          (if ret = 1 then 0 else ret, { s with engine := engine })

/-! ## What securityfs prints -/

/-- `merkle_root_history_seq_show`. -/
def merkleRootHistorySeqShow (entry : MerkleRootEntry) : Bytes :=
  Text.hexEncode entry.value.toList ++
    (if entry.isAggregate then
      " [AGGREGATE:".ascii ++ Text.decimal entry.aggregatedCount ++ " entries]".ascii else []) ++
    [Text.lineFeed]

/-- `container_measurements_seq_show`. -/
def containerMeasurementsSeqShow (entry : MeasurementEntry) : Bytes :=
  Text.hexEncode entry.digest.toList ++ " ".ascii ++ cstr entry.eventName ++
    (if entry.eventData.get 0 ≠ 0 then " ".ascii ++ cstr entry.eventData else []) ++
    (if entry.dependencies.get 0 ≠ 0 then " ".ascii ++ cstr entry.dependencies else []) ++
    [Text.lineFeed]

/-- The file `merkle_root_history`. -/
def renderHistory (history : List MerkleRootEntry) : Bytes :=
  history.flatMap merkleRootHistorySeqShow

/-- The file `measurements` of a container. -/
def renderMeasurements (measurements : List MeasurementEntry) : Bytes :=
  measurements.flatMap containerMeasurementsSeqShow

end BpfIma
