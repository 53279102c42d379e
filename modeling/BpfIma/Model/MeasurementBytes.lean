import BpfIma.Model.Measurement
import BpfIma.Model.PolicyWire

/-! # Measurement requests in memory

`bpfima_prepare_measurement` on the bytes that a BPF program hands over, with `size_t` for
sizes and offsets. Every write to the memory of the caller is checked. -/

namespace BpfIma

open CString Errno Layout

/-- `struct bpfima_measurement_request` in the memory of a host; it has no padding. -/
def MeasurementRequest.read (order : ByteOrder) : Reader MeasurementRequest := do
  let eventName ← bytes eventNameSize
  let namespaceId ← bytes namespaceSize
  let dependencies ← bytes dependenciesSize
  let additionalData ← bytes eventDataSize
  let additionalDataLen ← order.read32
  let flags ← order.read32
  return ⟨eventName, namespaceId, dependencies, additionalData, additionalDataLen, flags⟩

/-- The request that the bytes at `data` are a copy of. -/
def MeasurementRequest.ofBytes (order : ByteOrder) (data : Bytes) : MeasurementRequest :=
  ((MeasurementRequest.read order).run data).1

/-- The caller's `request`, `concat_data` and `total_len`. -/
structure PrepareBuffers (concatSize : UInt64) where
  request : MeasurementRequest
  concatData : Buffer concatSize.toNat
  totalLen : UInt64

section Prepare

variable {concatSize : UInt64}

/-- The end of `bpfima_prepare_measurement`, from `offset` on. -/
def appendDependencies (offset : UInt64) (mem : PrepareBuffers concatSize) :
    Option (Ret × PrepareBuffers concatSize) :=
  let dependencies := cstr mem.request.dependencies
  let dependenciesLen := UInt64.ofNat dependencies.length
  -- The difference is one of `size_t`: were the offset larger, it would be huge.
  if concatSize - offset < dependenciesLen then some (-e2big, mem)
  else do
    let concatData ← store mem.concatData offset.toNat dependencies
    let mem := { mem with concatData := concatData }
    let offset := offset + dependenciesLen
    if offset = 0 then return (-einval, mem)
    else return (0, { mem with totalLen := offset })

/-- `bpfima_prepare_measurement` after its checks of the copied request. -/
def prepareAccepted (request : MeasurementRequest) (mem : PrepareBuffers concatSize) :
    Option (Ret × PrepareBuffers concatSize) := do
  let additionalData ← store request.additionalData request.additionalDataLen.toNat [0]
  let request := { request with additionalData := additionalData }
  let mem := { mem with request := request }
  let offset := request.additionalDataLen.toUInt64
  if concatSize < offset then return (-e2big, mem)
  else
    let concatData ← store mem.concatData 0 (request.additionalData.toList.take offset.toNat)
    let mem := { mem with concatData := concatData }
    if offset ≠ 0 ∧ request.hasDependencies then
      if offset = concatSize then return (-e2big, mem)
      else
        let concatData ← store mem.concatData offset.toNat " ".ascii
        appendDependencies (offset + 1) { mem with concatData := concatData }
    else appendDependencies offset mem

/-- `bpfima_prepare_measurement` of the `dataSize` bytes at `data`. A write outside of a field of
the request or of `concat_data` is `none`. -/
def prepareMeasurementBytes (order : ByteOrder) (data : Option Bytes) (dataSize : UInt32)
    (mem : PrepareBuffers concatSize) : Option (Ret × PrepareBuffers concatSize) :=
  match data with
  | none => some (-einval, mem)
  | some data =>
      if dataSize.toNat ≠ measurementRequestSize then some (-einval, mem)
      else
        let request := MeasurementRequest.ofBytes order data
        let mem := { mem with request := request }
        if ¬ request.accepted then some (-einval, mem)
        else prepareAccepted request mem

end Prepare

end BpfIma
