import BpfIma.Library.Layout
import BpfIma.Model.PolicyManager

/-! # Policy requests on the wire

`struct bpfima_policy_request` as memory of a host of either byte order, the encoder of
`bpfima_policy_user.h` and the write handler of the SecurityFS file that decodes it. -/

namespace BpfIma

open Errno Layout

/-! ## Memory -/

section Read

variable (order : ByteOrder)

/-- The number that the bytes of an integer stand for on a host. -/
def ByteOrder.nat (memory : Bytes) : ℕ :=
  match order with
  | .little => littleEndian memory
  | .big => littleEndian memory.reverse

def ByteOrder.read16 : Reader UInt16 := do
  let memory ← bytes 2
  return UInt16.ofNat (order.nat memory.toList)

def ByteOrder.read32 : Reader UInt32 := do
  let memory ← bytes 4
  return UInt32.ofNat (order.nat memory.toList)

def ByteOrder.read64 : Reader UInt64 := do
  let memory ← bytes 8
  return UInt64.ofNat (order.nat memory.toList)

def PolicyConfig.read : Reader PolicyConfig := do
  let enabled ← byte
  let pad0 ← bytes 3
  let filterFlags ← order.read32
  let actionFlags ← order.read32
  let minFileSize ← order.read32
  let maxPathDepth ← order.read32
  let logLevel ← order.read32
  let merkleHistoryMaxSize ← order.read32
  let merkleHistoryScope ← byte
  let pad1 ← bytes 3
  let reserved ← order.read32
  return ⟨enabled, pad0, filterFlags, actionFlags, minFileSize, maxPathDepth, logLevel,
    merkleHistoryMaxSize, merkleHistoryScope, pad1, reserved⟩

def PatternEntry.read : Reader PatternEntry := do
  let pattern ← bytes maxPatternLen
  let enabled ← byte
  let matchType ← byte
  let reserved ← order.read16
  return ⟨pattern, enabled, matchType, reserved⟩

def HookConfig.read : Reader HookConfig := do
  let flags ← order.read32
  let filterOverride ← order.read32
  let actionOverride ← order.read32
  let reserved ← order.read32
  return ⟨flags, filterOverride, actionOverride, reserved⟩

def PolicySnapshot.read : Reader PolicySnapshot := do
  let config ← PolicyConfig.read order
  let cgroups ← array (PatternEntry.read order) maxIgnorePatterns
  let paths ← array (PatternEntry.read order) maxPathFilters
  let hooks ← array (HookConfig.read order) hookMax
  return ⟨config, cgroups, paths, hooks⟩

def PolicyRecord.read : Reader PolicyRecord := do
  let namespaceId ← bytes namespaceSize
  let snapshot ← PolicySnapshot.read order
  return ⟨namespaceId, snapshot⟩

/-- The memory of a `struct bpfima_policy_request`: the fields and the tail padding. -/
structure RequestMemory where
  request : PolicyRequest
  pad : Buffer 4
deriving DecidableEq

def RequestMemory.image (memory : RequestMemory) : Bytes :=
  order.bytes32 memory.request.version ++ order.bytes32 memory.request.reserved ++
    order.bytes64 memory.request.expectedGeneration ++ memory.request.record.image order ++
    memory.pad.toList

def RequestMemory.read : Reader RequestMemory := do
  let version ← order.read32
  let reserved ← order.read32
  let expectedGeneration ← order.read64
  let record ← PolicyRecord.read order
  let pad ← bytes 4
  return ⟨⟨version, reserved, expectedGeneration, record⟩, pad⟩

end Read

/-- `sizeof(struct bpfima_policy_request)`. -/
def policyRequestSize : ℕ := 1400

/-! ## Byte order -/

def swap64 (v : UInt64) : UInt64 :=
  (swap32 v.toUInt32).toUInt64 <<< 32 ||| (swap32 (v >>> 32).toUInt32).toUInt64

section Order

variable (order : ByteOrder)

def ByteOrder.cpuToLe64 (v : UInt64) : UInt64 :=
  match order with
  | .little => v
  | .big => swap64 v

def ByteOrder.le32ToCpu (v : UInt32) : UInt32 :=
  match order with
  | .little => v
  | .big => swap32 v

def ByteOrder.le64ToCpu (v : UInt64) : UInt64 :=
  match order with
  | .little => v
  | .big => swap64 v

/-- `bpfima_policy_encode_request`, in place; `htole32` is `cpu_to_le32` of user space. -/
def policyEncodeRequest (memory : RequestMemory) : RequestMemory :=
  let snapshot := memory.request.record.snapshot
  { memory with
    request :=
      { memory.request with
        version := order.cpuToLe32 memory.request.version
        expectedGeneration := order.cpuToLe64 memory.request.expectedGeneration
        record :=
          { memory.request.record with
            snapshot :=
              { snapshot with
                config :=
                  { snapshot.config with
                    filterFlags := order.cpuToLe32 snapshot.config.filterFlags
                    actionFlags := order.cpuToLe32 snapshot.config.actionFlags
                    minFileSize := order.cpuToLe32 snapshot.config.minFileSize
                    maxPathDepth := order.cpuToLe32 snapshot.config.maxPathDepth
                    logLevel := order.cpuToLe32 snapshot.config.logLevel
                    merkleHistoryMaxSize := order.cpuToLe32 snapshot.config.merkleHistoryMaxSize }
                hooks := snapshot.hooks.map fun hook =>
                  { hook with
                    flags := order.cpuToLe32 hook.flags
                    filterOverride := order.cpuToLe32 hook.filterOverride
                    actionOverride := order.cpuToLe32 hook.actionOverride } } } } }

/-- The conversions of `policy_apply_write`, in place. -/
def requestToCpu (memory : RequestMemory) : RequestMemory :=
  let snapshot := memory.request.record.snapshot
  { memory with
    request :=
      { version := order.le32ToCpu memory.request.version
        reserved := order.le32ToCpu memory.request.reserved
        expectedGeneration := order.le64ToCpu memory.request.expectedGeneration
        record :=
          { memory.request.record with
            snapshot :=
              { snapshot with
                config :=
                  { snapshot.config with
                    filterFlags := order.le32ToCpu snapshot.config.filterFlags
                    actionFlags := order.le32ToCpu snapshot.config.actionFlags
                    minFileSize := order.le32ToCpu snapshot.config.minFileSize
                    maxPathDepth := order.le32ToCpu snapshot.config.maxPathDepth
                    logLevel := order.le32ToCpu snapshot.config.logLevel
                    merkleHistoryMaxSize := order.le32ToCpu snapshot.config.merkleHistoryMaxSize }
                hooks := snapshot.hooks.map fun hook =>
                  { hook with
                    flags := order.le32ToCpu hook.flags
                    filterOverride := order.le32ToCpu hook.filterOverride
                    actionOverride := order.le32ToCpu hook.actionOverride } } } } }

/-- What `policy_apply_write` makes of the bytes of a request. -/
def decodeRequest (wire : Bytes) : RequestMemory :=
  requestToCpu order ((RequestMemory.read order).run wire).1

end Order

/-! ## The SecurityFS file -/

/-- The module parameter and the outcomes of one `policy_apply_write`; `copyError` is what
`memdup_user` fails with. -/
structure WriteEnv where
  securityfsPolicyWritable : ℤ
  capable : Bool
  copyError : Option ErrPtr
  apply : ApplyEnv

/-- The number of bytes written, if the call went well. -/
def writeResult (count : ℕ) (result : Ret × KernelState) : Ret × KernelState :=
  (if result.1 ≠ 0 then result.1 else count, result.2)

def policyApplyWrite (P : Platform) (env : WriteEnv) (buffer : Bytes) (s : KernelState) :
    Ret × KernelState :=
  if env.securityfsPolicyWritable = 0 ∨ env.capable = false then (-eperm, s)
  else if buffer.length ≠ policyRequestSize then (-einval, s)
  else
    match env.copyError with
    | some ret => (ret.val, s)
    | none =>
        writeResult buffer.length
          (policyApply P env.apply (some (decodeRequest P.byteOrder buffer).request) s)

end BpfIma
