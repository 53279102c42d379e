import BpfIma.Library.Bits
import BpfIma.Model.PolicyManager

/-! # The operator's policy encoder

The `Policy` resource of `api/v1alpha1`, as far as it is encoded, and `mapsmanager`, which
builds the request for a policy and writes its bytes. -/

namespace BpfIma.Operator

open CString

/-! ## The resource -/

namespace V1alpha1

structure PolicyConfig where
  enabled : Bool
  logLevel : Int32
  minFileSize : Int64
  maxPathDepth : Int32
deriving DecidableEq

structure FilterConfig where
  systemCgroups : Bool
  procSys : Bool
  dev : Bool
  readonlyFiles : Bool
  smallFiles : Bool
  nonExecutable : Bool
  libraries : Bool
  tmpFiles : Bool
deriving DecidableEq

structure ActionConfig where
  extendTPM : Bool
  logSecurityFS : Bool
  logKernel : Bool
  alertSuspicious : Bool
  block : Bool
  trackContainer : Bool
  buildDeps : Bool
deriving DecidableEq

structure PatternEntry where
  pattern : Bytes
  enabled : Bool
  matchType : Int32
deriving DecidableEq

structure HookConfig where
  enabled : Bool
  trackContainers : Bool
  measureHash : Bool
  filterOverride : Int32
  actionOverride : Int32
deriving DecidableEq

structure HookConfigs where
  lsmBprmCheckSecurity : Option HookConfig
  lsmFileOpen : Option HookConfig
  lsmFilePostOpen : Option HookConfig
  lsmMmapFile : Option HookConfig
  lsmSocketConnect : Option HookConfig
  lsmContainerEvents : Option HookConfig
  kprobeFileOpen : Option HookConfig
  lsmInodeSetattr : Option HookConfig
deriving DecidableEq

structure PolicySpec where
  policy : PolicyConfig
  filters : FilterConfig
  actions : ActionConfig
  cgroupPatterns : List PatternEntry
  pathPatterns : List PatternEntry
  hooks : HookConfigs
deriving DecidableEq

structure Policy where
  spec : PolicySpec
deriving DecidableEq

end V1alpha1

/-! ## Flags -/

def policyFilterSystemCgroups : UInt32 := 0x01
def policyFilterProcSys : UInt32 := 0x02
def policyFilterDev : UInt32 := 0x04
def policyFilterReadonlyFiles : UInt32 := 0x08
def policyFilterSmallFiles : UInt32 := 0x10
def policyFilterNonExecutable : UInt32 := 0x20
def policyFilterLibraries : UInt32 := 0x40
def policyFilterTmpFiles : UInt32 := 0x80

def policyActionExtendTpm : UInt32 := 0x01
def policyActionLogSecurityfs : UInt32 := 0x02
def policyActionLogKernel : UInt32 := 0x04
def policyActionAlertSuspicious : UInt32 := 0x08
def policyActionBlock : UInt32 := 0x10
def policyActionTrackContainer : UInt32 := 0x20
def policyActionBuildDeps : UInt32 := 0x40

def hookFlagEnabled : UInt32 := 0x01
def hookFlagTrackContainers : UInt32 := 0x02
def hookFlagMeasureHash : UInt32 := 0x04

def boolToUint8 (b : Bool) : UInt8 := if b then 1 else 0

def computeFilterFlags (f : V1alpha1.FilterConfig) : UInt32 :=
  Bits.assemble
    [(f.systemCgroups, policyFilterSystemCgroups), (f.procSys, policyFilterProcSys),
      (f.dev, policyFilterDev), (f.readonlyFiles, policyFilterReadonlyFiles),
      (f.smallFiles, policyFilterSmallFiles), (f.nonExecutable, policyFilterNonExecutable),
      (f.libraries, policyFilterLibraries), (f.tmpFiles, policyFilterTmpFiles)]

def computeActionFlags (a : V1alpha1.ActionConfig) : UInt32 :=
  Bits.assemble
    [(a.extendTPM, policyActionExtendTpm), (a.logSecurityFS, policyActionLogSecurityfs),
      (a.logKernel, policyActionLogKernel), (a.alertSuspicious, policyActionAlertSuspicious),
      (a.block, policyActionBlock), (a.trackContainer, policyActionTrackContainer),
      (a.buildDeps, policyActionBuildDeps)]

/-! ## The request -/

/-- The blank padding fields have no value. -/
structure BpfimaPolicyConfig where
  enabled : UInt8
  filterFlags : UInt32
  actionFlags : UInt32
  minFileSize : UInt32
  maxPathDepth : UInt32
  logLevel : UInt32
  merkleHistoryMaxSize : UInt32
  merkleHistoryScope : UInt8
  reserved : UInt32
deriving DecidableEq

structure BPFPatternEntry where
  pattern : Buffer 64
  enabled : UInt8
  matchType : UInt8
  reserved : UInt16
deriving DecidableEq

structure BPFHookConfig where
  flags : UInt32
  filterOverride : UInt32
  actionOverride : UInt32
  reserved : UInt32
deriving DecidableEq

structure PolicySnapshot where
  config : BpfimaPolicyConfig
  cgroups : List.Vector BPFPatternEntry 8
  paths : List.Vector BPFPatternEntry 8
  hooks : List.Vector BPFHookConfig 8
deriving DecidableEq

structure PolicyRequest where
  version : UInt32
  reserved : UInt32
  expectedGeneration : UInt64
  namespaceID : Buffer 128
  snapshot : PolicySnapshot
  padding : Buffer 4
deriving DecidableEq

def BPFPatternEntry.zero : BPFPatternEntry := ⟨CString.zero 64, 0, 0, 0⟩

def BPFHookConfig.zero : BPFHookConfig := ⟨0, 0, 0, 0⟩

/-- `copy(dst[:], src)`. -/
def copyString {n : ℕ} (dst : Buffer n) (src : Bytes) : Buffer n :=
  ⟨(overwrite dst.toList src).take n, by
    simp [overwrite]
    omega⟩

/-- How a call ends that returns no value: with an error, or in a run-time panic. -/
inductive Failure where
  | error (message : String)
  | indexOutOfRange (index length : ℕ)
deriving DecidableEq, Repr

def computeValue (policy : V1alpha1.PolicyConfig) (filters : V1alpha1.FilterConfig)
    (actions : V1alpha1.ActionConfig) : BpfimaPolicyConfig where
  enabled := boolToUint8 policy.enabled
  filterFlags := computeFilterFlags filters
  actionFlags := computeActionFlags actions
  minFileSize := policy.minFileSize.toUInt64.toUInt32
  maxPathDepth := policy.maxPathDepth.toUInt32
  logLevel := policy.logLevel.toUInt32
  merkleHistoryMaxSize := 1000
  merkleHistoryScope := 0
  reserved := 0

/-- The loop of `buildPatterns`, with its result so far and its next free index. -/
def buildPatternsFrom (result : List.Vector BPFPatternEntry 8) (index : ℕ) :
    List V1alpha1.PatternEntry → Except Failure (List.Vector BPFPatternEntry 8)
  | [] => .ok result
  | entry :: entries =>
      if ¬ entry.enabled then buildPatternsFrom result index entries
      else if h : index < 8 then
        let slot := result.get ⟨index, h⟩
        buildPatternsFrom
          (result.set ⟨index, h⟩
            { slot with
              enabled := 1
              matchType := entry.matchType.toUInt32.toUInt8
              pattern := copyString slot.pattern entry.pattern })
          (index + 1) entries
      else .error (.indexOutOfRange index 8)

def buildPatterns (entries : List V1alpha1.PatternEntry) :
    Except Failure (List.Vector BPFPatternEntry 8) :=
  buildPatternsFrom (.replicate _ .zero) 0 entries

/-- The flags of hook `i`. Omitted hooks use root defaults. -/
def hookFlags (i : Fin 8) (config : Option V1alpha1.HookConfig) : UInt32 :=
  match config with
  | none =>
      if i.val = 6 then 0 else hookFlagEnabled ||| hookFlagTrackContainers ||| hookFlagMeasureHash
  | some config =>
      Bits.assemble
        [(config.enabled, hookFlagEnabled), (config.trackContainers, hookFlagTrackContainers),
          (config.measureHash, hookFlagMeasureHash)]

def hookEntries (hooks : V1alpha1.HookConfigs) : List.Vector (Option V1alpha1.HookConfig) 8 :=
  ⟨[hooks.lsmBprmCheckSecurity, hooks.lsmFileOpen, hooks.lsmFilePostOpen, hooks.lsmMmapFile,
    hooks.lsmSocketConnect, hooks.lsmContainerEvents, hooks.kprobeFileOpen,
    hooks.lsmInodeSetattr], rfl⟩

def buildPolicyRequest (policy : Option V1alpha1.Policy) (namespaceName : Bytes)
    (generation : UInt64) : Except Failure PolicyRequest :=
  match policy with
  | none => .error (.error "invalid policy or namespace")
  | some policy =>
      if 128 ≤ namespaceName.length then .error (.error "invalid policy or namespace")
      else do
        let cgroups ← buildPatterns policy.spec.cgroupPatterns
        let paths ← buildPatterns policy.spec.pathPatterns
        return {
          version := 2
          reserved := 0
          expectedGeneration := generation
          namespaceID := copyString (CString.zero 128) namespaceName
          snapshot :=
            { config := computeValue policy.spec.policy policy.spec.filters policy.spec.actions
              cgroups := cgroups
              paths := paths
              hooks := .ofFn fun i =>
                { BPFHookConfig.zero with
                  flags := hookFlags i ((hookEntries policy.spec.hooks).get i) } }
          padding := CString.zero 4 }

/-! ## Its bytes -/

section Marshal

open ByteOrder

/-- `binary.Write` in little-endian order: the fields one after the other, zeros for blank
ones. -/
def BpfimaPolicyConfig.marshal (config : BpfimaPolicyConfig) : Bytes :=
  [config.enabled] ++ [0, 0, 0] ++ little.bytes32 config.filterFlags ++
    little.bytes32 config.actionFlags ++ little.bytes32 config.minFileSize ++
    little.bytes32 config.maxPathDepth ++ little.bytes32 config.logLevel ++
    little.bytes32 config.merkleHistoryMaxSize ++ [config.merkleHistoryScope] ++ [0, 0, 0] ++
    little.bytes32 config.reserved

def BPFPatternEntry.marshal (entry : BPFPatternEntry) : Bytes :=
  entry.pattern.toList ++ [entry.enabled] ++ [entry.matchType] ++ little.bytes16 entry.reserved

def BPFHookConfig.marshal (hook : BPFHookConfig) : Bytes :=
  little.bytes32 hook.flags ++ little.bytes32 hook.filterOverride ++
    little.bytes32 hook.actionOverride ++ little.bytes32 hook.reserved

def PolicySnapshot.marshal (snapshot : PolicySnapshot) : Bytes :=
  snapshot.config.marshal ++ snapshot.cgroups.toList.flatMap BPFPatternEntry.marshal ++
    snapshot.paths.toList.flatMap BPFPatternEntry.marshal ++
    snapshot.hooks.toList.flatMap BPFHookConfig.marshal

def PolicyRequest.marshal (request : PolicyRequest) : Bytes :=
  little.bytes32 request.version ++ little.bytes32 request.reserved ++
    little.bytes64 request.expectedGeneration ++ request.namespaceID.toList ++
    request.snapshot.marshal ++ request.padding.toList

end Marshal

/-- An `io.Writer` with a state: the count and the error it returns. -/
abbrev Writer (σ : Type) := Bytes → σ → (ℤ × Option String) × σ

def writePolicyRequest {σ : Type} (writer : Writer σ) (request : PolicyRequest) (w : σ) :
    Option String × σ :=
  match writer request.marshal w with
  | ((_, some err), w) => (some ("policy transaction: " ++ err), w)
  | ((count, none), w) =>
      if count ≠ request.marshal.length then (some "short write", w) else (none, w)

/-- `bytes.Buffer`, which takes all it is given. -/
def bytesBuffer : Writer Bytes := fun p buffer => ((p.length, none), buffer ++ p)

end BpfIma.Operator
