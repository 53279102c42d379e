import BpfIma.Library.Text
import BpfIma.Model.Commit

/-! # The policy manager

`policy_manager.c` and the audit metadata of `policy_namespace.c`. The policy map is
memory that the manager shares with its readers: a control slot and two policy states,
of which the generation in the control slot selects one. -/

namespace BpfIma

open CString Errno

/-! ## State -/

/-- `BPFIMA_POLICY_NAMESPACES`. -/
abbrev policyNamespaces : ℕ := 32

abbrev policyMapEntries : ℕ := 3
abbrev maxPolicyStringSize : ℕ := 512
abbrev maxPolicyChangesStr : ℕ := 1024

instance (priority := 2000) : @NeZero ℕ Zero.ofOfNat0 (policyNamespaces + 1) := Nat.instNeZeroSucc

structure PolicyRecord where
  namespaceId : Buffer namespaceSize
  snapshot : PolicySnapshot
deriving DecidableEq

/-- `struct bpfima_policy_state` with its tail padding. -/
structure PolicyState where
  generation : UInt64
  namespaceCount : UInt32
  reserved : UInt32
  records : List.Vector PolicyRecord (policyNamespaces + 1)
  pad : Buffer 4
deriving DecidableEq

structure PolicyRequest where
  version : UInt32
  reserved : UInt32
  expectedGeneration : UInt64
  record : PolicyRecord
deriving DecidableEq

/-- A BPF map as far as binding looks at it. `slots` is the memory of a map that has the
type, sizes and entries of a policy map. -/
structure BpfMap where
  mapType : UInt32
  keySize : UInt32
  valueSize : UInt32
  maxEntries : UInt32
  mapFlags : UInt32
  frozen : Bool
  writecnt : ℕ
  refcnt : ℕ
  slots : List.Vector PolicyState policyMapEntries
deriving DecidableEq

structure PolicyChange where
  changeHash : Digest
  policyString : Buffer maxPolicyStringSize
deriving DecidableEq

structure PolicyNamespace where
  namespaceId : Buffer containerIdMaxLen
  changesStr : Buffer maxPolicyChangesStr
  changesHash : Digest
  changeHistory : List PolicyChange
deriving DecidableEq

/-- All state of the module: the commit engine, the BPF maps by address, the bound one,
and the audit lists. -/
structure KernelState where
  engine : CommitState
  maps : ℕ → BpfMap
  policyMap : Option ℕ
  globalPolicyChangeHistory : List PolicyChange
  policyNamespaceList : List PolicyNamespace

def PolicyRecord.zero : PolicyRecord := ⟨CString.zero namespaceSize, .zero⟩

def PolicyState.zero : PolicyState := ⟨0, 0, 0, .replicate _ .zero, CString.zero 4⟩

/-! ## Access to the map -/

/-- `1 + (generation & 1)`. -/
def stateSlot (generation : UInt64) : Fin policyMapEntries := if generation &&& 1 = 0 then 1 else 2

/-- The generation in the control slot. -/
def BpfMap.generation (map : BpfMap) : UInt64 := (map.slots.get 0).generation

/-- `active_state`: `NULL` before the first publication. -/
def activeState (map : BpfMap) : Option PolicyState :=
  if map.generation = 0 then none else some (map.slots.get (stateSlot map.generation))

/-- The active state as the callers read it, without a look at `NULL`. A bound map has a
generation, so they never read the zeros. -/
def BpfMap.active (map : BpfMap) : PolicyState := (activeState map).getD .zero

def KernelState.setMap (s : KernelState) (m : ℕ) (map : BpfMap) : KernelState :=
  { s with maps := Function.update s.maps m map }

/-- The reference that `bpf_map_get` takes. -/
def KernelState.mapGet (s : KernelState) (m : ℕ) : KernelState :=
  s.setMap m { s.maps m with refcnt := (s.maps m).refcnt + 1 }

/-- `bpf_map_put`. -/
def KernelState.mapPut (s : KernelState) (m : ℕ) : KernelState :=
  s.setMap m { s.maps m with refcnt := (s.maps m).refcnt - 1 }

/-- `namespace_index`; `none` is `-ENOENT`, an empty or `NULL` id selects the root. -/
def namespaceIndex (state : PolicyState) (id : Option Bytes) :
    Option (Fin (policyNamespaces + 1)) :=
  if id.getD [] = [] then some 0
  else
    (List.finRange (policyNamespaces + 1)).find? fun i =>
      decide (1 ≤ i.val ∧ i.val ≤ state.namespaceCount.toNat) &&
        cstr (state.records.get i).namespaceId == id.getD []

/-! ## Namespace names -/

/-- `bpfima_validate_namespace`. -/
def validateNamespace (id : Bytes) : Ret :=
  if id = [] ∨ id = ".".ascii ∨ id = "..".ascii ∨ 0x2f ∈ id then -einval else 0

/-- `valid_namespace` on the C string `id`, which ends within the field or not. -/
def validNamespace (id : Bytes) : Bool :=
  decide (id.length < namespaceSize ∧ validateNamespace id = 0 ∧ id ≠ "[root]".ascii) &&
    id.all fun c => !(c ≤ 0x20 || c == 0x3a || c == 127)

def findPolicyNamespace (namespaces : List PolicyNamespace) (id : Bytes) : Option ℕ :=
  namespaces.findIdx? fun entry => cstr entry.namespaceId == id

/-- An entry as it is created, without audit data. -/
def freshPolicyNamespace (id : Bytes) : PolicyNamespace :=
  ⟨strscpy (CString.zero _) id, CString.zero _, zeroDigest, []⟩

/-- `bpfima_policy_namespace_get_locked`: the entry's position, after creating it if it is
missing. -/
def policyNamespaceGetLocked (alloc : Bool) (id : Bytes) (s : KernelState) :
    Except Ret ℕ × KernelState :=
  if validateNamespace id ≠ 0 ∨ namespaceSize ≤ id.length then (.error (-einval), s)
  else
    match findPolicyNamespace s.policyNamespaceList id with
    | some i => (.ok i, s)
    | none =>
        if ¬ alloc then (.error (-enomem), s)
        else
          (.ok s.policyNamespaceList.length,
            { s with policyNamespaceList := s.policyNamespaceList ++ [freshPolicyNamespace id] })

/-! ## Record images -/

/-- The bytes of an integer in memory. -/
def ByteOrder.bytes16 (order : ByteOrder) (v : UInt16) : Bytes :=
  let le := [v.toUInt8, (v >>> 8).toUInt8]
  match order with
  | .little => le
  | .big => le.reverse

def ByteOrder.bytes32 (order : ByteOrder) (v : UInt32) : Bytes :=
  let le := [v.toUInt8, (v >>> 8).toUInt8, (v >>> 16).toUInt8, (v >>> 24).toUInt8]
  match order with
  | .little => le
  | .big => le.reverse

def ByteOrder.bytes64 (order : ByteOrder) (v : UInt64) : Bytes :=
  let le := [v.toUInt8, (v >>> 8).toUInt8, (v >>> 16).toUInt8, (v >>> 24).toUInt8,
    (v >>> 32).toUInt8, (v >>> 40).toUInt8, (v >>> 48).toUInt8, (v >>> 56).toUInt8]
  match order with
  | .little => le
  | .big => le.reverse

def swap32 (v : UInt32) : UInt32 :=
  let mask : UInt32 := 0xff00
  v <<< 24 ||| (v &&& mask) <<< 8 ||| (v >>> 8 &&& mask) ||| v >>> 24

def ByteOrder.cpuToLe32 (order : ByteOrder) (v : UInt32) : UInt32 :=
  match order with
  | .little => v
  | .big => swap32 v

section Image

variable (order : ByteOrder)

def PolicyConfig.image (config : PolicyConfig) : Bytes :=
  [config.enabled] ++ config.pad0.toList ++ order.bytes32 config.filterFlags ++
    order.bytes32 config.actionFlags ++ order.bytes32 config.minFileSize ++
    order.bytes32 config.maxPathDepth ++ order.bytes32 config.logLevel ++
    order.bytes32 config.merkleHistoryMaxSize ++ [config.merkleHistoryScope] ++
    config.pad1.toList ++ order.bytes32 config.reserved

def PatternEntry.image (entry : PatternEntry) : Bytes :=
  entry.pattern.toList ++ [entry.enabled, entry.matchType] ++ order.bytes16 entry.reserved

def HookConfig.image (hook : HookConfig) : Bytes :=
  order.bytes32 hook.flags ++ order.bytes32 hook.filterOverride ++
    order.bytes32 hook.actionOverride ++ order.bytes32 hook.reserved

def PolicySnapshot.image (snapshot : PolicySnapshot) : Bytes :=
  snapshot.config.image order ++ snapshot.cgroups.toList.flatMap (PatternEntry.image order) ++
    snapshot.paths.toList.flatMap (PatternEntry.image order) ++
    snapshot.hooks.toList.flatMap (HookConfig.image order)

def PolicyRecord.image (record : PolicyRecord) : Bytes :=
  record.namespaceId.toList ++ record.snapshot.image order

def PolicyState.image (state : PolicyState) : Bytes :=
  order.bytes64 state.generation ++ order.bytes32 state.namespaceCount ++
    order.bytes32 state.reserved ++ state.records.toList.flatMap (PolicyRecord.image order) ++
    state.pad.toList

/-- The copy that `snapshot_digest` hashes, with its integers turned little-endian. -/
def PolicyRecord.wire (record : PolicyRecord) : PolicyRecord :=
  { record with
    snapshot :=
      { record.snapshot with
        config :=
          { record.snapshot.config with
            filterFlags := order.cpuToLe32 record.snapshot.config.filterFlags
            actionFlags := order.cpuToLe32 record.snapshot.config.actionFlags
            minFileSize := order.cpuToLe32 record.snapshot.config.minFileSize
            maxPathDepth := order.cpuToLe32 record.snapshot.config.maxPathDepth
            logLevel := order.cpuToLe32 record.snapshot.config.logLevel
            merkleHistoryMaxSize := order.cpuToLe32 record.snapshot.config.merkleHistoryMaxSize }
        hooks := record.snapshot.hooks.map fun hook =>
          { hook with flags := order.cpuToLe32 hook.flags } } }

end Image

/-! ## Publication -/

/-- The outcomes of one `publish_policy_locked`. -/
structure PublishEnv where
  changeAlloc : Bool
  snapshotAlloc : Bool
  snapshotHashRet : Ret
  eventHashRet : Ret
  nextHashRet : Ret
  commit : CommitEnv

section Publish

variable (P : Platform)

/-- The value `snapshot_digest` computes. -/
def snapshotDigest (record : PolicyRecord) : Digest :=
  P.sha256 ((record.wire P.byteOrder).image P.byteOrder)

/-- `policy_v2:<generation>:<id or [root]>:<hex digest>`. -/
def policyString (generation : UInt64) (id : Bytes) (digest : Digest) : Bytes :=
  "policy_v2:".ascii ++ Text.decimal generation.toNat ++ ":".ascii ++
    (if id = [] then "[root]".ascii else id) ++ ":".ascii ++ Text.hexEncode digest.toList

/-- The audit entry of a record published as `generation`. -/
def policyChange (generation : UInt64) (record : PolicyRecord) : PolicyChange :=
  let text := snprintf maxPolicyStringSize
    (policyString generation (cstr record.namespaceId) (snapshotDigest P record))
  ⟨P.sha256 (cstr text), text⟩

/-- The next `changes_hash` of a namespace. -/
def nextChangesHash (changesHash eventDigest : Digest) : Digest :=
  P.sha256 (changesHash.toList ++ eventDigest.toList)

def PolicyNamespace.append (change : PolicyChange) (entry : PolicyNamespace) : PolicyNamespace :=
  { entry with
    changeHistory := entry.changeHistory ++ [change]
    changesHash := nextChangesHash P entry.changesHash change.changeHash
    changesStr := strscpy entry.changesStr (cstr change.policyString) }

/-- `bpfima_policy_get_config`. -/
def policyGetConfig (s : KernelState) : PolicyConfig :=
  match s.policyMap with
  | none => initDefaultConfig .zero
  | some m =>
      (((s.maps m).slots.get (stateSlot (s.maps m).generation)).records.get 0).snapshot.config

/-- `bpfima_policy_generation`: zero before a map is bound. -/
def policyGeneration (s : KernelState) : UInt64 :=
  match s.policyMap with
  | none => 0
  | some m => (s.maps m).generation

/-- Copies a candidate into the slot of its generation. -/
def BpfMap.stage (candidate : PolicyState) (map : BpfMap) : BpfMap :=
  { map with slots := map.slots.set (stateSlot candidate.generation) candidate }

/-- Stores a generation in the control slot. -/
def BpfMap.publish (generation : UInt64) (map : BpfMap) : BpfMap :=
  { map with slots := map.slots.set 0 { map.slots.get 0 with generation := generation } }

/-- The source a policy event is committed under. -/
def policySource (id : Bytes) : Bytes := if id = [] then "global_policy".ascii else id

/-- The audit entry joins the list of its namespace, or the global one. -/
def recordChange (metadata : Option ℕ) (change : PolicyChange) (s : KernelState) : KernelState :=
  match metadata with
  | some i =>
      { s with
        policyNamespaceList :=
          s.policyNamespaceList.modify i (PolicyNamespace.append P change) }
  | none => { s with globalPolicyChangeHistory := s.globalPolicyChangeHistory ++ [change] }

/-- `publish_policy_locked` on the map at address `m`. -/
def publishPolicyLocked (env : PublishEnv) (s : KernelState) (m : ℕ) (candidate : PolicyState)
    (index : Fin (policyNamespaces + 1)) (metadata : Option ℕ) : Ret × KernelState :=
  let generation := (s.maps m).generation
  if generation = 0xffffffffffffffff then (-eoverflow, s)
  else
    let candidate := { candidate with generation := generation + 1 }
    if ¬ env.changeAlloc then (-enomem, s)
    else if ¬ env.snapshotAlloc then (-enomem, s)
    else if env.snapshotHashRet ≠ 0 then (env.snapshotHashRet, s)
    else if env.eventHashRet ≠ 0 then (env.eventHashRet, s)
    else if metadata.isSome ∧ env.nextHashRet ≠ 0 then (env.nextHashRet, s)
    else
      let record := candidate.records.get index
      let change := policyChange P candidate.generation record
      let s := s.setMap m ((s.maps m).stage candidate)
      let (ret, engine) := commitRootLocked P.toHashSuite (policyGetConfig s) env.commit s.engine
        (some change.changeHash) (some (policySource (cstr record.namespaceId)))
      let s := { s with engine := engine }
      if ret ≠ 0 then (ret, s)
      else
        let s := recordChange P metadata change s
        (0, s.setMap m ((s.maps m).publish candidate.generation))

/-! ## Binding -/

/-- `BPF_MAP_TYPE_ARRAY`. -/
def bpfMapTypeArray : UInt32 := 2

/-- `BPFIMA_POLICY_MAP_FLAGS`. -/
def policyMapFlags : UInt32 := 0x80

/-- The type, sizes and flags that binding asks for; `sizeof(struct bpfima_policy_state)`
is 45560. -/
def BpfMap.hasPolicyShape (map : BpfMap) : Prop :=
  map.mapType = bpfMapTypeArray ∧ map.keySize = 4 ∧ map.valueSize = 45560 ∧
    map.maxEntries = 3 ∧ map.mapFlags = policyMapFlags

instance (map : BpfMap) : Decidable map.hasPolicyShape := inferInstanceAs (Decidable (_ ∧ _))

/-- The outcomes of one `bpfima_policy_bind_map`: `map` is what `bpf_map_get` finds, as an
address or an error. -/
structure BindEnv where
  map : Except ErrPtr ℕ
  initialAlloc : Bool
  available : Bool
  publish : PublishEnv

/-- The state that binding publishes. -/
def initialPolicyState : PolicyState :=
  { PolicyState.zero with
    records :=
      PolicyState.zero.records.set 0 { PolicyRecord.zero with snapshot := initDefaultSnapshot } }

/-- The part of `bpfima_policy_bind_map` between taking and dropping the reference. -/
def bindMapReferenced (env : BindEnv) (m : ℕ) (s : KernelState) : Ret × KernelState :=
  if ¬ (s.maps m).hasPolicyShape then (-einval, s)
  else if (s.maps m).frozen = false then (-eperm, s)
  else if (s.maps m).writecnt ≠ 0 then (-ebusy, s)
  else if ¬ env.initialAlloc then (-enomem, s)
  else
    match s.policyMap with
    | some existing =>
        if existing = m then
          let (ret, engine) := commitCheckLocked env.available s.engine
          (ret, { s with engine := engine })
        else (-ebusy, s)
    | none =>
        if ¬ ∀ i, (s.maps m).slots.get i = PolicyState.zero then (-estale, s)
        else
          let (ret, s) := publishPolicyLocked P env.publish s m initialPolicyState 0 none
          if ret ≠ 0 then
            (ret, s.setMap m { s.maps m with slots := .replicate _ .zero })
          else (0, { s with policyMap := some m })

def policyBindMap (env : BindEnv) (s : KernelState) : Ret × KernelState :=
  match env.map with
  | .error ret => (ret.val, s)
  | .ok m =>
      let (ret, t) := bindMapReferenced P env m (s.mapGet m)
      -- The reference is kept by the call that binds, and put back by every other one.
      if ret = 0 ∧ s.policyMap = none then (ret, t) else (ret, t.mapPut m)

/-! ## Updates -/

/-- The outcomes of one `apply_locked`. -/
structure ApplyEnv where
  available : Bool
  candidateAlloc : Bool
  metadataAlloc : Bool
  publish : PublishEnv

def PolicyState.setRecord (state : PolicyState) (index : Fin (policyNamespaces + 1))
    (record : PolicyRecord) : PolicyState :=
  { state with records := state.records.set index record }

/-- The candidate with the record of `id` found or added, and its index; `none` when all
records are taken. -/
def candidateFor (active : PolicyState) (id : Bytes) :
    Option (PolicyState × Fin (policyNamespaces + 1)) :=
  match namespaceIndex active (some id) with
  | some index => some (active, index)
  | none =>
      if active.namespaceCount = 32 then none
      else
        let index := Fin.ofNat (policyNamespaces + 1) (active.namespaceCount.toNat + 1)
        some
          ({ active with namespaceCount := active.namespaceCount + 1 }.setRecord index
            { PolicyRecord.zero with namespaceId := strscpy (CString.zero _) id }, index)

def applyLocked (env : ApplyEnv) (request : PolicyRequest) (s : KernelState) : Ret × KernelState :=
  match s.policyMap with
  | none => (-enxio, s)
  | some m =>
      let (ret, engine) := commitCheckLocked env.available s.engine
      let s := { s with engine := engine }
      if ret ≠ 0 then (ret, s)
      else
        let active := (s.maps m).active
        if request.expectedGeneration ≠ 0 ∧ request.expectedGeneration ≠ active.generation then
          (-eagain, s)
        else if ¬ env.candidateAlloc then (-enomem, s)
        else
          let id := cstr request.record.namespaceId
          match candidateFor active id with
          | none => (-enospc, s)
          | some (candidate, index) =>
              match normalizeSnapshot request.record.snapshot with
              | .error ret => (ret, s)
              | .ok snapshot =>
                  let candidate := candidate.setRecord index
                    { candidate.records.get index with snapshot := snapshot }
                  let ret := if index = 0 then 0
                    else validateExtension (candidate.records.get 0).snapshot snapshot
                  if ret ≠ 0 then (ret, s)
                  else
                    let (metadata, s) : Except Ret (Option ℕ) × KernelState :=
                      if index = 0 then (.ok none, s)
                      else
                        let (found, s) := policyNamespaceGetLocked env.metadataAlloc id s
                        (found.map some, s)
                    match metadata with
                    | .error ret => (ret, s)
                    | .ok metadata =>
                        if index.val ≤ active.namespaceCount.toNat ∧
                            snapshot = (active.records.get index).snapshot then (0, s)
                        else publishPolicyLocked P env.publish s m candidate index metadata

/-- `BPFIMA_POLICY_VERSION`. -/
def policyVersion : UInt32 := 2

/-- The checks of `bpfima_policy_apply` on the request itself. -/
def PolicyRequest.accepted (request : PolicyRequest) : Prop :=
  request.version = policyVersion ∧ request.reserved = 0 ∧
    terminated request.record.namespaceId = true ∧
    (request.record.namespaceId.get 0 ≠ 0 → validNamespace (cstr request.record.namespaceId) = true)

instance (request : PolicyRequest) : Decidable request.accepted :=
  inferInstanceAs (Decidable (_ ∧ _))

def policyApply (env : ApplyEnv) (request : Option PolicyRequest) (s : KernelState) :
    Ret × KernelState :=
  match request with
  | none => (-einval, s)
  | some request => if ¬ request.accepted then (-einval, s) else applyLocked P env request s

/-- The field of a scalar edit; `none` for an unknown field or a value it refuses. -/
def setField (config : PolicyConfig) (field : Bytes) (value : UInt32) : Option PolicyConfig :=
  if field = "enabled".ascii then
    if value > 1 then none else some { config with enabled := value.toUInt8 }
  else if field = "filter_flags".ascii then some { config with filterFlags := value }
  else if field = "action_flags".ascii then some { config with actionFlags := value }
  else if field = "min_file_size".ascii then some { config with minFileSize := value }
  else if field = "log_level".ascii then some { config with logLevel := value }
  else none

/-- The request that `bpfima_policy_update_field` builds over the active state. -/
def fieldRequest (state : PolicyState) (id : Option Bytes) (field : Bytes) (value : UInt32) :
    Option PolicyRequest :=
  let index := (namespaceIndex state id).getD 0
  let stored := (state.records.get index).snapshot
  let base := if index = 0 then stored
    else rebaseExtension (state.records.get 0).snapshot stored
  (setField base.config field value).map fun config =>
    { version := policyVersion
      reserved := 0
      expectedGeneration := 0
      record :=
        { namespaceId := (id.map (strscpy (CString.zero _))).getD (CString.zero _)
          snapshot := { base with config := config } } }

def policyUpdateField (requestAlloc : Bool) (env : ApplyEnv) (id field : Option Bytes)
    (value : UInt32) (s : KernelState) : Ret × KernelState :=
  match field with
  | none => (-einval, s)
  | some field =>
      if ∃ name ∈ id, validNamespace name = false then (-einval, s)
      else if ¬ requestAlloc then (-enomem, s)
      else
        match s.policyMap with
        | none => (-enxio, s)
        | some m =>
            match fieldRequest (s.maps m).active id field value with
            | none => (-einval, s)
            | some request => applyLocked P env request s

end Publish

/-! ## Decisions -/

/-- The checks of `bpfima_policy_resolve_context` on the context. -/
def PolicyContext.wellFormed (context : PolicyContext) : Prop :=
  context.hook.toNat < hookMax ∧ context.flags &&& ~~~7 = 0 ∧
    terminated context.namespaceId = true ∧ terminated context.cgroup = true ∧
    terminated context.path = true

instance (context : PolicyContext) : Decidable context.wellFormed :=
  inferInstanceAs (Decidable (_ ∧ _))

/-- The decision for a context under a root and, if there is one, a namespace snapshot. -/
def resolveSnapshots (generation : UInt64) (root : PolicySnapshot) (extra : Option PolicySnapshot)
    (context : PolicyContext) : PolicyResult :=
  let hookIndex := Fin.ofNat hookMax context.hook.toNat
  let config := mergeConfig root.config (extra.map PolicySnapshot.config)
  let flags := (root.hooks.get hookIndex).flags |||
    (extra.map fun e => (e.hooks.get hookIndex).flags).getD 0
  let skip := config.enabled == 0 || flags &&& HookFlag.enabled == 0 ||
    (context.flags &&& ContextFlag.file != 0 && flags &&& HookFlag.measureHash == 0) ||
    (filtered root context && (extra.map fun e => filtered e context).getD true)
  { generation := generation
    config := config
    hook := { HookConfig.zero with flags := flags }
    skip := if skip then 1 else 0 }

/-- What `bpfima_policy_resolve_context` finds for a namespace in a policy state. -/
def resolveState (state : PolicyState) (context : PolicyContext) : PolicyResult :=
  let extra := match namespaceIndex state (some (cstr context.namespaceId)) with
    | some index => if index = 0 then none else some (state.records.get index).snapshot
    | none => none
  resolveSnapshots state.generation (state.records.get 0).snapshot extra context

def policyResolveContext (context : PolicyContext) (s : KernelState) : Except Ret PolicyResult :=
  if ¬ context.wellFormed then .error (-einval)
  else
    match s.policyMap with
    | none => .error (-enxio)
    | some m => .ok (resolveState (s.maps m).active context)

end BpfIma
