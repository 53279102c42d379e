import BpfIma.Library.Threads
import BpfIma.Model.EntryPoints

/-! # The authority of the policy

The module takes its policy from one BPF map, which the management tool creates, pins and hands
over. Any number of tools may run `ensure_policy_map` and `cleanup_pinned_maps` at once; every
system call of theirs is a section of its own. -/

namespace BpfIma

open CString Errno

/-- The module with the BPF maps, the address of the next map, and what is pinned at
`/sys/fs/bpf/bpfima_policy_map`. A map that nobody refers to any more is left in its place: no
address is given twice. -/
structure Host where
  kernel : KernelState
  nextMap : ℕ
  pin : Option ℕ

/-- A map as `ensure_policy_map` has it created. -/
def createdPolicyMap : BpfMap where
  mapType := bpfMapTypeArray
  keySize := 4
  valueSize := 45560
  maxEntries := 3
  mapFlags := policyMapFlags
  frozen := false
  writecnt := 0
  refcnt := 1
  slots := .replicate _ .zero

/-- How far a tool has come. -/
inductive ToolPoint where
  | idle
  -- `ensure_policy_map`
  | missing
  | created (m : ℕ)
  | frozen (m : ℕ)
  | existing
  | opened (m : ℕ)
  | checked (m : ℕ)
  | ensured (m : ℕ)
  | failed
  -- `load_and_attach_one_object`, for the map of the hook
  | reused (m : ℕ)
  -- `cleanup_pinned_maps`, for the policy map
  | inspecting (m : ℕ)
  | removing
  | cleaned (ret : Ret)
deriving DecidableEq

/-- The outcomes of the write to `policy_map`, and the number of the file descriptor. -/
structure HandOverEnv where
  endpoint : Bool
  fd : UInt32
  capable : Bool
  copyFault : Bool
  initialAlloc : Bool
  available : Bool
  publish : PublishEnv

/-- The kernel finds the map behind the descriptor of the tool, and no other. -/
def HandOverEnv.mapWrite (env : HandOverEnv) (m : ℕ) : MapWriteEnv where
  capable := env.capable
  copyFault := env.copyFault
  bind := fun fd =>
    { map := if fd = env.fd then .ok m else .error ⟨-ebadf, by decide⟩
      initialAlloc := env.initialAlloc
      available := env.available
      publish := env.publish }

/-- The outcomes of the rest of `preserve_policy_pin`; `ids` are the ids of the maps. -/
structure PreserveEnv where
  infoFault : Bool
  statusOpens : Bool
  ids : ℕ → UInt32
  chip : Bool
  available : Bool

/-- The system calls of a tool. A fault is an error that has nothing to do with the pin. -/
inductive ToolAction where
  | objGet (fault : Bool)
  | mapCreate (fault : Bool)
  | mapFreeze (fault : Bool)
  | objPin (fault : Bool)
  | objGetAgain (fault : Bool)
  | getInfo (fault : Bool)
  | handOver (env : HandOverEnv)
  | reuse (fault : Bool)
  | cleanup (fault : Bool)
  | readStatus (env : PreserveEnv)
  | removePin (fault : Bool)

/-- What stands before the id in `status`. -/
def mapIdLabel : Bytes := "policy_map_id=".ascii

/-- The loop over the lines of `status`; `fuel` bounds the number of lines. -/
def boundId : ℕ → Bytes → UInt32
  | 0, _ => 0
  | fuel + 1, text =>
      if text = [] then 0
      else
        let line := Text.fgets 256 text
        match Numerals.sscanfU mapIdLabel line with
        | some id => id
        | none => boundId fuel (text.drop line.length)

/-- What `preserve_policy_pin` finds for the map at `m`, and the state after it has read
`status`. -/
def preservePolicyPin (env : PreserveEnv) (m : ℕ) (s : KernelState) : Bool × KernelState :=
  if env.infoFault ∨ (s.maps m).valueSize ≠ 45560 ∨ (s.maps m).mapFlags ≠ policyMapFlags then
    (false, s)
  else if env.statusOpens = false then (false, s)
  else
    let (text, s) := statusShow env.ids env.chip env.available s
    let id := boundId text.length text
    (id ≠ 0 ∧ id = env.ids m, s)

/-- The first call of `ensure_policy_map`. -/
def lookUp (fault : Bool) (host : Host) : ToolPoint :=
  if fault then .failed
  else
    match host.pin with
    | none => .missing
    | some m => .opened m

/-- The first call of `preserve_policy_pin`: a pin that cannot be opened is removed. -/
def beginCleanup (fault : Bool) (host : Host) : ToolPoint :=
  if fault then .removing
  else
    match host.pin with
    | none => .removing
    | some m => .inspecting m

/-- `bpf_map_create`. -/
def mapCreate (host : Host) : ToolPoint × Host :=
  (.created host.nextMap,
    { host with
      kernel := host.kernel.setMap host.nextMap createdPolicyMap
      nextMap := host.nextMap + 1 })

/-- `bpf_map_freeze`. -/
def mapFreeze (m : ℕ) (host : Host) : ToolPoint × Host :=
  (.frozen m,
    { host with kernel := host.kernel.setMap m { host.kernel.maps m with frozen := true } })

/-- `bpf_obj_pin`, which does not replace a pin. -/
def objPin (m : ℕ) (host : Host) : ToolPoint × Host :=
  match host.pin with
  | none => (.opened m, { host with pin := some m })
  | some _ => (.existing, host)

/-- `bpf_obj_get` where a missing pin is an error. -/
def objGet (host : Host) (found : ℕ → ToolPoint) : ToolPoint :=
  match host.pin with
  | none => .failed
  | some m => found m

section

variable (P : Platform)

/-- The last section of `ensure_policy_map`. -/
def handOver (env : HandOverEnv) (m : ℕ) (host : Host) : ToolPoint × Host :=
  if env.endpoint = false then (.failed, host)
  else
    let text := Text.decimal env.fd.toNat ++ "\n".ascii
    let (written, kernel) := policyMapWrite P (env.mapWrite m) text host.kernel
    (if written = text.length then .ensured m else .failed, { host with kernel := kernel })

/-- One system call of a tool; one out of turn does nothing. -/
def toolAction (host : Host) (point : ToolPoint) (action : ToolAction) : ToolPoint × Host :=
  match point, action with
  | .idle, .objGet fault | .ensured _, .objGet fault | .failed, .objGet fault
  | .reused _, .objGet fault | .cleaned _, .objGet fault => (lookUp fault host, host)
  | .missing, .mapCreate fault => if fault then (.failed, host) else mapCreate host
  | .created m, .mapFreeze fault => if fault then (.failed, host) else mapFreeze m host
  | .frozen m, .objPin fault => if fault then (.failed, host) else objPin m host
  | .existing, .objGetAgain fault => (if fault then .failed else objGet host .opened, host)
  | .opened m, .getInfo fault =>
      (if fault ∨ ¬ (host.kernel.maps m).hasPolicyShape then .failed else .checked m, host)
  | .checked m, .handOver env => handOver P env m host
  | .ensured _, .reuse fault => (if fault then .failed else objGet host .reused, host)
  | .idle, .cleanup fault | .ensured _, .cleanup fault | .failed, .cleanup fault
  | .reused _, .cleanup fault | .cleaned _, .cleanup fault => (beginCleanup fault host, host)
  | .inspecting m, .readStatus env =>
      let (preserve, kernel) := preservePolicyPin env m host.kernel
      (if preserve then .cleaned 0 else .removing, { host with kernel := kernel })
  | .removing, .removePin fault =>
      if fault then (.cleaned 1, host) else (.cleaned 0, { host with pin := none })
  | point, _ => (point, host)

/-- A call of the module by anybody else. -/
def hostCall (host : Host) (op : KernelOp) : Host :=
  { host with kernel := (kernelStep P host.kernel op).2 }

abbrev ToolState := Threads.State Host ToolPoint

abbrev ToolOp := Threads.Op ToolAction KernelOp

def toolStep : ToolState → ToolOp → Unit × ToolState :=
  Threads.step (toolAction P) (hostCall P)

/-- A host on which the module was just loaded and nothing is pinned; the maps from `nextMap` on
do not exist yet. -/
def toolsStarted (maps : ℕ → BpfMap) (nextMap : ℕ) (tpmPcrIndex : ℤ) : ToolState :=
  ⟨⟨moduleLoaded maps tpmPcrIndex, nextMap, none⟩, fun _ => .idle⟩

/-- The host after any interleaving of tools and other calls. -/
def toolsRun (maps : ℕ → BpfMap) (nextMap : ℕ) (tpmPcrIndex : ℤ) (ops : List ToolOp) : ToolState :=
  Machine.run (toolStep P) (toolsStarted maps nextMap tpmPcrIndex) ops

end

end BpfIma
