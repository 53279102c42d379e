import BpfIma.Library.Text
import BpfIma.Model.Kernel

/-! # The `inode_setattr` hook

`hooks/lsm/lsm_inode_setattr.c` with the functions of `hook_utils.h` and `utils.h` that it
calls. The BPF helpers outside the repository give their outcomes as an environment. -/

namespace BpfIma

open CString Errno

/-! ## Helpers of the BPF runtime -/

/-- The output of a format with at most one `%llu`. -/
def formatLlu (fmt : Bytes) (val : UInt64) : Bytes :=
  match strstr fmt "%llu".ascii with
  | none => fmt
  | some rest =>
      fmt.take (fmt.length - rest.length) ++ Text.decimal val.toNat ++ rest.drop "%llu".ascii.length

/-- `bpf_snprintf`: the size that the text needs with its NUL, and what of it fits. -/
def bpfSnprintf (n : ℕ) (fmt : Bytes) (val : UInt64) : ℤ × Buffer n :=
  ((formatLlu fmt val).length + 1, snprintf n (formatLlu fmt val))

/-- `bpf_probe_read_kernel_str` into zeroed memory: the bytes written, with the NUL. -/
def bpfProbeReadKernelStr (fault : Bool) (n : ℕ) (src : Bytes) : Ret × Buffer n :=
  if fault then (-efault, CString.zero n)
  else (min (src.length + 1) n, strscpy (CString.zero n) src)

/-- A string behind a pointer that may be `NULL`: what is there has to be read and to fit. -/
def readOptional (fault : Bool) (n : ℕ) (src : Option Bytes) : Option (Buffer n) :=
  match src with
  | none => some (CString.zero n)
  | some src =>
      let (ret, buffer) := bpfProbeReadKernelStr fault n src
      if ret ≤ 0 ∨ ret ≥ n then none else some buffer

/-! ## Attributes -/

/-- `struct iattr`, as far as the hook reads it. -/
structure Iattr where
  iaValid : UInt32
  iaMode : UInt16
  iaUid : UInt32
  iaGid : UInt32
  iaSize : UInt64
deriving DecidableEq

namespace Attr

def mode : UInt32 := 0x1
def uid : UInt32 := 0x2
def gid : UInt32 := 0x4
def size : UInt32 := 0x8
def killSuid : UInt32 := 0x800
def killSgid : UInt32 := 0x1000
def killPriv : UInt32 := 0x4000

end Attr

/-- The loop of `append_attr`: whether every position was in range. -/
def appendLoop {n : ℕ} (buf : Buffer n) (position : ℕ) : Bytes → Bool × Buffer n
  | [] => (true, buf)
  | c :: cs =>
      if h : position < n then appendLoop (buf.set ⟨position, h⟩ c) (position + 1) cs
      else (false, buf)

/-- `append_attr`: the next offset, which stays negative once it is. -/
def appendAttr {n : ℕ} (buf : Buffer n) (off : ℤ) (fmt : Bytes) (val : UInt64) : ℤ × Buffer n :=
  if off < 0 ∨ off ≥ n then (-1, buf)
  else
    let remaining := n - off
    let (needed, formatted) := bpfSnprintf 64 fmt val
    if needed ≤ 0 ∨ needed > 64 ∨ needed > remaining then (-1, buf)
    else
      let (inRange, buf) := appendLoop buf off.toNat (formatted.toList.take needed.toNat)
      if ¬ inRange then (-1, buf) else (off + needed - 1, buf)

/-- The attributes that `build_attributes` looks for, with what it prints for each. -/
def Iattr.parts (attr : Iattr) : List (UInt32 × Bytes × UInt64) :=
  [(Attr.mode, "mode=%llu,".ascii, attr.iaMode.toUInt64),
    (Attr.uid, "uid=%llu,".ascii, attr.iaUid.toUInt64),
    (Attr.gid, "gid=%llu,".ascii, attr.iaGid.toUInt64),
    (Attr.size, "size=%llu,".ascii, attr.iaSize),
    (Attr.killPriv, "kill_priv=1,".ascii, 0),
    (Attr.killSuid, "kill_suid=1,".ascii, 0),
    (Attr.killSgid, "kill_sgid=1,".ascii, 0)]

/-- The end of `build_attributes`: the comma after the last attribute goes. -/
def terminateAttributes {n : ℕ} (off : ℤ) (attrs : Buffer n) : Ret × Buffer n :=
  if h : off < 0 ∨ off ≥ n then (-1, attrs)
  else
    let last := if off > 0 ∧ attrs.toList[off.toNat - 1]? = some 44 then off - 1 else off
    (last, attrs.set ⟨last.toNat, by grind⟩ 0)

def buildAttributes {n : ℕ} (attrs : Buffer n) (attr : Option Iattr) : Ret × Buffer n :=
  match attr with
  | none => (0, attrs)
  | some attr =>
      if n = 0 then (0, attrs)
      else
        let (off, attrs) := attr.parts.foldl
          (fun (off, attrs) (flag, fmt, val) =>
            if attr.iaValid &&& flag ≠ 0 then appendAttr attrs off fmt val else (off, attrs))
          ((0 : ℤ), attrs)
        terminateAttributes off attrs

/-! ## Policy -/

/-- `HOOK_LSM_INODE_SETATTR`. -/
def hookLsmInodeSetattr : UInt32 := 7

/-- The outcomes of `bpfima_policy_for_hook`: whether the task has its scratch memory, the name
of its cgroup as far as it can be read, and whether the path cannot be read. -/
structure ResolveEnv where
  scratch : Bool
  cgroup : Option Bytes
  pathFault : Bool

/-- `fetch_cgroup_name`. -/
def fetchCgroupName (cgroup : Option Bytes) : Buffer namespaceSize :=
  match cgroup with
  | none => CString.zero _
  | some name => strscpy (CString.zero _) name

/-- A program sees a cgroup by its name, unless that is empty or a path. -/
def hookNamespace (cgroup : Buffer namespaceSize) : Buffer namespaceSize :=
  if cgroup.get 0 ≠ 0 ∧ cgroup.get 0 ≠ 47 then cgroup
  else strscpy (CString.zero _) "default".ascii

/-- The context and the result that `bpfima_policy_for_hook` leaves in the scratch memory. -/
abbrev PolicyScratch := PolicyContext × PolicyResult

/-- `bpfima_policy_for_hook`: zero if the event is to be measured. -/
def policyForHook (env : ResolveEnv) (hook : UInt32) (path : Option Bytes) (size : UInt64)
    (flags : UInt32) (s : KernelState) : Ret × Option PolicyScratch :=
  if ¬ env.scratch then (-12, none)
  else
    let cgroup := fetchCgroupName env.cgroup
    match readOptional env.pathFault pathSize path with
    | none => (-36, none)
    | some path =>
        let context : PolicyContext := ⟨hookNamespace cgroup, cgroup, path, size, hook, flags⟩
        match policyResolveContext context s with
        | .error ret => (ret, none)
        | .ok result => (result.skip.toNat, some (context, result))

/-- `bpfima_current_namespace`; `none` is `NULL`. -/
def currentNamespace (scratch : Option PolicyScratch) : Option Bytes :=
  scratch.map fun (context, result) =>
    if result.hook.flags &&& HookFlag.trackContainers ≠ 0 ∨
        result.config.actionFlags &&& PolicyAction.trackContainer ≠ 0 then
      cstr context.namespaceId
    else "default".ascii

/-! ## Submission -/

structure MeasurementCtx where
  eventName : Option Bytes
  namespaceId : Option Bytes
  dependencies : Option Bytes
  additionalData : Option Bytes
  additionalDataLen : ℤ

/-- The outcomes of `bpfima_submit_measurement`: the task and its scratch memory, the reads that
fault, and the measurement itself. -/
structure SubmitEnv where
  task : Bool
  scratch : Bool
  eventNameFault : Bool
  namespaceFault : Bool
  dependenciesFault : Bool
  dataFault : Bool
  extend : ExtendEnv

/-- The request that `bpfima_submit_measurement` makes of its argument. -/
def measurementRequest (env : SubmitEnv) (ctx : MeasurementCtx) : Except Ret MeasurementRequest :=
  match ctx.eventName with
  | none => .error (-1)
  | some eventName =>
      if ctx.additionalDataLen < 0 ∨ ctx.additionalDataLen ≥ eventDataSize ∨
          (ctx.additionalData = none ∧ ctx.additionalDataLen ≠ 0) then .error (-1)
      else if ¬ env.task ∨ ¬ env.scratch then .error (-1)
      else
        let (ret, name) := bpfProbeReadKernelStr env.eventNameFault eventNameSize eventName
        if ret ≤ 1 ∨ ret ≥ eventNameSize then .error (-1)
        else
          match readOptional env.namespaceFault namespaceSize ctx.namespaceId with
          | none => .error (-1)
          | some namespaceId =>
              match readOptional env.dependenciesFault dependenciesSize ctx.dependencies with
              | none => .error (-1)
              | some dependencies =>
                  if ctx.additionalDataLen ≠ 0 ∧ env.dataFault = true then .error (-1)
                  else
                    let len := ctx.additionalDataLen.toNat
                    .ok
                      { eventName := name
                        namespaceId := namespaceId
                        dependencies := dependencies
                        additionalData := ⟨(((ctx.additionalData.getD []).take len) ++
                          (CString.zero eventDataSize).toList).take eventDataSize, by simp⟩
                        additionalDataLen := len.toUInt32
                        flags :=
                          if ctx.dependencies.isSome then measurementHasDependencies else 0 }

def submitMeasurement (P : Platform) (env : SubmitEnv) (ctx : MeasurementCtx) (s : KernelState) :
    Ret × KernelState :=
  match measurementRequest env ctx with
  | .error ret => (ret, s)
  | .ok request => measurementExtend P env.extend (some request) measurementRequestSize s

/-! ## The hook -/

structure SetattrEnv where
  policy : ResolveEnv
  namespaceScratch : Bool
  submit : SubmitEnv

/-- What a program returns to the security framework. -/
def hookRet (ret : Ret) : Ret := if ret < -4095 then -4095 else if ret > 0 then 0 else ret

/-- `bpf_inode_setattr` up to the submission: what it returns without one, or what it submits.
A `dentry` has a name unless that pointer is `NULL`. -/
def setattrMeasurement (env : SetattrEnv) (dentry : Option (Option Bytes)) (attr : Option Iattr)
    (previousRet : Ret) (s : KernelState) : Except Ret MeasurementCtx :=
  if previousRet ≠ 0 then .error previousRet
  else
    match dentry, attr with
    | some name, some attr =>
        let (decision, scratch) := policyForHook env.policy hookLsmInodeSetattr name 0 0 s
        if decision ≠ 0 then .error (hookRet decision)
        else
          let (attrLen, attrs) := buildAttributes (CString.zero 64) (some attr)
          if attrLen ≤ 0 then .error 0
          else
            .ok
              { eventName := some "inode_setattr".ascii
                namespaceId := if env.namespaceScratch then currentNamespace scratch else none
                dependencies := none
                additionalData := some attrs.toList
                additionalDataLen := attrLen }
    | _, _ => .error 0

def bpfInodeSetattr (P : Platform) (env : SetattrEnv) (dentry : Option (Option Bytes))
    (attr : Option Iattr) (previousRet : Ret) (s : KernelState) : Ret × KernelState :=
  match setattrMeasurement env dentry attr previousRet s with
  | .error ret => (ret, s)
  | .ok ctx =>
      let (ret, s) := submitMeasurement P env.submit ctx s
      (hookRet ret, s)

end BpfIma
