import BpfIma.Library.Numerals
import BpfIma.Model.Measurement
import BpfIma.Model.PolicyWire

/-! # The policy files

The text files of `policy_securityfs.c`: a configuration is read as one `field=value` line per
field and edited by writing one such line. Then the policy kfuncs of `kfuncs_policy.c`, the
other way to the same manager. -/

namespace BpfIma

open CString Errno Numerals

/-! ## Writing -/

/-- The return value of `kstrtou32` for a text it refuses. -/
def NumeralError.ret : NumeralError → Ret
  | .malformed => -einval
  | .range => -erange

/-- The outcomes of one write of a policy file. -/
structure TextWriteEnv where
  securityfsPolicyWritable : ℤ
  bufAlloc : Bool
  copyFault : Bool
  copyAlloc : Bool
  requestAlloc : Bool
  apply : ApplyEnv

section Write

variable (P : Platform)

def parseAndUpdatePolicy (env : TextWriteEnv) (buf : Bytes) (namespaceId : Option Bytes)
    (s : KernelState) : Ret × KernelState :=
  if ¬ env.copyAlloc then (-enomem, s)
  else
    match Text.cut 0x3d buf with
    | none => (-einval, s)
    | some (field, value) =>
        match kstrtou32 value with
        | .error e => (NumeralError.ret e, s)
        | .ok number =>
            policyUpdateField P env.requestAlloc env.apply namespaceId (some field) number s

/-- The C string in `buf` after a write: a final line feed is dropped. -/
def writtenText (userBuf : Bytes) : Bytes :=
  upToNul (if userBuf.getLast? = some Text.lineFeed then userBuf.dropLast else userBuf)

/-- The part that `policy_update_write` and `global_policy_write` start with. -/
def copyWritten (env : TextWriteEnv) (userBuf : Bytes) : Except Ret Bytes :=
  if env.securityfsPolicyWritable = 0 then .error (-eperm)
  else if 256 < userBuf.length then .error (-einval)
  else if ¬ env.bufAlloc then .error (-enomem)
  else if env.copyFault then .error (-efault)
  else .ok (writtenText userBuf)

/-- `ret < 0 ? ret : count`. -/
def textWriteResult (count : ℕ) (result : Ret × KernelState) : Ret × KernelState :=
  (if result.1 < 0 then result.1 else count, result.2)

/-- `policy_update_write` on a file with the `i_private` given. -/
def policyUpdateWrite (env : TextWriteEnv) (namespaceId : Option Bytes) (userBuf : Bytes)
    (s : KernelState) : Ret × KernelState :=
  match copyWritten env userBuf with
  | .error ret => (ret, s)
  | .ok buf =>
      match namespaceId with
      | none => (-einval, s)
      | some id => textWriteResult userBuf.length (parseAndUpdatePolicy P env buf (some id) s)

def globalPolicyWrite (env : TextWriteEnv) (userBuf : Bytes) (s : KernelState) :
    Ret × KernelState :=
  match copyWritten env userBuf with
  | .error ret => (ret, s)
  | .ok buf => textWriteResult userBuf.length (parseAndUpdatePolicy P env buf none s)

/-- The outcomes of one write of the file that binds the map: `bind` is those of the call for
the file descriptor that was written. -/
structure MapWriteEnv where
  capable : Bool
  copyFault : Bool
  bind : UInt32 → BindEnv

def policyMapWrite (env : MapWriteEnv) (buffer : Bytes) (s : KernelState) : Ret × KernelState :=
  if env.capable = false then (-eperm, s)
  else if buffer.length = 0 ∨ 32 ≤ buffer.length then (-einval, s)
  else if env.copyFault then (-efault, s)
  else if 0 ∈ buffer then (-einval, s)
  else
    match kstrtou32 buffer with
    | .error e => (NumeralError.ret e, s)
    | .ok fd => writeResult buffer.length (policyBindMap P (env.bind fd) s)

end Write

/-! ## Reading -/

def policyReadLocked (id : Option Bytes) (s : KernelState) : Except Ret (PolicyConfig × UInt64) :=
  match s.policyMap with
  | none => .error (-enxio)
  | some m =>
      let state := (s.maps m).active
      let extra := match namespaceIndex state id with
        | some index => if index = 0 then none else some (state.records.get index).snapshot.config
        | none => none
      .ok (mergeConfig (state.records.get 0).snapshot.config extra, state.generation)

/-- One line of a policy file. -/
def fieldLine (name : String) (value : Bytes) : Bytes :=
  name.ascii ++ "=".ascii ++ value ++ [Text.lineFeed]

/-- The lines that `policy_show` prints. -/
def policyLines (id : Bytes) (config : PolicyConfig) (generation : UInt64)
    (metadata : PolicyNamespace) : List Bytes :=
  [fieldLine "namespace_id" id,
    fieldLine "generation" (Text.decimal generation.toNat),
    fieldLine "filter_flags" (hexadecimal config.filterFlags.toNat),
    fieldLine "action_flags" (hexadecimal config.actionFlags.toNat),
    fieldLine "min_file_size" (Text.decimal config.minFileSize.toNat),
    fieldLine "log_level" (Text.decimal config.logLevel.toNat),
    fieldLine "enabled" (Text.decimal config.enabled.toNat),
    fieldLine "changes" (cstr metadata.changesStr),
    fieldLine "changes_hash" (Text.hexEncode metadata.changesHash.toList)]

/-- `policy_show` on a file with the `private` given. -/
def policyShow (alloc : Bool) (id : Option Bytes) (s : KernelState) :
    Except Ret Bytes × KernelState :=
  match id with
  | none => (.error (-einval), s)
  | some id =>
      match policyReadLocked (some id) s with
      | .error ret => (.error ret, s)
      | .ok (config, generation) =>
          match policyNamespaceGetLocked alloc id s with
          | (.error ret, s) => (.error ret, s)
          | (.ok i, s) =>
              (.ok (policyLines id config generation
                (s.policyNamespaceList.getD i (freshPolicyNamespace id))).flatten, s)

/-- The lines that `global_policy_show` prints. -/
def globalPolicyLines (config : PolicyConfig) (generation : UInt64) : List Bytes :=
  [fieldLine "generation" (Text.decimal generation.toNat),
    fieldLine "enabled" (Text.decimal config.enabled.toNat),
    fieldLine "filter_flags" (hexadecimal config.filterFlags.toNat),
    fieldLine "action_flags" (hexadecimal config.actionFlags.toNat),
    fieldLine "min_file_size" (Text.decimal config.minFileSize.toNat),
    fieldLine "max_path_depth" (Text.decimal config.maxPathDepth.toNat),
    fieldLine "log_level" (Text.decimal config.logLevel.toNat)]

def globalPolicyShow (s : KernelState) : Except Ret Bytes :=
  match policyReadLocked none s with
  | .error ret => .error ret
  | .ok (config, generation) => .ok (globalPolicyLines config generation).flatten

/-- The line of one change in either history file. -/
def changeLine (change : PolicyChange) : Bytes :=
  Text.hexEncode change.changeHash.toList ++ " ".ascii ++ cstr change.policyString ++
    [Text.lineFeed]

def globalPolicyChangesShow (s : KernelState) : Bytes :=
  s.globalPolicyChangeHistory.flatMap changeLine

/-- `policy_changes_show` on a file with the `private` given. -/
def policyChangesShow (alloc : Bool) (id : Option Bytes) (s : KernelState) :
    Except Ret Bytes × KernelState :=
  match id with
  | none => (.error (-einval), s)
  | some id =>
      match policyNamespaceGetLocked alloc id s with
      | (.error ret, s) => (.error ret, s)
      | (.ok i, s) =>
          (.ok ((s.policyNamespaceList.getD i (freshPolicyNamespace id)).changeHistory.flatMap
            changeLine), s)

/-! ## The two kinds of policy files -/

/-- The file of the root policy, or that of a namespace with its id as `i_private`. -/
inductive PolicyFile where
  | globalPolicy
  | namespacePolicy (id : Bytes)
deriving DecidableEq

namespace PolicyFile

/-- `.write` of `global_policy_fops` and of `policy_fops`. -/
def write (P : Platform) (env : TextWriteEnv) (userBuf : Bytes) (s : KernelState) :
    PolicyFile → Ret × KernelState
  | .globalPolicy => globalPolicyWrite P env userBuf s
  | .namespacePolicy id => policyUpdateWrite P env (some id) userBuf s

/-- The `show` function behind `.read`. -/
def read (alloc : Bool) (s : KernelState) : PolicyFile → Except Ret Bytes × KernelState
  | .globalPolicy => (globalPolicyShow s, s)
  | .namespacePolicy id => policyShow alloc (some id) s

end PolicyFile

/-! ## The policy kfuncs -/

/-- The kfuncs that edit one field: the name is copied and checked before the edit. -/
def policyUpdateKfunc (P : Platform) (field : String) (requestAlloc : Bool) (env : ApplyEnv)
    (namespaceId : Option Bytes) (value : UInt32) (s : KernelState) : Ret × KernelState :=
  match copyKfuncString namespaceSize namespaceId false with
  | .error _ => (-einval, s)
  | .ok id =>
      if validateNamespace id ≠ 0 then (-einval, s)
      else policyUpdateField P requestAlloc env (some id) (some field.ascii) value s

def policyUpdateFilterFlags (P : Platform) :=
  policyUpdateKfunc P "filter_flags"

def policyUpdateActionFlags (P : Platform) :=
  policyUpdateKfunc P "action_flags"

def policyUpdateMinFileSize (P : Platform) :=
  policyUpdateKfunc P "min_file_size"

def policyUpdateLogLevel (P : Platform) :=
  policyUpdateKfunc P "log_level"

/-- `bpfima_policy_get_changes_hash` into `hashOut`; `none` is a `NULL` buffer. -/
def policyGetChangesHash (namespaceId : Option Bytes) (hashOut : Option Bytes) (s : KernelState) :
    Ret × Option Bytes :=
  match copyKfuncString namespaceSize namespaceId false with
  | .error _ => (-einval, hashOut)
  | .ok id =>
      if validateNamespace id ≠ 0 then (-einval, hashOut)
      else if hashOut.map List.length ≠ some merkleHashSize then (-einval, hashOut)
      else
        match findPolicyNamespace s.policyNamespaceList id with
        | none => (-enoent, hashOut)
        | some i =>
            (0, some (s.policyNamespaceList.getD i (freshPolicyNamespace id)).changesHash.toList)

end BpfIma
