import BpfIma.Library.Layout
import BpfIma.Model.Callers
import BpfIma.Model.Dependencies
import BpfIma.Model.Hooks

/-! # The LSM programs

The programs of `hooks/lsm` with the memory that they work in. Every thread has a scratch memory
that its programs share and that nobody clears between two of them. What the BPF helpers and the
kernel objects give is an environment; measured times and log lines are left out. -/

namespace BpfIma

open CString Errno

/-! ## Scratch memory -/

/-- `struct scratch_t`. -/
structure Scratch where
  buf : Buffer depsBufSize
  digestHex : Buffer 68
  measurement : MeasurementRequest
  policyContext : PolicyContext
  policyResult : PolicyResult

/-- The outcomes of the BPF helpers in one run of a program. Each `Scratch` says whether one of
the calls of `bpf_task_storage_get` succeeds. -/
structure HookEnv where
  policy : ResolveEnv
  policyScratch : Bool
  namespaceScratch : Bool
  task : Bool
  scratch : Bool
  /-- The tasks of the host, and the address of the current one. -/
  tasks : TaskTable UInt64
  current : Option UInt64
  nameFault : Bool
  submit : SubmitEnv

/-- A pointer that is `NULL` is not read: the memory stays zero. -/
def readInto (fault : Bool) (n : ℕ) (src : Option Bytes) : Ret × Buffer n :=
  match src with
  | none => (1, CString.zero n)
  | some src => bpfProbeReadKernelStr fault n src

/-- `bpfima_policy_for_hook` and what it leaves in the scratch memory. -/
def policyForHookIn (env : ResolveEnv) (hook : UInt32) (path : Option Bytes) (size : UInt64)
    (flags : UInt32) (s : KernelState) (scratch : Scratch) : Ret × Scratch :=
  if ¬ env.scratch then (-12, scratch)
  else
    let cgroup := fetchCgroupName env.cgroup
    let (ret, path) := readInto env.pathFault pathSize path
    let context : PolicyContext := ⟨hookNamespace cgroup, cgroup, path, 0, 0, 0⟩
    if ret ≤ 0 ∨ ret ≥ pathSize then (-36, { scratch with policyContext := context })
    else
      let context := { context with fileSize := size, hook := hook, flags := flags }
      let scratch := { scratch with policyContext := context }
      match policyResolveContext scratch.policyContext s with
      | .error ret => (ret, scratch)
      | .ok result => (result.skip.toNat, { scratch with policyResult := result })

/-- `bpfima_get_policy`; `none` is `NULL`. -/
def getPolicy (available : Bool) (scratch : Scratch) : Option PolicyConfig :=
  if available then some scratch.policyResult.config else none

/-- `bpfima_current_namespace` as it reads the scratch memory. -/
def currentNamespaceIn (available : Bool) (scratch : Scratch) : Option Bytes :=
  if available then currentNamespace (some (scratch.policyContext, scratch.policyResult)) else none

/-! ## Submission -/

/-- The copy of the data into the zeroed field. -/
def additionalDataOf (data : Bytes) : Buffer eventDataSize :=
  ⟨(data ++ (CString.zero eventDataSize).toList).take eventDataSize, by simp⟩

/-- `bpfima_submit_measurement` up to its call of the module, with the request in the scratch
memory: an error leaves what was written until then. -/
def submitRequest (env : SubmitEnv) (ctx : MeasurementCtx) (request : MeasurementRequest) :
    Ret × MeasurementRequest :=
  match ctx.eventName with
  | none => (-1, request)
  | some eventName =>
      if ctx.additionalDataLen < 0 ∨ ctx.additionalDataLen ≥ eventDataSize ∨
          (ctx.additionalData = none ∧ ctx.additionalDataLen ≠ 0) then (-1, request)
      else if ¬ env.task ∨ ¬ env.scratch then (-1, request)
      else
        let (ret, name) := bpfProbeReadKernelStr env.eventNameFault eventNameSize eventName
        let request := { MeasurementRequest.zero with eventName := name }
        if ret ≤ 1 ∨ ret ≥ eventNameSize then (-1, request)
        else
          let (ret, namespaceId) := readInto env.namespaceFault namespaceSize ctx.namespaceId
          let request := { request with namespaceId := namespaceId }
          if ret ≤ 0 ∨ ret ≥ namespaceSize then (-1, request)
          else
            let (ret, dependencies) :=
              readInto env.dependenciesFault dependenciesSize ctx.dependencies
            let request := { request with dependencies := dependencies }
            if ret ≤ 0 ∨ ret ≥ dependenciesSize then (-1, request)
            else
              let request := { request with
                flags := if ctx.dependencies.isSome then measurementHasDependencies else 0 }
              if ctx.additionalDataLen ≠ 0 ∧ env.dataFault = true then (-1, request)
              else
                let len := ctx.additionalDataLen.toNat
                (0, { request with
                  additionalData := additionalDataOf ((ctx.additionalData.getD []).take len)
                  additionalDataLen := len.toUInt32 })

/-- What a program does next: it returns to the security framework, or it calls
`bpfima_measurement_extend`. -/
inductive HookOutcome where
  | returned (ret : Ret)
  | extending (request : MeasurementRequest)
deriving DecidableEq

def submitIn (env : SubmitEnv) (ctx : MeasurementCtx) (scratch : Scratch) : HookOutcome × Scratch :=
  let (ret, request) := submitRequest env ctx scratch.measurement
  (if ret ≠ 0 then .returned (hookRet ret) else .extending request,
    { scratch with measurement := request })

/-! ## Files -/

theorem two_places {pos n : ℕ} (h : pos + 2 < n) : pos < n ∧ pos + 1 < n := by omega

/-- The loop of `bytes_to_hex_str`: the next position, or `none` if the buffer is full. -/
def hexLoop {n : ℕ} (out : Buffer n) (pos : ℕ) : Bytes → Option ℕ × Buffer n
  | [] => (some pos, out)
  | b :: bytes =>
      if h : pos + 2 < n then
        hexLoop ((out.set ⟨pos, (two_places h).1⟩ (Text.hexDigit (b.toNat / 16))).set
          ⟨pos + 1, (two_places h).2⟩ (Text.hexDigit (b.toNat % 16))) (pos + 2) bytes
      else (none, out)

def bytesToHexStr {n : ℕ} (bytes : Bytes) (len : ℕ) (out : Buffer n) : Ret × Buffer n :=
  let max := if len > 32 then 32 else len
  match hexLoop out 0 (bytes.take max) with
  | (none, out) => (-1, out)
  | (some pos, out) => if h : pos < n then (pos, out.set ⟨pos, h⟩ 0) else (-1, out)

/-- `HASH_ALGO_SHA256`. -/
def hashAlgoSha256 : ℤ := 4

structure Inode where
  iMode : UInt16
  iSize : UInt64

/-- `S_ISREG`. -/
def Inode.isReg (inode : Inode) : Bool := inode.iMode &&& 0xf000 == 0x8000

/-- What the programs find at a `struct file`: its path if `bpf_d_path` succeeds, the name of its
dentry, and the algorithm and the digest that `bpf_ima_file_hash` gives. -/
structure FileObject where
  dPath : Option Bytes
  dentry : Option (Option Bytes)
  inode : Option Inode
  fMode : UInt32
  hashAlgo : ℤ
  digest : Digest

/-- `struct file_measure_ctx`, without what the programs only print or measure times with. -/
structure FileMeasureCtx where
  digest : Digest
  eventName : Bytes
  cgroupName : Option Bytes
  fname : Option Bytes
  policy : Option PolicyConfig

/-- Whether the dependency chain is to be built; a policy that cannot be read asks for it. -/
def buildsDeps (policy : Option PolicyConfig) : Bool :=
  match policy with
  | none => true
  | some policy => policy.actionFlags &&& PolicyAction.buildDeps != 0

def depsDepth (policy : Option PolicyConfig) : UInt32 := (policy.map (·.maxPathDepth)).getD 32

/-- The dependency string of a program in the scratch memory: it starts out empty and is built if
that is asked for. -/
def dependencyChain (env : HookEnv) (asked : Bool) (name : Option Bytes)
    (policy : Option PolicyConfig) (deps : Buffer depsBufSize) :
    Option (Ret × Buffer depsBufSize) :=
  let deps := deps.set 0 0
  if asked then
    buildDependencies env.tasks env.nameFault deps depsBufSize name env.current (depsDepth policy)
  else some (0, deps)

/-- `measure_accessed_file`; `none` is a write outside of the scratch memory. -/
def measureAccessedFile (env : HookEnv) (ctx : FileMeasureCtx) (scratch : Scratch) :
    Option (HookOutcome × Scratch) :=
  if ¬ env.task ∨ ¬ env.scratch then some (.returned (-1), scratch)
  else do
    let (depsActual, deps) ← dependencyChain env
      (ctx.fname.isSome && env.current.isSome && buildsDeps ctx.policy) ctx.fname ctx.policy
      scratch.buf
    let scratch := { scratch with buf := deps }
    if depsActual < 0 then return (.returned (-1), scratch)
    else
      let (written, digestHex) := bytesToHexStr ctx.digest.toList 32 scratch.digestHex
      let scratch := { scratch with digestHex := digestHex }
      if written < 0 then return (.returned (-1), scratch)
      else
        return submitIn env.submit
          { eventName := some ctx.eventName
            namespaceId := ctx.cgroupName
            dependencies := some (cstr scratch.buf)
            additionalData := some scratch.digestHex.toList
            additionalDataLen := 64 } scratch

/-- What a program has come to when it returns or calls the module: its local variable
`decision`, the outcome, and the scratch memory. -/
structure HookResult where
  decision : Option Ret
  outcome : HookOutcome
  scratch : Scratch

/-- `HOOK_LSM_BPRM_CHECK_SECURITY`. -/
def hookLsmBprmCheckSecurity : UInt32 := 0

/-- `struct linux_binprm`, as far as the program reads it. -/
structure Binprm where
  filename : Option Bytes
  interp : Option Bytes
  file : Option FileObject

def FileObject.size (file : FileObject) : UInt64 := (file.inode.map Inode.iSize).getD 0

def lsmBprmCheckSecurity (env : HookEnv) (bprm : Option Binprm) (previousRet : Ret)
    (s : KernelState) (scratch : Scratch) : Option HookResult :=
  if previousRet ≠ 0 then some ⟨none, .returned previousRet, scratch⟩
  else
    match bprm with
    | none => some ⟨none, .returned 0, scratch⟩
    | some bprm =>
        match bprm.file with
        | none => some ⟨none, .returned 0, scratch⟩
        | some file =>
            let (decision, scratch) := policyForHookIn env.policy hookLsmBprmCheckSecurity
              bprm.filename file.size
              (ContextFlag.file ||| ContextFlag.readonly ||| ContextFlag.executable) s scratch
            if decision ≠ 0 then some ⟨some decision, .returned (hookRet decision), scratch⟩
            else
              -- The measured file is the interpreter when a script is run.
              let ctx : FileMeasureCtx :=
                { digest := file.digest
                  eventName := "bprm_check_security".ascii
                  cgroupName := currentNamespaceIn env.namespaceScratch scratch
                  fname := bprm.interp
                  policy := getPolicy env.policyScratch scratch }
              if file.hashAlgo ≠ hashAlgoSha256 then some ⟨some decision, .returned 0, scratch⟩
              else
                (measureAccessedFile env ctx scratch).map fun (outcome, scratch) =>
                  ⟨some decision, outcome, scratch⟩

/-- The common end of the programs that measure a file without dependencies. -/
def measureFileHash (env : HookEnv) (eventName : Bytes) (file : FileObject) (scratch : Scratch) :
    HookOutcome × Scratch :=
  if file.hashAlgo ≠ hashAlgoSha256 then (.returned 0, scratch)
  else if ¬ env.task ∨ ¬ env.scratch then (.returned 0, scratch)
  else
    let (written, digestHex) := bytesToHexStr file.digest.toList 32 scratch.digestHex
    let scratch := { scratch with digestHex := digestHex }
    if written < 0 then (.returned 0, scratch)
    else
      submitIn env.submit
        { eventName := some eventName
          namespaceId := currentNamespaceIn env.namespaceScratch scratch
          dependencies := none
          additionalData := some scratch.digestHex.toList
          additionalDataLen := 64 } scratch

/-- `HOOK_LSM_FILE_POST_OPEN`. -/
def hookLsmFilePostOpen : UInt32 := 2

/-- The path of an opened file, or the name of its dentry; `none` if it has neither. -/
def FileObject.openedPath (nameFault : Bool) (file : FileObject) : Option Bytes :=
  match file.dPath, file.dentry with
  | some path, _ => some path
  | none, some (some name) => some (if nameFault then [] else fitted 256 name)
  | none, _ => none

def lsmFilePostOpen (env : HookEnv) (file : Option FileObject) (mask : UInt32) (previousRet : Ret)
    (s : KernelState) (scratch : Scratch) : HookResult :=
  if previousRet ≠ 0 then ⟨none, .returned previousRet, scratch⟩
  else if mask &&& 0x4 = 0 then ⟨none, .returned 0, scratch⟩
  else
    match file with
    | none => ⟨none, .returned 0, scratch⟩
    | some file =>
        match file.openedPath env.nameFault, file.inode with
        | some path, some inode =>
            if ¬ inode.isReg then ⟨none, .returned 0, scratch⟩
            else if file.fMode &&& 0x1 = 0 ∨ file.fMode &&& 0x2 ≠ 0 then
              ⟨none, .returned 0, scratch⟩
            else
              let (decision, scratch) := policyForHookIn env.policy hookLsmFilePostOpen (some path)
                inode.iSize (ContextFlag.file ||| ContextFlag.readonly |||
                  if mask &&& 1 ≠ 0 then ContextFlag.executable else 0) s scratch
              if decision ≠ 0 then ⟨some decision, .returned (hookRet decision), scratch⟩
              else
                let (outcome, scratch) := measureFileHash env "file_post_open".ascii file scratch
                ⟨some decision, outcome, scratch⟩
        | _, _ => ⟨none, .returned 0, scratch⟩

/-- `HOOK_LSM_MMAP_FILE`. -/
def hookLsmMmapFile : UInt32 := 3

def bpfMmapFile (env : HookEnv) (file : Option FileObject) (prot : UInt64) (previousRet : Ret)
    (s : KernelState) (scratch : Scratch) : HookResult :=
  if previousRet ≠ 0 then ⟨none, .returned previousRet, scratch⟩
  else
    match file with
    | none => ⟨none, .returned 0, scratch⟩
    | some file =>
        if ∃ inode ∈ file.inode, inode.isReg = false then ⟨none, .returned 0, scratch⟩
        else
          match file.dPath with
          | none => ⟨none, .returned (-36), scratch⟩
          | some path =>
              let flags := ContextFlag.file |||
                (if prot &&& 4 ≠ 0 then ContextFlag.executable else 0) |||
                if file.fMode &&& 2 = 0 then ContextFlag.readonly else 0
              let (decision, scratch) := policyForHookIn env.policy hookLsmMmapFile (some path)
                file.size flags s scratch
              if decision ≠ 0 then ⟨some decision, .returned (hookRet decision), scratch⟩
              else
                let (outcome, scratch) := measureFileHash env "mmap_file".ascii file scratch
                ⟨some decision, outcome, scratch⟩

/-! ## Connections -/

def afUnix : UInt16 := 1
def afInet : UInt16 := 2

/-- `MAX_PATH_LEN`. -/
abbrev maxPathLen : ℕ := 108

/-- `struct sockaddr` with all of the memory that the kernel keeps for an address. -/
structure Sockaddr where
  saFamily : UInt16
  saData : Buffer 126

/-- `sin_port` and `sin_addr` of the memory, whatever its family, on a little-endian host. -/
def Sockaddr.sinPort (address : Sockaddr) : UInt16 :=
  UInt16.ofNat (Layout.littleEndian (address.saData.toList.take 2))

def Sockaddr.sinAddr (address : Sockaddr) : UInt32 :=
  UInt32.ofNat (Layout.littleEndian ((address.saData.toList.drop 2).take 4))

/-- `bpf_ntohs`. -/
def bpfNtohs (x : UInt16) : UInt16 := x <<< 8 ||| x >>> 8

/-- `struct sock`, as far as the program reads it. -/
structure Sock where
  skcRcvSaddr : UInt32
  skcNum : UInt16

/-- The output of a format in which every conversion is `%u`. -/
def formatU : Bytes → List UInt64 → Bytes
  | c :: d :: fmt, arg :: args =>
      if c = 37 ∧ d = 117 then Text.decimal arg.toUInt32.toNat ++ formatU fmt args
      else c :: formatU (d :: fmt) (arg :: args)
  | fmt, _ => fmt

/-- `build_socket_additional_data`: the size of the text with its NUL, and the buffer. -/
def buildSocketAdditionalData (n : ℕ) (saddr daddr : UInt32) (sport dport : UInt16) :
    Ret × Buffer n :=
  let params : List UInt64 :=
    [(saddr &&& 0xff).toUInt64, (saddr >>> 8 &&& 0xff).toUInt64, (saddr >>> 16 &&& 0xff).toUInt64,
      (saddr >>> 24 &&& 0xff).toUInt64, sport.toUInt64, (daddr &&& 0xff).toUInt64,
      (daddr >>> 8 &&& 0xff).toUInt64, (daddr >>> 16 &&& 0xff).toUInt64,
      (daddr >>> 24 &&& 0xff).toUInt64, dport.toUInt64]
  let text := formatU "%u.%u.%u.%u:%u-%u.%u.%u.%u:%u".ascii params
  (text.length + 1, snprintf n text)

/-- `MAX_DATA_BUF_SIZE`. -/
abbrev maxDataBufSize : ℕ := 64

/-- The data of a connection and its length without the NUL. -/
def socketData (sk : Sock) (address : Sockaddr) : ℕ × Buffer maxDataBufSize :=
  let (len, data) := buildSocketAdditionalData maxDataBufSize sk.skcRcvSaddr address.sinAddr
    sk.skcNum (bpfNtohs address.sinPort)
  if len > 0 then
    let bufferLen := if len > maxDataBufSize then maxDataBufSize - 1 else (len - 1).toNat
    (bufferLen, if h : bufferLen < maxDataBufSize then data.set ⟨bufferLen, h⟩ 0 else data)
  else (0, data)

/-- `sun_path` as the program copies it: a length that does not fit leaves it empty. -/
def unixPath (fault : Bool) (address : Sockaddr) (addrlen : ℤ) : Buffer maxPathLen :=
  let pathLen := ((addrlen - 2) % 128).toNat
  if h : 0 < pathLen ∧ pathLen < maxPathLen then
    ⟨(if fault then List.replicate pathLen 0 else address.saData.toList.take pathLen) ++
      List.replicate (maxPathLen - pathLen) 0, by
        obtain ⟨-, hlt⟩ := h
        have hmax : maxPathLen = 108 := rfl
        split
        · rw [List.length_append, List.length_replicate, List.length_replicate]
          omega
        · rw [List.length_append, List.length_take, List.length_replicate,
            List.Vector.toList_length]
          omega⟩
  else CString.zero _

/-- The outcomes of the helpers that only `bpf_socket_connect` calls. -/
structure SocketEnv where
  exeTask : Bool
  /-- What `bpf_d_path` leaves of the path of the executable, if there is one. -/
  exeFile : Option (Buffer maxPathLen)
  pathFault : Bool

/-- The path that a connection is judged by; `none` if the program returns for want of one. -/
def socketPath (env : SocketEnv) (address : Sockaddr) (addrlen : ℤ) : Option (Buffer maxPathLen) :=
  if address.saFamily = afInet then if env.exeTask then env.exeFile else none
  else if address.saFamily = afUnix then some (unixPath env.pathFault address addrlen)
  else some (CString.zero _)

/-- `HOOK_LSM_SOCKET_CONNECT`. -/
def hookLsmSocketConnect : UInt32 := 4

/-- `measure_socket_data`. -/
def measureSocketData (env : HookEnv) (cgroupName : Option Bytes) (depsActual : Ret)
    (data : ℕ × Buffer maxDataBufSize) (scratch : Scratch) : HookOutcome × Scratch :=
  if data.1 ≥ eventDataSize then (.returned (-1), scratch)
  else if depsActual < 0 then (.returned (-1), scratch)
  else
    submitIn env.submit
      { eventName := some "socket_connect".ascii
        namespaceId := cgroupName
        dependencies := some (cstr scratch.buf)
        additionalData := some data.2.toList
        additionalDataLen := data.1 } scratch

/-- `bpf_socket_connect`; `none` is a write outside of the scratch memory. -/
def bpfSocketConnect (env : HookEnv) (socketEnv : SocketEnv) (sk : Option Sock)
    (address : Option Sockaddr) (addrlen : ℤ) (previousRet : Ret) (s : KernelState)
    (scratch : Scratch) : Option HookResult :=
  if previousRet ≠ 0 then some ⟨none, .returned previousRet, scratch⟩
  else
    match address with
    | none => some ⟨none, .returned 0, scratch⟩
    | some address =>
        if address.saFamily ≠ afInet ∧ address.saFamily ≠ afUnix then
          some ⟨none, .returned 0, scratch⟩
        else if ¬ env.task ∨ ¬ env.scratch then some ⟨none, .returned 0, scratch⟩
        else
          let scratch := { scratch with buf := CString.zero _ }
          match sk, socketPath socketEnv address addrlen with
          | some sk, some path =>
              let data := socketData sk address
              let (decision, scratch) := policyForHookIn env.policy hookLsmSocketConnect
                (some (cstr path)) 0 0 s scratch
              if decision ≠ 0 then some ⟨some decision, .returned (hookRet decision), scratch⟩
              else do
                let policy := getPolicy env.policyScratch scratch
                let cgroupName := currentNamespaceIn env.namespaceScratch scratch
                let (depsActual, deps) ←
                  dependencyChain env (buildsDeps policy) (some (cstr path)) policy scratch.buf
                let (outcome, scratch) := measureSocketData env cgroupName depsActual data
                  { scratch with buf := deps }
                return ⟨some decision, outcome, scratch⟩
          | _, _ => some ⟨none, .returned 0, scratch⟩

/-! ## Attributes -/

/-- `bpf_inode_setattr` in the scratch memory. -/
def bpfInodeSetattrIn (env : HookEnv) (dentry : Option (Option Bytes)) (attr : Option Iattr)
    (previousRet : Ret) (s : KernelState) (scratch : Scratch) : HookResult :=
  if previousRet ≠ 0 then ⟨none, .returned previousRet, scratch⟩
  else
    match dentry, attr with
    | some name, some attr =>
        let (decision, scratch) := policyForHookIn env.policy hookLsmInodeSetattr name 0 0 s scratch
        if decision ≠ 0 then ⟨some decision, .returned (hookRet decision), scratch⟩
        else
          let (attrLen, attrs) := buildAttributes (CString.zero 64) (some attr)
          if attrLen ≤ 0 then ⟨some decision, .returned 0, scratch⟩
          else
            let (outcome, scratch) := submitIn env.submit
              { eventName := some "inode_setattr".ascii
                namespaceId := currentNamespaceIn env.namespaceScratch scratch
                dependencies := none
                additionalData := some attrs.toList
                additionalDataLen := attrLen } scratch
            ⟨some decision, outcome, scratch⟩
    | _, _ => ⟨none, .returned 0, scratch⟩

/-! ## Threads -/

/-- The programs with their arguments. -/
inductive HookCall where
  | lsmBprmCheckSecurity (bprm : Option Binprm)
  | lsmFilePostOpen (file : Option FileObject) (mask : UInt32)
  | bpfMmapFile (file : Option FileObject) (prot : UInt64)
  | bpfSocketConnect (env : SocketEnv) (sk : Option Sock) (address : Option Sockaddr) (addrlen : ℤ)
  | bpfInodeSetattr (dentry : Option (Option Bytes)) (attr : Option Iattr)

/-- One run of a program for the security framework. -/
structure HookRun where
  env : HookEnv
  call : HookCall
  previousRet : Ret

/-- The program up to its return or its call of the module; `none` is a write outside of the
scratch memory. -/
def HookRun.body (run : HookRun) (s : KernelState) (scratch : Scratch) : Option HookResult :=
  match run.call with
  | .lsmBprmCheckSecurity bprm => lsmBprmCheckSecurity run.env bprm run.previousRet s scratch
  | .lsmFilePostOpen file mask => some (lsmFilePostOpen run.env file mask run.previousRet s scratch)
  | .bpfMmapFile file prot => some (bpfMmapFile run.env file prot run.previousRet s scratch)
  | .bpfSocketConnect env sk address addrlen =>
      bpfSocketConnect run.env env sk address addrlen run.previousRet s scratch
  | .bpfInodeSetattr dentry attr =>
      some (bpfInodeSetattrIn run.env dentry attr run.previousRet s scratch)

inductive HookPoint where
  | idle
  | extending
  | returned (ret : Ret)
  | outOfBounds
deriving DecidableEq

/-- A thread: its scratch memory, its last program, and how far that has come. -/
structure HookThread where
  scratch : Scratch
  run : Option HookRun
  decision : Option Ret
  caller : Caller
  point : HookPoint

/-- The actions of a thread: it runs a program up to the module, and the sections of the module
one by one. -/
inductive HookAction where
  | start (run : HookRun)
  | extend (action : ExtendAction)

/-- The program returns when the module does. -/
def hookPoint (caller : Caller) : HookPoint :=
  match caller.point with
  | .returned ret => .returned (hookRet ret)
  | _ => .extending

/-- The program `run` of a thread, which resolves its policy in the state `s`. -/
def startHook (P : Platform) (s : KernelState) (thread : HookThread) (run : HookRun) :
    HookThread :=
  match run.body s thread.scratch with
  | none => { thread with run := some run, decision := none, point := .outOfBounds }
  | some ⟨decision, .returned ret, scratch⟩ =>
      ⟨scratch, some run, decision, thread.caller, .returned ret⟩
  | some ⟨decision, .extending request, scratch⟩ =>
      let caller : Caller := ⟨some request, measurementRequestSize,
        enterExtend P (some request) measurementRequestSize run.env.submit.extend.hashRet⟩
      ⟨scratch, some run, decision, caller, hookPoint caller⟩

/-- One action of a thread; an action out of turn does nothing. -/
def hookAction (P : Platform) (s : KernelState) (thread : HookThread) :
    HookAction → HookThread × KernelState
  | .start run =>
      match thread.point with
      | .idle | .returned _ => (startHook P s thread run, s)
      | .extending | .outOfBounds => (thread, s)
  | .extend action =>
      if thread.point = .extending then
        let (caller, s) := extendAction P s thread.caller action
        ({ thread with caller := caller, point := hookPoint caller }, s)
      else (thread, s)

abbrev HookState := Threads.State KernelState HookThread

abbrev HookOp := Threads.Op HookAction KernelOp

def hookStep (P : Platform) : HookState → HookOp → Unit × HookState :=
  Threads.step (hookAction P) (otherCall P)

/-- A freshly loaded module, and threads whose scratch memory may hold anything. -/
def hooksLoaded (maps : ℕ → BpfMap) (tpmPcrIndex : ℤ) (memory : ℕ → Scratch) : HookState :=
  ⟨moduleLoaded maps tpmPcrIndex, fun n => ⟨memory n, none, none, .idle, .idle⟩⟩

/-- The state after any interleaving of programs and other calls of the module. -/
def hooksRun (P : Platform) (maps : ℕ → BpfMap) (tpmPcrIndex : ℤ) (memory : ℕ → Scratch)
    (ops : List HookOp) : HookState :=
  Machine.run (hookStep P) (hooksLoaded maps tpmPcrIndex memory) ops

end BpfIma
