import BpfIma.Library.Threads
import BpfIma.Model.Measurement

/-! # References to container nodes

The container registry as concurrent callers see it. A caller runs one lock- or RCU-delimited
section after the other; between two of them other callers run, and so does
`cleanup_all_containers`. -/

namespace BpfIma

open CString Errno

/-! ## Nodes -/

/-- What the registry reads of a `container_node`. `file` says that its measurements file exists,
`queued` counts the calls of `queue_rcu_work` on it, and `freed` is set by a direct `kfree`. -/
structure RefNode where
  id : Buffer containerIdMaxLen
  refcnt : ℕ
  file : Bool
  queued : ℕ
  freed : Bool

/-- How far `cleanup_all_containers` has come, with its `temp_list`. -/
inductive Cleanup where
  | notStarted
  | walking (tempList : List ℕ)
  | detached (container : ℕ) (tempList : List ℕ)
  | finished
deriving DecidableEq

/-- The globals of the registry. Every allocation has a number of its own. -/
structure ContainerRefs where
  nodes : ℕ → RefNode
  allocated : ℕ
  containerList : List ℕ
  containerCount : ℕ
  createMutex : Bool
  cleanup : Cleanup

def ContainerRefs.modify (s : ContainerRefs) (i : ℕ) (f : RefNode → RefNode) : ContainerRefs :=
  { s with nodes := Function.update s.nodes i (f (s.nodes i)) }

def refcountInc (s : ContainerRefs) (i : ℕ) : ContainerRefs :=
  s.modify i fun node => { node with refcnt := node.refcnt + 1 }

/-- `bpfima_get_container`: `refcount_inc_not_zero`. -/
def getContainer (s : ContainerRefs) (i : ℕ) : Bool × ContainerRefs :=
  if (s.nodes i).refcnt = 0 then (false, s) else (true, refcountInc s i)

/-- `bpfima_put_container`: `refcount_dec_and_test`. -/
def putContainer (s : ContainerRefs) (i : ℕ) : ContainerRefs :=
  s.modify i fun node =>
    if node.refcnt = 1 then { node with refcnt := 0, queued := node.queued + 1 }
    else { node with refcnt := node.refcnt - 1 }

/-- The loop of `find_container_by_id_rcu` over the rest of the list. -/
def findLoop (s : ContainerRefs) (containerId : Bytes) : List ℕ → Option ℕ × ContainerRefs
  | [] => (none, s)
  | i :: rest =>
      if cstr (s.nodes i).id = containerId then
        match getContainer s i with
        | (true, s) => (some i, s)
        | (false, s) => findLoop s containerId rest
      else findLoop s containerId rest

def findContainerByIdRcu (s : ContainerRefs) (containerId : Bytes) : Option ℕ × ContainerRefs :=
  findLoop s containerId s.containerList

/-- A node as `create_container_node_locked` initialises it, with its files. -/
def newNode (containerId : Bytes) : RefNode where
  id := strscpy (CString.zero _) containerId
  refcnt := 1
  file := true
  queued := 0
  freed := false

/-! ## Callers -/

/-- The calls that look a container up, with their arguments. The outcomes of hashing and of
`bpfima_commit_get_error` stand with those of `bpfima_measurement_extend`. -/
inductive ContainerCall where
  | getOrCreate (containerId : Option Bytes)
  | measurementCount (containerId : Option Bytes)
  | exists (containerId : Option Bytes)
  | leafHash (containerId : Option Bytes) (buffer : Bool) (bufferSize : ℕ)
  | extend (data : Option MeasurementRequest) (dataSize : ℕ) (hashRet commitError : Ret)

/-- The id that a kfunc copies and validates. -/
def copyContainerId (containerId : Option Bytes) : Except Ret Bytes :=
  match copyKfuncString namespaceSize containerId false with
  | .error _ => .error (-einval)
  | .ok id => if validateNamespace id ≠ 0 then .error (-einval) else .ok id

/-- A call up to its lookup: the id it looks up, or what it returns without. -/
def ContainerCall.enter : ContainerCall → Except Ret Bytes
  | .getOrCreate containerId | .measurementCount containerId | .exists containerId =>
      copyContainerId containerId
  | .leafHash containerId buffer bufferSize =>
      match copyContainerId containerId with
      | .error ret => .error ret
      | .ok id => if ¬ buffer ∨ bufferSize ≠ merkleHashSize then .error (-einval) else .ok id
  | .extend data dataSize hashRet commitError =>
      let (ret, mem) := prepareMeasurement data dataSize
        ⟨.zero, List.replicate concatDataSize 0, 0⟩
      if ret ≠ 0 then .error ret
      else if hashRet ≠ 0 then .error hashRet
      else if commitError ≠ 0 then .error commitError
      else .ok mem.request.effectiveNamespace

/-- What a call returns for an unknown container; the others create it. -/
def ContainerCall.notFound : ContainerCall → Option Ret
  | .getOrCreate _ | .extend .. => none
  | .measurementCount _ | .leafHash .. => some (-enoent)
  | .exists _ => some 0

/-- What a call returns that got `value` from its container. -/
def ContainerCall.result (value : Ret) : ContainerCall → Ret
  | .getOrCreate _ | .leafHash .. => 0
  | .measurementCount _ => value
  | .exists _ => 1
  | .extend .. => if value = 1 then 0 else value

/-- How far a caller has come, with its local variables. -/
inductive RefPoint where
  | idle
  | entered (call : ContainerCall) (id : Bytes)
  | missing (call : ContainerCall) (id : Bytes)
  -- in `create_container_node_locked`
  | locked (call : ContainerCall) (id : Bytes)
  | absent (call : ContainerCall) (id : Bytes)
  | dirExists (call : ContainerCall) (id : Bytes)
  | created (call : ContainerCall) (id : Bytes) (container : ℕ)
  | published (call : ContainerCall) (container : ℕ)
  | counted (call : ContainerCall) (container : ℕ)
  | unlocking (call : ContainerCall) (result : Except Ret ℕ)
  | referenced (call : ContainerCall) (container : ℕ)
  -- a process with the measurements file
  | resolved (container : ℕ)
  | opening (container : ℕ)
  | opened (container : ℕ)
  | returned (ret : Ret)

/-- The sections of the calls, with the outcomes of each. -/
inductive RefAction where
  | enter (call : ContainerCall)
  | getCount
  | findContainerById
  | mutexLock
  | createSecurityfs (env : CreateEnv)
  | publish
  | countInc
  | refcountInc
  | mutexUnlock
  | put (value : Ret)
  | resolveFile (container : ℕ)
  | getContainer
  | seqOpen (ret : Ret)
  | release

/-- From the allocation to `create_container_securityfs`. A node that gets no file was seen by
nobody. The audit metadata of the namespace is no part of the registry. -/
def createSecurityfs (env : CreateEnv) (call : ContainerCall) (id : Bytes) (s : ContainerRefs) :
    RefPoint × ContainerRefs :=
  if ¬ env.nodeAlloc then (.unlocking call (.error (-enomem)), s)
  else if ¬ env.tfmAlloc then (.unlocking call (.error (-enomem)), s)
  else if env.securityfsRet < 0 then
    if env.securityfsRet = -eexist then (.dirExists call id, s)
    else (.unlocking call (.error env.securityfsRet), s)
  else
    (.created call id s.allocated,
      { s with
        nodes := Function.update s.nodes s.allocated (newNode id)
        allocated := s.allocated + 1 })

/-- The section under `container_list_lock`. Whoever lost the race frees its own node. -/
def publishContainer (call : ContainerCall) (id : Bytes) (container : ℕ) (s : ContainerRefs) :
    RefPoint × ContainerRefs :=
  match findContainerByIdRcu s id with
  | (some existing, s) =>
      (.unlocking call (.ok existing),
        s.modify container fun node => { node with file := false, freed := true })
  | (none, s) =>
      (.published call container, { s with containerList := s.containerList ++ [container] })

/-- One section of a caller; a section out of turn does nothing. -/
def refAction (s : ContainerRefs) (point : RefPoint) (action : RefAction) :
    RefPoint × ContainerRefs :=
  match point, action with
  | .idle, .enter call | .returned _, .enter call =>
      match call.enter with
      | .error ret => (.returned ret, s)
      | .ok id => (.entered call id, s)
  | .idle, .getCount | .returned _, .getCount => (.returned s.containerCount, s)
  | .entered call id, .findContainerById =>
      match findContainerByIdRcu s id with
      | (some i, s) => (.referenced call i, s)
      | (none, s) =>
          match call.notFound with
          | some ret => (.returned ret, s)
          | none => (.missing call id, s)
  | .missing call id, .mutexLock =>
      if s.createMutex then (.missing call id, s)
      else (.locked call id, { s with createMutex := true })
  | .locked call id, .findContainerById =>
      match findContainerByIdRcu s id with
      | (some i, s) => (.unlocking call (.ok i), s)
      | (none, s) => (.absent call id, s)
  | .absent call id, .createSecurityfs env => createSecurityfs env call id s
  | .dirExists call id, .findContainerById =>
      match findContainerByIdRcu s id with
      | (some i, s) => (.unlocking call (.ok i), s)
      | (none, s) => (.unlocking call (.error (-eexist)), s)
  | .created call id i, .publish => publishContainer call id i s
  | .published call i, .countInc =>
      (.counted call i, { s with containerCount := s.containerCount + 1 })
  | .counted call i, .refcountInc => (.unlocking call (.ok i), refcountInc s i)
  | .unlocking call (.ok i), .mutexUnlock => (.referenced call i, { s with createMutex := false })
  | .unlocking _ (.error ret), .mutexUnlock => (.returned ret, { s with createMutex := false })
  | .referenced call i, .put value => (.returned (call.result value), putContainer s i)
  | .idle, .resolveFile i | .returned _, .resolveFile i =>
      if (s.nodes i).file then (.resolved i, s) else (.returned (-enoent), s)
  | .resolved i, .getContainer =>
      match getContainer s i with
      | (true, s) => (.opening i, s)
      | (false, s) => (.returned (-enoent), s)
  | .opening i, .seqOpen ret =>
      if ret = 0 then (.opened i, s) else (.returned ret, putContainer s i)
  | .opened i, .release => (.returned 0, putContainer s i)
  | _, _ => (point, s)

/-! ## Teardown -/

inductive CleanupAction where
  | splice
  | detach
  | put
  | finish
deriving DecidableEq

/-- One section of `cleanup_all_containers`. -/
def cleanupAction (s : ContainerRefs) (action : CleanupAction) : ContainerRefs :=
  match s.cleanup, action with
  | .notStarted, .splice => { s with containerList := [], cleanup := .walking s.containerList }
  | .walking (i :: tempList), .detach =>
      { s.modify i fun node => { node with file := false } with cleanup := .detached i tempList }
  | .detached i tempList, .put => { putContainer s i with cleanup := .walking tempList }
  | .walking [], .finish => { s with containerCount := 0, cleanup := .finished }
  | _, _ => s

/-! ## The system -/

abbrev RefSystem := Threads.State ContainerRefs RefPoint

abbrev RefOp := Threads.Op RefAction CleanupAction

def refStep : RefSystem → RefOp → Unit × RefSystem := Threads.step refAction cleanupAction

/-- The registry of a freshly loaded module. -/
def noContainers : ContainerRefs where
  nodes := fun _ => ⟨CString.zero _, 0, false, 0, false⟩
  allocated := 0
  containerList := []
  containerCount := 0
  createMutex := false
  cleanup := .notStarted

def refLoaded : RefSystem := ⟨noContainers, fun _ => .idle⟩

def RefOp.isSplice : RefOp → Bool
  | .other .splice => true
  | _ => false

/-- Teardown starts when no creation is in progress. -/
def RefOp.admitted (s : RefSystem) (op : RefOp) : Prop :=
  RefOp.isSplice op = true → s.shared.createMutex = false

instance (s : RefSystem) (op : RefOp) : Decidable (RefOp.admitted s op) :=
  inferInstanceAs (Decidable (_ → _))

end BpfIma
