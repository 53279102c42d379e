import BpfIma.Model.Policy

/-! # The commit engine

`merkle.c` with the TPM, hash-table and measurement-entry functions it calls. A
step takes the outcome of everything outside the module as an environment: each
allocation, each hash, each look at the TPM and the TPM command. -/

namespace BpfIma

open CString Errno

/-! ## The TPM -/

abbrev AlgId := UInt16

/-- `TPM_ALG_SHA256`. -/
def tpmAlgSha256 : AlgId := 0x000b

abbrev tpmMaxDigestSize : ℕ := 64

structure TpmChip where
  allocatedBanks : List AlgId

structure TpmDigest where
  algId : AlgId
  digest : Buffer tpmMaxDigestSize

/-- The device as far as the module acts on it: the values extended into the SHA-256
bank of its PCR, oldest first, and how many extend commands were started. -/
structure Tpm where
  extended : List Digest
  commands : ℕ

/-- The outcomes of one call of `extend_tpm_pcr`. A failed command may or may not
have reached the PCR. -/
structure TpmEnv where
  inAtomic : Bool
  chip : Option TpmChip
  digestsAlloc : Bool
  commandRet : Ret
  appliedOnFailure : Bool

/-- The value a command extends into the SHA-256 bank. -/
def sha256BankValue (digests : List TpmDigest) : Option Digest :=
  (digests.find? fun d => d.algId == tpmAlgSha256).map fun d => d.digest.take merkleHashSize

/-- `tpm_pcr_extend` of the TPM driver. -/
def tpmPcrExtend (env : TpmEnv) (tpm : Tpm) (digests : List TpmDigest) : Ret × Tpm :=
  let applied := if env.commandRet = 0 ∨ env.appliedOnFailure = true then
      (sha256BankValue digests).toList else []
  (env.commandRet, ⟨tpm.extended ++ applied, tpm.commands + 1⟩)

/-- The SHA-256 bank gets the hash, every other bank zeros. -/
def bankDigest (hashValue : Digest) (algId : AlgId) : TpmDigest where
  algId := algId
  digest :=
    if algId = tpmAlgSha256 then hashValue ++ CString.zero 32 else CString.zero tpmMaxDigestSize

/-- `extend_tpm_pcr`: the return value, whether the command was started, and the
device. -/
def extendTpmPcr (env : TpmEnv) (pcrIndex : ℤ) (tpm : Tpm) (hashValue : Digest)
    (hardwareAllowed : Bool) : Ret × Bool × Tpm :=
  if env.inAtomic then (-eagain, false, tpm)
  else if pcrIndex < 0 ∨ pcrIndex > 23 then (-einval, false, tpm)
  else
    match env.chip with
    | none => (-enodev, false, tpm)
    | some chip =>
        if ¬ hardwareAllowed then (-eio, false, tpm)
        else if tpmAlgSha256 ∉ chip.allocatedBanks then (-eopnotsupp, false, tpm)
        else if ¬ env.digestsAlloc then (-enomem, false, tpm)
        else
          let (ret, tpm) := tpmPcrExtend env tpm (chip.allocatedBanks.map (bankDigest hashValue))
          (if ret > 0 then -eio else ret, true, tpm)

/-! ## State -/

abbrev eventNameSize : ℕ := 256
abbrev eventDataSize : ℕ := 256
abbrev dependenciesSize : ℕ := 256
abbrev containerIdMaxLen : ℕ := 128

structure MeasurementEntry where
  eventName : Buffer eventNameSize
  eventData : Buffer eventDataSize
  dependencies : Buffer dependenciesSize
  digest : Digest
deriving DecidableEq

/-- `struct container_node`; `tfm` says whether its transform is allocated. -/
structure ContainerNode where
  id : Buffer containerIdMaxLen
  measurementList : List MeasurementEntry
  tfm : Bool
  leafHash : Digest
  measurementCount : UInt32
deriving DecidableEq

structure MerkleRootEntry where
  value : Digest
  sourceContainerId : Buffer containerIdMaxLen
  isAggregate : Bool
  aggregatedCount : ℕ
deriving DecidableEq

structure MerkleTreeRoot where
  rootHash : Digest
  tfm : Bool
deriving DecidableEq

structure HashEntry where
  sha256Hash : Digest
  namespaceId : Buffer containerIdMaxLen
deriving DecidableEq

/-- The globals of the commit engine, with the device it drives. Containers are
referred to by their position in the list. -/
structure CommitState where
  containers : List ContainerNode
  merkleRootHistory : List MerkleRootEntry
  merkleRootHistoryCount : UInt32
  systemMerkleRoot : MerkleTreeRoot
  sha256HashTable : List HashEntry
  commitError : Ret
  hardwareAnchored : Bool
  softwareCommitted : Bool
  tpmPcrIndex : ℤ
  tpm : Tpm

/-- The digests of a container's measurements, in list order. -/
def ContainerNode.digests (c : ContainerNode) : List Digest :=
  c.measurementList.map MeasurementEntry.digest

def CommitState.historyValues (s : CommitState) : List Digest :=
  s.merkleRootHistory.map MerkleRootEntry.value

/-- A node as `create_container_node_locked` publishes it. -/
def freshContainer (containerId : Bytes) : ContainerNode where
  id := strscpy (CString.zero _) containerId
  measurementList := []
  tfm := true
  leafHash := zeroDigest
  measurementCount := 0

/-! ## Environments -/

/-- The outcomes of a trim; `hashRet i` is that of hashing the `i`-th entry. -/
structure TrimEnv where
  aggregateAlloc : Bool
  descAlloc : Bool
  hashRet : ℕ → Ret

/-- The outcomes of one `commit_event_locked`; `available` is what
`bpfima_tpm_available` says in its check. -/
structure CommitEnv where
  available : Bool
  hashAlloc : Bool
  historyAlloc : Bool
  leafHashRet : Ret
  rootHashRet : Ret
  tpm : TpmEnv
  trim : TrimEnv

/-- The outcomes of one `add_container_measurement`, called from a context that may
sleep or not. -/
structure AddEnv where
  canSleep : Bool
  available : Bool
  entryAlloc : Bool
  commit : CommitEnv

/-! ## Entries -/

/-- `create_measurement_entry`; `none` arguments are `NULL`. -/
def createMeasurementEntry (alloc : Bool) (eventName eventData dependencies : Option Bytes)
    (digest : Option Digest) : Option MeasurementEntry :=
  match eventName, digest with
  | some eventName, some digest =>
      if ¬ alloc then none
      else
        some
          { eventName := strscpy (CString.zero _) eventName
            eventData := match eventData with
              | some (c :: data) => strscpy (CString.zero _) (c :: data)
              | _ => CString.zero _
            dependencies := match dependencies with
              | some (c :: deps) => strscpy (CString.zero _) (c :: deps)
              | _ => CString.zero _
            digest := digest }
  | _, _ => none

def hashExists (table : List HashEntry) (hashValue : Digest) (namespaceId : Bytes) : Bool :=
  table.any fun entry => entry.sha256Hash == hashValue && cstr entry.namespaceId == namespaceId

def allocHashEntry (alloc : Bool) (hashValue : Digest) (namespaceId : Bytes) : Option HashEntry :=
  if alloc then some ⟨hashValue, strscpy (CString.zero _) namespaceId⟩ else none

def allocHistoryEntry (alloc : Bool) (sourceId : Option Bytes) : Option MerkleRootEntry :=
  if alloc then
    some ⟨zeroDigest, (sourceId.map (strscpy (CString.zero _))).getD (CString.zero _), false, 0⟩
  else none

/-! ## Epoch mode and latched errors -/

/-- `bpfima_commit_init`. -/
def commitInit (s : CommitState) : CommitState :=
  { s with commitError := 0, hardwareAnchored := false, softwareCommitted := false }

def commitHardwareAllowedLocked (s : CommitState) : Bool :=
  !s.softwareCommitted || s.hardwareAnchored

def commitCheckLocked (available : Bool) (s : CommitState) : Ret × CommitState :=
  let error :=
    if s.commitError ≠ 0 then s.commitError
    else if s.hardwareAnchored && !available then -enodev
    else if !commitHardwareAllowedLocked s && available then -eio
    else 0
  (error, { s with commitError := error })

def commitFailLocked (error : Ret) (s : CommitState) : Ret × CommitState :=
  let latched := if s.commitError ≠ 0 then s.commitError else if error < 0 then error else -eio
  (latched, { s with commitError := latched })

/-! ## Trimming -/

section Trim

variable (S : HashSuite)

/-- The loop of `aggregate_merkle_entries` after `count` entries. -/
def aggregateLoop (env : TrimEnv) : ℕ → Digest → List MerkleRootEntry → Except Ret (Digest × ℕ)
  | count, acc, [] => if count = 0 then .error (-einval) else .ok (acc, count)
  | count, acc, entry :: entries =>
      if env.hashRet count < 0 then .error (env.hashRet count)
      else aggregateLoop env (count + 1) (S.extendHash acc entry.value) entries

def aggregateMerkleEntries (env : TrimEnv) (tfm : Bool) (entries : List MerkleRootEntry) :
    Except Ret (Digest × ℕ) :=
  if ¬ tfm then .error (-einval)
  else if ¬ env.descAlloc then .error (-enomem)
  else aggregateLoop S env 0 zeroDigest entries

/-- How many entries a trim is to delete. -/
def trimToDelete (currentCount : UInt32) : UInt32 :=
  if currentCount / 2 = 0 then 1 else currentCount / 2

/-- `trim_merkle_root_history_locked`: the oldest half is replaced by its aggregate,
or put back at the front when it cannot be aggregated. -/
def trimMerkleRootHistoryLocked (env : TrimEnv) (maxSize : UInt32) (s : CommitState) :
    Ret × CommitState :=
  if s.merkleRootHistoryCount ≤ maxSize then (0, s)
  else
    let toDelete := (trimToDelete s.merkleRootHistoryCount).toNat
    if ¬ env.aggregateAlloc then (-enomem, s)
    else
      let moved := s.merkleRootHistory.take toDelete
      let rest := s.merkleRootHistory.drop toDelete
      match aggregateMerkleEntries S env s.systemMerkleRoot.tfm moved with
      | .error ret => (ret, { s with merkleRootHistory := moved ++ rest })
      | .ok (hash, count) =>
          let aggregate : MerkleRootEntry :=
            ⟨hash, strscpy (CString.zero _) "[AGGREGATE]".ascii, true, count⟩
          (0, { s with
            merkleRootHistory := aggregate :: rest
            merkleRootHistoryCount :=
              s.merkleRootHistoryCount - UInt32.ofNat moved.length + 1 })

/-- `bpfima_trim_history_locked` under the configuration that
`bpfima_policy_get_config` returns. -/
def trimHistoryLocked (config : PolicyConfig) (env : TrimEnv) (sourceId : Option Bytes)
    (s : CommitState) : CommitState :=
  if config.merkleHistoryScope = scopeRootOnly ∧ sourceId.getD [] ≠ [] then s
  else if config.merkleHistoryMaxSize ≠ 0 ∧
      config.merkleHistoryMaxSize < s.merkleRootHistoryCount then
    (trimMerkleRootHistoryLocked S env config.merkleHistoryMaxSize s).2
  else s

/-! ## The commit -/

/-- A container pointer together with the node it points to. -/
abbrev ContainerRef := ℕ × ContainerNode

/-- Everything `commit_event_locked` prepares before the TPM command. -/
structure PreparedEvent where
  hash : Option HashEntry
  history : MerkleRootEntry
  newLeaf : Digest
  newRoot : Digest

/-- A positive return value on the way out becomes `-EIO`. -/
def freeHistoryRet (ret : Ret) : Ret := if ret > 0 then -eio else ret

/-- The digest-table reservation of `commit_event_locked`. -/
def reserveHash (env : CommitEnv) (s : CommitState) (container : Option ContainerRef)
    (entry : Option MeasurementEntry) (deduplicate : Bool) : Except Ret (Option HashEntry) :=
  if ¬ deduplicate then .ok none
  else
    match container, entry with
    | some (_, node), some entry =>
        if hashExists s.sha256HashTable entry.digest (cstr node.id) then .error 1
        else
          match allocHashEntry env.hashAlloc entry.digest (cstr node.id) with
          | none => .error (-enomem)
          | some hash => .ok (some hash)
    | _, _ => .error (-einval)

/-- The value that enters the root: the container's next leaf, or `value` itself. -/
def committedLeaf (env : CommitEnv) (container : Option ContainerRef)
    (entry : Option MeasurementEntry) (value : Digest) : Except Ret Digest :=
  match container, entry with
  | some (_, node), some entry =>
      if env.leafHashRet ≠ 0 then .error (freeHistoryRet env.leafHashRet)
      else .ok (S.extendHash node.leafHash entry.digest)
  | _, _ => .ok value

/-- The part of `commit_event_locked` before the TPM command, after its check. -/
def prepareEvent (env : CommitEnv) (s : CommitState) (container : Option ContainerRef)
    (entry : Option MeasurementEntry) (value : Option Digest) (sourceId : Option Bytes)
    (deduplicate : Bool) : Except Ret PreparedEvent :=
  match value with
  | none => .error (-einval)
  | some value =>
      if ¬ s.systemMerkleRoot.tfm ∨ (∃ c ∈ container, entry = none ∨ ¬ c.2.tfm) then
        .error (-einval)
      else
        match reserveHash env s container entry deduplicate with
        | .error ret => .error ret
        | .ok hash =>
            match allocHistoryEntry env.historyAlloc sourceId with
            | none => .error (-enomem)
            | some history =>
                match committedLeaf S env container entry value with
                | .error ret => .error ret
                | .ok leaf =>
                    if env.rootHashRet ≠ 0 then .error (freeHistoryRet env.rootHashRet)
                    else
                      .ok
                        { hash := hash
                          history := { history with value := leaf }
                          newLeaf := leaf
                          newRoot := S.extendHash s.systemMerkleRoot.rootHash leaf }

def ContainerNode.append (entry : MeasurementEntry) (newLeaf : Digest) (node : ContainerNode) :
    ContainerNode :=
  { node with
    measurementList := node.measurementList ++ [entry]
    measurementCount := node.measurementCount + 1
    leafHash := newLeaf }

/-- The publication that cannot fail. -/
def publishEvent (s : CommitState) (container : Option ContainerRef)
    (entry : Option MeasurementEntry) (p : PreparedEvent) : CommitState :=
  { s with
    containers := match container, entry with
      | some (i, _), some entry => s.containers.modify i (ContainerNode.append entry p.newLeaf)
      | _, _ => s.containers
    merkleRootHistory := s.merkleRootHistory ++ [p.history]
    merkleRootHistoryCount := s.merkleRootHistoryCount + 1
    systemMerkleRoot := { s.systemMerkleRoot with rootHash := p.newRoot }
    sha256HashTable := s.sha256HashTable ++ p.hash.toList
    softwareCommitted := true }

def commitEventLocked (config : PolicyConfig) (env : CommitEnv) (s : CommitState)
    (container : Option ContainerRef) (entry : Option MeasurementEntry) (value : Option Digest)
    (sourceId : Option Bytes) (deduplicate : Bool) : Ret × CommitState :=
  let (ret, s) := commitCheckLocked env.available s
  if ret ≠ 0 then (ret, s)
  else
    match prepareEvent S env s container entry value sourceId deduplicate with
    | .error ret => (ret, s)
    | .ok p =>
        -- Hardware comes first: all software publication below is infallible.
        let (ret, commandStarted, tpm) :=
          extendTpmPcr env.tpm s.tpmPcrIndex s.tpm p.newRoot (commitHardwareAllowedLocked s)
        let s := { s with tpm := tpm }
        if ret ≠ 0 ∧ (commandStarted = true ∨ ret ≠ -enodev ∨ s.hardwareAnchored = true) then
          -- A failed command may have changed the PCR, so it latches.
          if commandStarted = true ∨ ret ≠ -enomem then
            let (ret, s) := commitFailLocked ret s
            (freeHistoryRet ret, s)
          else (freeHistoryRet ret, s)
        else
          let s := if ret = 0 then { s with hardwareAnchored := true } else s
          (0, trimHistoryLocked S config env.trim sourceId (publishEvent s container entry p))

def commitMeasurementLocked (config : PolicyConfig) (env : CommitEnv) (s : CommitState)
    (container : Option ContainerRef) (entry : Option MeasurementEntry) (deduplicate : Bool) :
    Ret × CommitState :=
  match container, entry with
  | some c, some e =>
      commitEventLocked S config env s (some c) (some e) (some e.digest) (some (cstr c.2.id))
        deduplicate
  | _, _ => (-einval, s)

def commitRootLocked (config : PolicyConfig) (env : CommitEnv) (s : CommitState)
    (value : Option Digest) (sourceId : Option Bytes) : Ret × CommitState :=
  commitEventLocked S config env s none none value sourceId false

/-- The node a container pointer refers to. -/
def containerRef (s : CommitState) (container : Option ℕ) : Option ContainerRef :=
  container.bind fun i => s.containers[i]?.map fun node => (i, node)

def addContainerMeasurement (config : PolicyConfig) (env : AddEnv) (s : CommitState)
    (container : Option ℕ) (eventName eventData dependencies : Option Bytes)
    (digest : Option Digest) : Ret × CommitState :=
  match containerRef s container, eventName, digest with
  | some c, some eventName, some digest =>
      if ¬ env.canSleep then (-ewouldblock, s)
      else
        let (ret, s) := commitCheckLocked env.available s
        if ret ≠ 0 then (ret, s)
        else if hashExists s.sha256HashTable digest (cstr c.2.id) then (1, s)
        else
          match createMeasurementEntry env.entryAlloc (some eventName) eventData dependencies
              (some digest) with
          | none => (-enomem, s)
          | some entry => commitMeasurementLocked S config env.commit s (some c) (some entry) true
  | _, _, _ => (-einval, s)

end Trim

/-! ## The engine as a machine -/

/-- The calls that act on the engine's state, with the root policy in force and the
outcomes of each. -/
inductive CommitOp where
  | addMeasurement (config : PolicyConfig) (env : AddEnv) (container : Option ℕ)
      (eventName eventData dependencies : Option Bytes) (digest : Option Digest)
  | commitRoot (config : PolicyConfig) (env : CommitEnv) (value : Option Digest)
      (sourceId : Option Bytes)
  | getError (available : Bool)
  | createContainer (containerId : Bytes)

def commitStep (S : HashSuite) (s : CommitState) : CommitOp → Ret × CommitState
  | .addMeasurement config env container eventName eventData dependencies digest =>
      addContainerMeasurement S config env s container eventName eventData dependencies digest
  | .commitRoot config env value sourceId => commitRootLocked S config env s value sourceId
  | .getError available => commitCheckLocked available s
  | .createContainer containerId =>
      (0, { s with containers := s.containers ++ [freshContainer containerId] })

end BpfIma
