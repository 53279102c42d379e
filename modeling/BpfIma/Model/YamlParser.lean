import BpfIma.Library.YamlEvents
import BpfIma.Model.PolicyWire

/-! # The YAML parser of the tool

`yaml_parser.c`: nested loops over the events of libyaml that fill fixed tables, the builder
of a policy snapshot and the write of the request. A `char` array stands for the string it
holds; a table has as many rows as the caller reserves. -/

namespace BpfIma

open CString Errno LibYaml

/-- `MAX_KEY_LEN`. -/
def maxKeyLen : ℕ := 256

/-- `MAX_HOOK_CONFIGS`. -/
abbrev maxHookConfigs : ℕ := 16

/-- `sizeof(hook_name)`. -/
def hookNameSize : ℕ := 64

structure YamlPolicy where
  enabled : UInt8
  logLevel : UInt32
  filterFlags : UInt32
  minFileSize : UInt32
  maxPathDepth : UInt32
  measureEnabled : UInt8
  appraiseEnabled : UInt8
  enforceEnabled : UInt8
  containerTracking : UInt8
deriving DecidableEq

structure YamlHookConfig where
  hookName : Bytes
  enabled : UInt8
  measure : UInt8
  appraise : UInt8
  enforce : UInt8
deriving DecidableEq

/-- `cgroup_filters` and `path_filters`. -/
structure YamlFilters where
  cgroups : List.Vector Bytes maxIgnorePatterns
  paths : List.Vector Bytes maxPathFilters
deriving DecidableEq

/-- The memory that `parse_yaml_policy` fills. -/
structure YamlConfig where
  policy : YamlPolicy
  filters : YamlFilters
  hooks : List.Vector YamlHookConfig maxHookConfigs
deriving DecidableEq

def YamlPolicy.zero : YamlPolicy := ⟨0, 0, 0, 0, 0, 0, 0, 0, 0⟩

def YamlHookConfig.zero : YamlHookConfig := ⟨[], 0, 0, 0, 0⟩

def YamlFilters.zero : YamlFilters := ⟨.replicate _ [], .replicate _ []⟩

/-! ## Values -/

/-- What `strtoul` leaves: the number, the text behind it and whether `errno` is set. -/
structure StrtoulResult where
  number : UInt64
  rest : Bytes
  errno : Bool

/-- `strtoul` by base and text. -/
abbrev Strtoul := ℕ → Bytes → StrtoulResult

def parseBool (value : Bytes) : Option UInt8 :=
  if strcasecmp value "true".ascii ∨ strcasecmp value "yes".ascii ∨ value = "1".ascii then some 1
  else if strcasecmp value "false".ascii ∨ strcasecmp value "no".ascii ∨ value = "0".ascii then
    some 0
  else none

section Values

variable (strtoul : Strtoul)

def parseInt (value : Bytes) : Option UInt32 :=
  if value.head? = some 45 ∨ value = [] then none
  else
    let result := strtoul 10 value
    if result.errno ∨ result.rest ≠ [] ∨ result.number > 3 then none
    else some result.number.toUInt32

def parseU32 (value : Bytes) (maximum : UInt32) : Option UInt32 :=
  if value = [] ∨ value.head? = some 45 then none
  else
    let result := strtoul 0 value
    if result.errno ∨ result.rest ≠ [] ∨ result.number > maximum.toUInt64 then none
    else some result.number.toUInt32

/-- The handlers of `policy_handlers`; a value that is refused writes nothing. -/
def policyHandlers : List (Bytes × (YamlPolicy → Bytes → Option YamlPolicy)) :=
  [("enabled".ascii, fun p v => (parseBool v).map fun b => { p with enabled := b }),
    ("log_level".ascii, fun p v => (parseInt strtoul v).map fun n => { p with logLevel := n }),
    ("measure_enabled".ascii, fun p v => (parseBool v).map fun b => { p with measureEnabled := b }),
    ("appraise_enabled".ascii,
      fun p v => (parseBool v).map fun b => { p with appraiseEnabled := b }),
    ("enforce_enabled".ascii, fun p v => (parseBool v).map fun b => { p with enforceEnabled := b }),
    ("container_tracking".ascii,
      fun p v => (parseBool v).map fun b => { p with containerTracking := b }),
    ("filter_flags".ascii,
      fun p v => (parseU32 strtoul v 255).map fun n => { p with filterFlags := n }),
    ("min_file_size".ascii,
      fun p v => (parseU32 strtoul v 0xffffffff).map fun n => { p with minFileSize := n }),
    ("max_path_depth".ascii,
      fun p v => (parseU32 strtoul v 32).map fun n => { p with maxPathDepth := n })]

/-- `policy_dispatcher`; `none` is its `-1`. -/
def policyDispatcher (key value : Bytes) (policy : YamlPolicy) : Option YamlPolicy :=
  ((policyHandlers strtoul).lookup key).bind fun handler => handler policy value

end Values

def hookHandlers : List (Bytes × (YamlHookConfig → Bytes → Option YamlHookConfig)) :=
  [("name".ascii, fun h v => some { h with hookName := fitted hookNameSize v }),
    ("enabled".ascii, fun h v => (parseBool v).map fun b => { h with enabled := b }),
    ("measure".ascii, fun h v => (parseBool v).map fun b => { h with measure := b }),
    ("appraise".ascii, fun h v => (parseBool v).map fun b => { h with appraise := b }),
    ("enforce".ascii, fun h v => (parseBool v).map fun b => { h with enforce := b })]

def hookDispatcher (key value : Bytes) (hook : YamlHookConfig) : Option YamlHookConfig :=
  (hookHandlers.lookup key).bind fun handler => handler hook value

/-! ## Loops -/

/-- The key that a scalar leaves in `char key[MAX_KEY_LEN]`. -/
def keyOf (value : Bytes) : Bytes := fitted maxKeyLen (upToNul value)

/-- The loop of `parse_generic_map`, with the pending key. The stream ends where
`yaml_parser_parse` fails, here and below. -/
def parseGenericMap {σ : Type} (dispatcher : Bytes → Bytes → σ → Option σ) (key : Bytes)
    (ctx : σ) : List Event → Parse σ
  | [] => ⟨-1, ctx, []⟩
  | .scalar value :: events =>
      if key = [] then parseGenericMap dispatcher (keyOf value) ctx events
      else
        match dispatcher key (upToNul value) ctx with
        | none => ⟨-1, ctx, events⟩
        | some ctx => parseGenericMap dispatcher [] ctx events
  | .mappingEnd :: events => ⟨0, ctx, events⟩
  | _ :: events => parseGenericMap dispatcher key ctx events

def parsePolicySection (strtoul : Strtoul) (policy : YamlPolicy) : List Event → Parse YamlPolicy :=
  parseGenericMap (policyDispatcher strtoul) [] policy

def parseHookConfig (config : YamlHookConfig) : List Event → Parse YamlHookConfig :=
  parseGenericMap hookDispatcher [] config

/-- The loop of `parse_string_sequence` after `count` patterns; a row is copied with
`snprintf(patterns[count], 255, "%s", value)`. -/
def parseStringSequence {n : ℕ} (patterns : List.Vector Bytes n) (count : ℕ) :
    List Event → Parse (List.Vector Bytes n)
  | [] => ⟨-1, patterns, []⟩
  | .scalar value :: events =>
      if h : count < n ∧ value.length < maxPatternLen then
        parseStringSequence (patterns.set ⟨count, h.1⟩ (fitted 255 (upToNul value))) (count + 1)
          events
      else ⟨-1, patterns, events⟩
  | .sequenceEnd :: events => ⟨count, patterns, events⟩
  | _ :: events => parseStringSequence patterns count events

/-! The outer loops go on with the events that an inner one leaves, which are no more than
it was given. -/

theorem length_rest_parseGenericMap {σ : Type} (dispatcher : Bytes → Bytes → σ → Option σ)
    (key : Bytes) (ctx : σ) (events : List Event) :
    (parseGenericMap dispatcher key ctx events).rest.length ≤ events.length := by
  fun_induction parseGenericMap dispatcher key ctx events <;> simp <;> omega

theorem length_rest_parseStringSequence {n : ℕ} (patterns : List.Vector Bytes n) (count : ℕ)
    (events : List Event) :
    (parseStringSequence patterns count events).rest.length ≤ events.length := by
  fun_induction parseStringSequence patterns count events <;> simp <;> omega

/-- The loop of `parse_filters_section`. -/
def parseFiltersSection (key : Bytes) (filters : YamlFilters) (events : List Event) :
    Parse YamlFilters :=
  match events with
  | [] => ⟨-1, filters, []⟩
  | .scalar value :: events =>
      parseFiltersSection (if key = [] then keyOf value else key) filters events
  | .sequenceStart :: events =>
      if key = "cgroup_patterns".ascii then
        let parsed := parseStringSequence filters.cgroups 0 events
        if parsed.ret < 0 then ⟨-1, { filters with cgroups := parsed.out }, parsed.rest⟩
        else parseFiltersSection [] { filters with cgroups := parsed.out } parsed.rest
      else if key = "path_patterns".ascii then
        let parsed := parseStringSequence filters.paths 0 events
        if parsed.ret < 0 then ⟨-1, { filters with paths := parsed.out }, parsed.rest⟩
        else parseFiltersSection [] { filters with paths := parsed.out } parsed.rest
      else parseFiltersSection [] filters events
  | .mappingEnd :: events => ⟨0, filters, events⟩
  | _ :: events => parseFiltersSection key filters events
termination_by events.length
decreasing_by
  all_goals simp only [List.length_cons]
  all_goals first
    | exact Nat.lt_succ_of_le (length_rest_parseStringSequence _ _ _)
    | exact Nat.lt_succ_self _

/-- The loop of `parse_hooks_section` after `count` hooks. A mapping that is given up leaves
what it wrote in its row, and the loop goes on in the middle of it. -/
def parseHooksSection (hooks : List.Vector YamlHookConfig maxHookConfigs) (count : ℕ)
    (events : List Event) : Parse (List.Vector YamlHookConfig maxHookConfigs) :=
  match events with
  | [] => ⟨-1, hooks, []⟩
  | .mappingStart :: events =>
      if h : count < maxHookConfigs then
        let parsed := parseHookConfig (hooks.get ⟨count, h⟩) events
        parseHooksSection (hooks.set ⟨count, h⟩ parsed.out)
          (if parsed.ret = 0 then count + 1 else count) parsed.rest
      else parseHooksSection hooks count events
  | .sequenceEnd :: events => ⟨count, hooks, events⟩
  | _ :: events => parseHooksSection hooks count events
termination_by events.length
decreasing_by
  all_goals simp only [List.length_cons]
  all_goals first
    | exact Nat.lt_succ_of_le (length_rest_parseGenericMap _ _ _ _)
    | exact Nat.lt_succ_self _

theorem length_rest_parseFiltersSection (key : Bytes) (filters : YamlFilters)
    (events : List Event) :
    (parseFiltersSection key filters events).rest.length ≤ events.length := by
  fun_induction parseFiltersSection key filters events with
  | case1 => simp
  | case2 key filters value events ih => exact ih.trans (Nat.le_succ _)
  | case3 filters events parsed hret =>
      exact (length_rest_parseStringSequence _ _ _).trans (by simp)
  | case4 filters events parsed hret ih =>
      exact ih.trans ((length_rest_parseStringSequence _ _ _).trans (by simp))
  | case5 filters events hcgroups parsed hret =>
      exact (length_rest_parseStringSequence _ _ _).trans (by simp)
  | case6 filters events hcgroups parsed hret ih =>
      exact ih.trans ((length_rest_parseStringSequence _ _ _).trans (by simp))
  | case7 key filters events hcgroups hpaths ih => exact ih.trans (Nat.le_succ _)
  | case8 key filters events => simp
  | case9 key filters event events _ _ _ ih => exact ih.trans (Nat.le_succ _)

theorem length_rest_parseHooksSection (hooks : List.Vector YamlHookConfig maxHookConfigs)
    (count : ℕ) (events : List Event) :
    (parseHooksSection hooks count events).rest.length ≤ events.length := by
  fun_induction parseHooksSection hooks count events with
  | case1 => simp
  | case2 hooks count events h parsed ih =>
      exact ih.trans ((length_rest_parseGenericMap _ _ _ _).trans (by simp))
  | case3 hooks count events h ih => exact ih.trans (Nat.le_succ _)
  | case4 hooks count events => simp
  | case5 hooks count event events _ _ ih => exact ih.trans (Nat.le_succ _)

section Document

variable (strtoul : Strtoul)

/-- The loop of `parse_yaml_policy`. -/
def parseEvents (key : Bytes) (config : YamlConfig) (events : List Event) : Parse YamlConfig :=
  match events with
  | [] => ⟨-1, config, []⟩
  | .scalar value :: events => parseEvents (keyOf value) config events
  | .mappingStart :: events =>
      if key = "policy".ascii then
        let parsed := parsePolicySection strtoul config.policy events
        if parsed.ret < 0 then ⟨-1, { config with policy := parsed.out }, parsed.rest⟩
        else parseEvents [] { config with policy := parsed.out } parsed.rest
      else if key = "filters".ascii then
        let parsed := parseFiltersSection [] config.filters events
        if parsed.ret < 0 then ⟨-1, { config with filters := parsed.out }, parsed.rest⟩
        else parseEvents [] { config with filters := parsed.out } parsed.rest
      else parseEvents [] config events
  | .sequenceStart :: events =>
      if key = "hooks".ascii then
        let parsed := parseHooksSection config.hooks 0 events
        if parsed.ret < 0 then ⟨-1, { config with hooks := parsed.out }, parsed.rest⟩
        else parseEvents [] { config with hooks := parsed.out } parsed.rest
      else parseEvents [] config events
  | .documentEnd :: events => ⟨0, config, events⟩
  | .streamEnd :: events => ⟨0, config, events⟩
  | _ :: events => parseEvents key config events
termination_by events.length
decreasing_by
  all_goals simp only [List.length_cons]
  all_goals first
    | exact Nat.lt_succ_of_le (length_rest_parseGenericMap _ _ _ _)
    | exact Nat.lt_succ_of_le (length_rest_parseFiltersSection _ _ _)
    | exact Nat.lt_succ_of_le (length_rest_parseHooksSection _ _ _)
    | exact Nat.lt_succ_self _

/-- The memory after the calls of `memset`; the depth is `DEFAULT_MAX_PATH_DEPTH`. -/
def clearedConfig : YamlConfig :=
  ⟨{ YamlPolicy.zero with maxPathDepth := 32 }, .zero, .replicate _ .zero⟩

/-- `parse_yaml_policy` on the caller's memory; `none` is a file that cannot be opened, or a
parser that cannot be initialised. -/
def parseYamlPolicy (file : Option (List Event)) (memory : YamlConfig) : Ret × YamlConfig :=
  match file with
  | none => (-1, memory)
  | some events =>
      let parsed := parseEvents strtoul [] clearedConfig events
      (parsed.ret, parsed.out)

end Document

/-! ## Building a snapshot -/

/-- The names of `get_hook_id`, by hook number. -/
def hookNames : List.Vector Bytes hookMax :=
  ⟨["lsm_bprm_check_security".ascii, "lsm_file_open".ascii, "lsm_file_post_open".ascii,
    "lsm_mmap_file".ascii, "lsm_socket_connect".ascii, "lsm_container_events".ascii,
    "kprobe_file_open".ascii, "lsm_inode_setattr".ascii], rfl⟩

def getHookId (name : Bytes) : Option (Fin hookMax) :=
  (List.finRange hookMax).find? fun i => hookNames.get i == name

def flagIf (set : UInt8) (flag : UInt32) : UInt32 := if set ≠ 0 then flag else 0

/-- One round of the hook loop of `build_policy_from_yaml`. -/
def buildHook (policy : YamlPolicy) (hooks : List.Vector HookConfig hookMax)
    (hook : YamlHookConfig) : Except Ret (List.Vector HookConfig hookMax) :=
  if hook.hookName = [] then .ok hooks
  else if hook.appraise ≠ 0 ∨ hook.enforce ≠ 0 then .error (-eopnotsupp)
  else
    match getHookId hook.hookName with
    | none => .error (-einval)
    | some id =>
        .ok (hooks.set id
          { hooks.get id with
            flags := flagIf hook.enabled HookFlag.enabled |||
              flagIf hook.measure HookFlag.measureHash |||
              flagIf policy.containerTracking HookFlag.trackContainers })

/-- A pattern over zeroed memory; patterns match by their start. -/
def buildPattern (pattern : Bytes) : PatternEntry :=
  if pattern = [] then .zero
  else { PatternEntry.zero with
    pattern := snprintf maxPatternLen pattern, enabled := 1, matchType := 1 }

def buildPatterns (n : ℕ) (patterns : List Bytes) : List.Vector PatternEntry n :=
  .ofFn fun i => buildPattern (patterns.getD i [])

/-- `DEFAULT_MERKLE_HISTORY_MAX_SIZE`. -/
def defaultMerkleHistoryMaxSize : UInt32 := 1000

def buildConfig (policy : YamlPolicy) : PolicyConfig :=
  { PolicyConfig.zero with
    enabled := policy.enabled
    logLevel := policy.logLevel
    maxPathDepth := policy.maxPathDepth
    filterFlags := policy.filterFlags
    minFileSize := policy.minFileSize
    merkleHistoryMaxSize := defaultMerkleHistoryMaxSize
    actionFlags := PolicyAction.extendTpm ||| PolicyAction.logSecurityfs |||
      PolicyAction.buildDeps ||| (if policy.logLevel ≠ 0 then PolicyAction.logKernel else 0) |||
      flagIf policy.containerTracking PolicyAction.trackContainer }

/-- The hooks before those of the document. -/
def defaultHooks : List.Vector HookConfig hookMax :=
  (List.Vector.replicate _
    { HookConfig.zero with
      flags := HookFlag.enabled ||| HookFlag.trackContainers ||| HookFlag.measureHash }).set
    hookKprobeFileOpen .zero

def buildPolicyFromYaml (policy : YamlPolicy) (cgroups paths : List Bytes)
    (hooks : List YamlHookConfig) : Except Ret PolicySnapshot :=
  if cgroups.length > maxIgnorePatterns ∨ paths.length > maxPathFilters ∨
      hooks.length > maxHookConfigs then .error (-einval)
  else if policy.appraiseEnabled ≠ 0 ∨ policy.enforceEnabled ≠ 0 then .error (-eopnotsupp)
  else if policy.measureEnabled = 0 then .error (-einval)
  else
    match hooks.foldlM (buildHook policy) defaultHooks with
    | .error ret => .error ret
    | .ok hooks =>
        if ∃ pattern ∈ cgroups ++ paths, maxPatternLen ≤ pattern.length then .error (-einval)
        else
          .ok
            { config := buildConfig policy
              cgroups := buildPatterns maxIgnorePatterns cgroups
              paths := buildPatterns maxPathFilters paths
              hooks := hooks }

/-- The call of `build_policy_from_yaml` in `cmd_policy_update`. -/
def YamlConfig.build (config : YamlConfig) : Except Ret PolicySnapshot :=
  buildPolicyFromYaml config.policy config.filters.cgroups.toList config.filters.paths.toList
    config.hooks.toList

/-! ## Writing the request -/

/-- The request of `apply_policy_snapshot`. -/
def snapshotRequest (namespaceId : Option Bytes) (snapshot : PolicySnapshot) : RequestMemory where
  request :=
    { version := policyVersion
      reserved := 0
      expectedGeneration := 0
      record := ⟨(namespaceId.map (snprintf namespaceSize)).getD (CString.zero _), snapshot⟩ }
  pad := CString.zero 4

/-- The outcome of `open`, and of the write behind it. -/
structure ToolEnv where
  openError : Option ErrPtr
  write : WriteEnv

/-- What `apply_policy_snapshot` makes of the result of its write. -/
def writtenRet (written : Ret) : Ret :=
  if written = policyRequestSize then 0 else if written < 0 then written else -eio

def applyPolicySnapshot (P : Platform) (env : ToolEnv) (namespaceId : Option Bytes)
    (snapshot : PolicySnapshot) (s : KernelState) : Ret × KernelState :=
  if ∃ id ∈ namespaceId, namespaceSize ≤ id.length then (-einval, s)
  else
    match env.openError with
    | some ret => (ret.val, s)
    | none =>
        let request := policyEncodeRequest P.byteOrder (snapshotRequest namespaceId snapshot)
        let (written, s) := policyApplyWrite P env.write (request.image P.byteOrder) s
        (writtenRet written, s)

end BpfIma
