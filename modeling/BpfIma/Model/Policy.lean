import BpfIma.Model.Base

/-! # Policy snapshots

The policy structures with every byte of their layout, padding included, and the
pure functions on them: defaults, composition, matching, normalisation and the
check of namespace extensions. -/

namespace BpfIma

open CString Errno

abbrev namespaceSize : ℕ := 128
abbrev pathSize : ℕ := 256
abbrev maxPatternLen : ℕ := 64
abbrev maxIgnorePatterns : ℕ := 8
abbrev maxPathFilters : ℕ := 8
abbrev hookMax : ℕ := 8

instance : @NeZero ℕ Zero.ofOfNat0 namespaceSize := Nat.instNeZeroSucc

instance : @NeZero ℕ Zero.ofOfNat0 hookMax := Nat.instNeZeroSucc

namespace PolicyFilter

def systemCgroups : UInt32 := 0x01
def procSys : UInt32 := 0x02
def dev : UInt32 := 0x04
def readonlyFiles : UInt32 := 0x08
def smallFiles : UInt32 := 0x10
def nonExecutable : UInt32 := 0x20
def libraries : UInt32 := 0x40
def tmpFiles : UInt32 := 0x80

end PolicyFilter

namespace PolicyAction

def extendTpm : UInt32 := 0x01
def logSecurityfs : UInt32 := 0x02
def logKernel : UInt32 := 0x04
def alertSuspicious : UInt32 := 0x08
def block : UInt32 := 0x10
def trackContainer : UInt32 := 0x20
def buildDeps : UInt32 := 0x40

end PolicyAction

namespace HookFlag

def enabled : UInt32 := 0x01
def trackContainers : UInt32 := 0x02
def measureHash : UInt32 := 0x04

end HookFlag

namespace ContextFlag

def file : UInt32 := 0x01
def readonly : UInt32 := 0x02
def executable : UInt32 := 0x04

end ContextFlag

/-- `struct bpfima_policy_config`; the two `pad` fields are the compiler's. -/
structure PolicyConfig where
  enabled : UInt8
  pad0 : Buffer 3
  filterFlags : UInt32
  actionFlags : UInt32
  minFileSize : UInt32
  maxPathDepth : UInt32
  logLevel : UInt32
  merkleHistoryMaxSize : UInt32
  merkleHistoryScope : UInt8
  pad1 : Buffer 3
  reserved : UInt32
deriving DecidableEq

structure PatternEntry where
  pattern : Buffer maxPatternLen
  enabled : UInt8
  matchType : UInt8
  reserved : UInt16
deriving DecidableEq

structure HookConfig where
  flags : UInt32
  filterOverride : UInt32
  actionOverride : UInt32
  reserved : UInt32
deriving DecidableEq

structure PolicySnapshot where
  config : PolicyConfig
  cgroups : List.Vector PatternEntry maxIgnorePatterns
  paths : List.Vector PatternEntry maxPathFilters
  hooks : List.Vector HookConfig hookMax
deriving DecidableEq

structure PolicyContext where
  namespaceId : Buffer namespaceSize
  cgroup : Buffer namespaceSize
  path : Buffer pathSize
  fileSize : UInt64
  hook : UInt32
  flags : UInt32
deriving DecidableEq

structure PolicyResult where
  generation : UInt64
  config : PolicyConfig
  hook : HookConfig
  skip : UInt32
deriving DecidableEq

/-! ## All-zero memory -/

def PolicyConfig.zero : PolicyConfig :=
  ⟨0, CString.zero 3, 0, 0, 0, 0, 0, 0, 0, CString.zero 3, 0⟩

def PatternEntry.zero : PatternEntry := ⟨CString.zero maxPatternLen, 0, 0, 0⟩

def HookConfig.zero : HookConfig := ⟨0, 0, 0, 0⟩

def PolicySnapshot.zero : PolicySnapshot :=
  ⟨.zero, .replicate _ .zero, .replicate _ .zero, .replicate _ .zero⟩

/-! ## Defaults -/

def scopeGlobal : UInt8 := 0
def scopeRootOnly : UInt8 := 1

/-- `bpfima_init_default_config` on the memory `policy`. -/
def initDefaultConfig (policy : PolicyConfig) : PolicyConfig :=
  { policy with
    enabled := 1
    filterFlags := 0
    actionFlags := PolicyAction.extendTpm ||| PolicyAction.logSecurityfs |||
      PolicyAction.logKernel ||| PolicyAction.trackContainer ||| PolicyAction.buildDeps
    minFileSize := 0
    maxPathDepth := 32
    logLevel := 2
    merkleHistoryMaxSize := 1000
    merkleHistoryScope := scopeGlobal }

/-- One default pattern over the memory `entry`. -/
def initDefaultPattern (text : String) (matchType : UInt8) (entry : PatternEntry) : PatternEntry :=
  { entry with pattern := strscpy entry.pattern text.ascii, enabled := 1, matchType := matchType }

def initDefaultCgroupPatterns (patterns : List.Vector PatternEntry maxIgnorePatterns) :
    List.Vector PatternEntry maxIgnorePatterns :=
  (patterns.set 0 (initDefaultPattern "/" 0 (patterns.get 0))).set 1
    (initDefaultPattern "init.scope" 0 (patterns.get 1))

def initDefaultPathPatterns (patterns : List.Vector PatternEntry maxPathFilters) :
    List.Vector PatternEntry maxPathFilters :=
  (patterns.set 0 (initDefaultPattern "/proc/" 1 (patterns.get 0))).set 1
    (initDefaultPattern "/sys/" 1 (patterns.get 1))

/-- `enum bpfima_hook_id`. -/
inductive HookId where
  | lsmBprmCheckSecurity
  | lsmFileOpen
  | lsmFilePostOpen
  | lsmMmapFile
  | lsmSocketConnect
  | lsmContainerEvents
  | kprobeFileOpen
  | lsmInodeSetattr
deriving DecidableEq, Repr

def HookId.index : HookId → Fin hookMax
  | .lsmBprmCheckSecurity => 0
  | .lsmFileOpen => 1
  | .lsmFilePostOpen => 2
  | .lsmMmapFile => 3
  | .lsmSocketConnect => 4
  | .lsmContainerEvents => 5
  | .kprobeFileOpen => 6
  | .lsmInodeSetattr => 7

/-- `HOOK_KPROBE_FILE_OPEN`. -/
def hookKprobeFileOpen : Fin hookMax := 6

def initDefaultSnapshot : PolicySnapshot where
  config := initDefaultConfig .zero
  cgroups := initDefaultCgroupPatterns (.replicate _ .zero)
  paths := initDefaultPathPatterns (.replicate _ .zero)
  hooks := (List.Vector.replicate _
      { HookConfig.zero with
        flags := HookFlag.enabled ||| HookFlag.trackContainers ||| HookFlag.measureHash }).set
    hookKprobeFileOpen .zero

/-! ## Composition -/

/-- `bpfima_policy_merge_config`: filter bits skip measurements, so they compose with
AND; action bits compose with OR. -/
def mergeConfig (root : PolicyConfig) (extra : Option PolicyConfig) : PolicyConfig :=
  match extra with
  | none => root
  | some extra =>
      { root with
        enabled := root.enabled ||| extra.enabled
        filterFlags := root.filterFlags &&& extra.filterFlags
        actionFlags := root.actionFlags ||| extra.actionFlags
        minFileSize :=
          if extra.minFileSize < root.minFileSize then extra.minFileSize else root.minFileSize
        maxPathDepth :=
          if extra.maxPathDepth > root.maxPathDepth then extra.maxPathDepth else root.maxPathDepth
        logLevel := if extra.logLevel > root.logLevel then extra.logLevel else root.logLevel }

/-! ## Patterns -/

/-- `bpfima_pattern_matches` on the C string `text`. -/
def patternMatches (entry : PatternEntry) (text : Bytes) : Bool :=
  if entry.enabled = 0 ∨ text = [] then false
  else
    let pattern := cstr entry.pattern
    match entry.matchType.toNat with
    | 0 => text == pattern
    | 1 => strncmp text pattern pattern.length
    | 2 => decide (pattern.length ≤ text.length) &&
        text.drop (text.length - pattern.length) == pattern
    | 3 => (strstr text pattern).isSome
    | _ => false

/-- `bpfima_pattern_is_subset`: conservative, unrelated patterns are no subset. -/
def patternIsSubset (extra root : PatternEntry) : Bool :=
  if extra.enabled = 0 then true
  else if root.enabled = 0 then false
  else if extra.matchType = 0 then patternMatches root (cstr extra.pattern)
  else if extra.matchType = root.matchType then
    let pattern := cstr extra.pattern
    let base := cstr root.pattern
    match extra.matchType.toNat with
    | 1 => strncmp pattern base base.length
    | 2 => decide (base.length ≤ pattern.length) &&
        pattern.drop (pattern.length - base.length) == base
    | 3 => (strstr pattern base).isSome
    | _ => false
  else false

def patternsMatch {count : ℕ} (patterns : List.Vector PatternEntry count) (text : Bytes) : Bool :=
  decide (∃ i, patternMatches (patterns.get i) text = true)

/-- The inner loop of `validate_extension` and `rebase_extension`: a disabled entry
excludes nothing, another one must be narrower than one of the root's. -/
def patternCovered {count : ℕ} (entry : PatternEntry) (base : List.Vector PatternEntry count) :
    Bool :=
  decide (entry.enabled = 0 ∨ ∃ j, patternIsSubset entry (base.get j) = true)

/-! ## Normalisation -/

def requiredActions : UInt32 := PolicyAction.extendTpm ||| PolicyAction.logSecurityfs

/-- The range checks of `normalize_snapshot` on the configuration. -/
def PolicyConfig.accepted (config : PolicyConfig) : Prop :=
  config.enabled ≤ 1 ∧ config.filterFlags &&& ~~~0xff = 0 ∧ config.actionFlags &&& ~~~0x7f = 0 ∧
    config.actionFlags &&& requiredActions = requiredActions ∧ config.logLevel ≤ 3 ∧
    config.maxPathDepth ≤ 32 ∧ config.merkleHistoryScope ≤ scopeRootOnly ∧ config.reserved = 0

def PatternEntry.accepted (entry : PatternEntry) : Prop :=
  entry.enabled ≤ 1 ∧ entry.matchType ≤ 3 ∧ entry.reserved = 0 ∧ terminated entry.pattern = true ∧
    (entry.enabled ≠ 0 → entry.pattern.get 0 ≠ 0)

def HookConfig.accepted (hook : HookConfig) : Prop :=
  hook.flags &&& ~~~7 = 0 ∧ hook.filterOverride = 0 ∧ hook.actionOverride = 0 ∧ hook.reserved = 0

instance (config : PolicyConfig) : Decidable config.accepted :=
  inferInstanceAs (Decidable (_ ∧ _))

instance (entry : PatternEntry) : Decidable entry.accepted :=
  inferInstanceAs (Decidable (_ ∧ _))

instance (hook : HookConfig) : Decidable hook.accepted :=
  inferInstanceAs (Decidable (_ ∧ _))

/-- The live fields over zeroed memory. -/
def PolicyConfig.normalize (config : PolicyConfig) : PolicyConfig :=
  { PolicyConfig.zero with
    enabled := config.enabled
    filterFlags := config.filterFlags
    actionFlags := config.actionFlags
    minFileSize := config.minFileSize
    maxPathDepth := config.maxPathDepth
    logLevel := config.logLevel
    merkleHistoryMaxSize := config.merkleHistoryMaxSize
    merkleHistoryScope := config.merkleHistoryScope }

def PatternEntry.normalize (entry : PatternEntry) : PatternEntry :=
  if entry.enabled ≠ 0 then
    { PatternEntry.zero with
      pattern := strscpy PatternEntry.zero.pattern (cstr entry.pattern)
      enabled := 1
      matchType := entry.matchType }
  else .zero

def HookConfig.normalize (hook : HookConfig) : HookConfig :=
  { HookConfig.zero with flags := hook.flags }

/-- `normalize_snapshot`: padding and inactive entries are cleared, out-of-range
values refused. -/
def normalizeSnapshot (input : PolicySnapshot) : Except Ret PolicySnapshot :=
  if input.config.actionFlags &&& (PolicyAction.alertSuspicious ||| PolicyAction.block) ≠ 0 then
    .error (-eopnotsupp)
  else if ¬ input.config.accepted then .error (-einval)
  else if ¬ ((∀ i, (input.cgroups.get i).accepted) ∧ ∀ i, (input.paths.get i).accepted) then
    .error (-einval)
  else if ¬ ∀ i, (input.hooks.get i).accepted then .error (-einval)
  else
    .ok
      { config := input.config.normalize
        cgroups := input.cgroups.map PatternEntry.normalize
        paths := input.paths.map PatternEntry.normalize
        hooks := input.hooks.map HookConfig.normalize }

/-! ## Namespace extensions -/

def validateExtension (root extra : PolicySnapshot) : Ret :=
  if extra.config.enabled < root.config.enabled ∨
      extra.config.filterFlags &&& ~~~root.config.filterFlags ≠ 0 ∨
      root.config.actionFlags &&& ~~~extra.config.actionFlags ≠ 0 ∨
      extra.config.minFileSize > root.config.minFileSize ∨
      extra.config.maxPathDepth < root.config.maxPathDepth ∨
      extra.config.logLevel < root.config.logLevel ∨
      extra.config.merkleHistoryMaxSize ≠ root.config.merkleHistoryMaxSize ∨
      extra.config.merkleHistoryScope ≠ root.config.merkleHistoryScope then -eperm
  else if ∃ i, (root.hooks.get i).flags &&& ~~~(extra.hooks.get i).flags ≠ 0 then -eperm
  else if ¬ ((∀ i, patternCovered (extra.cgroups.get i) root.cgroups = true) ∧
      ∀ i, patternCovered (extra.paths.get i) root.paths = true) then -eperm
  else 0

/-- `rebase_extension`: existing additions over a newer root floor; patterns that are
no longer provably narrower are dropped. -/
def rebaseExtension (root snapshot : PolicySnapshot) : PolicySnapshot where
  config := mergeConfig root.config (some snapshot.config)
  hooks := .ofFn fun i =>
    { snapshot.hooks.get i with flags := (snapshot.hooks.get i).flags ||| (root.hooks.get i).flags }
  cgroups := snapshot.cgroups.map fun entry =>
    if patternCovered entry root.cgroups then entry else .zero
  paths := snapshot.paths.map fun entry =>
    if patternCovered entry root.paths then entry else .zero

/-! ## Filtering -/

def filtered (snapshot : PolicySnapshot) (context : PolicyContext) : Bool :=
  let flags := snapshot.config.filterFlags
  let cgroup := cstr context.cgroup
  let path := cstr context.path
  patternsMatch snapshot.cgroups cgroup || patternsMatch snapshot.paths path ||
    (flags &&& PolicyFilter.systemCgroups != 0 &&
      (cgroup == "/".ascii || strncmp cgroup "init.scope".ascii 10)) ||
    (flags &&& PolicyFilter.procSys != 0 &&
      (strncmp path "/proc/".ascii 6 || strncmp path "/sys/".ascii 5)) ||
    (flags &&& PolicyFilter.dev != 0 && strncmp path "/dev/".ascii 5) ||
    (flags &&& PolicyFilter.tmpFiles != 0 && strncmp path "/tmp/".ascii 5) ||
    (context.flags &&& ContextFlag.file != 0 &&
      ((flags &&& PolicyFilter.smallFiles != 0 &&
          decide (context.fileSize.toNat < snapshot.config.minFileSize.toNat)) ||
        (flags &&& PolicyFilter.readonlyFiles != 0 &&
          context.flags &&& ContextFlag.readonly != 0) ||
        (flags &&& PolicyFilter.nonExecutable != 0 &&
          context.flags &&& ContextFlag.executable == 0) ||
        (flags &&& PolicyFilter.libraries != 0 && (strstr path ".so".ascii).isSome)))

end BpfIma
