import BpfIma.Model.YamlParser

/-! # The YAML parser event by event

The loops of `yaml_parser.c` read from one parser: the innermost loop that is active takes the
next event. An outer loop goes on where an inner one has stopped, with its key cleared. -/

namespace BpfIma

open CString LibYaml

/-- What a round of a loop with the variables `κ` leads to. -/
inductive LoopRound (κ : Type) where
  | goesOn (vars : κ)
  | failed
  | ended

/-- A round of `parse_generic_map`. -/
def genericMapRound {σ : Type} (dispatcher : Bytes → Bytes → σ → Option σ) (key : Bytes)
    (ctx : σ) : Event → LoopRound (Bytes × σ)
  | .scalar value =>
      if key = [] then .goesOn (keyOf value, ctx)
      else
        match dispatcher key (upToNul value) ctx with
        | none => .failed
        | some ctx => .goesOn ([], ctx)
  | .mappingEnd => .ended
  | _ => .goesOn (key, ctx)

/-- A round of `parse_string_sequence`. -/
def stringSequenceRound {n : ℕ} (patterns : List.Vector Bytes n) (count : ℕ) :
    Event → LoopRound (List.Vector Bytes n × ℕ)
  | .scalar value =>
      if maxPatternLen ≤ value.length then .failed
      else if h : count < n then
        .goesOn (patterns.set ⟨count, h⟩ (fitted 255 (upToNul value)), count + 1)
      else .failed
  | .sequenceEnd => .ended
  | _ => .goesOn (patterns, count)

/-- The innermost active loop with its variables. -/
inductive YamlLoop where
  /-- `parse_yaml_policy` -/
  | document (key : Bytes)
  /-- `parse_policy_section` -/
  | policy (key : Bytes)
  /-- `parse_filters_section` -/
  | filters (key : Bytes)
  /-- `parse_string_sequence` of `cgroup_filters`, called by `parse_filters_section` -/
  | cgroups (count : ℕ)
  /-- `parse_string_sequence` of `path_filters`, called by `parse_filters_section` -/
  | paths (count : ℕ)
  /-- `parse_hooks_section` -/
  | hooks (count : ℕ)
  /-- `parse_hook_config` of one row, called by `parse_hooks_section` -/
  | hook (row : Fin maxHookConfigs) (key : Bytes)

/-- `parse_yaml_policy` between two events, with the memory it fills. -/
inductive YamlReader where
  | reading (loop : YamlLoop) (config : YamlConfig)
  | returned (ret : Ret) (config : YamlConfig)

section Rounds

variable (config : YamlConfig)

/-- A round of `parse_yaml_policy`. -/
def documentRound (key : Bytes) : Event → YamlReader
  | .scalar value => .reading (.document (keyOf value)) config
  | .mappingStart =>
      if key = "policy".ascii then .reading (.policy []) config
      else if key = "filters".ascii then .reading (.filters []) config
      else .reading (.document []) config
  | .sequenceStart =>
      if key = "hooks".ascii then .reading (.hooks 0) config
      else .reading (.document []) config
  | .documentEnd => .returned 0 config
  | .streamEnd => .returned 0 config
  | _ => .reading (.document key) config

def policyRound (strtoul : Strtoul) (key : Bytes) (event : Event) : YamlReader :=
  match genericMapRound (policyDispatcher strtoul) key config.policy event with
  | .goesOn (key, policy) => .reading (.policy key) { config with policy := policy }
  | .failed => .returned (-1) config
  | .ended => .reading (.document []) config

def filtersRound (key : Bytes) : Event → YamlReader
  | .scalar value => .reading (.filters (if key = [] then keyOf value else key)) config
  | .sequenceStart =>
      if key = "cgroup_patterns".ascii then .reading (.cgroups 0) config
      else if key = "path_patterns".ascii then .reading (.paths 0) config
      else .reading (.filters []) config
  | .mappingEnd => .reading (.document []) config
  | _ => .reading (.filters key) config

def cgroupsRound (count : ℕ) (event : Event) : YamlReader :=
  match stringSequenceRound config.filters.cgroups count event with
  | .goesOn (patterns, count) =>
      .reading (.cgroups count)
        { config with filters := { config.filters with cgroups := patterns } }
  | .failed => .returned (-1) config
  | .ended => .reading (.filters []) config

def pathsRound (count : ℕ) (event : Event) : YamlReader :=
  match stringSequenceRound config.filters.paths count event with
  | .goesOn (patterns, count) =>
      .reading (.paths count) { config with filters := { config.filters with paths := patterns } }
  | .failed => .returned (-1) config
  | .ended => .reading (.filters []) config

/-- A round of `parse_hooks_section`. -/
def hooksRound (count : ℕ) : Event → YamlReader
  | .mappingStart =>
      if h : count < maxHookConfigs then .reading (.hook ⟨count, h⟩ []) config
      else .reading (.hooks count) config
  | .sequenceEnd => .reading (.document []) config
  | _ => .reading (.hooks count) config

/-- A mapping that is given up leaves the loop over the hooks in the middle of it. -/
def hookRound (row : Fin maxHookConfigs) (key : Bytes) (event : Event) : YamlReader :=
  match genericMapRound hookDispatcher key (config.hooks.get row) event with
  | .goesOn (key, hook) =>
      .reading (.hook row key) { config with hooks := config.hooks.set row hook }
  | .failed => .reading (.hooks row.val) config
  | .ended => .reading (.hooks (row.val + 1)) config

end Rounds

section Reader

variable (strtoul : Strtoul)

def YamlLoop.round (config : YamlConfig) (event : Event) : YamlLoop → YamlReader
  | .document key => documentRound config key event
  | .policy key => policyRound config strtoul key event
  | .filters key => filtersRound config key event
  | .cgroups count => cgroupsRound config count event
  | .paths count => pathsRound config count event
  | .hooks count => hooksRound config count event
  | .hook row key => hookRound config row key event

/-- The next event of the parser. A call that has returned asks for none. -/
def YamlReader.read (reader : YamlReader) (event : Event) : YamlReader :=
  match reader with
  | .reading loop config => loop.round strtoul config event
  | .returned ret config => .returned ret config

def YamlReader.readAll (reader : YamlReader) (events : List Event) : YamlReader :=
  events.foldl (YamlReader.read strtoul) reader

/-- `parse_yaml_policy` at its first event. -/
def YamlReader.start : YamlReader := .reading (.document []) clearedConfig

end Reader

end BpfIma
