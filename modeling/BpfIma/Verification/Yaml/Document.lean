import BpfIma.Verification.Yaml.Sections

/-! # Documents entry by entry

The top level of a document is read entry by entry: what the entries around a section do to
the tables can be said of them alone. -/

namespace BpfIma

open CString LibYaml

variable (strtoul : Strtoul)

/-- The top-level entries, read by themselves. -/
def readEntries (config : YamlConfig) (entries : List Event) : Parse YamlConfig :=
  parseEvents strtoul [] config (entries ++ [.documentEnd])

/-- The document is given up at a section among these entries. -/
def Refused (entries : List Event) : Prop := (readEntries strtoul clearedConfig entries).ret ≠ 0

instance (entries : List Event) : Decidable (Refused strtoul entries) :=
  inferInstanceAs (Decidable (_ ≠ _))

/-- What the hooks sections among these entries do to the table. -/
def hooksEffect (entries : List Event) (hooks : List.Vector YamlHookConfig maxHookConfigs) :
    List.Vector YamlHookConfig maxHookConfigs :=
  (readEntries strtoul { clearedConfig with hooks := hooks } entries).out.hooks

/-- What the filters sections among these entries do to the tables. -/
def filtersEffect (entries : List Event) (filters : YamlFilters) : YamlFilters :=
  (readEntries strtoul { clearedConfig with filters := filters } entries).out.filters

/-- The stream of a document whose top level is a mapping with these entries; libyaml may have
more to say behind it. -/
def documentEvents (entries rest : List Event) : List Event :=
  .streamStart :: .documentStart :: .mappingStart ::
    (entries ++ .mappingEnd :: .documentEnd :: rest)

variable {strtoul}

/-! ## Entries by themselves -/

theorem kept_hooks : Kept strtoul fun a b => a.hooks = b.hooks where
  policy _ _ _ h := h
  filters _ _ _ h := h
  hooks _ _ _ h := by rw [h]

theorem kept_filters : Kept strtoul fun a b => a.filters = b.filters where
  policy _ _ _ h := h
  filters _ _ _ h := by rw [h]
  hooks _ _ _ h := h

theorem readEntries_ret (config : YamlConfig) (entries : List Event) :
    (readEntries strtoul config entries).ret = (readEntries strtoul clearedConfig entries).ret :=
  (parseEvents_agree (R := fun _ _ => True) ⟨fun _ _ _ h => h, fun _ _ _ h => h, fun _ _ _ h => h⟩
    [] trivial _).ret

theorem readEntries_hooks (config : YamlConfig) (entries : List Event) :
    (readEntries strtoul config entries).out.hooks = hooksEffect strtoul entries config.hooks :=
  (parseEvents_agree kept_hooks [] (a := config)
    (b := { clearedConfig with hooks := config.hooks }) rfl _).out

theorem readEntries_filters (config : YamlConfig) (entries : List Event) :
    (readEntries strtoul config entries).out.filters =
      filtersEffect strtoul entries config.filters :=
  (parseEvents_agree kept_filters [] (a := config)
    (b := { clearedConfig with filters := config.filters }) rfl _).out

/-- Reading on behind entries that are not refused. -/
theorem parseEvents_entries {entries : List Event} (h : Closed entries)
    (hentries : ¬ Refused strtoul entries) (config : YamlConfig) :
    ∃ key, ∀ more, parseEvents strtoul [] config (entries ++ more) =
      parseEvents strtoul key (readEntries strtoul config entries).out more := by
  have hret : (readEntries strtoul config entries).ret = 0 := by
    rw [readEntries_ret]
    exact not_not.mp hentries
  cases parseEvents_passes strtoul h ([], config) with
  | stops parse hstopped hwithin =>
      rw [readEntries, hwithin.eq, hstopped] at hret
      cases hret
  | crosses k hcrosses =>
      refine ⟨k.1, fun more => ?_⟩
      rw [readEntries, hcrosses, hcrosses, parseEvents]

theorem ret_of_refused {entries : List Event} (h : Closed entries)
    (hentries : Refused strtoul entries) (config : YamlConfig) (more : List Event) :
    (parseEvents strtoul [] config (entries ++ more)).ret ≠ 0 := by
  have hret : (readEntries strtoul config entries).ret ≠ 0 := by
    rw [readEntries_ret]
    exact hentries
  cases parseEvents_passes strtoul h ([], config) with
  | stops parse hstopped hwithin =>
      rw [hwithin.eq, hstopped]
      decide
  | crosses k hcrosses =>
      rw [readEntries, hcrosses, parseEvents] at hret
      exact absurd rfl hret

/-! ## A section among entries -/

theorem parseYamlPolicy_document (entries rest : List Event) (memory : YamlConfig) :
    parseYamlPolicy strtoul (some (documentEvents entries rest)) memory =
      ((parseEvents strtoul [] clearedConfig (entries ++ .mappingEnd :: .documentEnd :: rest)).ret,
        (parseEvents strtoul [] clearedConfig
          (entries ++ .mappingEnd :: .documentEnd :: rest)).out) := by
  have hstart : parseEvents strtoul [] clearedConfig (documentEvents entries rest) =
      parseEvents strtoul [] clearedConfig (entries ++ .mappingEnd :: .documentEnd :: rest) := by
    rw [documentEvents, parseEvents, parseEvents,
      parseEvents_otherMapping strtoul clearedConfig (by decide) (by decide)]
    all_goals simp
  rw [parseYamlPolicy, hstart]

/-- A scalar takes the place of the pending key. -/
theorem parseEvents_scalar {entries tail : List Event} {name : Bytes}
    (hname : entries = .scalar name :: tail) (key : Bytes) (config : YamlConfig)
    (more : List Event) :
    parseEvents strtoul key config (entries ++ more) =
      parseEvents strtoul [] config (entries ++ more) := by
  subst hname
  rw [List.cons_append, parseEvents, parseEvents]

section Entry

variable {before entries tail : List Event} {name : Bytes} (hbefore : Closed before)
  (hentries : Closed entries) (hname : entries = .scalar name :: tail) (rest : List Event)
  (memory : YamlConfig)

include hbefore hentries hname

/-- A document is taken if the entries up to some key and those from it on are, each read by
themselves. -/
theorem parseYamlPolicy_taken (hb : ¬ Refused strtoul before) (he : ¬ Refused strtoul entries) :
    parseYamlPolicy strtoul (some (documentEvents (before ++ entries) rest)) memory =
      (0, (readEntries strtoul (readEntries strtoul clearedConfig before).out entries).out) := by
  rw [parseYamlPolicy_document, List.append_assoc]
  obtain ⟨key, hread⟩ := parseEvents_entries hbefore hb clearedConfig
  obtain ⟨key', hread'⟩ := parseEvents_entries hentries he
    (readEntries strtoul clearedConfig before).out
  have hend (config : YamlConfig) : parseEvents strtoul key' config
      (.mappingEnd :: .documentEnd :: rest) = ⟨0, config, rest⟩ := by
    rw [parseEvents, parseEvents]
    all_goals simp
  rw [hread, parseEvents_scalar hname, hread', hend]

theorem parseYamlPolicy_refused (h : Refused strtoul before ∨ Refused strtoul entries) :
    (parseYamlPolicy strtoul (some (documentEvents (before ++ entries) rest)) memory).1 ≠ 0 := by
  rw [parseYamlPolicy_document, List.append_assoc]
  by_cases hb : Refused strtoul before
  · exact ret_of_refused hbefore hb clearedConfig _
  · obtain ⟨key, hread⟩ := parseEvents_entries hbefore hb clearedConfig
    rw [hread, parseEvents_scalar hname]
    exact ret_of_refused hentries (h.resolve_left hb) _ _

end Entry

/-- `strtoul` for texts that start with a decimal digit. -/
def decimalStrtoul : Strtoul := fun _ text =>
  let digits := text.takeWhile fun c => 48 ≤ c ∧ c ≤ 57
  ⟨UInt64.ofNat (Text.parseDecimal digits), text.drop digits.length, false⟩

/-- An entry `policy` that turns measuring on. -/
def measuringPolicy : List Event :=
  [.scalar "policy".ascii, .mappingStart, .scalar "measure_enabled".ascii, .scalar "yes".ascii,
    .mappingEnd]

theorem nodes_measuringPolicy : Nodes (2 * 1) measuringPolicy :=
  .scalar _ (.mapping (m := 1) (.scalar _ (.scalar _ .nil)) .nil)

end BpfIma
