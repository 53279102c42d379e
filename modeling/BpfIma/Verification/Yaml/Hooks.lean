import BpfIma.Verification.Yaml.Document

/-! # The hooks section

A hook that is given up in the middle, hooks beyond the table and long names pass without an
error. The section reads what is written exactly if none of that occurs and nothing else in
the document is taken for a hooks section. -/

namespace BpfIma

open CString LibYaml

/-! ## What is written -/

/-- The scalars of a flat mapping, keys and values in turn. -/
def flatScalars (entries : List (Bytes × Bytes)) : List Bytes :=
  entries.flatMap fun entry => [entry.1, entry.2]

def hookEvents (hook : List (Bytes × Bytes)) : List Event :=
  .mappingStart :: ((flatScalars hook).map .scalar ++ [.mappingEnd])

/-- The entry `hooks` of a document, with a sequence of flat mappings. -/
def hooksEvents (hooks : List (List (Bytes × Bytes))) : List Event :=
  .scalar "hooks".ascii :: .sequenceStart :: (hooks.flatMap hookEvents ++ [.sequenceEnd])

def hookKeys : List Bytes :=
  ["name".ascii, "enabled".ascii, "measure".ascii, "appraise".ascii, "enforce".ascii]

/-- One entry of a hook, as it is meant. -/
def YamlHookConfig.assign (config : YamlHookConfig) (entry : Bytes × Bytes) : YamlHookConfig :=
  if entry.1 = "name".ascii then { config with hookName := entry.2 }
  else if entry.1 = "enabled".ascii then { config with enabled := (parseBool entry.2).getD 0 }
  else if entry.1 = "measure".ascii then { config with measure := (parseBool entry.2).getD 0 }
  else if entry.1 = "appraise".ascii then { config with appraise := (parseBool entry.2).getD 0 }
  else if entry.1 = "enforce".ascii then { config with enforce := (parseBool entry.2).getD 0 }
  else config

/-- A hook as written: a later entry of a key counts, and what is not given is zero. -/
def writtenHook (hook : List (Bytes × Bytes)) : YamlHookConfig :=
  hook.foldl YamlHookConfig.assign .zero

/-- The hooks as written over the rows of a table. -/
def fillHooks (hooks : List (List (Bytes × Bytes)))
    (table : List.Vector YamlHookConfig maxHookConfigs) :
    List.Vector YamlHookConfig maxHookConfigs :=
  .ofFn fun i => (hooks.getD i []).foldl YamlHookConfig.assign (table.get i)

/-! ## Names -/

/-- The name that `char hook_name[64]` keeps. -/
def YamlHookConfig.stored (config : YamlHookConfig) : YamlHookConfig :=
  { config with hookName := fitted hookNameSize (upToNul config.hookName) }

theorem stored_eq_self_iff {config : YamlHookConfig} :
    config.stored = config ↔
      config.hookName.length < hookNameSize ∧ (0 : UInt8) ∉ config.hookName := by
  rw [← fitted_upToNul_eq_self_iff (by decide)]
  cases config
  simp only [YamlHookConfig.stored, YamlHookConfig.mk.injEq, and_self, and_true]

theorem stored_stored (config : YamlHookConfig) : config.stored.stored = config.stored := by
  rw [stored_eq_self_iff]
  refine ⟨?_, zero_notMem_fitted _ _⟩
  exact (List.length_take_le _ _).trans_lt (by decide)

/-- Keeping a name short makes no difference to what is assigned later. -/
theorem stored_assign {a b : YamlHookConfig} (h : a.stored = b.stored) (entry : Bytes × Bytes) :
    (a.assign entry).stored = (b.assign entry).stored := by
  simp only [YamlHookConfig.stored, YamlHookConfig.mk.injEq] at h
  obtain ⟨hname, henabled, hmeasure, happraise, henforce⟩ := h
  unfold YamlHookConfig.assign
  repeat' split
  all_goals simp only [YamlHookConfig.stored, hname, henabled, hmeasure, happraise, henforce]

theorem stored_foldl_assign {a b : YamlHookConfig} (h : a.stored = b.stored)
    (hook : List (Bytes × Bytes)) :
    (hook.foldl YamlHookConfig.assign a).stored = (hook.foldl YamlHookConfig.assign b).stored := by
  induction hook generalizing a b with
  | nil => exact h
  | cons entry hook ih => exact ih (stored_assign h entry)

theorem hookName_assign (a b : YamlHookConfig) (entry : Bytes × Bytes) :
    (a.assign entry).hookName = (b.assign entry).hookName ∨
      (a.assign entry).hookName = a.hookName ∧ (b.assign entry).hookName = b.hookName := by
  unfold YamlHookConfig.assign
  repeat' split
  · exact .inl rfl
  all_goals exact .inr ⟨rfl, rfl⟩

theorem hookName_foldl_assign_congr {a b : YamlHookConfig} (h : a.hookName = b.hookName)
    (hook : List (Bytes × Bytes)) :
    (hook.foldl YamlHookConfig.assign a).hookName =
      (hook.foldl YamlHookConfig.assign b).hookName := by
  induction hook generalizing a b with
  | nil => exact h
  | cons entry hook ih =>
      refine ih ?_
      rcases hookName_assign a b entry with hsame | ⟨ha, hb⟩
      · exact hsame
      · rw [ha, hb, h]

/-- A hook has the name it was given, or the one it had. -/
theorem hookName_foldl_assign (config : YamlHookConfig) (hook : List (Bytes × Bytes)) :
    (hook.foldl YamlHookConfig.assign config).hookName = (writtenHook hook).hookName ∨
      (hook.foldl YamlHookConfig.assign config).hookName = config.hookName := by
  suffices h : ∀ a b : YamlHookConfig, (hook.foldl YamlHookConfig.assign a).hookName =
      (hook.foldl YamlHookConfig.assign b).hookName ∨
        (hook.foldl YamlHookConfig.assign a).hookName = a.hookName from h config .zero
  induction hook with
  | nil => exact fun a b => .inr rfl
  | cons entry hook ih =>
      intro a b
      rcases hookName_assign a b entry with hsame | ⟨ha, -⟩
      · exact .inl (hookName_foldl_assign_congr hsame hook)
      · exact (ih (a.assign entry) (b.assign entry)).imp_right fun hkept => hkept.trans ha

/-- Assigning a hook whose name has room to a row that has room keeps every name whole. -/
theorem stored_assigned {config : YamlHookConfig} {hook : List (Bytes × Bytes)}
    (hconfig : config.stored = config) (hhook : (writtenHook hook).stored = writtenHook hook) :
    (hook.foldl YamlHookConfig.assign config).stored =
      hook.foldl YamlHookConfig.assign config := by
  rw [stored_eq_self_iff] at hconfig hhook ⊢
  rcases hookName_foldl_assign config hook with h | h
  · rwa [h]
  · rwa [h]

/-! ## Reading a hook -/

/-- An entry that the parser understands in full. -/
structure Understood (entry : Bytes × Bytes) : Prop where
  key : entry.1 ∈ hookKeys
  boolean : entry.1 ≠ "name".ascii → (parseBool entry.2).isSome = true

theorem understood_iff {entry : Bytes × Bytes} :
    (hookKeys.contains entry.1 && (entry.1 == "name".ascii || (parseBool entry.2).isSome)) = true ↔
      Understood entry := by
  rw [Bool.and_eq_true, Bool.or_eq_true, List.contains_iff_mem, beq_iff_eq, or_iff_not_imp_left]
  exact ⟨fun h => ⟨h.1, h.2⟩, fun h => ⟨h.key, h.boolean⟩⟩

instance (entry : Bytes × Bytes) : Decidable (Understood entry) :=
  decidable_of_iff _ understood_iff

theorem zero_notMem_of_parseBool {value : Bytes} (h : (parseBool value).isSome = true) :
    (0 : UInt8) ∉ value := by
  intro hzero
  have hlower : (0 : UInt8) ∈ value.map toLower := List.mem_map.mpr ⟨0, hzero, rfl⟩
  have hno (text : Bytes) (htext : (0 : UInt8) ∉ text.map toLower) :
      strcasecmp value text = false := by
    rw [strcasecmp, beq_eq_false_iff_ne]
    intro heq
    exact htext (heq ▸ hlower)
  have hne (text : Bytes) (htext : (0 : UInt8) ∉ text) : value ≠ text := by
    rintro rfl
    exact htext hzero
  simp [parseBool, hno "true".ascii (by decide), hno "yes".ascii (by decide),
    hno "false".ascii (by decide), hno "no".ascii (by decide), hne "1".ascii (by decide),
    hne "0".ascii (by decide)] at h

/-- An entry that is understood is written as it is meant, as far as the name has room. -/
theorem Understood.dispatch {entry : Bytes × Bytes} (h : Understood entry)
    {config : YamlHookConfig} (hconfig : config.stored = config) :
    hookDispatcher (keyOf entry.1) (upToNul entry.2) config =
      some (config.assign entry).stored := by
  obtain ⟨key, value⟩ := entry
  have hkey := h.key
  have hboolean : key ≠ "name".ascii → (parseBool value).isSome = true := h.boolean
  simp only [hookKeys, List.mem_cons, List.not_mem_nil, or_false] at hkey
  -- The name is the only field that is not copied whole.
  have hname : fitted hookNameSize (upToNul config.hookName) = config.hookName :=
    congrArg YamlHookConfig.hookName hconfig
  have hwritten (set : UInt8 → YamlHookConfig) (hset : ∀ b, (set b).hookName = config.hookName)
      (hvalid : (parseBool value).isSome = true) :
      (parseBool (upToNul value)).map set = some (set ((parseBool value).getD 0)).stored := by
    obtain ⟨b, hb⟩ := Option.isSome_iff_exists.mp hvalid
    rw [upToNul_of_notMem (zero_notMem_of_parseBool hvalid), hb, Option.map_some, Option.getD_some,
      YamlHookConfig.stored, hset, hname, ← hset b]
  rcases hkey with rfl | rfl | rfl | rfl | rfl
  · rfl
  · exact hwritten (fun b => { config with enabled := b }) (fun _ => rfl) (hboolean (by decide))
  · exact hwritten (fun b => { config with measure := b }) (fun _ => rfl) (hboolean (by decide))
  · exact hwritten (fun b => { config with appraise := b }) (fun _ => rfl) (hboolean (by decide))
  · exact hwritten (fun b => { config with enforce := b }) (fun _ => rfl) (hboolean (by decide))

theorem Understood.keyOf_ne {entry : Bytes × Bytes} (h : Understood entry) :
    keyOf entry.1 ≠ [] := by
  have hall : hookKeys.all (fun key => decide (keyOf key ≠ [])) = true := by decide
  exact of_decide_eq_true (List.all_eq_true.mp hall _ h.key)

/-- A hook that is understood is read to its end. -/
theorem parseHookConfig_understood {hook : List (Bytes × Bytes)}
    (h : ∀ entry ∈ hook, Understood entry) {config : YamlHookConfig}
    (hconfig : config.stored = config) (rest : List Event) :
    parseHookConfig config ((flatScalars hook).map .scalar ++ .mappingEnd :: rest) =
      ⟨0, (hook.foldl YamlHookConfig.assign config).stored, rest⟩ := by
  induction hook generalizing config with
  | nil =>
      rw [List.foldl_nil, hconfig]
      rfl
  | cons entry hook ih =>
      have hentry := h entry List.mem_cons_self
      have hrest := ih (fun entry hmem => h entry (List.mem_cons_of_mem _ hmem))
        (stored_stored (config.assign entry))
      have hread : parseHookConfig config
          ((flatScalars (entry :: hook)).map .scalar ++ .mappingEnd :: rest) =
            parseHookConfig (config.assign entry).stored
              ((flatScalars hook).map .scalar ++ .mappingEnd :: rest) := by
        simp only [flatScalars, List.flatMap_cons, List.cons_append, List.nil_append,
          List.map_cons, parseHookConfig]
        rw [parseGenericMap_key, parseGenericMap_written hentry.keyOf_ne (hentry.dispatch hconfig)]
      rw [hread, hrest, List.foldl_cons]
      exact congrArg (Parse.mk 0 · rest) (stored_foldl_assign (stored_stored _) hook)

/-- A hook that is given up leaves scalars and its end to be skipped. -/
theorem parseHookConfig_scalars (key : Bytes) (config : YamlHookConfig) (values : List Bytes) :
    ∃ out, (∀ rest, parseGenericMap hookDispatcher key config
        (values.map .scalar ++ .mappingEnd :: rest) = ⟨0, out, rest⟩) ∨
      ∃ left : List Bytes, ∀ rest, parseGenericMap hookDispatcher key config
        (values.map .scalar ++ .mappingEnd :: rest) =
          ⟨-1, out, left.map .scalar ++ .mappingEnd :: rest⟩ := by
  induction values generalizing key config with
  | nil => exact ⟨config, .inl fun rest => rfl⟩
  | cons value values ih =>
      by_cases hkey : key = []
      · subst hkey
        exact ih (keyOf value) config
      · cases hout : hookDispatcher key (upToNul value) config with
        | none => exact ⟨config, .inr ⟨values, fun rest => parseGenericMap_refused hkey hout⟩⟩
        | some out =>
            obtain ⟨final, hread | ⟨left, hread⟩⟩ := ih [] out
            · exact ⟨final, .inl fun rest =>
                (parseGenericMap_written hkey hout).trans (hread rest)⟩
            · exact ⟨final, .inr ⟨left, fun rest =>
                (parseGenericMap_written hkey hout).trans (hread rest)⟩⟩

theorem parseHooksSection_skip (table : List.Vector YamlHookConfig maxHookConfigs) (count : ℕ)
    (values : List Bytes) (rest : List Event) :
    parseHooksSection table count (values.map .scalar ++ .mappingEnd :: rest) =
      parseHooksSection table count rest := by
  induction values with
  | nil =>
      rw [List.map_nil, List.nil_append, parseHooksSection]
      all_goals simp
  | cons value values ih =>
      rw [List.map_cons, List.cons_append, parseHooksSection]
      · exact ih
      all_goals simp

/-! ## Rows hold what they have room for -/

theorem hookDispatcher_stored {key value : Bytes} {config out : YamlHookConfig}
    (hconfig : config.stored = config)
    (h : hookDispatcher key (upToNul value) config = some out) : out.stored = out := by
  rw [stored_eq_self_iff] at hconfig ⊢
  obtain ⟨handler, hhandler, hout⟩ := Option.bind_eq_some_iff.mp h
  have hentry := mem_of_lookup hhandler
  simp only [hookHandlers, List.mem_cons, Prod.mk.injEq, List.not_mem_nil, or_false] at hentry
  rcases hentry with ⟨-, rfl⟩ | ⟨-, rfl⟩ | ⟨-, rfl⟩ | ⟨-, rfl⟩ | ⟨-, rfl⟩
  · obtain rfl := Option.some.inj hout
    exact ⟨(List.length_take_le _ _).trans_lt (by decide), zero_notMem_fitted _ _⟩
  all_goals
    obtain ⟨b, -, rfl⟩ := Option.map_eq_some_iff.mp hout
    exact hconfig

/-- Every row is its own stored form. -/
def RowsStored (table : List.Vector YamlHookConfig maxHookConfigs) : Prop :=
  ∀ i, (table.get i).stored = table.get i

theorem RowsStored.set {table : List.Vector YamlHookConfig maxHookConfigs} (h : RowsStored table)
    {config : YamlHookConfig} (hconfig : config.stored = config) (i : Fin maxHookConfigs) :
    RowsStored (table.set i config) := by
  intro j
  by_cases hij : i = j
  · rw [hij, List.Vector.get_set_same, hconfig]
  · rw [List.Vector.get_set_of_ne hij, h j]

theorem parseHooksSection_stored {table : List.Vector YamlHookConfig maxHookConfigs}
    (h : RowsStored table) (count : ℕ) (events : List Event) :
    RowsStored (parseHooksSection table count events).out := by
  fun_induction parseHooksSection table count events with
  | case1 | case4 => exact h
  | case2 table count events hroom parsed ih =>
      refine ih (h.set ?_ _)
      exact parseGenericMap_invariant (fun _ _ _ _ => hookDispatcher_stored) _ _ _ (h _)
  | case3 table count events hroom ih => exact ih h
  | case5 table count event events _ _ ih => exact ih h

theorem kept_rowsStored (strtoul : Strtoul) :
    Kept strtoul fun config _ => RowsStored config.hooks where
  policy _ _ _ h := h
  filters _ _ _ h := h
  hooks _ _ events h := parseHooksSection_stored h 0 events

theorem rowsStored_zero : RowsStored (.replicate _ .zero) := by
  intro i
  rw [List.Vector.get_replicate]
  rfl

theorem rowsStored_hooksEffect (strtoul : Strtoul) (entries : List Event)
    {table : List.Vector YamlHookConfig maxHookConfigs} (h : RowsStored table) :
    RowsStored (hooksEffect strtoul entries table) :=
  (parseEvents_agree (kept_rowsStored strtoul) [] (b := clearedConfig) h _).out

/-! ## Reading the section -/

theorem parseHooksSection_hookEvents (table : List.Vector YamlHookConfig maxHookConfigs)
    (count : ℕ) (hook : List (Bytes × Bytes)) :
    ∃ table' count', ∀ rest, parseHooksSection table count (hookEvents hook ++ rest) =
      parseHooksSection table' count' rest := by
  simp only [hookEvents, List.cons_append, List.append_assoc, List.nil_append]
  by_cases hroom : count < maxHookConfigs
  · obtain ⟨out, hread | ⟨left, hread⟩⟩ := parseHookConfig_scalars [] (table.get ⟨count, hroom⟩)
      (flatScalars hook)
    · refine ⟨table.set ⟨count, hroom⟩ out, count + 1, fun rest => ?_⟩
      rw [parseHooksSection_hook hroom, parseHookConfig, hread, if_pos rfl]
    · refine ⟨table.set ⟨count, hroom⟩ out, count, fun rest => ?_⟩
      rw [parseHooksSection_hook hroom, parseHookConfig, hread,
        if_neg (show (-1 : ℤ) ≠ 0 by decide)]
      exact parseHooksSection_skip _ _ _ _
  · refine ⟨table, count, fun rest => ?_⟩
    rw [parseHooksSection_full hroom]
    exact parseHooksSection_skip _ _ _ _

/-- The section ends with its own sequence, whatever is in it. -/
theorem parseHooksSection_ends (table : List.Vector YamlHookConfig maxHookConfigs) (count : ℕ)
    (hooks : List (List (Bytes × Bytes))) :
    ∃ table', ∃ count' : ℕ, ∀ rest, parseHooksSection table count
      (hooks.flatMap hookEvents ++ .sequenceEnd :: rest) = ⟨count', table', rest⟩ := by
  induction hooks generalizing table count with
  | nil => exact ⟨table, count, fun rest => by
      rw [List.flatMap_nil, List.nil_append, parseHooksSection]⟩
  | cons hook hooks ih =>
      obtain ⟨table₁, count₁, hhook⟩ := parseHooksSection_hookEvents table count hook
      obtain ⟨table₂, count₂, hhooks⟩ := ih table₁ count₁
      refine ⟨table₂, count₂, fun rest => ?_⟩
      rw [List.flatMap_cons, List.append_assoc, hhook, hhooks]

/-- The table that the section leaves. -/
def sectionTable (hooks : List (List (Bytes × Bytes)))
    (table : List.Vector YamlHookConfig maxHookConfigs) :
    List.Vector YamlHookConfig maxHookConfigs :=
  (parseHooksSection table 0 (hooks.flatMap hookEvents ++ [.sequenceEnd])).out

theorem parseEvents_hooksEvents (strtoul : Strtoul) (hooks : List (List (Bytes × Bytes)))
    (key : Bytes) (config : YamlConfig) (more : List Event) :
    parseEvents strtoul key config (hooksEvents hooks ++ more) =
      parseEvents strtoul [] { config with hooks := sectionTable hooks config.hooks } more := by
  obtain ⟨table, count, hread⟩ := parseHooksSection_ends config.hooks 0 hooks
  have hkey : keyOf "hooks".ascii = "hooks".ascii := by decide
  simp only [hooksEvents, List.cons_append, List.append_assoc, List.nil_append]
  rw [parseEvents, hkey, parseEvents_hooks, sectionTable, hread, hread, Parse.andThen,
    if_neg (not_lt.mpr (Int.natCast_nonneg count))]

theorem closed_hooksEvents (hooks : List (List (Bytes × Bytes))) : Closed (hooksEvents hooks) := by
  refine .scalar _ (.sequence (.flatMap fun hook _ => ?_) .nil)
  exact .mapping (.scalars _) .nil

/-- The section itself is never refused. -/
theorem readEntries_hooksEvents (strtoul : Strtoul) (hooks : List (List (Bytes × Bytes)))
    (config : YamlConfig) (after : List Event) :
    readEntries strtoul config (hooksEvents hooks ++ after) =
      readEntries strtoul { config with hooks := sectionTable hooks config.hooks } after := by
  rw [readEntries, List.append_assoc, parseEvents_hooksEvents, readEntries]

theorem refused_hooksEvents_append {strtoul : Strtoul} {hooks : List (List (Bytes × Bytes))}
    {after : List Event} :
    Refused strtoul (hooksEvents hooks ++ after) ↔ Refused strtoul after := by
  rw [Refused, readEntries_hooksEvents, readEntries_ret, Refused]

/-- Hooks that are understood go to the next rows. -/
theorem parseHooksSection_understood {hooks : List (List (Bytes × Bytes))}
    (h : ∀ hook ∈ hooks, ∀ entry ∈ hook, Understood entry) {count : ℕ}
    (hroom : count + hooks.length ≤ maxHookConfigs)
    {table : List.Vector YamlHookConfig maxHookConfigs}
    (htable : RowsStored table) (rest : List Event) (i : Fin maxHookConfigs) :
    (parseHooksSection table count
        (hooks.flatMap hookEvents ++ .sequenceEnd :: rest)).out.get i =
      if count ≤ i.val then
        ((hooks.getD (i.val - count) []).foldl YamlHookConfig.assign (table.get i)).stored
      else table.get i := by
  induction hooks generalizing count table with
  | nil =>
      rw [List.flatMap_nil, List.nil_append, parseHooksSection]
      simp [htable i]
  | cons hook hooks ih =>
      have hcount : count < maxHookConfigs := by
        rw [List.length_cons] at hroom
        omega
      have hread := parseHookConfig_understood (h hook List.mem_cons_self)
        (htable ⟨count, hcount⟩) (hooks.flatMap hookEvents ++ .sequenceEnd :: rest)
      have hnext : parseHooksSection table count
          ((hook :: hooks).flatMap hookEvents ++ .sequenceEnd :: rest) =
            parseHooksSection (table.set ⟨count, hcount⟩
                (hook.foldl YamlHookConfig.assign (table.get ⟨count, hcount⟩)).stored) (count + 1)
              (hooks.flatMap hookEvents ++ .sequenceEnd :: rest) := by
        simp only [List.flatMap_cons, hookEvents, List.cons_append, List.append_assoc,
          List.nil_append]
        rw [parseHooksSection_hook hcount, hread, if_pos rfl]
      rw [hnext, ih (fun hook hmem => h hook (List.mem_cons_of_mem _ hmem))
        (by rw [List.length_cons] at hroom; omega) (htable.set (stored_stored _) _)]
      exact get_set_row hcount table (fun d row =>
        (((hook :: hooks).getD d []).foldl YamlHookConfig.assign row).stored) i

/-! ## Faithful or refused -/

/-- The section and the table that was made from it say the same. -/
structure HooksAsWritten (hooks : List (List (Bytes × Bytes)))
    (table : List.Vector YamlHookConfig maxHookConfigs) : Prop where
  keys : ∀ hook ∈ hooks, ∀ entry ∈ hook, entry.1 ∈ hookKeys
  booleans : ∀ hook ∈ hooks, ∀ entry ∈ hook, entry.1 ≠ "name".ascii →
    (parseBool entry.2).isSome = true
  count : hooks.length ≤ maxHookConfigs
  table : table.toList =
    hooks.map writtenHook ++ List.replicate (maxHookConfigs - hooks.length) .zero

/-- The entry `hooks` between other entries of a document is parsed faithfully, or the
document is rejected. -/
def HooksFaithful (strtoul : Strtoul) (before : List Event) (hooks : List (List (Bytes × Bytes)))
    (after rest : List Event) (memory : YamlConfig) : Prop :=
  (parseYamlPolicy strtoul (some (documentEvents (before ++ (hooksEvents hooks ++ after)) rest))
      memory).1 = 0 →
    HooksAsWritten hooks (parseYamlPolicy strtoul
      (some (documentEvents (before ++ (hooksEvents hooks ++ after)) rest)) memory).2.hooks

/-- Every entry is understood, every hook has a row and every name has room in it. -/
structure HooksReadable (hooks : List (List (Bytes × Bytes))) : Prop where
  understood : ∀ hook ∈ hooks, ∀ entry ∈ hook, Understood entry
  count : hooks.length ≤ maxHookConfigs
  names : ∀ hook ∈ hooks, (writtenHook hook).hookName.length < hookNameSize ∧
    (0 : UInt8) ∉ (writtenHook hook).hookName

/-- What else in the document is taken for a hooks section leaves the rows as this one alone
fills them. -/
def HooksUndisturbed (strtoul : Strtoul) (before : List Event)
    (hooks : List (List (Bytes × Bytes))) (after : List Event) : Prop :=
  hooksEffect strtoul after (fillHooks hooks (hooksEffect strtoul before (.replicate _ .zero))) =
    fillHooks hooks (.replicate _ .zero)

theorem toList_fillHooks_zero {hooks : List (List (Bytes × Bytes))}
    (h : hooks.length ≤ maxHookConfigs) :
    (fillHooks hooks (.replicate _ .zero)).toList =
      hooks.map writtenHook ++ List.replicate (maxHookConfigs - hooks.length) .zero := by
  have hrows : fillHooks hooks (.replicate _ .zero) =
      .ofFn fun i => (hooks.map writtenHook).getD i .zero := by
    refine List.Vector.ext fun i => ?_
    rw [fillHooks, List.Vector.get_ofFn, List.Vector.get_ofFn, List.Vector.get_replicate]
    exact (List.getD_map hooks [] writtenHook).symm
  rw [hrows, toList_ofFn_getD (by rwa [List.length_map]), List.length_map]

theorem writtenHook_getD_stored {hooks : List (List (Bytes × Bytes))}
    (h : ∀ hook ∈ hooks, (writtenHook hook).stored = writtenHook hook) (i : ℕ) :
    (writtenHook (hooks.getD i [])).stored = writtenHook (hooks.getD i []) := by
  rw [List.getD_eq_getElem?_getD]
  cases hget : hooks[i]? with
  | none => rfl
  | some hook => exact h hook (List.mem_of_getElem? hget)

theorem HooksReadable.sectionTable_eq {hooks : List (List (Bytes × Bytes))}
    (h : HooksReadable hooks) {table : List.Vector YamlHookConfig maxHookConfigs}
    (htable : RowsStored table) : sectionTable hooks table = fillHooks hooks table := by
  refine List.Vector.ext fun i => ?_
  have hstored := writtenHook_getD_stored
    (fun hook hmem => stored_eq_self_iff.mpr (h.names hook hmem)) i
  rw [sectionTable, parseHooksSection_understood h.understood (by simpa using h.count) htable [] i,
    if_pos (Nat.zero_le _), Nat.sub_zero, fillHooks, List.Vector.get_ofFn]
  exact stored_assigned (htable i) hstored

/-- A table that is as written has rows only for names that have room. -/
theorem HooksAsWritten.readable {hooks : List (List (Bytes × Bytes))}
    {table : List.Vector YamlHookConfig maxHookConfigs} (h : HooksAsWritten hooks table)
    (htable : RowsStored table) : HooksReadable hooks := by
  refine ⟨fun hook hhook entry hentry => ⟨h.keys hook hhook entry hentry,
    h.booleans hook hhook entry hentry⟩, h.count, fun hook hhook => ?_⟩
  have hmem : writtenHook hook ∈ table.toList := by
    rw [h.table]
    exact List.mem_append_left _ (List.mem_map_of_mem hhook)
  obtain ⟨i, hi⟩ := (List.Vector.mem_iff_get _ _).mp hmem
  rw [← hi, ← stored_eq_self_iff]
  exact htable i

/-- The hooks section of a document is parsed faithfully or rejected exactly if the document
is rejected for one of its other entries, or if the section is readable and nothing else in
the document is taken for one. -/
theorem hooks_faithful_iff (strtoul : Strtoul) {m n : ℕ} {before after : List Event}
    (hbefore : Nodes (2 * m) before) (hafter : Nodes (2 * n) after)
    (hooks : List (List (Bytes × Bytes))) (rest : List Event) (memory : YamlConfig) :
    HooksFaithful strtoul before hooks after rest memory ↔
      Refused strtoul before ∨ Refused strtoul after ∨
        HooksReadable hooks ∧ HooksUndisturbed strtoul before hooks after := by
  have hentries := (closed_hooksEvents hooks).append hafter.closed
  unfold HooksFaithful
  by_cases hrefused : Refused strtoul before ∨ Refused strtoul after
  · have hret := parseYamlPolicy_refused hbefore.closed hentries rfl rest memory
      (hrefused.imp_right refused_hooksEvents_append.mpr)
    exact ⟨fun _ => or_assoc.mp (.inl hrefused), fun _ h => absurd h hret⟩
  · obtain ⟨hb, ha⟩ := not_or.mp hrefused
    rw [parseYamlPolicy_taken hbefore.closed hentries rfl rest memory hb
      (refused_hooksEvents_append.not.mpr ha)]
    simp only [readEntries_hooksEvents, readEntries_hooks, hb, ha, false_or, true_implies]
    have hzero : hooksEffect strtoul before clearedConfig.hooks =
        hooksEffect strtoul before (.replicate _ .zero) := rfl
    have hfirst : RowsStored (hooksEffect strtoul before (.replicate _ .zero)) :=
      rowsStored_hooksEffect strtoul before rowsStored_zero
    rw [hzero]
    constructor
    · intro h
      have hreadable := h.readable
        (rowsStored_hooksEffect strtoul after (parseHooksSection_stored hfirst 0 _))
      refine ⟨hreadable, List.Vector.toList_injective ?_⟩
      rw [← hreadable.sectionTable_eq hfirst, h.table, toList_fillHooks_zero h.count]
    · rintro ⟨hreadable, hundisturbed⟩
      rw [hreadable.sectionTable_eq hfirst, hundisturbed]
      exact ⟨fun hook hhook entry hmem => (hreadable.understood hook hhook entry hmem).key,
        fun hook hhook entry hmem => (hreadable.understood hook hhook entry hmem).boolean,
        hreadable.count, toList_fillHooks_zero hreadable.count⟩

/-- Two hooks behind a policy section, and an entry that only mentions hooks. -/
def twoHooks : List (List (Bytes × Bytes)) :=
  [[("name".ascii, "lsm_socket_connect".ascii), ("enabled".ascii, "true".ascii)],
    [("name".ascii, "lsm_file_open".ascii), ("measure".ascii, "No".ascii)]]

theorem hooks_faithful_iff_twoHooks :
    HooksReadable twoHooks ∧
      HooksFaithful decimalStrtoul measuringPolicy twoHooks
        [.scalar "note".ascii, .scalar "hooks".ascii] [.streamEnd] clearedConfig := by
  have hreadable : HooksReadable twoHooks := ⟨by decide, by decide, by decide⟩
  have hnote : Nodes (2 * 1) [.scalar "note".ascii, .scalar "hooks".ascii] :=
    .scalar _ (.scalar _ .nil)
  refine ⟨hreadable,
    (hooks_faithful_iff decimalStrtoul nodes_measuringPolicy hnote twoHooks _ _).mpr ?_⟩
  refine .inr (.inr ⟨hreadable, ?_⟩)
  unfold HooksUndisturbed
  decide +kernel

/-- A hook with a value that is no boolean is given up in the middle, and the document taken. -/
theorem not_hooksFaithful_maybe :
    ¬ HooksFaithful decimalStrtoul []
      [[("name".ascii, "lsm_file_open".ascii), ("enabled".ascii, "maybe".ascii)]] []
      [.streamEnd] clearedConfig := by
  intro h
  have htaken := h (by decide +kernel)
  exact absurd htaken.booleans (by decide)

end BpfIma
