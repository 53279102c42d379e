import BpfIma.Model.YamlParser
import Mathlib.Data.List.GetD

/-! # Sections of a YAML document

The loops of the parser stop at the first end event of their kind and do not count what is
open. In a document they still never leave the node they were called for, so its entries are
read one after the other. -/

namespace BpfIma

open CString LibYaml

/-! ## Rows -/

/-- Filling the rows from `count` on: the first of them, and then those from the next on. -/
theorem get_set_row {α : Type} {n count : ℕ} (hcount : count < n) (rows : List.Vector α n)
    (fill : ℕ → α → α) (i : Fin n) :
    (if count + 1 ≤ i.val then
        fill (i.val - (count + 1) + 1)
          ((rows.set ⟨count, hcount⟩ (fill 0 (rows.get ⟨count, hcount⟩))).get i)
      else (rows.set ⟨count, hcount⟩ (fill 0 (rows.get ⟨count, hcount⟩))).get i) =
      if count ≤ i.val then fill (i.val - count) (rows.get i) else rows.get i := by
  by_cases hi : (⟨count, hcount⟩ : Fin n) = i
  · subst hi
    rw [if_neg (by simp), if_pos (le_refl _), List.Vector.get_set_same, Nat.sub_self]
  · rw [List.Vector.get_set_of_ne hi]
    have hne : count ≠ i.val := fun heq => hi (Fin.ext heq)
    by_cases hle : count ≤ i.val
    · have hnext : i.val - (count + 1) + 1 = i.val - count := by omega
      rw [if_pos (by omega), if_pos hle, hnext]
    · rw [if_neg (by omega), if_neg hle]

/-- Rows filled from the first on, the others left at a default. -/
theorem toList_ofFn_getD {α : Type} {n : ℕ} {items : List α} (h : items.length ≤ n) (d : α) :
    (List.Vector.ofFn fun i : Fin n => items.getD i d).toList =
      items ++ List.replicate (n - items.length) d := by
  rw [List.Vector.toList_ofFn]
  apply List.ext_getElem
  · simp
    omega
  · intro i hi hi'
    rw [List.getElem_ofFn]
    by_cases hlt : i < items.length
    · rw [List.getElem_append_left hlt, List.getD_eq_getElem _ _ hlt]
    · rw [List.getElem_append_right (not_lt.mp hlt), List.getElem_replicate,
        List.getD_eq_default _ _ (not_lt.mp hlt)]

/-! ## One round of each loop -/

section Rounds

variable {σ : Type} {dispatcher : Bytes → Bytes → σ → Option σ} {key value : Bytes} {ctx out : σ}
  {events : List Event}

theorem parseGenericMap_key :
    parseGenericMap dispatcher [] ctx (.scalar value :: events) =
      parseGenericMap dispatcher (keyOf value) ctx events :=
  if_pos rfl

theorem parseGenericMap_written (hkey : key ≠ [])
    (h : dispatcher key (upToNul value) ctx = some out) :
    parseGenericMap dispatcher key ctx (.scalar value :: events) =
      parseGenericMap dispatcher [] out events := by
  rw [parseGenericMap, if_neg hkey, h]

theorem parseGenericMap_refused (hkey : key ≠ [])
    (h : dispatcher key (upToNul value) ctx = none) :
    parseGenericMap dispatcher key ctx (.scalar value :: events) = ⟨-1, ctx, events⟩ := by
  rw [parseGenericMap, if_neg hkey, h]

theorem parseStringSequence_row {n count : ℕ} {patterns : List.Vector Bytes n}
    (h : count < n ∧ value.length < maxPatternLen) :
    parseStringSequence patterns count (.scalar value :: events) =
      parseStringSequence (patterns.set ⟨count, h.1⟩ (fitted 255 (upToNul value))) (count + 1)
        events := by
  rw [parseStringSequence, dif_pos h]

theorem parseStringSequence_refused {n count : ℕ} {patterns : List.Vector Bytes n}
    (h : ¬ (count < n ∧ value.length < maxPatternLen)) :
    parseStringSequence patterns count (.scalar value :: events) = ⟨-1, patterns, events⟩ := by
  rw [parseStringSequence, dif_neg h]

theorem parseFiltersSection_cgroups (filters : YamlFilters) :
    parseFiltersSection "cgroup_patterns".ascii filters (.sequenceStart :: events) =
      (parseStringSequence filters.cgroups 0 events).andThen
        (fun cgroups => { filters with cgroups := cgroups })
        (fun k => parseFiltersSection k.1 k.2) := by
  rw [parseFiltersSection, if_pos rfl]
  rfl

theorem parseFiltersSection_paths (filters : YamlFilters) :
    parseFiltersSection "path_patterns".ascii filters (.sequenceStart :: events) =
      (parseStringSequence filters.paths 0 events).andThen
        (fun paths => { filters with paths := paths }) (fun k => parseFiltersSection k.1 k.2) := by
  rw [parseFiltersSection, if_neg (by decide), if_pos rfl]
  rfl

theorem parseFiltersSection_other (hcgroups : key ≠ "cgroup_patterns".ascii)
    (hpaths : key ≠ "path_patterns".ascii) (filters : YamlFilters) :
    parseFiltersSection key filters (.sequenceStart :: events) =
      parseFiltersSection [] filters events := by
  rw [parseFiltersSection, if_neg hcgroups, if_neg hpaths]

theorem parseHooksSection_hook {count : ℕ} {hooks : List.Vector YamlHookConfig maxHookConfigs}
    (h : count < maxHookConfigs) :
    parseHooksSection hooks count (.mappingStart :: events) =
      parseHooksSection
        (hooks.set ⟨count, h⟩ (parseHookConfig (hooks.get ⟨count, h⟩) events).out)
        (if (parseHookConfig (hooks.get ⟨count, h⟩) events).ret = 0 then count + 1 else count)
        (parseHookConfig (hooks.get ⟨count, h⟩) events).rest := by
  rw [parseHooksSection, dif_pos h]

theorem parseHooksSection_full {count : ℕ} {hooks : List.Vector YamlHookConfig maxHookConfigs}
    (h : ¬ count < maxHookConfigs) :
    parseHooksSection hooks count (.mappingStart :: events) =
      parseHooksSection hooks count events := by
  rw [parseHooksSection, dif_neg h]

end Rounds

section Document

variable (strtoul : Strtoul) {key : Bytes} (config : YamlConfig) {events : List Event}

theorem parseEvents_policy :
    parseEvents strtoul "policy".ascii config (.mappingStart :: events) =
      (parsePolicySection strtoul config.policy events).andThen
        (fun policy => { config with policy := policy })
        (fun k => parseEvents strtoul k.1 k.2) := by
  rw [parseEvents, if_pos rfl]
  rfl

theorem parseEvents_filters :
    parseEvents strtoul "filters".ascii config (.mappingStart :: events) =
      (parseFiltersSection [] config.filters events).andThen
        (fun filters => { config with filters := filters })
        (fun k => parseEvents strtoul k.1 k.2) := by
  rw [parseEvents, if_neg (by decide), if_pos rfl]
  rfl

theorem parseEvents_otherMapping (hpolicy : key ≠ "policy".ascii)
    (hfilters : key ≠ "filters".ascii) :
    parseEvents strtoul key config (.mappingStart :: events) =
      parseEvents strtoul [] config events := by
  rw [parseEvents, if_neg hpolicy, if_neg hfilters]

theorem parseEvents_hooks :
    parseEvents strtoul "hooks".ascii config (.sequenceStart :: events) =
      (parseHooksSection config.hooks 0 events).andThen
        (fun hooks => { config with hooks := hooks }) (fun k => parseEvents strtoul k.1 k.2) := by
  rw [parseEvents, if_pos rfl]
  rfl

theorem parseEvents_otherSequence (hhooks : key ≠ "hooks".ascii) :
    parseEvents strtoul key config (.sequenceStart :: events) =
      parseEvents strtoul [] config events := by
  rw [parseEvents, if_neg hhooks]

end Document

/-! ## Dispatch -/

/-- A handler that a table yields is one of its entries. -/
theorem mem_of_lookup {α : Type} {table : List (Bytes × α)} {key : Bytes} {handler : α}
    (h : table.lookup key = some handler) : (key, handler) ∈ table := by
  induction table with
  | nil => cases h
  | cons entry table ih =>
      obtain ⟨name, first⟩ := entry
      rw [List.lookup_cons] at h
      split at h
      · rename_i hkey
        obtain rfl := Option.some.inj h
        rw [eq_of_beq hkey]
        exact List.mem_cons_self
      · exact List.mem_cons_of_mem _ (ih h)

/-- What one dispatch keeps, a mapping keeps. -/
theorem parseGenericMap_invariant {σ : Type} {dispatcher : Bytes → Bytes → σ → Option σ}
    {I : σ → Prop}
    (hstep : ∀ key value ctx out, I ctx → dispatcher key (upToNul value) ctx = some out → I out)
    (key : Bytes) (ctx : σ) (events : List Event) (hctx : I ctx) :
    I (parseGenericMap dispatcher key ctx events).out := by
  fun_induction parseGenericMap dispatcher key ctx events with
  | case1 => exact hctx
  | case2 ctx value events ih => exact ih hctx
  | case3 key ctx value events hkey hrefused => exact hctx
  | case4 key ctx value events hkey out hout ih => exact ih (hstep _ _ _ _ hctx hout)
  | case5 key ctx events => exact hctx
  | case6 key ctx event events _ _ ih => exact ih hctx

/-! ## Staying within a node -/

theorem parseGenericMap_passes {σ : Type} (dispatcher : Bytes → Bytes → σ → Option σ)
    (k : Bytes × σ) (events : List Event) :
    Passes (fun k => parseGenericMap dispatcher k.1 k.2) (fun _ => True) k events := by
  induction events generalizing k with
  | nil => exact .crosses k fun _ => rfl
  | cons event events ih =>
      obtain ⟨key, ctx⟩ := k
      cases event with
      | scalar value =>
          by_cases hkey : key = []
          · subst hkey
            exact .cons (fun more => parseGenericMap_key) (ih (keyOf value, ctx))
          · cases hdispatch : dispatcher key (upToNul value) ctx with
            | none => exact .stop trivial fun more => parseGenericMap_refused hkey hdispatch
            | some out =>
                exact .cons (fun more => parseGenericMap_written hkey hdispatch) (ih ([], out))
      | mappingEnd => exact .stop trivial fun more => rfl
      | _ => exact .cons (fun more => rfl) (ih (key, ctx))

/-- A mapping is left at the latest with its own end. -/
theorem parseGenericMap_within {σ : Type} (dispatcher : Bytes → Bytes → σ → Option σ)
    (key : Bytes) (ctx : σ) (entries rest : List Event) :
    ∃ parse, Within (parseGenericMap dispatcher key ctx) (entries ++ .mappingEnd :: rest) parse :=
  (parseGenericMap_passes dispatcher (key, ctx) entries).within fun k => ⟨0, k.2, fun _ => rfl⟩

theorem parseStringSequence_passes {n : ℕ} (k : List.Vector Bytes n × ℕ) (events : List Event) :
    Passes (fun k => parseStringSequence k.1 k.2) (fun _ => True) k events := by
  induction events generalizing k with
  | nil => exact .crosses k fun _ => rfl
  | cons event events ih =>
      obtain ⟨patterns, count⟩ := k
      cases event with
      | scalar value =>
          by_cases hroom : count < n ∧ value.length < maxPatternLen
          · exact .cons (fun more => parseStringSequence_row hroom)
              (ih (patterns.set ⟨count, hroom.1⟩ (fitted 255 (upToNul value)), count + 1))
          · exact .stop trivial fun more => parseStringSequence_refused hroom
      | sequenceEnd => exact .stop trivial fun more => rfl
      | _ => exact .cons (fun more => rfl) (ih (patterns, count))

theorem parseStringSequence_within {n : ℕ} (patterns : List.Vector Bytes n) (count : ℕ)
    (items rest : List Event) :
    ∃ parse, Within (parseStringSequence patterns count) (items ++ .sequenceEnd :: rest) parse :=
  (parseStringSequence_passes (patterns, count) items).within fun k => ⟨k.2, k.1, fun _ => rfl⟩

theorem parseFiltersSection_passes {events : List Event} (h : Closed events)
    (k : Bytes × YamlFilters) :
    Passes (fun k => parseFiltersSection k.1 k.2) (fun _ => True) k events := by
  refine passes_of_closed (fun event events hclosed ih k => ?_) h k
  obtain ⟨key, filters⟩ := k
  have hself := fun k => ih events List.suffix_rfl k
  cases event with
  | scalar value =>
      exact .cons (fun more => by rw [parseFiltersSection])
        (hself (if key = [] then keyOf value else key, filters))
  | sequenceStart =>
      obtain ⟨items, rest, rfl, -⟩ := hclosed.sequence_inv
      by_cases hcgroups : key = "cgroup_patterns".ascii
      · obtain ⟨parse, hwithin⟩ := parseStringSequence_within filters.cgroups 0 items rest
        subst hcgroups
        exact .andThen hwithin trivial (fun more => parseFiltersSection_cgroups filters)
          (ih _ hwithin.suffix _)
      · by_cases hpaths : key = "path_patterns".ascii
        · obtain ⟨parse, hwithin⟩ := parseStringSequence_within filters.paths 0 items rest
          subst hpaths
          exact .andThen hwithin trivial (fun more => parseFiltersSection_paths filters)
            (ih _ hwithin.suffix _)
        · exact .cons (fun more => parseFiltersSection_other hcgroups hpaths filters)
            (hself ([], filters))
  | mappingEnd => exact .stop trivial fun more => by rw [parseFiltersSection]
  | _ => exact .cons (fun more => by rw [parseFiltersSection] <;> simp) (hself (key, filters))

theorem parseFiltersSection_within {entries : List Event} (h : Closed entries) (key : Bytes)
    (filters : YamlFilters) (rest : List Event) :
    ∃ parse, Within (parseFiltersSection key filters) (entries ++ .mappingEnd :: rest) parse :=
  (parseFiltersSection_passes h (key, filters)).within fun k =>
    ⟨0, k.2, fun _ => by rw [parseFiltersSection]⟩

theorem parseHooksSection_passes {events : List Event} (h : Closed events)
    (k : List.Vector YamlHookConfig maxHookConfigs × ℕ) :
    Passes (fun k => parseHooksSection k.1 k.2) (fun _ => True) k events := by
  refine passes_of_closed (fun event events hclosed ih k => ?_) h k
  obtain ⟨hooks, count⟩ := k
  have hself := fun k => ih events List.suffix_rfl k
  cases event with
  | mappingStart =>
      by_cases hroom : count < maxHookConfigs
      · obtain ⟨entries, rest, rfl, -⟩ := hclosed.mapping_inv
        obtain ⟨parse, hwithin⟩ := parseGenericMap_within hookDispatcher []
          (hooks.get ⟨count, hroom⟩) entries rest
        -- The loop goes on behind what the mapping's own loop has read of it.
        refine .of_eq (hwithin.suffix.trans (List.suffix_cons _ _)) (fun more => ?_)
          (ih _ hwithin.suffix (hooks.set ⟨count, hroom⟩ parse.out,
            if parse.ret = 0 then count + 1 else count))
        have hcall := hwithin.eq more
        rw [List.cons_append, parseHooksSection_hook hroom, parseHookConfig, hcall]
      · exact .cons (fun more => parseHooksSection_full hroom) (hself (hooks, count))
  | sequenceEnd => exact .stop trivial fun more => by rw [parseHooksSection]
  | _ => exact .cons (fun more => by rw [parseHooksSection] <;> simp) (hself (hooks, count))

theorem parseHooksSection_within {items : List Event} (h : Closed items)
    (hooks : List.Vector YamlHookConfig maxHookConfigs) (count : ℕ) (rest : List Event) :
    ∃ parse, Within (parseHooksSection hooks count) (items ++ .sequenceEnd :: rest) parse :=
  (parseHooksSection_passes h (hooks, count)).within fun k =>
    ⟨k.2, k.1, fun _ => by rw [parseHooksSection]⟩

/-- Within a document, the outer loop only stops where a section is refused. -/
theorem parseEvents_passes (strtoul : Strtoul) {events : List Event} (h : Closed events)
    (k : Bytes × YamlConfig) :
    Passes (fun k => parseEvents strtoul k.1 k.2) (· = -1) k events := by
  refine passes_of_closed (fun event events hclosed ih k => ?_) h k
  obtain ⟨key, config⟩ := k
  have hself := fun k => ih events List.suffix_rfl k
  cases event with
  | scalar value =>
      exact .cons (fun more => by rw [parseEvents]) (hself (keyOf value, config))
  | mappingStart =>
      obtain ⟨entries, rest, rfl, hentries⟩ := hclosed.mapping_inv
      by_cases hpolicy : key = "policy".ascii
      · obtain ⟨parse, hwithin⟩ := parseGenericMap_within (policyDispatcher strtoul) []
          config.policy entries rest
        subst hpolicy
        exact .andThen hwithin rfl (fun more => parseEvents_policy strtoul config)
          (ih _ hwithin.suffix _)
      · by_cases hfilters : key = "filters".ascii
        · obtain ⟨parse, hwithin⟩ := parseFiltersSection_within hentries [] config.filters rest
          subst hfilters
          exact .andThen hwithin rfl (fun more => parseEvents_filters strtoul config)
            (ih _ hwithin.suffix _)
        · exact .cons (fun more => parseEvents_otherMapping strtoul config hpolicy hfilters)
            (hself ([], config))
  | sequenceStart =>
      obtain ⟨items, rest, rfl, hitems⟩ := hclosed.sequence_inv
      by_cases hhooks : key = "hooks".ascii
      · obtain ⟨parse, hwithin⟩ := parseHooksSection_within hitems config.hooks 0 rest
        subst hhooks
        exact .andThen hwithin rfl (fun more => parseEvents_hooks strtoul config)
          (ih _ hwithin.suffix _)
      · exact .cons (fun more => parseEvents_otherSequence strtoul config hhooks)
          (hself ([], config))
  | streamStart | streamEnd | documentStart | documentEnd => cases hclosed
  | _ => exact .cons (fun more => by rw [parseEvents] <;> simp) (hself (key, config))

/-! ## What is read does not depend on what is in memory -/

/-- A dispatcher accepts or refuses a value, whatever it is to be written to. -/
def Uniform {σ : Type} (dispatcher : Bytes → Bytes → σ → Option σ) : Prop :=
  ∀ key value ctx ctx', (dispatcher key value ctx).isSome = (dispatcher key value ctx').isSome

theorem uniform_policyDispatcher (strtoul : Strtoul) : Uniform (policyDispatcher strtoul) := by
  intro key value policy policy'
  simp only [policyDispatcher, policyHandlers, List.lookup_cons, List.lookup_nil]
  repeat' split
  all_goals simp

theorem uniform_hookDispatcher : Uniform hookDispatcher := by
  intro key value hook hook'
  simp only [hookDispatcher, hookHandlers, List.lookup_cons, List.lookup_nil]
  repeat' split
  all_goals simp

theorem parseGenericMap_course {σ : Type} {dispatcher : Bytes → Bytes → σ → Option σ}
    (h : Uniform dispatcher) (key : Bytes) (ctx ctx' : σ) (events : List Event) :
    (parseGenericMap dispatcher key ctx events).SameCourse
      (parseGenericMap dispatcher key ctx' events) := by
  induction events generalizing key ctx ctx' with
  | nil => exact ⟨rfl, rfl⟩
  | cons event events ih =>
      cases event with
      | scalar value =>
          by_cases hkey : key = []
          · subst hkey
            rw [parseGenericMap_key, parseGenericMap_key]
            exact ih _ _ _
          · have hsome := h key (upToNul value) ctx ctx'
            cases hout : dispatcher key (upToNul value) ctx with
            | none =>
                rw [hout, Option.isSome_none, eq_comm, Option.isSome_eq_false_iff,
                  Option.isNone_iff_eq_none] at hsome
                rw [parseGenericMap_refused hkey hout, parseGenericMap_refused hkey hsome]
                exact ⟨rfl, rfl⟩
            | some out =>
                rw [hout, Option.isSome_some, eq_comm, Option.isSome_iff_exists] at hsome
                obtain ⟨out', hout'⟩ := hsome
                rw [parseGenericMap_written hkey hout, parseGenericMap_written hkey hout']
                exact ih _ _ _
      | mappingEnd => exact ⟨rfl, rfl⟩
      | _ => exact ih _ _ _

theorem parseStringSequence_course {n : ℕ} (patterns patterns' : List.Vector Bytes n) (count : ℕ)
    (events : List Event) :
    (parseStringSequence patterns count events).SameCourse
      (parseStringSequence patterns' count events) := by
  induction events generalizing patterns patterns' count with
  | nil => exact ⟨rfl, rfl⟩
  | cons event events ih =>
      cases event with
      | scalar value =>
          by_cases hroom : count < n ∧ value.length < maxPatternLen
          · rw [parseStringSequence_row hroom, parseStringSequence_row hroom]
            exact ih _ _ _
          · rw [parseStringSequence_refused hroom, parseStringSequence_refused hroom]
            exact ⟨rfl, rfl⟩
      | sequenceEnd => exact ⟨rfl, rfl⟩
      | _ => exact ih _ _ _

theorem parseFiltersSection_course (key : Bytes) (filters filters' : YamlFilters)
    (events : List Event) :
    (parseFiltersSection key filters events).SameCourse
      (parseFiltersSection key filters' events) := by
  induction events using rest_induction generalizing key filters filters' with
  | nil =>
      rw [parseFiltersSection, parseFiltersSection]
      exact ⟨rfl, rfl⟩
  | cons event events ih =>
      have hself (key : Bytes) := ih events le_rfl key filters filters'
      have hrest {rest : List Event} (hlength : rest.length ≤ events.length)
          (a b : YamlFilters) : (parseFiltersSection [] a rest).Agree (fun _ _ => True)
            (parseFiltersSection [] b rest) :=
        ⟨ih rest hlength [] a b, trivial⟩
      cases event with
      | scalar value =>
          rw [parseFiltersSection, parseFiltersSection]
          exact hself _
      | sequenceStart =>
          by_cases hcgroups : key = "cgroup_patterns".ascii
          · subst hcgroups
            rw [parseFiltersSection_cgroups, parseFiltersSection_cgroups]
            exact ((parseStringSequence_course _ _ 0 events).andThen trivial fun a b _ =>
              hrest (length_rest_parseStringSequence _ 0 events) a b).toSameCourse
          · by_cases hpaths : key = "path_patterns".ascii
            · subst hpaths
              rw [parseFiltersSection_paths, parseFiltersSection_paths]
              exact ((parseStringSequence_course _ _ 0 events).andThen trivial fun a b _ =>
                hrest (length_rest_parseStringSequence _ 0 events) a b).toSameCourse
            · rw [parseFiltersSection_other hcgroups hpaths,
                parseFiltersSection_other hcgroups hpaths]
              exact hself []
      | mappingEnd =>
          rw [parseFiltersSection, parseFiltersSection]
          exact ⟨rfl, rfl⟩
      | _ =>
          rw [parseFiltersSection, parseFiltersSection]
          · exact hself key
          all_goals simp

theorem parseHooksSection_course (hooks hooks' : List.Vector YamlHookConfig maxHookConfigs)
    (count : ℕ) (events : List Event) :
    (parseHooksSection hooks count events).SameCourse
      (parseHooksSection hooks' count events) := by
  induction events using rest_induction generalizing hooks hooks' count with
  | nil =>
      rw [parseHooksSection, parseHooksSection]
      exact ⟨rfl, rfl⟩
  | cons event events ih =>
      have hself (count : ℕ) := ih events le_rfl hooks hooks' count
      cases event with
      | mappingStart =>
          by_cases hroom : count < maxHookConfigs
          · have hcourse := parseGenericMap_course uniform_hookDispatcher []
              (hooks.get ⟨count, hroom⟩) (hooks'.get ⟨count, hroom⟩) events
            rw [parseHooksSection_hook hroom, parseHooksSection_hook hroom, parseHookConfig,
              parseHookConfig, ← hcourse.ret, ← hcourse.rest]
            exact ih _ (length_rest_parseGenericMap _ _ _ _) _ _ _
          · rw [parseHooksSection_full hroom, parseHooksSection_full hroom]
            exact hself count
      | sequenceEnd =>
          rw [parseHooksSection, parseHooksSection]
          exact ⟨rfl, rfl⟩
      | _ =>
          rw [parseHooksSection, parseHooksSection]
          · exact hself count
          all_goals simp

/-- A relation between memories that every section keeps is kept by the whole document. -/
structure Kept (strtoul : Strtoul) (R : YamlConfig → YamlConfig → Prop) : Prop where
  policy : ∀ a b events, R a b →
    R { a with policy := (parsePolicySection strtoul a.policy events).out }
      { b with policy := (parsePolicySection strtoul b.policy events).out }
  filters : ∀ a b events, R a b →
    R { a with filters := (parseFiltersSection [] a.filters events).out }
      { b with filters := (parseFiltersSection [] b.filters events).out }
  hooks : ∀ a b events, R a b →
    R { a with hooks := (parseHooksSection a.hooks 0 events).out }
      { b with hooks := (parseHooksSection b.hooks 0 events).out }

theorem parseEvents_agree {strtoul : Strtoul} {R : YamlConfig → YamlConfig → Prop}
    (h : Kept strtoul R) (key : Bytes) {a b : YamlConfig} (hab : R a b) (events : List Event) :
    (parseEvents strtoul key a events).Agree R (parseEvents strtoul key b events) := by
  induction events using rest_induction generalizing key a b with
  | nil =>
      rw [parseEvents, parseEvents]
      exact ⟨⟨rfl, rfl⟩, hab⟩
  | cons event events ih =>
      have hself (key : Bytes) := ih events le_rfl key hab
      have hrest {rest : List Event} (hlength : rest.length ≤ events.length) (a b : YamlConfig)
          (hab : R a b) :
          (parseEvents strtoul [] a rest).Agree R (parseEvents strtoul [] b rest) :=
        ih rest hlength [] hab
      cases event with
      | scalar value =>
          rw [parseEvents, parseEvents]
          exact hself _
      | mappingStart =>
          by_cases hpolicy : key = "policy".ascii
          · subst hpolicy
            rw [parseEvents_policy, parseEvents_policy]
            exact (parseGenericMap_course (uniform_policyDispatcher strtoul) [] _ _
              events).andThen (h.policy a b events hab)
              (hrest (length_rest_parseGenericMap _ _ _ _))
          · by_cases hfilters : key = "filters".ascii
            · subst hfilters
              rw [parseEvents_filters, parseEvents_filters]
              exact (parseFiltersSection_course [] _ _ events).andThen
                (h.filters a b events hab) (hrest (length_rest_parseFiltersSection _ _ _))
            · rw [parseEvents_otherMapping strtoul a hpolicy hfilters,
                parseEvents_otherMapping strtoul b hpolicy hfilters]
              exact hself []
      | sequenceStart =>
          by_cases hhooks : key = "hooks".ascii
          · subst hhooks
            rw [parseEvents_hooks, parseEvents_hooks]
            exact (parseHooksSection_course _ _ 0 events).andThen (h.hooks a b events hab)
              (hrest (length_rest_parseHooksSection _ _ _))
          · rw [parseEvents_otherSequence strtoul a hhooks,
              parseEvents_otherSequence strtoul b hhooks]
            exact hself []
      | documentEnd | streamEnd =>
          rw [parseEvents, parseEvents]
          exact ⟨⟨rfl, rfl⟩, hab⟩
      | _ =>
          rw [parseEvents, parseEvents]
          · exact hself key
          all_goals simp

end BpfIma
