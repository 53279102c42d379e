import BpfIma.Model.YamlReader
import BpfIma.Verification.Yaml.Document

/-! # The parser stops with the document

Each loop of the parser waits for the end of a collection and does not count what is open. Every
collection that the active loops wait for is open all the same: a loop that is given up in the
middle of its mapping only leaves more of them open than are waited for. Behind the content of a
document nothing is open, so its end is left to the outer loop. -/

namespace BpfIma

open CString LibYaml

/-! ## Rounds are what the loops do -/

theorem set_set_row {α : Type} {n : ℕ} (rows : List.Vector α n) (row : Fin n) (a b : α) :
    (rows.set row a).set row b = rows.set row b := by
  apply List.Vector.toList_injective
  rw [List.Vector.toList_set, List.Vector.toList_set, List.Vector.toList_set, List.set_set]

theorem set_get_row {α : Type} {n : ℕ} (rows : List.Vector α n) (row : Fin n) :
    rows.set row (rows.get row) = rows := by
  ext i
  rw [List.Vector.get_set_eq_if]
  split_ifs with hrow
  · rw [hrow]
  · rfl

theorem parseGenericMap_cons {σ : Type} (dispatcher : Bytes → Bytes → σ → Option σ) (key : Bytes)
    (ctx : σ) (event : Event) (events : List Event) :
    parseGenericMap dispatcher key ctx (event :: events) =
      match genericMapRound dispatcher key ctx event with
      | .goesOn (key, ctx) => parseGenericMap dispatcher key ctx events
      | .failed => ⟨-1, ctx, events⟩
      | .ended => ⟨0, ctx, events⟩ := by
  cases event with
  | scalar value =>
      rw [genericMapRound]
      by_cases hkey : key = []
      · subst hkey
        rw [parseGenericMap_key, if_pos rfl]
      · rw [if_neg hkey]
        cases hdispatch : dispatcher key (upToNul value) ctx with
        | none => exact parseGenericMap_refused hkey hdispatch
        | some out => exact parseGenericMap_written hkey hdispatch
  | _ => rfl

theorem parseStringSequence_cons {n : ℕ} (patterns : List.Vector Bytes n) (count : ℕ)
    (event : Event) (events : List Event) :
    parseStringSequence patterns count (event :: events) =
      match stringSequenceRound patterns count event with
      | .goesOn (patterns, count) => parseStringSequence patterns count events
      | .failed => ⟨-1, patterns, events⟩
      | .ended => ⟨count, patterns, events⟩ := by
  cases event with
  | scalar value =>
      rw [stringSequenceRound]
      by_cases hlong : maxPatternLen ≤ value.length
      · rw [if_pos hlong]
        exact parseStringSequence_refused fun hroom => hlong.not_gt hroom.2
      · rw [if_neg hlong]
        by_cases hcount : count < n
        · rw [dif_pos hcount]
          exact parseStringSequence_row ⟨hcount, not_le.mp hlong⟩
        · rw [dif_neg hcount]
          exact parseStringSequence_refused fun hroom => hcount hroom.1
  | _ => rfl

section Resume

variable (strtoul : Strtoul)

/-- The outer loop behind a section. -/
def afterSection {τ : Type} (parse : Parse τ) (store : τ → YamlConfig) : Parse YamlConfig :=
  parse.andThen store fun k => parseEvents strtoul k.1 k.2

/-- What is left to do of `parse_yaml_policy` when `loop` is active: the rest of this loop, and
of the loops around it. -/
def YamlLoop.resume (config : YamlConfig) (events : List Event) : YamlLoop → Parse YamlConfig
  | .document key => parseEvents strtoul key config events
  | .policy key =>
      afterSection strtoul
        (parseGenericMap (policyDispatcher strtoul) key config.policy events)
        fun policy => { config with policy := policy }
  | .filters key =>
      afterSection strtoul (parseFiltersSection key config.filters events)
        fun filters => { config with filters := filters }
  | .cgroups count =>
      afterSection strtoul
        ((parseStringSequence config.filters.cgroups count events).andThen
          (fun cgroups => { config.filters with cgroups := cgroups })
          fun k => parseFiltersSection k.1 k.2)
        fun filters => { config with filters := filters }
  | .paths count =>
      afterSection strtoul
        ((parseStringSequence config.filters.paths count events).andThen
          (fun paths => { config.filters with paths := paths })
          fun k => parseFiltersSection k.1 k.2)
        fun filters => { config with filters := filters }
  | .hooks count =>
      afterSection strtoul (parseHooksSection config.hooks count events)
        fun hooks => { config with hooks := hooks }
  | .hook row key =>
      let parsed := parseGenericMap hookDispatcher key (config.hooks.get row) events
      afterSection strtoul
        (parseHooksSection (config.hooks.set row parsed.out)
          (if parsed.ret = 0 then row.val + 1 else row.val) parsed.rest)
        fun hooks => { config with hooks := hooks }

/-- What `parse_yaml_policy` comes to return if the parser goes on with `events`. -/
def YamlReader.finish (events : List Event) : YamlReader → Ret × YamlConfig
  | .reading loop config =>
      ((loop.resume strtoul config events).ret, (loop.resume strtoul config events).out)
  | .returned ret config => (ret, config)

variable (config : YamlConfig) (event : Event) (events : List Event)

theorem finish_document (key : Bytes) :
    YamlReader.finish strtoul (event :: events) (.reading (.document key) config) =
      YamlReader.finish strtoul events (documentRound config key event) := by
  rw [YamlReader.finish, YamlLoop.resume]
  cases event with
  | scalar value => rw [parseEvents, documentRound, YamlReader.finish, YamlLoop.resume]
  | mappingStart =>
      rw [documentRound]
      by_cases hpolicy : key = "policy".ascii
      · subst hpolicy
        rw [parseEvents_policy, if_pos rfl]
        rfl
      · by_cases hfilters : key = "filters".ascii
        · subst hfilters
          rw [parseEvents_filters, if_neg hpolicy, if_pos rfl]
          rfl
        · rw [parseEvents_otherMapping strtoul config hpolicy hfilters, if_neg hpolicy,
            if_neg hfilters]
          rfl
  | sequenceStart =>
      rw [documentRound]
      by_cases hhooks : key = "hooks".ascii
      · subst hhooks
        rw [parseEvents_hooks, if_pos rfl]
        rfl
      · rw [parseEvents_otherSequence strtoul config hhooks, if_neg hhooks]
        rfl
  | documentEnd | streamEnd => rw [parseEvents, documentRound, YamlReader.finish]
  | _ =>
      rw [parseEvents]
      · rfl
      all_goals simp

theorem finish_filters (key : Bytes) :
    YamlReader.finish strtoul (event :: events) (.reading (.filters key) config) =
      YamlReader.finish strtoul events (filtersRound config key event) := by
  rw [YamlReader.finish, YamlLoop.resume]
  cases event with
  | scalar value =>
      rw [parseFiltersSection]
      rfl
  | sequenceStart =>
      rw [filtersRound]
      by_cases hcgroups : key = "cgroup_patterns".ascii
      · subst hcgroups
        rw [parseFiltersSection_cgroups, if_pos rfl]
        rfl
      · by_cases hpaths : key = "path_patterns".ascii
        · subst hpaths
          rw [parseFiltersSection_paths, if_neg hcgroups, if_pos rfl]
          rfl
        · rw [parseFiltersSection_other hcgroups hpaths, if_neg hcgroups, if_neg hpaths]
          rfl
  | mappingEnd =>
      rw [parseFiltersSection]
      rfl
  | _ =>
      rw [parseFiltersSection]
      · rfl
      all_goals simp

theorem finish_hooks (count : ℕ) :
    YamlReader.finish strtoul (event :: events) (.reading (.hooks count) config) =
      YamlReader.finish strtoul events (hooksRound config count event) := by
  rw [YamlReader.finish, YamlLoop.resume]
  cases event with
  | mappingStart =>
      rw [hooksRound]
      by_cases hroom : count < maxHookConfigs
      · rw [parseHooksSection_hook hroom, dif_pos hroom]
        rfl
      · rw [parseHooksSection_full hroom, dif_neg hroom]
        rfl
  | sequenceEnd =>
      rw [parseHooksSection]
      rfl
  | _ =>
      rw [parseHooksSection]
      · rfl
      all_goals simp

/-- The rounds of every loop: reading an event and finishing then is finishing. -/
theorem finish_round (loop : YamlLoop) :
    YamlReader.finish strtoul (event :: events) (.reading loop config) =
      YamlReader.finish strtoul events (loop.round strtoul config event) := by
  cases loop with
  | document key => exact finish_document strtoul config event events key
  | policy key =>
      rw [YamlReader.finish, YamlLoop.resume, YamlLoop.round, policyRound, parseGenericMap_cons]
      cases genericMapRound (policyDispatcher strtoul) key config.policy event with
      | goesOn vars => rfl
      | failed => rfl
      | ended => rfl
  | filters key => exact finish_filters strtoul config event events key
  | cgroups count =>
      rw [YamlReader.finish, YamlLoop.resume, YamlLoop.round, cgroupsRound,
        parseStringSequence_cons]
      cases stringSequenceRound config.filters.cgroups count event with
      | goesOn vars => rfl
      | failed => rfl
      | ended => rfl
  | paths count =>
      rw [YamlReader.finish, YamlLoop.resume, YamlLoop.round, pathsRound,
        parseStringSequence_cons]
      cases stringSequenceRound config.filters.paths count event with
      | goesOn vars => rfl
      | failed => rfl
      | ended => rfl
  | hooks count => exact finish_hooks strtoul config event events count
  | hook row key =>
      rw [YamlReader.finish, YamlLoop.resume, YamlLoop.round, hookRound, parseGenericMap_cons]
      cases genericMapRound hookDispatcher key (config.hooks.get row) event with
      | goesOn vars =>
          dsimp only
          rw [YamlReader.finish, YamlLoop.resume]
          dsimp only
          rw [List.Vector.get_set_same, set_set_row]
      | failed =>
          dsimp only
          rw [set_get_row]
          rfl
      | ended =>
          dsimp only
          rw [set_get_row]
          rfl

/-- Event by event, `parse_yaml_policy` returns what its nested loops do. -/
theorem finish_readAll (reader : YamlReader) (more : List Event) :
    reader.finish strtoul (events ++ more) =
      (reader.readAll strtoul events).finish strtoul more := by
  induction events generalizing reader with
  | nil => rfl
  | cons event events ih =>
      cases reader with
      | reading loop config =>
          rw [List.cons_append, finish_round, ih]
          rfl
      | returned ret config => exact ih (.returned ret config)

end Resume

/-! ## What the loops wait for -/

/-- The ends that stop the active loop and those around it, in this order. -/
def YamlLoop.awaits : YamlLoop → List Collection
  | .document _ => []
  | .policy _ => [.mapping]
  | .filters _ => [.mapping]
  | .cgroups _ => [.sequence, .mapping]
  | .paths _ => [.sequence, .mapping]
  | .hooks _ => [.sequence]
  | .hook _ _ => [.mapping, .sequence]

/-- Everything that a call between two events waits for is open. -/
def YamlReader.Awaits (opened : List Collection) : YamlReader → Prop
  | .reading loop _ => loop.awaits.Sublist opened
  | .returned _ _ => True

/-- A round that has changed what is waited for as `event` allows it. -/
def YamlReader.Shifted (awaited : List Collection) (event : Event) : YamlReader → Prop
  | .reading loop _ => Shift awaited event loop.awaits
  | .returned _ _ => True

section Shifts

variable (config : YamlConfig) (event : Event)

/-- The loop over a mapping goes on, gives the mapping up at a scalar, or is at its end. -/
theorem genericMapRound_shift {σ : Type} (dispatcher : Bytes → Bytes → σ → Option σ) (key : Bytes)
    (ctx : σ) (around : List Collection) :
    Shift (.mapping :: around) event
      (match genericMapRound dispatcher key ctx event with
      | .goesOn _ => .mapping :: around
      | .failed => around
      | .ended => around) := by
  cases event with
  | scalar value =>
      have hstays : Shift (.mapping :: around) (.scalar value) (.mapping :: around) :=
        .stays_cons Event.noConfusion
      rw [genericMapRound]
      by_cases hkey : key = []
      · rw [if_pos hkey]
        exact hstays
      · rw [if_neg hkey]
        cases dispatcher key (upToNul value) ctx with
        | none => exact .abandons value
        | some out => exact hstays
  | mappingEnd => exact .leaves .mapping
  | _ => exact .stays_cons Event.noConfusion

theorem stringSequenceRound_shift {n : ℕ} (patterns : List.Vector Bytes n) (count : ℕ)
    (around : List Collection) :
    Shift (.sequence :: around) event
      (match stringSequenceRound patterns count event with
      | .goesOn _ => .sequence :: around
      | .failed => around
      | .ended => around) := by
  cases event with
  | scalar value =>
      rw [stringSequenceRound]
      split_ifs
      · exact .abandons value
      · exact .stays_cons Event.noConfusion
      · exact .abandons value
  | sequenceEnd => exact .leaves .sequence
  | _ => exact .stays_cons Event.noConfusion

theorem documentRound_shifted (key : Bytes) :
    (documentRound config key event).Shifted [] event := by
  have hstays : Shift [] event [] := .stays fun c rest h => by cases h
  cases event with
  | mappingStart =>
      rw [documentRound]
      split_ifs
      · exact .enters .mapping
      · exact .enters .mapping
      · exact hstays
  | sequenceStart =>
      rw [documentRound]
      split_ifs
      · exact .enters .sequence
      · exact hstays
  | documentEnd | streamEnd => trivial
  | _ => exact hstays

theorem policyRound_shifted (strtoul : Strtoul) (key : Bytes) :
    (policyRound config strtoul key event).Shifted [.mapping] event := by
  have hshift := genericMapRound_shift event (policyDispatcher strtoul) key config.policy []
  rw [policyRound]
  cases hround : genericMapRound (policyDispatcher strtoul) key config.policy event with
  | failed => trivial
  | goesOn | ended =>
      rw [hround] at hshift
      exact hshift

theorem filtersRound_shifted (key : Bytes) :
    (filtersRound config key event).Shifted [.mapping] event := by
  cases event with
  | sequenceStart =>
      rw [filtersRound]
      split_ifs
      · exact .enters .sequence
      · exact .enters .sequence
      · exact .stays_cons Event.noConfusion
  | mappingEnd => exact .leaves .mapping
  | _ => exact .stays_cons Event.noConfusion

theorem cgroupsRound_shifted (count : ℕ) :
    (cgroupsRound config count event).Shifted [.sequence, .mapping] event := by
  have hshift := stringSequenceRound_shift event config.filters.cgroups count [.mapping]
  rw [cgroupsRound]
  cases hround : stringSequenceRound config.filters.cgroups count event with
  | failed => trivial
  | goesOn | ended =>
      rw [hround] at hshift
      exact hshift

theorem pathsRound_shifted (count : ℕ) :
    (pathsRound config count event).Shifted [.sequence, .mapping] event := by
  have hshift := stringSequenceRound_shift event config.filters.paths count [.mapping]
  rw [pathsRound]
  cases hround : stringSequenceRound config.filters.paths count event with
  | failed => trivial
  | goesOn | ended =>
      rw [hround] at hshift
      exact hshift

theorem hooksRound_shifted (count : ℕ) :
    (hooksRound config count event).Shifted [.sequence] event := by
  cases event with
  | mappingStart =>
      rw [hooksRound]
      split_ifs
      · exact .enters .mapping
      · exact .stays_cons Event.noConfusion
  | sequenceEnd => exact .leaves .sequence
  | _ => exact .stays_cons Event.noConfusion

/-- The end of a mapping that was given up is not waited for any more. -/
theorem hookRound_shifted (row : Fin maxHookConfigs) (key : Bytes) :
    (hookRound config row key event).Shifted [.mapping, .sequence] event := by
  have hshift := genericMapRound_shift event hookDispatcher key (config.hooks.get row) [.sequence]
  rw [hookRound]
  cases hround : genericMapRound hookDispatcher key (config.hooks.get row) event with
  | goesOn | failed | ended =>
      rw [hround] at hshift
      exact hshift

theorem round_shifted (strtoul : Strtoul) (loop : YamlLoop) :
    (loop.round strtoul config event).Shifted loop.awaits event := by
  cases loop with
  | document key => exact documentRound_shifted config event key
  | policy key => exact policyRound_shifted config event strtoul key
  | filters key => exact filtersRound_shifted config event key
  | cgroups count => exact cgroupsRound_shifted config event count
  | paths count => exact pathsRound_shifted config event count
  | hooks count => exact hooksRound_shifted config event count
  | hook row key => exact hookRound_shifted config event row key

end Shifts

namespace YamlReader

variable {strtoul : Strtoul} {reader : YamlReader} {opened opened' : List Collection}

/-- The step lemma: what is waited for stays open. -/
theorem Awaits.read (h : reader.Awaits opened) {event : Event}
    (hevent : openAfterEvent opened event = some opened') :
    (reader.read strtoul event).Awaits opened' := by
  cases reader with
  | returned ret config => trivial
  | reading loop config =>
      have hshifted := round_shifted config event strtoul loop
      rw [YamlReader.read]
      cases hround : loop.round strtoul config event with
      | returned ret config => trivial
      | reading loop' config' =>
          rw [hround] at hshifted
          exact Shift.sublist hshifted hevent h

theorem Awaits.readAll (h : reader.Awaits opened) {events : List Event}
    (hevents : openAfter opened events = some opened') :
    (reader.readAll strtoul events).Awaits opened' := by
  induction events generalizing reader opened with
  | nil =>
      rw [← Option.some.inj hevents]
      exact h
  | cons event events ih =>
      obtain ⟨next, hevent, hrest⟩ := openAfter_cons_iff.mp hevents
      exact ih (h.read hevent) hrest

/-- Where nothing is open, no section is being read. -/
theorem Awaits.document {loop : YamlLoop} {config : YamlConfig}
    (h : (YamlReader.reading loop config).Awaits []) : ∃ key, loop = .document key := by
  have hnone : loop.awaits = [] := List.sublist_nil.mp h
  cases loop with
  | document key => exact ⟨key, rfl⟩
  | _ => cases hnone

theorem readAll_append (front events : List Event) :
    reader.readAll strtoul (front ++ events) =
      (reader.readAll strtoul front).readAll strtoul events :=
  List.foldl_append

theorem readAll_returned (ret : Ret) (config : YamlConfig) (events : List Event) :
    (YamlReader.returned ret config).readAll strtoul events = .returned ret config := by
  induction events with
  | nil => rfl
  | cons event events ih => exact ih

end YamlReader

/-! ## The end of the document -/

/-- The stream of a document, from its first event to its end. -/
def documentStream (content : List Event) : List Event :=
  .streamStart :: .documentStart :: (content ++ [.documentEnd])

section Stream

variable (strtoul : Strtoul) {content : List Event}

/-- Behind its content, a document is in the hands of the outer loop, or the call is over. -/
theorem awaits_content (h : Balanced content) :
    (YamlReader.start.readAll strtoul (.streamStart :: .documentStart :: content)).Awaits [] := by
  have hstart : YamlReader.start.Awaits [] := List.nil_sublist []
  -- the two events before the content change nothing
  have hcontent : (YamlReader.start.readAll strtoul content).Awaits [] := hstart.readAll h
  exact hcontent

theorem readAll_documentStream (h : Balanced content) :
    ∃ ret config, YamlReader.start.readAll strtoul (documentStream content) =
      .returned ret config := by
  have hstream : documentStream content =
      (.streamStart :: .documentStart :: content) ++ [.documentEnd] := rfl
  have hawaits := awaits_content strtoul h
  rw [hstream, YamlReader.readAll_append]
  cases hreader : YamlReader.start.readAll strtoul (.streamStart :: .documentStart :: content) with
  | returned ret config => exact ⟨ret, config, rfl⟩
  | reading loop config =>
      rw [hreader] at hawaits
      obtain ⟨key, rfl⟩ := hawaits.document
      exact ⟨0, config, rfl⟩

variable {strtoul}

/-- The end of the document is read behind its content, and no other one is. -/
theorem consumed_of_reading (h : Balanced content) {more consumed rest : List Event}
    (hsplit : documentStream content ++ more = consumed ++ .documentEnd :: rest)
    {loop : YamlLoop} {left : YamlConfig}
    (hreading : YamlReader.start.readAll strtoul consumed = .reading loop left) :
    consumed = .streamStart :: .documentStart :: content := by
  obtain ⟨ret, config, hreturned⟩ := readAll_documentStream strtoul h
  have hover (behind : List Event) : consumed ≠ documentStream content ++ behind := by
    rintro rfl
    rw [YamlReader.readAll_append, hreturned, YamlReader.readAll_returned] at hreading
    cases hreading
  rcases List.append_eq_append_iff.mp hsplit with ⟨behind, hconsumed, -⟩ | ⟨tail, hstream, htail⟩
  · exact absurd hconsumed (hover behind)
  · cases tail with
    | nil => exact absurd (by simpa using hstream.symm) (hover [])
    | cons event tail =>
        obtain ⟨rfl, -⟩ := List.cons.inj htail
        have hfront : Event.documentEnd ∉ .streamStart :: .documentStart :: content := by
          simpa using documentEnd_notMem h
        have hstream' : (.streamStart :: .documentStart :: content) ++ [.documentEnd] =
            consumed ++ .documentEnd :: tail := hstream
        exact ((List.append_cons_inj_of_notMem hfront List.not_mem_nil).mp hstream').1.symm

end Stream

/-- Every document whose content is balanced: the call has returned when the end of the document
has been read, whatever libyaml would have to say behind it. This end is read by the loop of
`parse_yaml_policy` itself and by none of those of the sections. -/
theorem parseYamlPolicy_stops_with_document (strtoul : Strtoul) (content : List Event)
    (h : Balanced content) :
    ∃ ret config,
      YamlReader.start.readAll strtoul (documentStream content) = .returned ret config ∧
      (∀ more memory, parseYamlPolicy strtoul (some (documentStream content ++ more)) memory =
        (ret, config)) ∧
      ∀ more consumed rest, documentStream content ++ more = consumed ++ .documentEnd :: rest →
        ∀ loop left, YamlReader.start.readAll strtoul consumed = .reading loop left →
          ∃ key, loop = .document key := by
  obtain ⟨ret, config, hreturned⟩ := readAll_documentStream strtoul h
  refine ⟨ret, config, hreturned, fun more memory => ?_, ?_⟩
  · have hfinish := finish_readAll strtoul (documentStream content) .start more
    rw [hreturned] at hfinish
    exact hfinish
  · intro more consumed rest hsplit loop left hreading
    have hawaits := awaits_content strtoul h
    rw [← consumed_of_reading h hsplit hreading, hreading] at hawaits
    exact hawaits.document

/-- A hook with an unknown key, whose value is a sequence: the hook is given up at the first item,
and the end of the sequence is taken for that of the hooks. -/
def abandonedHook : List Event :=
  [.mappingStart, .scalar "hooks".ascii, .sequenceStart, .mappingStart, .scalar "priority".ascii,
    .sequenceStart, .scalar "low".ascii, .scalar "high".ascii, .sequenceEnd, .mappingEnd,
    .sequenceEnd, .mappingEnd]

theorem nodes_abandonedHook : Nodes 1 abandonedHook :=
  .mapping (m := 1)
    (.scalar _ (.sequence
      (.mapping (m := 1)
        (.scalar _ (.sequence (.scalar _ (.scalar _ .nil)) .nil))
        .nil)
      .nil))
    .nil

theorem parseYamlPolicy_stops_abandonedHook :
    Balanced abandonedHook ∧ ∀ more memory,
      parseYamlPolicy decimalStrtoul (some (documentStream abandonedHook ++ more)) memory =
        (0, clearedConfig) := by
  have hbalanced : Balanced abandonedHook := nodes_abandonedHook.openAfter_eq []
  have hread : YamlReader.start.readAll decimalStrtoul (documentStream abandonedHook) =
      .returned 0 clearedConfig := rfl
  obtain ⟨ret, config, hreturned, hreturns, -⟩ :=
    parseYamlPolicy_stops_with_document decimalStrtoul abandonedHook hbalanced
  obtain ⟨rfl, rfl⟩ := YamlReader.returned.inj (hread.symm.trans hreturned)
  exact ⟨hbalanced, hreturns⟩

end BpfIma
