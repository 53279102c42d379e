import BpfIma.Verification.Yaml.Document

/-! # The pending key of the filters section

`parse_filters_section` keeps the first scalar that it meets as its key until a sequence begins,
and reads the sequence into a table if the key is one of two. So a scalar value leaves its key
pending for the next entry, and the first item of a sequence under another key becomes the key of
what follows. Which sequences are read into the tables, and hence when the section is refused,
follows from what is written, entry by entry. -/

namespace BpfIma

open CString LibYaml

/-! ## What is written -/

inductive FilterValue where
  | scalar (value : Bytes)
  | sequence (items : List Bytes)
deriving DecidableEq

def FilterValue.events : FilterValue → List Event
  | .scalar value => [.scalar value]
  | .sequence items => .sequenceStart :: (items.map .scalar ++ [.sequenceEnd])

/-- An entry of the section; its key may be any node. -/
structure FilterEntry where
  key : List Event
  value : FilterValue
deriving DecidableEq

def FilterEntry.events (entry : FilterEntry) : List Event := entry.key ++ entry.value.events

/-- The entry `filters` of a document. -/
def filtersEvents (entries : List FilterEntry) : List Event :=
  .scalar "filters".ascii :: .mappingStart ::
    (entries.flatMap FilterEntry.events ++ [.mappingEnd])

theorem filtersEvents_append (entries : List FilterEntry) (after more : List Event) :
    filtersEvents entries ++ after ++ more = .scalar "filters".ascii :: .mappingStart ::
      (entries.flatMap FilterEntry.events ++ .mappingEnd :: (after ++ more)) := by
  simp only [filtersEvents, List.cons_append, List.append_assoc, List.nil_append]

theorem FilterValue.closed_events (value : FilterValue) : Closed value.events := by
  cases value with
  | scalar value => exact .scalar value .nil
  | sequence items => exact .sequence (.scalars items) .nil

theorem closed_filtersEvents {entries : List FilterEntry}
    (h : ∀ entry ∈ entries, Nodes 1 entry.key) : Closed (filtersEvents entries) :=
  .scalar _ (.mapping (.flatMap fun entry hmem =>
    (h entry hmem).closed.append entry.value.closed_events) .nil)

/-! ## Which sequences are read -/

/-- The keys that have a table. -/
def filterKeys : List Bytes := ["cgroup_patterns".ascii, "path_patterns".ascii]

/-- A scalar becomes the pending key if there is none. -/
def pendingWith (pending value : Bytes) : Bytes := if pending = [] then keyOf value else pending

/-- Where reading has come to: in the section, or behind the end of a mapping that was taken for
its end, with the events that are left. -/
inductive SectionPoint where
  | inside (pending : Bytes)
  | behind (rest : List Event)
deriving DecidableEq

/-- The sequences that are read into a table, and where reading has come to then. -/
structure FilterReading where
  lists : List (List Bytes)
  point : SectionPoint
deriving DecidableEq

/-- The scalars of a sequence that is read into a table; the first end of a sequence ends it. -/
def listItems : List Event → List Bytes
  | [] => []
  | .scalar value :: events => value :: listItems events
  | .sequenceEnd :: _ => []
  | _ :: events => listItems events

def behindList : List Event → List Event
  | [] => []
  | .sequenceEnd :: events => events
  | _ :: events => behindList events

theorem behindList_suffix (events : List Event) : behindList events <:+ events := by
  fun_induction behindList events with
  | case1 => exact List.suffix_rfl
  | case2 events => exact List.suffix_cons _ events
  | case3 event events _ ih => exact ih.trans (List.suffix_cons event events)

/-- A key that is any node, met with a pending key. -/
def readKey (pending : Bytes) (key : List Event) : FilterReading :=
  match key with
  | [] => ⟨[], .inside pending⟩
  | .scalar value :: events => readKey (pendingWith pending value) events
  | .sequenceStart :: events =>
      if pending ∈ filterKeys then
        let reading := readKey [] (behindList events)
        ⟨listItems events :: reading.lists, reading.point⟩
      else readKey [] events
  | .mappingEnd :: events => ⟨[], .behind events⟩
  | _ :: events => readKey pending events
termination_by key.length
decreasing_by
  all_goals simp only [List.length_cons]
  all_goals first
    | exact Nat.lt_succ_of_le (behindList_suffix _).length_le
    | exact Nat.lt_succ_self _

/-- A scalar stays for the next entry; of a sequence that has no table the first item does. -/
def FilterValue.pendingAfter (pending : Bytes) : FilterValue → Bytes
  | .scalar value => pendingWith pending value
  | .sequence items => if pending ∈ filterKeys then [] else items.foldl pendingWith []

def FilterValue.lists (pending : Bytes) : FilterValue → List (List Bytes)
  | .scalar _ => []
  | .sequence items => if pending ∈ filterKeys then [items] else []

/-- The entries of the section. Only a key that holds a mapping can end it early. -/
def readFilterEntries (pending : Bytes) : List FilterEntry → FilterReading
  | [] => ⟨[], .inside pending⟩
  | entry :: entries =>
      match readKey pending entry.key with
      | ⟨lists, .inside pending⟩ =>
          let reading := readFilterEntries (entry.value.pendingAfter pending) entries
          ⟨lists ++ (entry.value.lists pending ++ reading.lists), reading.point⟩
      | ⟨lists, .behind rest⟩ =>
          ⟨lists, .behind (rest ++ (entry.value.events ++ entries.flatMap FilterEntry.events))⟩

/-- What the section leaves of its own events for the document. -/
def SectionPoint.leftOver : SectionPoint → List Event
  | .inside _ => []
  | .behind rest => rest ++ [.mappingEnd]

/-- A sequence that a table of `n` rows has room for. -/
def HasRoom (n : ℕ) (items : List Bytes) : Prop :=
  items.length ≤ n ∧ ∀ item ∈ items, item.length < maxPatternLen

instance (n : ℕ) (items : List Bytes) : Decidable (HasRoom n items) :=
  inferInstanceAs (Decidable (_ ∧ _))

/-! ## Reading a sequence -/

theorem listItems_scalars (items : List Bytes) (rest : List Event) :
    listItems (items.map .scalar ++ .sequenceEnd :: rest) = items := by
  induction items with
  | nil => rfl
  | cons item items ih => exact congrArg (List.cons item) ih

theorem behindList_scalars (items : List Bytes) (rest : List Event) :
    behindList (items.map .scalar ++ .sequenceEnd :: rest) = rest := by
  induction items with
  | nil => rfl
  | cons item items ih => exact ih

/-- A sequence that ends is read to its first end if there is room, and refused if not. -/
theorem parseStringSequence_list {n : ℕ} {events : List Event}
    (hend : Event.sequenceEnd ∈ events) {count : ℕ} (hcount : count ≤ n)
    (rows : List.Vector Bytes n) (tail : List Event) :
    ((count + (listItems events).length ≤ n ∧
        ∀ item ∈ listItems events, item.length < maxPatternLen) →
      ∃ out, parseStringSequence rows count (events ++ tail) =
        ⟨(count + (listItems events).length : ℕ), out, behindList events ++ tail⟩) ∧
    (¬ (count + (listItems events).length ≤ n ∧
        ∀ item ∈ listItems events, item.length < maxPatternLen) →
      (parseStringSequence rows count (events ++ tail)).ret = -1) := by
  induction events generalizing count rows with
  | nil => cases hend
  | cons event events ih =>
      cases event with
      | sequenceEnd =>
          refine ⟨fun _ => ⟨rows, rfl⟩, fun hfull => ?_⟩
          exact absurd ⟨hcount, fun item hmem => absurd hmem List.not_mem_nil⟩ hfull
      | scalar value =>
          have hend' := (List.mem_cons.mp hend).resolve_left (by simp)
          rw [listItems, List.length_cons, List.forall_mem_cons, List.cons_append,
            ← Nat.succ_add_eq_add_succ]
          by_cases hvalue : count < n ∧ value.length < maxPatternLen
          · obtain ⟨hread, hrefused⟩ := ih hend' (Nat.succ_le_of_lt hvalue.1)
              (rows.set ⟨count, hvalue.1⟩ (fitted 255 (upToNul value)))
            rw [parseStringSequence_row hvalue]
            exact ⟨fun h => hread ⟨h.1, h.2.2⟩,
              fun h => hrefused fun hroom => h ⟨hroom.1, hvalue.2, hroom.2⟩⟩
          · rw [parseStringSequence_refused hvalue]
            exact ⟨fun h => absurd ⟨by omega, h.2.1⟩ hvalue, fun _ => rfl⟩
      | _ => exact ih ((List.mem_cons.mp hend).resolve_left (by simp)) hcount rows

/-- A key that has a table sends the sequence there. -/
theorem parseFiltersSection_table {pending : Bytes} (hpending : pending ∈ filterKeys)
    (filters : YamlFilters) :
    ∃ (rows : List.Vector Bytes maxIgnorePatterns)
      (store : List.Vector Bytes maxIgnorePatterns → YamlFilters), ∀ events,
      parseFiltersSection pending filters (.sequenceStart :: events) =
        (parseStringSequence rows 0 events).andThen store
          (fun k => parseFiltersSection k.1 k.2) := by
  rcases List.mem_pair.mp hpending with rfl | rfl
  · exact ⟨_, _, fun _ => parseFiltersSection_cgroups filters⟩
  · exact ⟨_, _, fun _ => parseFiltersSection_paths filters⟩

theorem parseFiltersSection_list {pending : Bytes} (hpending : pending ∈ filterKeys)
    {events : List Event} (hend : Event.sequenceEnd ∈ events) (filters : YamlFilters)
    (tail : List Event) :
    (HasRoom maxIgnorePatterns (listItems events) →
      ∃ filters', parseFiltersSection pending filters (.sequenceStart :: (events ++ tail)) =
        parseFiltersSection [] filters' (behindList events ++ tail)) ∧
    (¬ HasRoom maxIgnorePatterns (listItems events) →
      (parseFiltersSection pending filters (.sequenceStart :: (events ++ tail))).ret = -1) := by
  obtain ⟨rows, store, hcall⟩ := parseFiltersSection_table hpending filters
  obtain ⟨hread, hrefused⟩ := parseStringSequence_list hend (Nat.zero_le _) rows tail
  rw [Nat.zero_add] at hread hrefused
  rw [hcall, Parse.andThen]
  refine ⟨fun hroom => ?_, fun hfull => ?_⟩
  · obtain ⟨out, hout⟩ := hread hroom
    rw [hout, if_neg (not_lt.mpr (Int.natCast_nonneg _))]
    exact ⟨store out, rfl⟩
  · rw [hrefused hfull, if_pos (by decide)]

/-! ## Reading the section -/

/-- The loop goes on with `tail` from a point that was reached before it. -/
def SectionPoint.goOn (filters : YamlFilters) (tail : List Event) :
    SectionPoint → Parse YamlFilters
  | .inside pending => parseFiltersSection pending filters tail
  | .behind rest => ⟨0, filters, rest ++ tail⟩

/-- The section's loop does with `events` what the reading says: it goes on from the point that
is reached if there is room for every list, and is refused if not. -/
structure FilterReading.Describes (reading : FilterReading) (pending : Bytes)
    (events : List Event) : Prop where
  read : (∀ items ∈ reading.lists, HasRoom maxIgnorePatterns items) →
    ∀ (filters : YamlFilters) (tail : List Event),
      ∃ filters', parseFiltersSection pending filters (events ++ tail) =
        reading.point.goOn filters' tail
  refused : (¬ ∀ items ∈ reading.lists, HasRoom maxIgnorePatterns items) →
    ∀ (filters : YamlFilters) (tail : List Event),
      (parseFiltersSection pending filters (events ++ tail)).ret = -1

namespace FilterReading.Describes

variable {reading : FilterReading} {pending pending' : Bytes} {front events : List Event}

/-- The loop first reads some lists and then has `events` before it. -/
theorem after (lists : List (List Bytes))
    (hread : (∀ items ∈ lists, HasRoom maxIgnorePatterns items) → ∀ filters tail,
      ∃ filters', parseFiltersSection pending filters (front ++ tail) =
        parseFiltersSection pending' filters' (events ++ tail))
    (hrefused : (¬ ∀ items ∈ lists, HasRoom maxIgnorePatterns items) → ∀ filters tail,
      (parseFiltersSection pending filters (front ++ tail)).ret = -1)
    (h : reading.Describes pending' events) :
    FilterReading.Describes ⟨lists ++ reading.lists, reading.point⟩ pending front where
  read hroom filters tail := by
    obtain ⟨hlists, hrest⟩ := List.forall_mem_append.mp hroom
    obtain ⟨filters', hstep⟩ := hread hlists filters tail
    rw [hstep]
    exact h.read hrest filters' tail
  refused hfull filters tail := by
    by_cases hlists : ∀ items ∈ lists, HasRoom maxIgnorePatterns items
    · obtain ⟨filters', hstep⟩ := hread hlists filters tail
      rw [hstep]
      exact h.refused (fun hrest => hfull (List.forall_mem_append.mpr ⟨hlists, hrest⟩))
        filters' tail
    · exact hrefused hlists filters tail

/-- A step of the loop that reads no list. -/
theorem of_eq (h : reading.Describes pending' events)
    (hstep : ∀ filters tail, parseFiltersSection pending filters (front ++ tail) =
      parseFiltersSection pending' filters (events ++ tail)) :
    reading.Describes pending front :=
  after [] (fun _ filters tail => ⟨filters, hstep filters tail⟩)
    (fun hfull => absurd (List.forall_mem_nil _) hfull) h

theorem append {lists : List (List Bytes)}
    (hfront : FilterReading.Describes ⟨lists, .inside pending'⟩ pending front)
    (h : reading.Describes pending' events) :
    FilterReading.Describes ⟨lists ++ reading.lists, reading.point⟩ pending
      (front ++ events) := by
  refine after lists (fun hroom filters tail => ?_) (fun hfull filters tail => ?_) h
  · rw [List.append_assoc]
    exact hfront.read hroom filters (events ++ tail)
  · rw [List.append_assoc]
    exact hfront.refused hfull filters (events ++ tail)

theorem append_behind {lists : List (List Bytes)} {rest : List Event}
    (hfront : FilterReading.Describes ⟨lists, .behind rest⟩ pending front) :
    FilterReading.Describes ⟨lists, .behind (rest ++ events)⟩ pending (front ++ events) where
  read hroom filters tail := by
    obtain ⟨filters', hread⟩ := hfront.read hroom filters (events ++ tail)
    refine ⟨filters', ?_⟩
    rw [List.append_assoc, hread, SectionPoint.goOn, SectionPoint.goOn, List.append_assoc]
  refused hfull filters tail := by
    rw [List.append_assoc]
    exact hfront.refused hfull filters (events ++ tail)

end FilterReading.Describes

theorem describes_nil (pending : Bytes) :
    FilterReading.Describes ⟨[], .inside pending⟩ pending [] :=
  ⟨fun _ filters _ => ⟨filters, rfl⟩, fun hfull => absurd (List.forall_mem_nil _) hfull⟩

theorem readKey_describes {key : List Event} (h : Closed key) (pending : Bytes) :
    (readKey pending key).Describes pending key := by
  fun_induction readKey pending key with
  | case1 pending => exact describes_nil pending
  | case2 pending value events ih =>
      refine (ih h.of_cons).of_eq fun filters tail => ?_
      rw [List.cons_append, parseFiltersSection, pendingWith]
  | case3 pending events hpending reading ih =>
      obtain ⟨_, rest, heq, -⟩ := h.sequence_inv
      have hend : Event.sequenceEnd ∈ events := by
        rw [heq]
        exact List.mem_append_right _ List.mem_cons_self
      have hlist := parseFiltersSection_list hpending hend
      refine (ih (h.of_cons.of_suffix (behindList_suffix events))).after [listItems events]
        (fun hroom filters tail => ?_) (fun hfull filters tail => ?_)
      · exact (hlist filters tail).1 (List.forall_mem_singleton.mp hroom)
      · exact (hlist filters tail).2 fun hroom => hfull (List.forall_mem_singleton.mpr hroom)
  | case4 pending events hpending ih =>
      rw [filterKeys, List.mem_pair, not_or] at hpending
      exact (ih h.of_cons).of_eq fun filters tail =>
        parseFiltersSection_other hpending.1 hpending.2 filters
  | case5 pending events =>
      refine ⟨fun _ filters tail => ⟨filters, ?_⟩, fun hfull => ?_⟩
      · rw [List.cons_append, parseFiltersSection, SectionPoint.goOn]
      · exact absurd (List.forall_mem_nil _) hfull
  | case6 pending event events hscalar hsequence hmapping ih =>
      refine (ih h.of_cons).of_eq fun filters tail => ?_
      rw [List.cons_append, parseFiltersSection] <;> assumption

theorem readKey_scalars (pending : Bytes) (items : List Bytes) (rest : List Event) :
    readKey pending (items.map .scalar ++ rest) =
      readKey (items.foldl pendingWith pending) rest := by
  induction items generalizing pending with
  | nil => rfl
  | cons item items ih =>
      rw [List.map_cons, List.cons_append, readKey, ih, List.foldl_cons]

theorem readKey_value (pending : Bytes) (value : FilterValue) :
    readKey pending value.events =
      ⟨value.lists pending, .inside (value.pendingAfter pending)⟩ := by
  cases value with
  | scalar value => rw [FilterValue.events, readKey, readKey]; rfl
  | sequence items =>
      rw [FilterValue.events, readKey, FilterValue.lists, FilterValue.pendingAfter]
      split
      · rw [listItems_scalars, behindList_scalars, readKey]
      · rw [readKey_scalars, readKey, readKey] <;> simp

theorem readFilterEntries_describes {entries : List FilterEntry}
    (h : ∀ entry ∈ entries, Nodes 1 entry.key) (pending : Bytes) :
    (readFilterEntries pending entries).Describes pending
      (entries.flatMap FilterEntry.events) := by
  induction entries generalizing pending with
  | nil => exact describes_nil pending
  | cons entry entries ih =>
      obtain ⟨hkey, hentries⟩ := List.forall_mem_cons.mp h
      have hread := readKey_describes hkey.closed pending
      rw [List.flatMap_cons, FilterEntry.events, List.append_assoc, readFilterEntries]
      split
      · rename_i lists pending' heq
        rw [heq] at hread
        have hvalue := readKey_describes entry.value.closed_events pending'
        rw [readKey_value] at hvalue
        exact hread.append (hvalue.append (ih hentries _))
      · rename_i lists rest heq
        rw [heq] at hread
        exact hread.append_behind

theorem SectionPoint.goOn_mappingEnd (point : SectionPoint) (filters : YamlFilters)
    (more : List Event) :
    point.goOn filters (.mappingEnd :: more) = ⟨0, filters, point.leftOver ++ more⟩ := by
  cases point with
  | inside pending => rw [goOn, parseFiltersSection, leftOver, List.nil_append]
  | behind rest => rw [goOn, leftOver, List.append_assoc, List.singleton_append]

theorem parseEvents_filtersKey (strtoul : Strtoul) (config : YamlConfig) (events : List Event) :
    parseEvents strtoul [] config (.scalar "filters".ascii :: .mappingStart :: events) =
      (parseFiltersSection [] config.filters events).andThen
        (fun filters => { config with filters := filters })
        (fun k => parseEvents strtoul k.1 k.2) := by
  have hkey : keyOf "filters".ascii = "filters".ascii := by decide
  rw [parseEvents, hkey, parseEvents_filters]

/-- The entries from the section on are refused exactly if one of the lists that are read into a
table has no room there, or if what the section leaves and the entries behind it are refused. -/
theorem refused_filtersEvents_append (strtoul : Strtoul) {entries : List FilterEntry}
    (h : ∀ entry ∈ entries, Nodes 1 entry.key) (after : List Event) :
    Refused strtoul (filtersEvents entries ++ after) ↔
      (∃ items ∈ (readFilterEntries [] entries).lists, ¬ HasRoom maxIgnorePatterns items) ∨
        Refused strtoul ((readFilterEntries [] entries).point.leftOver ++ after) := by
  have hdescribes := readFilterEntries_describes h []
  rw [Refused, readEntries, filtersEvents_append, parseEvents_filtersKey, Parse.andThen]
  by_cases hroom : ∀ items ∈ (readFilterEntries [] entries).lists,
      HasRoom maxIgnorePatterns items
  · obtain ⟨filters, hread⟩ := hdescribes.read hroom clearedConfig.filters
      (.mappingEnd :: (after ++ [.documentEnd]))
    rw [hread, SectionPoint.goOn_mappingEnd, if_neg (lt_irrefl 0), ← List.append_assoc]
    have hnone : ¬ ∃ items ∈ (readFilterEntries [] entries).lists,
        ¬ HasRoom maxIgnorePatterns items := by
      rintro ⟨items, hmem, hfull⟩
      exact hfull (hroom items hmem)
    rw [or_iff_right hnone, Refused, ← readEntries_ret { clearedConfig with filters := filters }]
    rfl
  · rw [hdescribes.refused hroom, if_pos (by decide)]
    refine iff_of_true (show (-1 : ℤ) ≠ 0 by decide) (.inl ?_)
    simpa only [not_forall, exists_prop] using hroom

/-- The first item of an unknown key's list is the key of the next list. -/
example :
    readFilterEntries []
        [⟨[.scalar "cgroup_pattern".ascii], .sequence ["path_patterns".ascii, "/docker/".ascii]⟩,
          ⟨[.scalar "cgroup_patterns".ascii], .sequence ["/kubepods/".ascii]⟩] =
      ⟨[["/kubepods/".ascii]], .inside []⟩ := by
  decide +kernel

end BpfIma
