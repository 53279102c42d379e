import BpfIma.Verification.Yaml.PendingKey

/-! # The filters section

An unknown key with a sequence, or a scalar where a sequence is meant, passes without an error
and shifts how what follows is read. A document that is taken says what is written exactly if
the section has the two keys only, each with a sequence, and no row shows an item of another
list. -/

namespace BpfIma

open CString LibYaml

/-! ## What is written -/

/-- An entry that the section has a table for: one of the two keys, with a sequence. -/
inductive FilterEntry.Known : FilterEntry → Prop where
  | cgroups (items : List Bytes) : Known ⟨[.scalar "cgroup_patterns".ascii], .sequence items⟩
  | paths (items : List Bytes) : Known ⟨[.scalar "path_patterns".ascii], .sequence items⟩

theorem FilterEntry.Known.key_eq {entry : FilterEntry} (h : entry.Known) :
    entry.key = [.scalar "cgroup_patterns".ascii] ∨
      entry.key = [.scalar "path_patterns".ascii] := by
  cases h with
  | cgroups items => exact .inl rfl
  | paths items => exact .inr rfl

def FilterValue.items : FilterValue → List Bytes
  | .scalar _ => []
  | .sequence items => items

/-- The items written under a key: those of its last entry, or none. -/
def itemsUnder (name : Bytes) (entries : List FilterEntry) : List Bytes :=
  ((entries.filter fun entry => entry.key = [.scalar name]).getLast?.map
    fun entry => entry.value.items).getD []

/-- Items over the first rows of a table. -/
def layRows {n : ℕ} (items : List Bytes) (rows : List.Vector Bytes n) : List.Vector Bytes n :=
  .ofFn fun i => items.getD i (rows.get i)

/-- The tables as written. -/
def writtenFilters (entries : List FilterEntry) : YamlFilters :=
  ⟨layRows (itemsUnder "cgroup_patterns".ascii entries) (.replicate _ []),
    layRows (itemsUnder "path_patterns".ascii entries) (.replicate _ [])⟩

/-- The items of an entry over the table of its key. -/
def YamlFilters.lay (filters : YamlFilters) (entry : FilterEntry) : YamlFilters :=
  if entry.key = [.scalar "cgroup_patterns".ascii] then
    { filters with cgroups := layRows entry.value.items filters.cgroups }
  else if entry.key = [.scalar "path_patterns".ascii] then
    { filters with paths := layRows entry.value.items filters.paths }
  else filters

/-! ## Reading a sequence -/

theorem fitted_item {item : Bytes} (hlength : item.length < maxPatternLen)
    (hzero : (0 : UInt8) ∉ item) : fitted 255 (upToNul item) = item :=
  (fitted_upToNul_eq_self_iff (by decide)).mpr ⟨hlength.trans (by decide), hzero⟩

theorem parseStringSequence_items {n : ℕ} {items : List Bytes} {count : ℕ}
    (hroom : count + items.length ≤ n) (hlength : ∀ item ∈ items, item.length < maxPatternLen)
    (hzero : ∀ item ∈ items, (0 : UInt8) ∉ item) (rows : List.Vector Bytes n) (rest : List Event) :
    ∃ out, parseStringSequence rows count (items.map .scalar ++ .sequenceEnd :: rest) =
        ⟨(count + items.length : ℕ), out, rest⟩ ∧
      ∀ i, out.get i =
        if count ≤ i.val then items.getD (i.val - count) (rows.get i) else rows.get i := by
  induction items generalizing count rows with
  | nil => exact ⟨rows, rfl, fun i => by simp⟩
  | cons item items ih =>
      rw [List.length_cons] at hroom
      have hcount : count < n := by omega
      have hitem := hlength item List.mem_cons_self
      have hnext : count + 1 + items.length ≤ n := by omega
      obtain ⟨out, hread, hout⟩ := ih hnext
        (fun item hmem => hlength item (List.mem_cons_of_mem _ hmem))
        (fun item hmem => hzero item (List.mem_cons_of_mem _ hmem))
        (rows.set ⟨count, hcount⟩ item)
      refine ⟨out, ?_, fun i => ?_⟩
      · rw [List.map_cons, List.cons_append, parseStringSequence_row ⟨hcount, hitem⟩,
          fitted_item hitem (hzero item List.mem_cons_self), hread, List.length_cons]
        exact congrArg (fun k : ℕ => Parse.mk (k : ℤ) out rest) (by omega)
      · rw [hout]
        exact get_set_row hcount rows (fun d row => (item :: items).getD d row) i

theorem HasRoom.parseStringSequence_eq {n : ℕ} {items : List Bytes} (h : HasRoom n items)
    (hzero : ∀ item ∈ items, (0 : UInt8) ∉ item) (rows : List.Vector Bytes n) (rest : List Event) :
    parseStringSequence rows 0 (items.map .scalar ++ .sequenceEnd :: rest) =
      ⟨(items.length : ℕ), layRows items rows, rest⟩ := by
  have hroom : 0 + items.length ≤ n := (Nat.zero_add _).symm ▸ h.1
  obtain ⟨out, hread, hout⟩ := parseStringSequence_items hroom h.2 hzero rows rest
  have hrows : out = layRows items rows := by
    refine List.Vector.ext fun i => ?_
    rw [hout, if_pos (Nat.zero_le _), Nat.sub_zero, layRows, List.Vector.get_ofFn]
  rw [hread, hrows, Nat.zero_add]

/-! ## Reading the section -/

/-- No item of the entry has a NUL. -/
def FilterEntry.Strings (entry : FilterEntry) : Prop :=
  ∀ item ∈ entry.value.items, (0 : UInt8) ∉ item

/-- The table of the entry's key has room for it; both tables have the same number of rows. -/
def FilterEntry.Fits (entry : FilterEntry) : Prop :=
  HasRoom maxIgnorePatterns entry.value.items

section Entry

variable (items : List Bytes) (filters : YamlFilters) (rest : List Event)

theorem parseFiltersSection_cgroups_entry :
    parseFiltersSection [] filters
        (FilterEntry.events ⟨[.scalar "cgroup_patterns".ascii], .sequence items⟩ ++ rest) =
      (parseStringSequence filters.cgroups 0 (items.map .scalar ++ .sequenceEnd :: rest)).andThen
        (fun cgroups => { filters with cgroups := cgroups })
        (fun k => parseFiltersSection k.1 k.2) := by
  have hkey : keyOf "cgroup_patterns".ascii = "cgroup_patterns".ascii := by decide
  simp only [FilterEntry.events, FilterValue.events, List.cons_append, List.nil_append,
    List.append_assoc]
  rw [parseFiltersSection, if_pos rfl, hkey, parseFiltersSection_cgroups]

theorem parseFiltersSection_paths_entry :
    parseFiltersSection [] filters
        (FilterEntry.events ⟨[.scalar "path_patterns".ascii], .sequence items⟩ ++ rest) =
      (parseStringSequence filters.paths 0 (items.map .scalar ++ .sequenceEnd :: rest)).andThen
        (fun paths => { filters with paths := paths })
        (fun k => parseFiltersSection k.1 k.2) := by
  have hkey : keyOf "path_patterns".ascii = "path_patterns".ascii := by decide
  simp only [FilterEntry.events, FilterValue.events, List.cons_append, List.nil_append,
    List.append_assoc]
  rw [parseFiltersSection, if_pos rfl, hkey, parseFiltersSection_paths]

end Entry

section Known

variable {entry : FilterEntry} (h : entry.Known) (filters : YamlFilters) (rest : List Event)

include h

theorem FilterEntry.Known.read (hzero : entry.Strings) (hfits : entry.Fits) :
    parseFiltersSection [] filters (entry.events ++ rest) =
      parseFiltersSection [] (filters.lay entry) rest := by
  cases h with
  | cgroups items =>
      have hroom : HasRoom maxIgnorePatterns items := hfits
      rw [parseFiltersSection_cgroups_entry, hroom.parseStringSequence_eq hzero,
        Parse.andThen, if_neg (not_lt.mpr (Int.natCast_nonneg _)), YamlFilters.lay, if_pos rfl]
      rfl
  | paths items =>
      have hroom : HasRoom maxPathFilters items := hfits
      have hne : ([.scalar "path_patterns".ascii] : List Event) ≠
        [.scalar "cgroup_patterns".ascii] := by decide
      rw [parseFiltersSection_paths_entry, hroom.parseStringSequence_eq hzero,
        Parse.andThen, if_neg (not_lt.mpr (Int.natCast_nonneg _)), YamlFilters.lay, if_neg hne,
        if_pos rfl]
      rfl

end Known

section Section

variable {entries : List FilterEntry} (h : ∀ entry ∈ entries, entry.Known)
  (hzero : ∀ entry ∈ entries, entry.Strings)

include h hzero

theorem parseFiltersSection_known (hfits : ∀ entry ∈ entries, entry.Fits) (filters : YamlFilters)
    (rest : List Event) :
    parseFiltersSection [] filters (entries.flatMap FilterEntry.events ++ .mappingEnd :: rest) =
      ⟨0, entries.foldl YamlFilters.lay filters, rest⟩ := by
  induction entries generalizing filters with
  | nil => rw [List.flatMap_nil, List.nil_append, parseFiltersSection, List.foldl_nil]
  | cons entry entries ih =>
      rw [List.forall_mem_cons] at h hzero hfits
      rw [List.flatMap_cons, List.append_assoc, h.1.read _ _ hzero.1 hfits.1,
        ih h.2 hzero.2 hfits.2, List.foldl_cons]

theorem readEntries_filtersEvents (strtoul : Strtoul) (hfits : ∀ entry ∈ entries, entry.Fits)
    (config : YamlConfig) (after : List Event) :
    readEntries strtoul config (filtersEvents entries ++ after) =
      readEntries strtoul
        { config with filters := entries.foldl YamlFilters.lay config.filters } after := by
  rw [readEntries, filtersEvents_append, parseEvents_filtersKey,
    parseFiltersSection_known h hzero hfits, Parse.andThen, if_neg (lt_irrefl 0), readEntries]

end Section

/-- With known keys only, every list is read into its table. -/
theorem readFilterEntries_known {entries : List FilterEntry}
    (h : ∀ entry ∈ entries, entry.Known) :
    readFilterEntries [] entries =
      ⟨entries.map fun entry => entry.value.items, .inside []⟩ := by
  induction entries with
  | nil => rfl
  | cons entry entries ih =>
      obtain ⟨hentry, hentries⟩ := List.forall_mem_cons.mp h
      have htable {name : Bytes} (hname : keyOf name ∈ filterKeys) (items : List Bytes) :
          readFilterEntries [] (⟨[.scalar name], .sequence items⟩ :: entries) =
            ⟨items :: entries.map fun entry => entry.value.items, .inside []⟩ := by
        rw [readFilterEntries, readKey, readKey, pendingWith, if_pos rfl]
        simp only [FilterValue.pendingAfter, FilterValue.lists, if_pos hname, ih hentries,
          List.nil_append, List.singleton_append]
      cases hentry with
      | cgroups items => exact htable (by decide) items
      | paths items => exact htable (by decide) items

/-! ## Faithful or refused -/

/-- The section and the tables that were made from it say the same. -/
structure FiltersAsWritten (entries : List FilterEntry) (filters : YamlFilters) : Prop where
  known : ∀ entry ∈ entries, entry.Known
  cgroups : filters.cgroups.toList = itemsUnder "cgroup_patterns".ascii entries ++
    List.replicate (maxIgnorePatterns - (itemsUnder "cgroup_patterns".ascii entries).length) []
  paths : filters.paths.toList = itemsUnder "path_patterns".ascii entries ++
    List.replicate (maxPathFilters - (itemsUnder "path_patterns".ascii entries).length) []

/-- The entry `filters` between other entries of a document is parsed faithfully, or the
document is rejected. -/
def FiltersFaithful (strtoul : Strtoul) (before : List Event) (entries : List FilterEntry)
    (after rest : List Event) (memory : YamlConfig) : Prop :=
  (parseYamlPolicy strtoul
      (some (documentEvents (before ++ (filtersEvents entries ++ after)) rest)) memory).1 = 0 →
    FiltersAsWritten entries (parseYamlPolicy strtoul
      (some (documentEvents (before ++ (filtersEvents entries ++ after)) rest)) memory).2.filters

/-- The lists that reach a table, of this section and of whatever else in the document is taken
for one, laid over each other, leave what the last list of its key alone leaves. -/
def FiltersUndisturbed (strtoul : Strtoul) (before : List Event) (entries : List FilterEntry)
    (after : List Event) : Prop :=
  filtersEffect strtoul after
      (entries.foldl YamlFilters.lay (filtersEffect strtoul before .zero)) =
    writtenFilters entries

theorem toList_layRows {n : ℕ} {items : List Bytes} (h : items.length ≤ n) :
    (layRows items (.replicate n [])).toList =
      items ++ List.replicate (n - items.length) [] := by
  have hrows : layRows items (.replicate n []) = .ofFn fun i => items.getD i [] := by
    refine List.Vector.ext fun i => ?_
    rw [layRows, List.Vector.get_ofFn, List.Vector.get_ofFn, List.Vector.get_replicate]
  rw [hrows, toList_ofFn_getD h]

/-- A table that ends with empty strings had room for the items. -/
theorem eq_layRows_iff {n : ℕ} {items : List Bytes} {rows : List.Vector Bytes n} :
    rows.toList = items ++ List.replicate (n - items.length) [] ↔
      items.length ≤ n ∧ rows = layRows items (.replicate n []) := by
  constructor
  · intro h
    have hlength := congrArg List.length h
    rw [List.Vector.toList_length, List.length_append, List.length_replicate] at hlength
    have hle : items.length ≤ n := by omega
    exact ⟨hle, List.Vector.toList_injective (h.trans (toList_layRows hle).symm)⟩
  · rintro ⟨hle, rfl⟩
    exact toList_layRows hle

theorem length_itemsUnder_le {entries : List FilterEntry}
    (hfits : ∀ entry ∈ entries, entry.Fits) (name : Bytes) :
    (itemsUnder name entries).length ≤ maxIgnorePatterns := by
  rw [itemsUnder]
  cases hlast : (entries.filter fun entry => entry.key = [.scalar name]).getLast? with
  | none => exact Nat.zero_le _
  | some entry => exact (hfits entry (List.mem_of_mem_filter (List.mem_of_getLast? hlast))).1

theorem filtersAsWritten_iff {entries : List FilterEntry} {filters : YamlFilters}
    (hfits : ∀ entry ∈ entries, entry.Fits) :
    FiltersAsWritten entries filters ↔
      (∀ entry ∈ entries, entry.Known) ∧ filters = writtenFilters entries := by
  have hcgroups := length_itemsUnder_le hfits "cgroup_patterns".ascii
  have hpaths := length_itemsUnder_le hfits "path_patterns".ascii
  constructor
  · rintro ⟨hknown, hc, hp⟩
    refine ⟨hknown, ?_⟩
    rw [writtenFilters, ← (eq_layRows_iff.mp hc).2, ← (eq_layRows_iff.mp hp).2]
  · rintro ⟨hknown, rfl⟩
    exact ⟨hknown, toList_layRows hcgroups, toList_layRows hpaths⟩

/-- The filters section of a document is parsed faithfully or rejected exactly if the entries
before it are rejected, a list that the pending key sends to a table has no room there, what is
left behind that is rejected, or the section has the two keys only, each with a sequence, and the
lists that reach the tables come to the last one of each key. The keys may be any nodes. -/
theorem filters_faithful_iff (strtoul : Strtoul) {m n : ℕ} {before after : List Event}
    (hbefore : Nodes (2 * m) before) (hafter : Nodes (2 * n) after) {entries : List FilterEntry}
    (hkeys : ∀ entry ∈ entries, Nodes 1 entry.key)
    (hstrings : ∀ entry ∈ entries, entry.Strings) (rest : List Event) (memory : YamlConfig) :
    FiltersFaithful strtoul before entries after rest memory ↔
      Refused strtoul before ∨
        ((∃ items ∈ (readFilterEntries [] entries).lists, ¬ HasRoom maxIgnorePatterns items) ∨
          Refused strtoul ((readFilterEntries [] entries).point.leftOver ++ after)) ∨
        (∀ entry ∈ entries, entry.Known) ∧ FiltersUndisturbed strtoul before entries after := by
  have hentries := (closed_filtersEvents hkeys).append hafter.closed
  have hrefuses := refused_filtersEvents_append strtoul hkeys after
  unfold FiltersFaithful
  by_cases hrefused : Refused strtoul before ∨ Refused strtoul (filtersEvents entries ++ after)
  · have hret := parseYamlPolicy_refused hbefore.closed hentries rfl rest memory hrefused
    rw [hrefuses] at hrefused
    exact ⟨fun _ => or_assoc.mp (.inl hrefused), fun _ h => absurd h hret⟩
  · obtain ⟨hb, he⟩ := not_or.mp hrefused
    rw [parseYamlPolicy_taken hbefore.closed hentries rfl rest memory hb he]
    rw [← hrefuses]
    simp only [hb, he, false_or, true_implies]
    by_cases hknown : ∀ entry ∈ entries, entry.Known
    · -- The document is not refused, so every list had room.
      have hfits : ∀ entry ∈ entries, entry.Fits := by
        intro entry hmem
        by_contra hfull
        refine he (hrefuses.mpr (.inl ⟨entry.value.items, ?_, hfull⟩))
        rw [readFilterEntries_known hknown]
        exact List.mem_map_of_mem hmem
      rw [filtersAsWritten_iff hfits, readEntries_filtersEvents hknown hstrings strtoul hfits,
        readEntries_filters, readEntries_filters]
      rfl
    · exact iff_of_false (fun h => hknown h.known) (fun h => hknown h.1)

/-- A section with both keys, behind a policy section. -/
def dockerFilters : List FilterEntry :=
  [⟨[.scalar "cgroup_patterns".ascii], .sequence ["/docker/".ascii, "/kubepods/".ascii]⟩,
    ⟨[.scalar "path_patterns".ascii], .sequence ["/usr/bin/".ascii]⟩]

theorem filters_faithful_iff_dockerFilters :
    (∀ entry ∈ dockerFilters, entry.Known) ∧
      FiltersFaithful decimalStrtoul measuringPolicy dockerFilters [] [.streamEnd]
        clearedConfig := by
  have hknown : ∀ entry ∈ dockerFilters, entry.Known :=
    List.forall_mem_cons.mpr ⟨.cgroups _, List.forall_mem_singleton.mpr (.paths _)⟩
  have hkeys : ∀ entry ∈ dockerFilters, Nodes 1 entry.key :=
    List.forall_mem_cons.mpr ⟨.scalar _ .nil, List.forall_mem_singleton.mpr (.scalar _ .nil)⟩
  have hstrings : ∀ entry ∈ dockerFilters, ∀ item ∈ entry.value.items, (0 : UInt8) ∉ item := by
    decide
  refine ⟨hknown, (filters_faithful_iff decimalStrtoul nodes_measuringPolicy (n := 0) .nil hkeys
    hstrings _ _).mpr (.inr (.inr ⟨hknown, ?_⟩))⟩
  unfold FiltersUndisturbed
  decide +kernel

/-- A misspelt key passes, and its list is lost. -/
theorem not_filtersFaithful_misspelt :
    ¬ FiltersFaithful decimalStrtoul []
      [⟨[.scalar "cgroup_pattern".ascii], .sequence ["/docker/".ascii]⟩] [] [.streamEnd]
      clearedConfig := by
  intro h
  have htaken := h (by decide +kernel)
  exact absurd (htaken.known _ List.mem_cons_self).key_eq (by decide)

end BpfIma
