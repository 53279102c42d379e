import BpfIma.Verification.Policy.Store
import BpfIma.Verification.Policy.Success

/-! # Scalar edits

`bpfima_policy_update_field` as a function of the policy state. An edit rebases the record
of its namespace on the current root and sets one field; what is refused depends on the
field and its value only. -/

namespace BpfIma

open CString Errno

/-! ## The fields -/

/-- The fields that an edit can name. -/
inductive ScalarField where
  | enabled
  | filterFlags
  | actionFlags
  | minFileSize
  | logLevel
deriving DecidableEq

namespace ScalarField

def text : ScalarField → Bytes
  | .enabled => "enabled".ascii
  | .filterFlags => "filter_flags".ascii
  | .actionFlags => "action_flags".ascii
  | .minFileSize => "min_file_size".ascii
  | .logLevel => "log_level".ascii

def set (config : PolicyConfig) (value : UInt32) : ScalarField → PolicyConfig
  | .enabled => { config with enabled := value.toUInt8 }
  | .filterFlags => { config with filterFlags := value }
  | .actionFlags => { config with actionFlags := value }
  | .minFileSize => { config with minFileSize := value }
  | .logLevel => { config with logLevel := value }

/-- A snapshot with only this field set. -/
def edit (snapshot : PolicySnapshot) (value : UInt32) (f : ScalarField) : PolicySnapshot :=
  { snapshot with config := f.set snapshot.config value }

@[simp] theorem edit_config (snapshot : PolicySnapshot) (value : UInt32) (f : ScalarField) :
    (f.edit snapshot value).config = f.set snapshot.config value := rfl

/-- The values that no snapshot may have in this field. -/
def Forbids (value : UInt32) : ScalarField → Prop
  | .enabled => value > 1
  | .filterFlags => value &&& ~~~0xff ≠ 0
  | .actionFlags =>
      value &&& (PolicyAction.alertSuspicious ||| PolicyAction.block) ≠ 0 ∨
        value &&& ~~~0x7f ≠ 0 ∨ value &&& requiredActions ≠ requiredActions
  | .minFileSize => False
  | .logLevel => value > 3

/-- The values that are weaker than the root's in this field. -/
def WeakerThan (root : PolicyConfig) (value : UInt32) : ScalarField → Prop
  | .enabled => value.toNat < root.enabled.toNat
  | .filterFlags => value &&& ~~~root.filterFlags ≠ 0
  | .actionFlags => root.actionFlags &&& ~~~value ≠ 0
  | .minFileSize => value > root.minFileSize
  | .logLevel => value < root.logLevel

instance (value : UInt32) : ∀ f : ScalarField, Decidable (f.Forbids value)
  | .enabled => inferInstanceAs (Decidable (value > 1))
  | .filterFlags => inferInstanceAs (Decidable (_ ≠ _))
  | .actionFlags => inferInstanceAs (Decidable (_ ∨ _))
  | .minFileSize => inferInstanceAs (Decidable False)
  | .logLevel => inferInstanceAs (Decidable (value > 3))

instance (root : PolicyConfig) (value : UInt32) :
    ∀ f : ScalarField, Decidable (f.WeakerThan root value)
  | .enabled => inferInstanceAs (Decidable (_ < _))
  | .filterFlags => inferInstanceAs (Decidable (_ ≠ _))
  | .actionFlags => inferInstanceAs (Decidable (_ ≠ _))
  | .minFileSize => inferInstanceAs (Decidable (_ > _))
  | .logLevel => inferInstanceAs (Decidable (_ < _))

/-- The error for a forbidden value. -/
def refusal (value : UInt32) (f : ScalarField) : Ret :=
  if f = .actionFlags ∧ value &&& (PolicyAction.alertSuspicious ||| PolicyAction.block) ≠ 0 then
    -eopnotsupp
  else -einval

theorem refusal_cases (value : UInt32) (f : ScalarField) :
    f.refusal value = -einval ∨ f.refusal value = -eopnotsupp := by
  unfold refusal
  split
  · exact .inr rfl
  · exact .inl rfl

/-- The value is too large for the byte it is stored in. -/
def Overlarge (value : UInt32) (f : ScalarField) : Prop := f = .enabled ∧ value > 1

instance (value : UInt32) (f : ScalarField) : Decidable (f.Overlarge value) :=
  inferInstanceAs (Decidable (_ ∧ _))

theorem setField_text (config : PolicyConfig) (value : UInt32) (f : ScalarField) :
    setField config f.text value =
      if f.Overlarge value then none else some (f.set config value) := by
  cases f <;> simp [setField, Overlarge, set, text, String.ascii]

theorem setField_of_ne {name : Bytes} (h : ∀ f : ScalarField, f.text ≠ name)
    (config : PolicyConfig) (value : UInt32) : setField config name value = none := by
  have h1 := h .enabled
  have h2 := h .filterFlags
  have h3 := h .actionFlags
  have h4 := h .minFileSize
  have h5 := h .logLevel
  simp only [text, ne_comm] at h1 h2 h3 h4 h5
  rw [setField, if_neg h1, if_neg h2, if_neg h3, if_neg h4, if_neg h5]

theorem set_comm {f g : ScalarField} (h : f ≠ g) (config : PolicyConfig) (v w : UInt32) :
    f.set (g.set config w) v = g.set (f.set config v) w := by
  cases f <;> cases g <;> first | rfl | exact absurd rfl h

theorem edit_comm {f g : ScalarField} (h : f ≠ g) (snapshot : PolicySnapshot) (v w : UInt32) :
    f.edit (g.edit snapshot w) v = g.edit (f.edit snapshot v) w := by
  simp only [edit, set_comm h]

theorem toUInt8_toNat_of_small {value : UInt32} (h : ¬ value > 1) :
    value.toUInt8.toNat = value.toNat := by
  have hnat : value.toNat ≤ 1 := UInt32.le_iff_toNat_le.mp (UInt32.not_lt.mp h)
  rw [UInt32.toNat_toUInt8]
  omega

/-- An edit of an accepted configuration is accepted unless the value is forbidden. -/
theorem accepted_set_iff {config : PolicyConfig} {value : UInt32} {f : ScalarField}
    (h : config.accepted)
    (hsupported : config.actionFlags &&& (PolicyAction.alertSuspicious ||| PolicyAction.block) = 0)
    (hsmall : ¬ f.Overlarge value) :
    ((f.set config value).accepted ∧ (f.set config value).actionFlags &&&
      (PolicyAction.alertSuspicious ||| PolicyAction.block) = 0) ↔ ¬ f.Forbids value := by
  obtain ⟨henabled, hfilter, haction, hrequired, hlevel, hdepth, hscope, hreserved⟩ := h
  cases f with
  | enabled =>
      have hone : ¬ value > 1 := fun hlarge => hsmall ⟨rfl, hlarge⟩
      have hbyte : value.toUInt8 ≤ 1 := by
        rw [UInt8.le_iff_toNat_le, toUInt8_toNat_of_small hone]
        exact UInt32.le_iff_toNat_le.mp (UInt32.not_lt.mp hone)
      exact ⟨fun _ => hone, fun _ => ⟨⟨hbyte, hfilter, haction, hrequired, hlevel, hdepth, hscope,
        hreserved⟩, hsupported⟩⟩
  | filterFlags =>
      refine ⟨fun hset hforbids => hforbids hset.1.2.1, fun hpermits => ?_⟩
      exact ⟨⟨henabled, not_not.mp hpermits, haction, hrequired, hlevel, hdepth, hscope,
        hreserved⟩, hsupported⟩
  | actionFlags =>
      constructor
      · rintro ⟨⟨-, -, hknown, hall, -⟩, hnone⟩ (hforbids | hforbids | hforbids)
        · exact hforbids hnone
        · exact hforbids hknown
        · exact hforbids hall
      · intro hpermits
        simp only [Forbids, not_or, not_not] at hpermits
        obtain ⟨hnone, hknown, hall⟩ := hpermits
        exact ⟨⟨henabled, hfilter, hknown, hall, hlevel, hdepth, hscope, hreserved⟩, hnone⟩
  | minFileSize =>
      exact ⟨fun _ => id, fun _ => ⟨⟨henabled, hfilter, haction, hrequired, hlevel, hdepth, hscope,
        hreserved⟩, hsupported⟩⟩
  | logLevel =>
      refine ⟨fun hset => UInt32.not_lt.mpr hset.1.2.2.2.2.1, fun hpermits => ?_⟩
      exact ⟨⟨henabled, hfilter, haction, hrequired, UInt32.not_lt.mp hpermits, hdepth, hscope,
        hreserved⟩, hsupported⟩

theorem normalize_set {config : PolicyConfig} (h : config.normalize = config) (value : UInt32)
    (f : ScalarField) : (f.set config value).normalize = f.set config value := by
  rw [← h]
  cases f <;> rfl

/-- Normalisation of an edited snapshot looks at the edited field alone. -/
theorem normalizeSnapshot_edit {snapshot : PolicySnapshot} {value : UInt32} {f : ScalarField}
    (h : normalizeSnapshot snapshot = .ok snapshot) (hsmall : ¬ f.Overlarge value) :
    normalizeSnapshot (f.edit snapshot value) =
      if f.Forbids value then .error (f.refusal value) else .ok (f.edit snapshot value) := by
  obtain ⟨haccepted, hconfig, hcgroups, hpaths, hhooks⟩ := normalizeSnapshot_self_iff.mp h
  have hiff := accepted_set_iff haccepted.config haccepted.supported hsmall
  by_cases hforbids : f.Forbids value
  · rw [if_pos hforbids, normalizeSnapshot, edit_config]
    by_cases hsupported : (f.set snapshot.config value).actionFlags &&&
        (PolicyAction.alertSuspicious ||| PolicyAction.block) = 0
    · have hrefused : ¬ (f.set snapshot.config value).accepted :=
        fun hset => hiff.mp ⟨hset, hsupported⟩ hforbids
      have hret : f.refusal value = -einval := by
        refine if_neg ?_
        rintro ⟨rfl, hbits⟩
        exact hbits hsupported
      rw [if_neg (not_not.mpr hsupported), if_pos hrefused, hret]
    · have hret : f.refusal value = -eopnotsupp := by
        refine if_pos ?_
        cases f with
        | actionFlags => exact ⟨rfl, hsupported⟩
        | enabled | filterFlags | minFileSize | logLevel =>
            exact absurd haccepted.supported hsupported
      rw [if_pos hsupported, hret]
  · obtain ⟨hset, hsupported⟩ := hiff.mpr hforbids
    rw [if_neg hforbids, normalizeSnapshot_self_iff]
    exact ⟨⟨hsupported, hset, haccepted.cgroups, haccepted.paths, haccepted.hooks⟩,
      normalize_set hconfig value f, hcgroups, hpaths, hhooks⟩

/-- An edited extension extends the root unless the value is weaker. -/
theorem extensionOf_edit_iff {root snapshot : PolicySnapshot} {value : UInt32} {f : ScalarField}
    (h : ExtensionOf root snapshot) (hsmall : ¬ f.Overlarge value) :
    ExtensionOf root (f.edit snapshot value) ↔ ¬ f.WeakerThan root.config value := by
  obtain ⟨h1, h2, h3, h4, h5, h6, h7, h8, h9, h10, h11⟩ := h
  cases f with
  | enabled =>
      have hone : ¬ value > 1 := fun hlarge => hsmall ⟨rfl, hlarge⟩
      have hbyte := toUInt8_toNat_of_small hone
      constructor
      · intro hedited hweaker
        have hle := UInt8.le_iff_toNat_le.mp hedited.enabled
        simp only [edit, set, hbyte] at hle
        exact absurd hweaker (not_lt.mpr hle)
      · intro hkept
        refine ⟨?_, h2, h3, h4, h5, h6, h7, h8, h9, h10, h11⟩
        rw [UInt8.le_iff_toNat_le]
        simp only [edit, set, hbyte]
        exact not_lt.mp hkept
  | filterFlags =>
      refine ⟨fun hedited hweaker => hweaker hedited.filterFlags, fun hkept => ?_⟩
      exact ⟨h1, not_not.mp hkept, h3, h4, h5, h6, h7, h8, h9, h10, h11⟩
  | actionFlags =>
      refine ⟨fun hedited hweaker => hweaker hedited.actionFlags, fun hkept => ?_⟩
      exact ⟨h1, h2, not_not.mp hkept, h4, h5, h6, h7, h8, h9, h10, h11⟩
  | minFileSize =>
      refine ⟨fun hedited => UInt32.not_lt.mpr hedited.minFileSize, fun hkept => ?_⟩
      exact ⟨h1, h2, h3, UInt32.not_lt.mp hkept, h5, h6, h7, h8, h9, h10, h11⟩
  | logLevel =>
      refine ⟨fun hedited => UInt32.not_lt.mpr hedited.logLevel, fun hkept => ?_⟩
      exact ⟨h1, h2, h3, h4, h5, UInt32.not_lt.mp hkept, h7, h8, h9, h10, h11⟩

end ScalarField

/-! ## Edits of a policy state -/

/-- The root snapshot. -/
def PolicyState.root (state : PolicyState) : PolicySnapshot := (state.records.get 0).snapshot

/-- The snapshot that an edit starts from: the stored one rebased on the root, or the root
itself if there is none. -/
def PolicyState.editBase (state : PolicyState) (id : Bytes) : PolicySnapshot :=
  match state.store.value id with
  | none => state.root
  | some stored => if id = [] then stored else rebaseExtension state.root stored

/-- The error of an edit that is refused. -/
def PolicyState.editRefusal (state : PolicyState) (id : Bytes) (f : ScalarField) (value : UInt32) :
    Option Ret :=
  if f.Overlarge value then some (-einval)
  else if candidateFor state id = none then some (-enospc)
  else if f.Forbids value then some (f.refusal value)
  else if id ≠ [] ∧ f.WeakerThan state.root.config value then some (-eperm)
  else none

theorem editRefusal_eq_none_iff {state : PolicyState} {id : Bytes} {f : ScalarField}
    {value : UInt32} :
    state.editRefusal id f value = none ↔ ¬ f.Overlarge value ∧ candidateFor state id ≠ none ∧
      ¬ f.Forbids value ∧ (id ≠ [] → ¬ f.WeakerThan state.root.config value) := by
  unfold PolicyState.editRefusal
  split
  · simp_all
  · split
    · simp_all
    · split
      · simp_all
      · split <;> simp_all

/-- There is room for an update of what is stored. -/
theorem candidateFor_of_value {state : PolicyState} {id : Bytes} {stored : PolicySnapshot}
    (h : state.store.value id = some stored) : candidateFor state id ≠ none := by
  rw [value_store, Option.map_eq_some_iff] at h
  obtain ⟨i, hindex, -⟩ := h
  simp [candidateFor, hindex]

theorem editBase_root (state : PolicyState) : state.editBase [] = state.root := by
  rw [PolicyState.editBase, value_store_root]
  exact if_pos rfl

theorem fieldRequest_text (state : PolicyState) (id : Option Bytes) (f : ScalarField)
    (value : UInt32) :
    (fieldRequest state id f.text value = none ↔ f.Overlarge value) ∧
      ∀ request, fieldRequest state id f.text value = some request →
        request.expectedGeneration = 0 ∧
          request.record.snapshot = f.edit (state.editBase (id.getD [])) value := by
  have hbase : (if (namespaceIndex state id).getD 0 = 0 then
        (state.records.get ((namespaceIndex state id).getD 0)).snapshot
      else rebaseExtension (state.records.get 0).snapshot
        (state.records.get ((namespaceIndex state id).getD 0)).snapshot) =
      state.editBase (id.getD []) := by
    have hid : namespaceIndex state id = namespaceIndex state (some (id.getD [])) := rfl
    rw [hid, PolicyState.editBase, value_store]
    cases hindex : namespaceIndex state (some (id.getD [])) with
    | none => rfl
    | some index =>
        rcases namespaceIndex_some hindex with ⟨hempty, rfl⟩ | ⟨hne, hlive, -⟩
        · simp only [Option.getD_some] at hempty
          simp [hempty]
        · simp only [Option.getD_some] at hne
          simp only [Option.getD_some, hlive.ne_zero, if_false, Option.map_some, if_neg hne]
          rfl
  unfold fieldRequest
  simp only [hbase, ScalarField.setField_text]
  by_cases hlarge : f.Overlarge value
  · simp [hlarge]
  · simp only [hlarge, if_false, Option.map_some]
    refine ⟨by simp, ?_⟩
    rintro request ⟨⟩
    exact ⟨rfl, rfl⟩

namespace PolicyState.WellFormed

variable {state : PolicyState} {id : Bytes}

theorem root_normal (h : state.WellFormed) : normalizeSnapshot state.root = .ok state.root :=
  h.normal 0 (Nat.zero_le _)

theorem value_normal (h : state.WellFormed) {stored : PolicySnapshot}
    (hstored : state.store.value id = some stored) : normalizeSnapshot stored = .ok stored := by
  rw [value_store, Option.map_eq_some_iff] at hstored
  obtain ⟨i, hindex, rfl⟩ := hstored
  rcases namespaceIndex_some hindex with ⟨-, rfl⟩ | ⟨-, hlive, -⟩
  · exact h.root_normal
  · exact h.normal i hlive.2

theorem editBase_normal (h : state.WellFormed) (id : Bytes) :
    normalizeSnapshot (state.editBase id) = .ok (state.editBase id) := by
  unfold PolicyState.editBase
  split
  · exact h.root_normal
  · rename_i stored hstored
    split
    · exact h.value_normal hstored
    · exact normalizeSnapshot_rebase h.root_normal (h.value_normal hstored)

theorem editBase_extends (h : state.WellFormed) (hid : id ≠ []) :
    ExtensionOf state.root (state.editBase id) := by
  unfold PolicyState.editBase
  split
  · exact .refl (normalizeSnapshot_eq_ok.mp h.root_normal).1
  · rw [if_neg hid]
    exact .rebase _ _

end PolicyState.WellFormed

/-! ## Edits through the manager -/

/-- The outcomes of an edit, if nothing fails. -/
inductive EditOutcome (s : KernelState) (m : ℕ) (id : Bytes) (f : ScalarField) (value : UInt32) :
    Ret → KernelState → Prop where
  | refused {ret : Ret} (hrefusal : (s.maps m).active.editRefusal id f value = some ret) :
      EditOutcome s m id f value ret s
  | same (namespaces : List PolicyNamespace)
      (haccepted : (s.maps m).active.editRefusal id f value = none)
      (hkept : (s.maps m).active.store.value id =
        some (f.edit ((s.maps m).active.editBase id) value)) :
      EditOutcome s m id f value 0 { s with policyNamespaceList := namespaces }
  | exhausted (namespaces : List PolicyNamespace)
      (haccepted : (s.maps m).active.editRefusal id f value = none)
      (hchanged : (s.maps m).active.store.value id ≠
        some (f.edit ((s.maps m).active.editBase id) value))
      (hmax : (s.maps m).generation = 0xffffffffffffffff) :
      EditOutcome s m id f value (-eoverflow) { s with policyNamespaceList := namespaces }
  | published {t : KernelState} (haccepted : (s.maps m).active.editRefusal id f value = none)
      (hmax : (s.maps m).generation ≠ 0xffffffffffffffff)
      (hgeneration : (t.maps m).generation = (s.maps m).generation + 1)
      (hvalue : (t.maps m).active.store.value = Function.update (s.maps m).active.store.value id
        (some (f.edit ((s.maps m).active.editBase id) value)))
      (hcommitted : CommittedFrom s.engine t.engine) : EditOutcome s m id f value 0 t

/-- The return value of an edit, if nothing fails. -/
def BpfMap.editRet (map : BpfMap) (id : Bytes) (f : ScalarField) (value : UInt32) : Ret :=
  match map.active.editRefusal id f value with
  | some ret => ret
  | none =>
      if map.generation = 0xffffffffffffffff ∧
          map.active.store.value id ≠ some (f.edit (map.active.editBase id) value) then -eoverflow
      else 0

theorem EditOutcome.ret_eq {s t : KernelState} {m : ℕ} {id : Bytes} {f : ScalarField}
    {value : UInt32} {ret : Ret} (h : EditOutcome s m id f value ret t) :
    ret = (s.maps m).editRet id f value := by
  unfold BpfMap.editRet
  cases h with
  | refused hrefusal => rw [hrefusal]
  | same namespaces haccepted hkept =>
      rw [haccepted]
      exact (if_neg fun hboth => hboth.2 hkept).symm
  | exhausted namespaces haccepted hchanged hmax =>
      rw [haccepted]
      exact (if_pos ⟨hmax, hchanged⟩).symm
  | published haccepted hmax =>
      rw [haccepted]
      exact (if_neg fun hboth => hmax hboth.1).symm

theorem CandidateOf.room {active candidate : PolicyState} {id : Bytes} {snapshot : PolicySnapshot}
    {index : Fin (policyNamespaces + 1)} (h : CandidateOf active id snapshot candidate index) :
    candidateFor active id ≠ none := by
  cases h with
  | replaced _ hindex => simp [candidateFor, hindex]
  | appended hindex hcount => simp [candidateFor, hindex, hcount]

/-- An update changes nothing if the snapshot is the one stored for its namespace. -/
theorem CandidateOf.holds_iff {active candidate : PolicyState} {id : Bytes}
    {snapshot : PolicySnapshot} {index : Fin (policyNamespaces + 1)} (hwf : active.WellFormed)
    (h : CandidateOf active id snapshot candidate index) :
    active.Holds index snapshot ↔ active.store.value id = some snapshot := by
  rw [value_store]
  cases h with
  | replaced _ hindex =>
      have hle := index_le_of_found hindex
      rw [hindex, Option.map_some, Option.some_inj]
      exact ⟨fun hholds => hholds.2.symm, fun hstored => ⟨hle, hstored.symm⟩⟩
  | appended hindex hcount =>
      have hval := (PolicyState.Appended.of_count hwf.count hcount
        ⟨strscpy (CString.zero _) id, snapshot⟩).index_val
      rw [hindex]
      refine ⟨fun hholds => ?_, fun hstored => by cases hstored⟩
      have hle := hholds.1
      omega

/-- The checks of an update that edits a field are those of the field. -/
theorem UpdateOutcome.edit {P : Platform} {s t : KernelState} {m : ℕ} {id : Bytes}
    {f : ScalarField} {value : UInt32} {ret : Ret} (hs : (s.maps m).Published)
    (hname : id ≠ [] → validNamespace id = true) (hsmall : ¬ f.Overlarge value)
    (h : UpdateOutcome P s m id (f.edit ((s.maps m).active.editBase id) value) ret t) :
    EditOutcome s m id f value ret t := by
  have hwf := hs.active_wellFormed
  have hnormal := f.normalizeSnapshot_edit (hwf.editBase_normal id) hsmall
  -- What passes the checks is accepted as the edited snapshot itself.
  have hpassed {snapshot : PolicySnapshot} {candidate : PolicyState}
      {index : Fin (policyNamespaces + 1)}
      (hacceptable : Acceptable (s.maps m).active id (f.edit ((s.maps m).active.editBase id) value)
        snapshot candidate index) :
      snapshot = f.edit ((s.maps m).active.editBase id) value ∧
        (s.maps m).active.editRefusal id f value = none := by
    have hok := hacceptable.normal
    rw [hnormal] at hok
    split at hok
    · cases hok
    · rename_i hpermits
      obtain rfl := Except.ok.inj hok
      refine ⟨rfl, ?_⟩
      rw [PolicyState.editRefusal, if_neg hsmall, if_neg hacceptable.replaces.room,
        if_neg hpermits, if_neg]
      rintro ⟨hid, hweaker⟩
      obtain ⟨hindex, hroot⟩ := hacceptable.replaces.root hid hwf
      have hextension := hacceptable.extension hindex
      rw [hroot] at hextension
      exact (f.extensionOf_edit_iff (hwf.editBase_extends hid) hsmall).mp hextension hweaker
  cases h with
  | full hroom =>
      refine .refused ?_
      rw [PolicyState.editRefusal, if_neg hsmall, if_pos hroom]
  | abnormal hroom herror =>
      refine .refused ?_
      rw [hnormal] at herror
      split at herror
      · rename_i hforbids
        rw [PolicyState.editRefusal, if_neg hsmall, if_neg hroom, if_pos hforbids,
          Except.error.inj herror]
      · cases herror
  | weaker snapshot candidate index hok hcandidate hindex hweaker =>
      refine .refused ?_
      have hid := hcandidate.id_ne_nil hindex
      rw [hnormal] at hok
      split at hok
      · cases hok
      · rename_i hpermits
        obtain rfl := Except.ok.inj hok
        rw [(hcandidate.root hid hwf).2] at hweaker
        have hweak := not_not.mp
          (mt (f.extensionOf_edit_iff (hwf.editBase_extends hid) hsmall).mpr hweaker)
        rw [PolicyState.editRefusal, if_neg hsmall, if_neg hcandidate.room, if_neg hpermits,
          if_pos ⟨hid, hweak⟩]
  | same snapshot candidate index namespaces hacceptable hholds =>
      obtain ⟨rfl, haccepted⟩ := hpassed hacceptable
      exact .same namespaces haccepted ((hacceptable.replaces.holds_iff hwf).mp hholds)
  | exhausted snapshot candidate index namespaces hacceptable hchanged hmax =>
      obtain ⟨rfl, haccepted⟩ := hpassed hacceptable
      exact .exhausted namespaces haccepted (mt (hacceptable.replaces.holds_iff hwf).mpr hchanged)
        hmax
  | published snapshot candidate index namespaces metadata engine hacceptable hchanged hmax
      hcommitted =>
      obtain ⟨rfl, haccepted⟩ := hpassed hacceptable
      have hgeneration := succ_ne_zero_of_ne_max hmax
      have hmap := maps_publishedState P { s with policyNamespaceList := namespaces } m candidate
        index metadata engine
      have hidem : normalizeSnapshot (f.edit ((s.maps m).active.editBase id) value) =
          .ok (f.edit ((s.maps m).active.editBase id) value) := hacceptable.normal
      have hvalue := hacceptable.replaces.store_value hwf
        (hwf.candidate hname hidem hacceptable.replaces) hname
      refine .published haccepted hmax ?_ ?_ ?_
      · rw [hmap, BpfMap.generation_publish]
        rfl
      · have hactive := (s.maps m).active_publish_stage (nextCandidate (s.maps m) candidate)
          hgeneration
        rw [hmap, hactive]
        exact hvalue
      · rw [engine_publishedState]
        exact hcommitted

theorem policyUpdateField_edit {P : Platform} {env : ApplyEnv} {s : KernelState} {m : ℕ}
    (hbound : s.policyMap = some m) (hs : (s.maps m).Published)
    (hlatched : s.engine.commitError = 0) (htfm : s.engine.systemMerkleRoot.tfm = true)
    (henv : env.Succeeds s.engine) (id : Option Bytes)
    (hid : ∀ name ∈ id, validNamespace name = true) (f : ScalarField) (value : UInt32) :
    EditOutcome s m (id.getD []) f value
      (policyUpdateField P true env id (some f.text) value s).1
      (policyUpdateField P true env id (some f.text) value s).2 := by
  have hname : id.getD [] ≠ [] → validNamespace (id.getD []) = true := by
    cases id with
    | none => exact fun hne => absurd rfl hne
    | some name => exact fun _ => hid name rfl
  obtain ⟨hnone, hsome⟩ := fieldRequest_text (s.maps m).active id f value
  have hvalid : ¬ ∃ name ∈ id, validNamespace name = false := by simpa using hid
  simp only [policyUpdateField, if_neg hvalid, not_true_eq_false, if_false]
  split
  · rename_i hunbound
    cases hunbound.symm.trans hbound
  · rename_i m' hbound'
    obtain rfl := Option.some.inj (hbound'.symm.trans hbound)
    cases hrequest : fieldRequest (s.maps m').active id f.text value with
    | none =>
        refine .refused ?_
        rw [PolicyState.editRefusal, if_pos (hnone.mp hrequest)]
    | some request =>
        obtain ⟨hgeneration, hsnapshot⟩ := hsome request hrequest
        have hcstr := fieldRequest_namespaceId hid hrequest
        have hsmall : ¬ f.Overlarge value := by
          intro hlarge
          cases (hnone.mpr hlarge).symm.trans hrequest
        have houtcome := applyLocked_outcome (P := P) hbound hlatched htfm henv hgeneration
          (by rw [hcstr]; exact hname)
        rw [hcstr, hsnapshot] at houtcome
        exact houtcome.edit hs hname hsmall

theorem policyUpdateField_unknown {P : Platform} {env : ApplyEnv} {s : KernelState} {m : ℕ}
    (hbound : s.policyMap = some m) {id : Option Bytes}
    (hid : ∀ name ∈ id, validNamespace name = true) {field : Bytes}
    (hfield : ∀ f : ScalarField, f.text ≠ field) (value : UInt32) :
    policyUpdateField P true env id (some field) value s = (-einval, s) := by
  have hvalid : ¬ ∃ name ∈ id, validNamespace name = false := by simpa using hid
  have hrequest (state : PolicyState) : fieldRequest state id field value = none := by
    simp [fieldRequest, ScalarField.setField_of_ne hfield]
  simp only [policyUpdateField, if_neg hvalid, not_true_eq_false, if_false]
  split
  · rename_i hunbound
    cases hunbound.symm.trans hbound
  · simp only [hrequest]

end BpfIma
