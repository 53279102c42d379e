import BpfIma.Library.References
import BpfIma.Model.ContainerRefs
import BpfIma.Verification.Measurement.Sections

/-! # The sections of the container registry

What a lookup finds, what a caller holds between two sections, and what no section changes. -/

namespace BpfIma

open CString Errno References

/-! ## Lookups -/

namespace ContainerRefs

@[simp] theorem modify_self (s : ContainerRefs) (i : ℕ) (f : RefNode → RefNode) :
    (s.modify i f).nodes i = f (s.nodes i) := by
  simp [modify]

theorem modify_of_ne (s : ContainerRefs) {i j : ℕ} (f : RefNode → RefNode) (h : j ≠ i) :
    (s.modify i f).nodes j = s.nodes j := by
  simp [modify, h]

end ContainerRefs

/-- A lookup finds a live node with the id, or none of the list is one. -/
theorem findLoop_cases (s : ContainerRefs) (id : Bytes) (list : List ℕ) :
    (findLoop s id list = (none, s) ∧
      ∀ i ∈ list, cstr (s.nodes i).id = id → (s.nodes i).refcnt = 0) ∨
      ∃ i ∈ list, cstr (s.nodes i).id = id ∧ (s.nodes i).refcnt ≠ 0 ∧
        findLoop s id list = (some i, refcountInc s i) := by
  induction list with
  | nil => exact .inl ⟨rfl, by simp⟩
  | cons i rest ih =>
      by_cases hmatch : cstr (s.nodes i).id = id ∧ (s.nodes i).refcnt ≠ 0
      · refine .inr ⟨i, List.mem_cons_self, hmatch.1, hmatch.2, ?_⟩
        rw [findLoop, if_pos hmatch.1, getContainer, if_neg hmatch.2]
      · -- the loop goes on past `i`
        have hskip : findLoop s id (i :: rest) = findLoop s id rest := by
          rw [findLoop]
          by_cases hid : cstr (s.nodes i).id = id
          · have hdead : (s.nodes i).refcnt = 0 := not_not.mp fun hlive => hmatch ⟨hid, hlive⟩
            rw [if_pos hid, getContainer, if_pos hdead]
          · rw [if_neg hid]
        rw [hskip]
        rcases ih with ⟨hnone, hrest⟩ | ⟨j, hj, hid, hlive, hfound⟩
        · refine .inl ⟨hnone, List.forall_mem_cons.mpr ⟨fun hid => ?_, hrest⟩⟩
          exact not_not.mp fun hlive => hmatch ⟨hid, hlive⟩
        · exact .inr ⟨j, List.mem_cons_of_mem i hj, hid, hlive, hfound⟩

/-! ## Ids -/

/-- The node of the container keeps the whole id. -/
def Storable (id : Bytes) : Prop := id.length < containerIdMaxLen ∧ 0 ∉ id

theorem cstr_newNode {id : Bytes} (h : Storable id) : cstr (newNode id).id = id :=
  cstr_strscpy h.1 h.2

theorem copyContainerId_ok {containerId : Option Bytes} {id : Bytes}
    (h : copyContainerId containerId = .ok id) : Storable id := by
  unfold copyContainerId at h
  split at h
  · cases h
  · rename_i copied hcopy
    split at h
    · cases h
    · obtain rfl := Except.ok.inj h
      exact copyKfuncString_ok hcopy

theorem effectiveNamespace_terminateData (request : MeasurementRequest) :
    request.terminateData.effectiveNamespace = request.effectiveNamespace := rfl

theorem ContainerCall.enter_ok {call : ContainerCall} {id : Bytes} (h : call.enter = .ok id) :
    Storable id := by
  cases call with
  | getOrCreate | measurementCount | «exists» => exact copyContainerId_ok h
  | leafHash containerId =>
      simp only [enter] at h
      split at h
      · cases h
      · rename_i copied hcopy
        split at h
        · cases h
        · obtain rfl := Except.ok.inj h
          exact copyContainerId_ok hcopy
  | extend data dataSize =>
      simp only [enter] at h
      cases hprepare : prepareMeasurement data dataSize
          ⟨.zero, List.replicate concatDataSize 0, 0⟩ with
      | mk ret mem =>
          rw [hprepare] at h
          simp only at h
          obtain ⟨hret, hhashed⟩ := Machine.check_passed h (by simp)
          obtain ⟨-, hchecked⟩ := Machine.check_passed hhashed (by simp)
          obtain ⟨-, hentered⟩ := Machine.check_passed hchecked (by simp)
          rw [not_not] at hret
          subst hret
          obtain ⟨request, -, haccepted, hrequest, -⟩ := prepareMeasurement_ok hprepare
          obtain rfl := Except.ok.inj hentered
          rw [hrequest, effectiveNamespace_terminateData]
          exact MeasurementRequest.effectiveNamespace_length haccepted

/-! ## Between two sections -/

/-- The node that a caller has a counted reference to. The first reference of a node is its
creator's, until the list takes it over. -/
def RefPoint.reference : RefPoint → Option ℕ
  | .created _ _ i | .unlocking _ (.ok i) | .referenced _ i | .opening i | .opened i => some i
  | _ => none

/-- The caller holds `container_create_mutex`. -/
def RefPoint.creating : RefPoint → Bool
  | .locked .. | .absent .. | .dirExists .. | .created .. | .published .. | .counted ..
  | .unlocking .. => true
  | _ => false

/-- The caller has published a node that `container_count` does not count yet. -/
def RefPoint.uncounted : RefPoint → Bool
  | .published .. => true
  | _ => false

theorem RefPoint.creating_of_uncounted {point : RefPoint} (h : point.uncounted = true) :
    point.creating = true := by
  cases point <;> first | rfl | cases h

/-- What teardown has taken from the list and not yet put. -/
def Cleanup.pending : Cleanup → List ℕ
  | .notStarted | .finished => []
  | .walking tempList => tempList
  | .detached i tempList => i :: tempList

/-- The nodes with a reference of the list's own. -/
def ContainerRefs.owned (s : ContainerRefs) : List ℕ := s.containerList ++ s.cleanup.pending

/-- No published container has the id. -/
def ContainerRefs.Unlisted (s : ContainerRefs) (id : Bytes) : Prop :=
  ∀ i ∈ s.containerList, cstr (s.nodes i).id ≠ id

/-- What a caller knows between two sections. -/
def RefPoint.Valid (s : ContainerRefs) : RefPoint → Prop
  | .entered _ id | .missing _ id => Storable id
  | .locked _ id | .dirExists _ id => s.createMutex = true ∧ Storable id
  | .absent _ id => s.createMutex = true ∧ Storable id ∧ s.Unlisted id
  | .created _ id i =>
      s.createMutex = true ∧ i < s.allocated ∧ cstr (s.nodes i).id = id ∧ s.Unlisted id ∧
        i ∉ s.owned
  | .published _ i | .counted _ i => s.createMutex = true ∧ i ∈ s.containerList
  | .unlocking .. => s.createMutex = true
  | .resolved i => i < s.allocated
  | .idle | .referenced .. | .opening _ | .opened _ | .returned _ => True

theorem RefPoint.Valid.createMutex {s : ContainerRefs} {point : RefPoint} (h : point.Valid s)
    (hcreating : point.creating = true) : s.createMutex = true := by
  cases point with
  | locked | absent | dirExists | created | published | counted => exact h.1
  | unlocking => exact h
  | _ => cases hcreating

/-- The list has one live entry for each id. -/
structure ContainerRefs.ListOk (s : ContainerRefs) : Prop where
  lt : ∀ i ∈ s.owned, i < s.allocated
  nodup : s.owned.Nodup
  unique : ∀ i ∈ s.containerList, ∀ j ∈ s.containerList,
    cstr (s.nodes i).id = cstr (s.nodes j).id → i = j

/-- A node is queued when its count drops to zero, and never freed in another way. -/
structure ContainerRefs.NodesOk (s : ContainerRefs) : Prop where
  file : ∀ i, (s.nodes i).file = true → i < s.allocated
  queued : ∀ i < s.allocated, (s.nodes i).queued = if (s.nodes i).refcnt = 0 then 1 else 0
  freed : ∀ i < s.allocated, (s.nodes i).freed = false

/-! ## Frames -/

/-- The list and the ids stay; teardown may drop references of the list's own. -/
structure Keeps (s t : ContainerRefs) : Prop where
  allocated : s.allocated ≤ t.allocated
  ids : ∀ i < s.allocated, (t.nodes i).id = (s.nodes i).id
  containerList : t.containerList = s.containerList
  owned : t.owned.Sublist s.owned

namespace Keeps

variable {s t : ContainerRefs}

theorem refl (s : ContainerRefs) : Keeps s s := ⟨le_rfl, fun _ _ => rfl, rfl, .refl _⟩

theorem modify (s : ContainerRefs) (i : ℕ) {f : RefNode → RefNode} (hid : ∀ x, (f x).id = x.id) :
    Keeps s (s.modify i f) := by
  refine ⟨le_rfl, fun j _ => ?_, rfl, .refl _⟩
  by_cases hj : j = i
  · rw [hj, ContainerRefs.modify_self, hid]
  · rw [ContainerRefs.modify_of_ne s f hj]

theorem refcountInc (s : ContainerRefs) (i : ℕ) : Keeps s (refcountInc s i) :=
  .modify s i fun _ => rfl

theorem putContainer (s : ContainerRefs) (i : ℕ) : Keeps s (putContainer s i) := by
  refine .modify s i fun node => ?_
  split <;> rfl

theorem unlisted (h : Keeps s t) (hs : s.ListOk) {id : Bytes} (hid : s.Unlisted id) :
    t.Unlisted id := by
  intro i hi
  rw [h.containerList] at hi
  rw [h.ids i (hs.lt i (List.mem_append_left _ hi))]
  exact hid i hi

theorem listOk (h : Keeps s t) (hs : s.ListOk) : t.ListOk := by
  refine ⟨fun i hi => ?_, hs.nodup.sublist h.owned, ?_⟩
  · exact (hs.lt i (h.owned.subset hi)).trans_le h.allocated
  · intro i hi j hj heq
    rw [h.containerList] at hi hj
    rw [h.ids i (hs.lt i (List.mem_append_left _ hi)),
      h.ids j (hs.lt j (List.mem_append_left _ hj))] at heq
    exact hs.unique i hi j hj heq

/-- The others' knowledge stays, as long as the mutex is not taken from them. -/
theorem valid (h : Keeps s t) (hs : s.ListOk)
    (hmutex : s.createMutex = true → t.createMutex = true) {point : RefPoint}
    (hpoint : point.Valid s) : point.Valid t := by
  cases point with
  | locked | dirExists => exact ⟨hmutex hpoint.1, hpoint.2⟩
  | absent => exact ⟨hmutex hpoint.1, hpoint.2.1, h.unlisted hs hpoint.2.2⟩
  | created call id i =>
      obtain ⟨hlocked, hlt, hid, hunlisted, hnotMem⟩ := hpoint
      refine ⟨hmutex hlocked, hlt.trans_le h.allocated, ?_, h.unlisted hs hunlisted, ?_⟩
      · rw [h.ids i hlt, hid]
      · exact fun hi => hnotMem (h.owned.subset hi)
  | published | counted => exact ⟨hmutex hpoint.1, h.containerList ▸ hpoint.2⟩
  | unlocking => exact hmutex hpoint
  | resolved => exact lt_of_lt_of_le hpoint h.allocated
  | idle | entered | missing | referenced | opening | opened | returned => exact hpoint

end Keeps

/-- Callers outside `create_container_node_locked` know nothing of the list. -/
theorem RefPoint.Valid.grow {s t : ContainerRefs} (hgrow : s.allocated ≤ t.allocated)
    {point : RefPoint} (h : point.Valid s) (hcreating : point.creating = false) :
    point.Valid t := by
  cases point with
  | locked | absent | dirExists | created | published | counted | unlocking => cases hcreating
  | resolved => exact lt_of_lt_of_le h hgrow
  | idle | entered | missing | referenced | opening | opened | returned => exact h

namespace ContainerRefs.NodesOk

variable {s : ContainerRefs}

/-- A change of one node that keeps its files or removes them. -/
theorem modify (h : s.NodesOk) (i : ℕ) {f : RefNode → RefNode}
    (hfile : (f (s.nodes i)).file = true → (s.nodes i).file = true)
    (hqueued : i < s.allocated →
      (f (s.nodes i)).queued = if (f (s.nodes i)).refcnt = 0 then 1 else 0)
    (hfreed : (f (s.nodes i)).freed = (s.nodes i).freed) : (s.modify i f).NodesOk := by
  constructor
  all_goals
    intro j
    by_cases hj : j = i
  · subst hj
    rw [modify_self]
    exact fun hf => h.file j (hfile hf)
  · rw [modify_of_ne s f hj]
    exact h.file j
  · subst hj
    rw [modify_self]
    exact hqueued
  · rw [modify_of_ne s f hj]
    exact h.queued j
  · subst hj
    rw [modify_self, hfreed]
    exact h.freed j
  · rw [modify_of_ne s f hj]
    exact h.freed j

theorem refcountInc (h : s.NodesOk) {i : ℕ} (hlive : (s.nodes i).refcnt ≠ 0) :
    (refcountInc s i).NodesOk := by
  refine h.modify i id (fun hi => ?_) rfl
  change (s.nodes i).queued = _
  rw [h.queued i hi, if_neg hlive, if_neg (Nat.succ_ne_zero _)]

/-- The last reference queues the node, which was not queued before. -/
theorem putContainer (h : s.NodesOk) {i : ℕ} (hlive : (s.nodes i).refcnt ≠ 0) :
    (putContainer s i).NodesOk := by
  by_cases hlast : (s.nodes i).refcnt = 1
  · refine h.modify i ?_ (fun hi => ?_) ?_
    · rw [if_pos hlast]
      exact id
    · rw [if_pos hlast, h.queued i hi, if_neg hlive]
      rfl
    · rw [if_pos hlast]
  · refine h.modify i ?_ (fun hi => ?_) ?_
    · rw [if_neg hlast]
      exact id
    · rw [if_neg hlast]
      change (s.nodes i).queued = if (s.nodes i).refcnt - 1 = 0 then 1 else 0
      rw [h.queued i hi, if_neg hlive, if_neg (by omega)]
    · rw [if_neg hlast]

end ContainerRefs.NodesOk

end BpfIma
