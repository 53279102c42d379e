import BpfIma.Verification.Container.Safety

/-! # A creation that nobody interrupts

The sections of `create_container_node` one after the other do what `createContainerNode` does. -/

namespace BpfIma

open CString Errno

/-- The sections between `mutex_lock` and `mutex_unlock`. Those that a call has no turn for do
nothing. -/
def creationSections (env : CreateEnv) : List RefAction :=
  [.mutexLock, .findContainerById, .createSecurityfs env, .findContainerById, .publish, .countInc,
    .refcountInc, .mutexUnlock]

/-- The ids of the published containers. -/
def ContainerRefs.ids (s : ContainerRefs) : List Bytes :=
  s.containerList.map fun i => cstr (s.nodes i).id

theorem Keeps.ids_eq {s t : ContainerRefs} (h : Keeps s t) (hs : s.ListOk) : t.ids = s.ids := by
  rw [ContainerRefs.ids, h.containerList]
  refine List.map_congr_left fun i hi => ?_
  rw [h.ids i (hs.lt i (List.mem_append_left _ hi))]

theorem findContainerByIdRcu_unlisted {s : ContainerRefs} {id : Bytes} (h : s.Unlisted id) :
    findContainerByIdRcu s id = (none, s) := by
  rcases findLoop_cases s id s.containerList with ⟨hnone, -⟩ | ⟨i, hi, hid, -⟩
  · exact hnone
  · exact absurd hid (h i hi)

/-- The two models agree on the result of a creation and on the containers after it. -/
structure SameCreation (call : ContainerCall) (result : Except Ret ℕ × KernelState)
    (out : RefPoint × ContainerRefs) : Prop where
  ids : result.2.engine.containerIds = out.2.ids
  found : ∀ i, result.1 = .ok i →
    ∃ container, out.2.containerList[i]? = some container ∧ out.1 = .referenced call container
  failed : ∀ ret, result.1 = .error ret → out.1 = .returned ret

namespace Sound

variable {S : RefSystem} {log : List ℕ} {id : Bytes} {k : KernelState} (call : ContainerCall)
  (env : CreateEnv)

theorem refAction_mutexLock (hfree : S.shared.createMutex = false) :
    refAction S.shared (.missing call id) .mutexLock =
      (.locked call id, { S.shared with createMutex := true }) := by
  simp only [refAction, hfree, Bool.false_eq_true, if_false]

/-- The container is there: the fast check finds it. -/
theorem solo_existing (h : Sound S log) (hfree : S.shared.createMutex = false)
    (hsame : k.engine.containerIds = S.shared.ids) {i : ℕ}
    (hfind : findContainerById k id = some i) :
    SameCreation call (.ok i, k)
      (Threads.solo refAction S.shared (.missing call id) (creationSections env)) := by
  rw [findContainerById_eq, hsame, List.findIdx?_eq_some_iff_getElem] at hfind
  obtain ⟨hlt, hid, -⟩ := hfind
  rw [ContainerRefs.ids, List.length_map] at hlt
  simp only [ContainerRefs.ids, List.getElem_map, beq_iff_eq] at hid
  have hlisted := List.getElem_mem hlt
  have hlocked : Keeps S.shared { S.shared with createMutex := true } :=
    ⟨le_rfl, fun _ _ => rfl, rfl, .refl _⟩
  have hfound : findContainerByIdRcu { S.shared with createMutex := true } id =
      (some S.shared.containerList[i],
        refcountInc { S.shared with createMutex := true } S.shared.containerList[i]) := by
    rcases findLoop_cases { S.shared with createMutex := true } id S.shared.containerList with
      ⟨-, hdead⟩ | ⟨j, hj, hjid, -, hfound⟩
    · exact absurd (hdead _ hlisted hid) (h.alive (List.mem_append_left _ hlisted))
    · rw [h.lists.unique j hj _ hlisted (hjid.trans hid.symm)] at hfound
      exact hfound
  have hout : Threads.solo refAction S.shared (.missing call id) (creationSections env) =
      (.referenced call S.shared.containerList[i],
        { refcountInc { S.shared with createMutex := true } S.shared.containerList[i] with
          createMutex := false }) := by
    have hcheck : refAction { S.shared with createMutex := true } (.locked call id)
        .findContainerById = (.unlocking call (.ok S.shared.containerList[i]),
          refcountInc { S.shared with createMutex := true } S.shared.containerList[i]) := by
      simp only [refAction, hfound]
    simp only [creationSections, Threads.solo, refAction_mutexLock call hfree, hcheck]
    rfl
  rw [hout]
  refine ⟨hsame.trans ?_, ?_, fun ret hret => by cases hret⟩
  · have hinc := Keeps.refcountInc { S.shared with createMutex := true } S.shared.containerList[i]
    exact ((hinc.ids_eq (hlocked.listOk h.lists)).trans (hlocked.ids_eq h.lists)).symm
  · intro j hj
    obtain rfl := Except.ok.inj hj
    exact ⟨_, List.getElem?_eq_getElem hlt, rfl⟩

/-- The container is not there: the sections up to `create_container_securityfs`. -/
theorem solo_checked (hfree : S.shared.createMutex = false)
    (hunlisted : S.shared.Unlisted id) :
    Threads.solo refAction S.shared (.missing call id) (creationSections env) =
      Threads.solo refAction
        (createSecurityfs env call id { S.shared with createMutex := true }).2
        (createSecurityfs env call id { S.shared with createMutex := true }).1
        [.findContainerById, .publish, .countInc, .refcountInc, .mutexUnlock] := by
  have hfind : findContainerByIdRcu { S.shared with createMutex := true } id =
      (none, { S.shared with createMutex := true }) := findContainerByIdRcu_unlisted hunlisted
  have hcheck : refAction { S.shared with createMutex := true } (.locked call id)
      .findContainerById = (.absent call id, { S.shared with createMutex := true }) := by
    simp only [refAction, hfind]
  simp only [creationSections, Threads.solo, refAction_mutexLock call hfree, hcheck]
  rfl

/-- A new node is published at the end of the list. -/
theorem solo_created (h : Sound S log) (hid : Storable id)
    (hsame : k.engine.containerIds = S.shared.ids) (hunlisted : S.shared.Unlisted id)
    {k' : KernelState} (hids : k'.engine.containerIds = k.engine.containerIds ++ [id]) :
    SameCreation call (.ok k.engine.containers.length, k')
      (Threads.solo refAction
        { S.shared with
          createMutex := true
          nodes := Function.update S.shared.nodes S.shared.allocated (newNode id)
          allocated := S.shared.allocated + 1 }
        (.created call id S.shared.allocated)
        [.findContainerById, .publish, .countInc, .refcountInc, .mutexUnlock]) := by
  have hkeeps : Keeps S.shared { S.shared with
      createMutex := true
      nodes := Function.update S.shared.nodes S.shared.allocated (newNode id)
      allocated := S.shared.allocated + 1 } := by
    refine ⟨Nat.le_succ _, fun i hi => ?_, rfl, .refl _⟩
    simp [hi.ne]
  generalize hs : ({ S.shared with
      createMutex := true
      nodes := Function.update S.shared.nodes S.shared.allocated (newNode id)
      allocated := S.shared.allocated + 1 } : ContainerRefs) = s at hkeeps
  have hlist : s.containerList = S.shared.containerList := by rw [← hs]
  have hnode : cstr (s.nodes S.shared.allocated).id = id := by
    rw [← hs]
    simp [cstr_newNode hid]
  have hcheck := findContainerByIdRcu_unlisted (hkeeps.unlisted h.lists hunlisted)
  have hout : Threads.solo refAction s (.created call id S.shared.allocated)
        [.findContainerById, .publish, .countInc, .refcountInc, .mutexUnlock] =
      (.referenced call S.shared.allocated,
        { refcountInc { s with
            containerList := s.containerList ++ [S.shared.allocated]
            containerCount := s.containerCount + 1 } S.shared.allocated with
          createMutex := false }) := by
    have hskip : refAction s (.created call id S.shared.allocated) .findContainerById =
        (.created call id S.shared.allocated, s) := rfl
    have hpublish : refAction s (.created call id S.shared.allocated) .publish =
        (.published call S.shared.allocated,
          { s with containerList := s.containerList ++ [S.shared.allocated] }) := by
      simp only [refAction, publishContainer, hcheck]
    simp only [Threads.solo, hskip, hpublish]
    rfl
  rw [hout]
  refine ⟨?_, fun i hi => ?_, fun ret hret => by cases hret⟩
  · have hinc (i : ℕ) : ((refcountInc s S.shared.allocated).nodes i).id = (s.nodes i).id := by
      by_cases hi : i = S.shared.allocated
      · simp [refcountInc, hi]
      · simp [refcountInc, ContainerRefs.modify_of_ne _ _ hi]
    have hold : s.ids = S.shared.ids := hkeeps.ids_eq h.lists
    change k'.engine.containerIds = (s.containerList ++ [S.shared.allocated]).map
      fun i => cstr ((refcountInc s S.shared.allocated).nodes i).id
    simp only [hinc, List.map_append, List.map_cons, List.map_nil, hnode]
    rw [hids, hsame, ← hold]
    rfl
  · obtain rfl := Except.ok.inj hi
    have hlength : k.engine.containers.length = s.containerList.length := by
      have hlengths := congrArg List.length hsame
      rw [hlist]
      simpa [CommitState.containerIds, ContainerRefs.ids] using hlengths
    refine ⟨S.shared.allocated, ?_, rfl⟩
    change (s.containerList ++ [S.shared.allocated])[k.engine.containers.length]? = _
    rw [hlength, List.getElem?_concat_length]

theorem solo_missing (h : Sound S log) (hfree : S.shared.createMutex = false)
    (hid : Storable id) (hsame : k.engine.containerIds = S.shared.ids)
    (hfind : findContainerById k id = none) :
    SameCreation call (createContainerNode env id k)
      (Threads.solo refAction S.shared (.missing call id) (creationSections env)) := by
  have hunlisted : S.shared.Unlisted id := by
    rw [← notMem_containerIds_iff, hsame] at hfind
    exact fun i hi heq => hfind (List.mem_map.mpr ⟨i, hi, heq⟩)
  rw [solo_checked call env hfree hunlisted, createContainerNode, hfind]
  have hfailed (ret : Ret) : SameCreation call (.error ret, k)
      (.returned ret, { S.shared with createMutex := false }) := by
    refine ⟨hsame, fun i hi => ?_, fun error herror => ?_⟩
    · cases hi
    · rw [Except.error.inj herror]
  simp only [createSecurityfs]
  split
  · exact hfailed _
  · split
    · exact hfailed _
    · split
      · split
        · -- the directory is there, but no container
          rename_i hexists
          have hcheck : findContainerByIdRcu { S.shared with createMutex := true } id =
              (none, { S.shared with createMutex := true }) :=
            findContainerByIdRcu_unlisted hunlisted
          have hagain : refAction { S.shared with createMutex := true } (.dirExists call id)
              .findContainerById = (.unlocking call (.error (-eexist)),
                { S.shared with createMutex := true }) := by
            simp only [refAction, hcheck]
          rw [hexists]
          simp only [Threads.solo, hagain]
          exact hfailed (-eexist)
        · exact hfailed _
      · obtain ⟨namespaces, -, hget⟩ := policyNamespaceGetLocked_frame env.metadataAlloc id k
        simp only [hget]
        refine h.solo_created call hid hsame hunlisted ?_
        simp [CommitState.containerIds, freshContainer, cstr_strscpy hid.1 hid.2]

/-- A creation that nobody interrupts is `createContainerNode`. -/
theorem solo_creation (h : Sound S log) (hfree : S.shared.createMutex = false)
    (hid : Storable id) (hsame : k.engine.containerIds = S.shared.ids) :
    SameCreation call (createContainerNode env id k)
      (Threads.solo refAction S.shared (.missing call id) (creationSections env)) := by
  cases hfind : findContainerById k id with
  | some i =>
      rw [createContainerNode, hfind]
      exact h.solo_existing call env hfree hsame hfind
  | none => exact h.solo_missing call env hfree hid hsame hfind

end Sound

end BpfIma
