import Mathlib.Data.List.Nodup
import BpfIma.Model.Callers
import BpfIma.Verification.Kernel.Effects

/-! # The container registry and the digest table

Containers are never removed or renamed and their lists only grow. The digest table holds
the digests of the lists, each under the name of its container. -/

namespace BpfIma

open CString Errno

/-! ## Growth -/

/-- Every container of `s` is still in its place, and its list at most longer. -/
def Grown (s t : CommitState) : Prop :=
  ∀ (i : ℕ) (c : ContainerNode), s.containers[i]? = some c →
    ∃ c' : ContainerNode, t.containers[i]? = some c' ∧ c'.id = c.id ∧
      c.measurementList <+: c'.measurementList

namespace Grown

variable {s t u : CommitState}

theorem of_eq (h : t.containers = s.containers) : Grown s t := by
  intro i c hc
  exact ⟨c, by rw [h, hc], rfl, List.prefix_refl _⟩

theorem refl (s : CommitState) : Grown s s := .of_eq rfl

theorem trans (hst : Grown s t) (htu : Grown t u) : Grown s u := by
  intro i c hc
  obtain ⟨c', hc', hid, hprefix⟩ := hst i c hc
  obtain ⟨c'', hc'', hid', hprefix'⟩ := htu i c' hc'
  exact ⟨c'', hc'', hid'.trans hid, hprefix.trans hprefix'⟩

theorem of_append {rest : List ContainerNode} (h : t.containers = s.containers ++ rest) :
    Grown s t := by
  intro i c hc
  refine ⟨c, ?_, rfl, List.prefix_refl _⟩
  rw [h, List.getElem?_append_left (List.getElem?_eq_some_iff.mp hc).1, hc]

/-- What a container's list holds it goes on to hold. -/
theorem mem_digests (h : Grown s t) {i : ℕ} {c : ContainerNode} {digest : Digest}
    (hc : s.containers[i]? = some c) (hmem : digest ∈ c.digests) :
    ∃ c', t.containers[i]? = some c' ∧ digest ∈ c'.digests := by
  obtain ⟨c', hc', -, hlist⟩ := h i c hc
  exact ⟨c', hc', (hlist.map MeasurementEntry.digest).subset hmem⟩

end Grown

/-- The names of the containers, in list order. -/
def CommitState.containerIds (s : CommitState) : List Bytes := s.containers.map fun c => cstr c.id

theorem findContainerById_eq (s : KernelState) (id : Bytes) :
    findContainerById s id = s.engine.containerIds.findIdx? (· == id) := by
  rw [CommitState.containerIds, List.findIdx?_map]
  rfl

theorem Grown.containerIds {s t : CommitState} (h : Grown s t) :
    s.containerIds <+: t.containerIds := by
  rw [List.prefix_iff_getElem?]
  intro i hi
  rw [CommitState.containerIds, List.length_map] at hi
  obtain ⟨c, hc, hid, -⟩ := h i _ (List.getElem?_eq_getElem hi)
  simp [CommitState.containerIds, hc, hid]

/-- A container that was found once is found from then on. -/
theorem Grown.findContainerById {s t : KernelState} (h : Grown s.engine t.engine) {id : Bytes}
    {i : ℕ} (hfind : findContainerById s id = some i) : findContainerById t id = some i := by
  obtain ⟨rest, hrest⟩ := h.containerIds
  rw [findContainerById_eq] at hfind ⊢
  rw [← hrest, List.findIdx?_append, hfind]
  rfl

theorem notMem_containerIds_iff (s : KernelState) (id : Bytes) :
    id ∉ s.engine.containerIds ↔ BpfIma.findContainerById s id = none := by
  rw [findContainerById_eq, List.findIdx?_eq_none_iff]
  constructor
  · intro hnot c hc
    simp only [beq_eq_false_iff_ne, ne_eq]
    rintro rfl
    exact hnot hc
  · intro hnone hmem
    simpa using hnone id hmem

theorem getElem?_of_findContainerById {s : KernelState} {id : Bytes} {i : ℕ}
    (h : BpfIma.findContainerById s id = some i) :
    ∃ c, s.engine.containers[i]? = some c ∧ cstr c.id = id := by
  obtain ⟨hi, hid, -⟩ := List.findIdx?_eq_some_iff_getElem.mp h
  exact ⟨s.engine.containers[i], List.getElem?_eq_getElem hi, by simpa using hid⟩

/-! ## The invariant -/

theorem hashExists_iff (table : List HashEntry) (digest : Digest) (id : Bytes) :
    hashExists table digest id = true ↔
      ∃ entry ∈ table, entry.sha256Hash = digest ∧ cstr entry.namespaceId = id := by
  simp [hashExists]

/-- The registry of a module that was used in any way. -/
structure Registry (s : CommitState) : Prop where
  nonpos : s.commitError ≤ 0
  idLength : ∀ c ∈ s.containers, (cstr c.id).length < containerIdMaxLen
  distinct : s.containerIds.Nodup
  table : ∀ digest id, hashExists s.sha256HashTable digest id = true ↔
    ∃ c ∈ s.containers, cstr c.id = id ∧ digest ∈ c.digests
  nodup : ∀ c ∈ s.containers, c.digests.Nodup

/-- The commit that makes `s` into `t` appends `entry` to the container `node` at `i`. -/
structure Records (s : CommitState) (i : ℕ) (node : ContainerNode) (entry : MeasurementEntry)
    (t : CommitState) : Prop where
  place : s.containers[i]? = some node
  fresh : hashExists s.sha256HashTable entry.digest (cstr node.id) = false
  containers : ∃ newLeaf, t.containers = s.containers.modify i (ContainerNode.append entry newLeaf)
  table : t.sha256HashTable =
    s.sha256HashTable ++ [⟨entry.digest, strscpy (CString.zero _) (cstr node.id)⟩]

structure SameRegistry (s t : CommitState) : Prop where
  containers : t.containers = s.containers
  table : t.sha256HashTable = s.sha256HashTable
  nonpos : s.commitError ≤ 0 → t.commitError ≤ 0

/-- The rules by which calls other than measurements change the registry. -/
inductive RegistryEffect (s t : CommitState) : Prop where
  | same (hsame : SameRegistry s t)
  | created (id : Bytes) (hnew : id ∉ s.containerIds) (hlength : id.length < containerIdMaxLen)
      (hzero : 0 ∉ id)
      (ht : t = { s with containers := s.containers ++ [freshContainer id] })

theorem RegistryEffect.grown {s t : CommitState} (h : RegistryEffect s t) : Grown s t := by
  cases h with
  | same hsame => exact .of_eq hsame.containers
  | created id hnew hlength hzero ht => exact .of_append (by rw [ht])

namespace Records

variable {s t : CommitState} {i : ℕ} {node : ContainerNode} {entry : MeasurementEntry}

/-- The container at `j` afterwards. -/
theorem getElem? (h : Records s i node entry t) :
    ∃ newLeaf, ∀ j, t.containers[j]? =
      s.containers[j]?.map fun c => if i = j then c.append entry newLeaf else c := by
  obtain ⟨newLeaf, hcontainers⟩ := h.containers
  refine ⟨newLeaf, fun j => ?_⟩
  rw [hcontainers, List.getElem?_modify]
  rfl

theorem grown (h : Records s i node entry t) : Grown s t := by
  obtain ⟨newLeaf, hget⟩ := h.getElem?
  intro j c hc
  refine ⟨_, (hget j).trans (by rw [hc, Option.map_some]), ?_⟩
  split
  · exact ⟨rfl, List.prefix_append _ _⟩
  · exact ⟨rfl, List.prefix_refl _⟩

theorem containerIds (h : Records s i node entry t) : t.containerIds = s.containerIds := by
  obtain ⟨newLeaf, hget⟩ := h.getElem?
  apply List.ext_getElem?
  intro j
  simp only [CommitState.containerIds, List.getElem?_map, hget, Option.map_map]
  congr 1
  funext c
  simp only [Function.comp]
  split <;> rfl

theorem mem_containers (h : Records s i node entry t) {c : ContainerNode} (hc : c ∈ t.containers) :
    (∃ j, j ≠ i ∧ s.containers[j]? = some c) ∨ ∃ newLeaf, c = node.append entry newLeaf := by
  obtain ⟨newLeaf, hget⟩ := h.getElem?
  obtain ⟨j, hj⟩ := List.mem_iff_getElem?.mp hc
  rw [hget] at hj
  obtain ⟨b, hb, rfl⟩ := Option.map_eq_some_iff.mp hj
  split
  · subst_vars
    obtain rfl := Option.some.inj (h.place.symm.trans hb)
    exact .inr ⟨newLeaf, rfl⟩
  · rename_i hij
    exact .inl ⟨j, fun heq => hij heq.symm, hb⟩

theorem node_mem (h : Records s i node entry t) : node ∈ s.containers :=
  List.mem_of_getElem? h.place

/-- The entry is in the list of its container. -/
theorem recorded (h : Records s i node entry t) :
    ∃ c, t.containers[i]? = some c ∧ c.id = node.id ∧
      c.measurementList = node.measurementList ++ [entry] := by
  obtain ⟨newLeaf, hget⟩ := h.getElem?
  refine ⟨node.append entry newLeaf, ?_, rfl, rfl⟩
  rw [hget, h.place, Option.map_some, if_pos rfl]

end Records

namespace Registry

variable {s t : CommitState}

theorem of_loaded (maps : ℕ → BpfMap) (tpmPcrIndex : ℤ) :
    Registry (moduleLoaded maps tpmPcrIndex).engine where
  nonpos := le_rfl
  idLength := by simp [moduleLoaded]
  distinct := by simp [moduleLoaded, CommitState.containerIds]
  table := by simp [moduleLoaded, hashExists]
  nodup := by simp [moduleLoaded]

theorem same (h : Registry s) (hsame : SameRegistry s t) : Registry t where
  nonpos := hsame.nonpos h.nonpos
  idLength := hsame.containers ▸ h.idLength
  distinct := by
    rw [CommitState.containerIds, hsame.containers]
    exact h.distinct
  table := by
    rw [hsame.containers, hsame.table]
    exact h.table
  nodup := hsame.containers ▸ h.nodup

theorem create (h : Registry s) {id : Bytes} (hnew : id ∉ s.containerIds)
    (hlength : id.length < containerIdMaxLen) (hzero : 0 ∉ id) :
    Registry { s with containers := s.containers ++ [freshContainer id] } := by
  have hid : cstr (freshContainer id).id = id := cstr_strscpy hlength hzero
  have hmem : ∀ c ∈ s.containers ++ [freshContainer id],
      c ∈ s.containers ∨ c = freshContainer id := by simp
  refine ⟨h.nonpos, ?_, ?_, ?_, ?_⟩
  · intro c hc
    rcases hmem c hc with hc | rfl
    · exact h.idLength c hc
    · rwa [hid]
  · have hids : ({ s with containers := s.containers ++ [freshContainer id] } :
        CommitState).containerIds = s.containerIds ++ [id] := by
      simp [CommitState.containerIds, hid]
    rw [hids]
    exact List.nodup_append.mpr ⟨h.distinct, List.nodup_singleton id, by
      intro a ha b hb
      obtain rfl := List.mem_singleton.mp hb
      exact fun hab => hnew (hab ▸ ha)⟩
  · intro digest name
    rw [h.table]
    constructor
    · rintro ⟨c, hc, hname⟩
      exact ⟨c, List.mem_append_left _ hc, hname⟩
    · rintro ⟨c, hc, hname, hdigest⟩
      rcases hmem c hc with hc | rfl
      · exact ⟨c, hc, hname, hdigest⟩
      · cases hdigest
  · intro c hc
    rcases hmem c hc with hc | rfl
    · exact h.nodup c hc
    · exact List.nodup_nil

theorem effect (h : Registry s) (heffect : RegistryEffect s t) : Registry t := by
  cases heffect with
  | same hsame => exact h.same hsame
  | created id hnew hlength hzero ht =>
      rw [ht]
      exact h.create hnew hlength hzero

theorem digests_append (node : ContainerNode) (entry : MeasurementEntry) (newLeaf : Digest) :
    (node.append entry newLeaf).digests = node.digests ++ [entry.digest] := by
  simp [ContainerNode.digests, ContainerNode.append]

/-- A digest that the table does not know is in no list of that name. -/
theorem notMem_digests (h : Registry s) {digest : Digest} {c : ContainerNode}
    (hfresh : hashExists s.sha256HashTable digest (cstr c.id) = false) (hc : c ∈ s.containers) :
    digest ∉ c.digests := by
  intro hmem
  rw [(h.table digest (cstr c.id)).mpr ⟨c, hc, rfl, hmem⟩] at hfresh
  cases hfresh

/-- No two containers have the same name. -/
theorem id_ne (h : Registry s) {i j : ℕ} {b c : ContainerNode} (hij : j ≠ i)
    (hb : s.containers[i]? = some b) (hc : s.containers[j]? = some c) : cstr c.id ≠ cstr b.id := by
  intro hid
  have hi : s.containerIds[i]? = some (cstr b.id) := by simp [CommitState.containerIds, hb]
  have hj : s.containerIds[j]? = some (cstr c.id) := by simp [CommitState.containerIds, hc]
  obtain ⟨hi', -⟩ := List.getElem?_eq_some_iff.mp hi
  exact hij ((List.getElem?_inj hi' h.distinct).mp (by rw [hi, hj, hid])).symm

theorem records (h : Registry s) {i : ℕ} {node : ContainerNode} {entry : MeasurementEntry}
    (hrecords : Records s i node entry t) (hnonpos : t.commitError ≤ 0) : Registry t := by
  have hnode := hrecords.node_mem
  have hname : cstr (strscpy (CString.zero containerIdMaxLen) (cstr node.id)) = cstr node.id :=
    cstr_strscpy (h.idLength node hnode) (zero_notMem_cstr _)
  refine ⟨hnonpos, ?_, ?_, ?_, ?_⟩
  · intro c hc
    rcases hrecords.mem_containers hc with ⟨j, -, hj⟩ | ⟨newLeaf, rfl⟩
    · exact h.idLength c (List.mem_of_getElem? hj)
    · exact h.idLength node hnode
  · rw [hrecords.containerIds]
    exact h.distinct
  · intro digest id
    have htable : hashExists t.sha256HashTable digest id = true ↔
        hashExists s.sha256HashTable digest id = true ∨
          entry.digest = digest ∧ cstr node.id = id := by
      rw [hrecords.table]
      simp [hashExists, hname]
    rw [htable, h.table]
    constructor
    · rintro (⟨c, hc, hid, hdigest⟩ | ⟨rfl, rfl⟩)
      · obtain ⟨j, hj⟩ := List.mem_iff_getElem?.mp hc
        obtain ⟨c', hc', hsame, hlist⟩ := hrecords.grown j c hj
        exact ⟨c', List.mem_of_getElem? hc', hsame ▸ hid,
          (hlist.map MeasurementEntry.digest).subset hdigest⟩
      · obtain ⟨c, hc, hsame, hlist⟩ := hrecords.recorded
        exact ⟨c, List.mem_of_getElem? hc, by rw [hsame], by simp [ContainerNode.digests, hlist]⟩
    · rintro ⟨c, hc, hid, hdigest⟩
      rcases hrecords.mem_containers hc with ⟨j, -, hj⟩ | ⟨newLeaf, rfl⟩
      · exact .inl ⟨c, List.mem_of_getElem? hj, hid, hdigest⟩
      · rw [digests_append, List.mem_append, List.mem_singleton] at hdigest
        rcases hdigest with hdigest | rfl
        · exact .inl ⟨node, hnode, hid, hdigest⟩
        · exact .inr ⟨rfl, hid⟩
  · intro c hc
    rcases hrecords.mem_containers hc with ⟨j, -, hj⟩ | ⟨newLeaf, rfl⟩
    · exact h.nodup c (List.mem_of_getElem? hj)
    · rw [digests_append]
      refine List.nodup_append.mpr ⟨h.nodup node hnode, List.nodup_singleton _, ?_⟩
      intro a ha b hb
      obtain rfl := List.mem_singleton.mp hb
      rintro rfl
      exact h.notMem_digests hrecords.fresh hnode ha

end Registry

/-! ## The calls -/

theorem SameRegistry.refl (s : CommitState) : SameRegistry s s := ⟨rfl, rfl, id⟩

theorem commitCheckLocked_sameRegistry (available : Bool) (s : CommitState) :
    SameRegistry s (commitCheckLocked available s).2 :=
  ⟨rfl, rfl, commitCheckLocked_nonpos⟩

/-- What a commit publishes in the registry. -/
theorem registry_published (S : HashSuite) (config : PolicyConfig) (env : TrimEnv)
    (sourceId : Option Bytes) (s : CommitState) (hardware : Bool)
    (container : Option ContainerRef) (entry : Option MeasurementEntry) (p : PreparedEvent) :
    ∃ t, trimHistoryLocked S config env sourceId
        (publishEvent (anchorRoot s hardware p.newRoot) container entry p) = t ∧
      t.containers = (publishEvent s container entry p).containers ∧
      t.sha256HashTable = s.sha256HashTable ++ p.hash.toList ∧ t.commitError = s.commitError := by
  obtain ⟨history, count, htrim⟩ := trimHistoryLocked_frame S config env sourceId
    (publishEvent (anchorRoot s hardware p.newRoot) container entry p)
  rw [htrim]
  cases hardware <;> exact ⟨_, rfl, rfl, rfl, rfl⟩

theorem commitRootLocked_sameRegistry (S : HashSuite) (config : PolicyConfig) (env : CommitEnv)
    (s : CommitState) (value : Option Digest) (sourceId : Option Bytes) :
    SameRegistry s (commitRootLocked S config env s value sourceId).2 := by
  have heffect := commitStep_effect S s (.commitRoot config env value sourceId)
  simp only [commitStep] at heffect
  generalize (commitRootLocked S config env s value sourceId).1 = ret,
    (commitRootLocked S config env s value sourceId).2 = t at heffect ⊢
  cases heffect with
  | refused error hret herror hnonpos => exact ⟨rfl, rfl, hnonpos⟩
  | commandFailed extra hunlatched hallowed hret => exact ⟨rfl, rfl, fun _ => hret.le⟩
  | rootCommitted v hardware p hunlatched hhardware hsoftware hp =>
      obtain ⟨t, ht, hcontainers, htable, herror⟩ :=
        registry_published S config env.trim sourceId s hardware none none p
      rw [ht]
      refine ⟨hcontainers, ?_, fun hs => herror ▸ hs⟩
      rw [htable, hp.hash_none rfl, Option.toList_none, List.append_nil]

/-- The outcomes of `add_container_measurement` for the container `node` at `i`. -/
inductive AddOutcome (s : CommitState) (i : ℕ) (node : ContainerNode) (name : Bytes)
    (data dependencies : Option Bytes) (digest : Digest) : Ret → CommitState → Prop where
  | failed {ret : Ret} {t : CommitState} (hret : ret < 0) (hsame : SameRegistry s t) :
      AddOutcome s i node name data dependencies digest ret t
  | duplicate {t : CommitState}
      (hexists : hashExists s.sha256HashTable digest (cstr node.id) = true)
      (hsame : SameRegistry s t) : AddOutcome s i node name data dependencies digest 1 t
  | recorded {t : CommitState} (entry : MeasurementEntry)
      (hentry : createMeasurementEntry true (some name) data dependencies (some digest) =
        some entry)
      (hrecords : Records s i node entry t) (hnonpos : t.commitError ≤ 0) :
      AddOutcome s i node name data dependencies digest 0 t

theorem addContainerMeasurement_outcome (S : HashSuite) (config : PolicyConfig) (env : AddEnv)
    {s : CommitState} (hs : Registry s) {i : ℕ} {node : ContainerNode}
    (hnode : s.containers[i]? = some node) (name : Bytes) (data dependencies : Option Bytes)
    (digest : Digest) :
    AddOutcome s i node name data dependencies digest
      (addContainerMeasurement S config env s (some i) (some name) data dependencies
        (some digest)).1
      (addContainerMeasurement S config env s (some i) (some name) data dependencies
        (some digest)).2 := by
  have hvalue := addContainerMeasurement_ret S config env hs.nonpos hnode name data dependencies
    digest
  have heffect := addContainerMeasurement_effect S config env s (some i) (some name) data
    dependencies (some digest)
  generalize (addContainerMeasurement S config env s (some i) (some name) data dependencies
      (some digest)).1 = ret,
    (addContainerMeasurement S config env s (some i) (some name) data dependencies
      (some digest)).2 = t at hvalue heffect ⊢
  cases heffect with
  | refused error hret herror hnonpos =>
      rcases hvalue with hle | ⟨rfl, hexists⟩
      · exact .failed (lt_of_le_of_ne hle hret) ⟨rfl, rfl, hnonpos⟩
      · exact .duplicate hexists ⟨rfl, rfl, hnonpos⟩
  | commandFailed extra hunlatched hallowed hret => exact .failed hret ⟨rfl, rfl, fun _ => hret.le⟩
  | measured node' entry hardware p hnode' hentry hunlatched hhardware hsoftware hp =>
      obtain rfl := Option.some.inj (hnode.symm.trans hnode')
      obtain ⟨hhash, hfresh⟩ := hp.hash_some _ rfl _ rfl rfl
      obtain ⟨t, ht, hcontainers, htable, herror⟩ := registry_published S config env.commit.trim
        (some (cstr node.id)) s hardware (some (i, node)) (some entry) p
      rw [ht]
      refine .recorded entry hentry ⟨hnode, hfresh, ⟨p.newLeaf, hcontainers⟩, ?_⟩ ?_
      · rw [htable, hhash]
        rfl
      · rw [herror, hunlatched]

/-- A policy call commits at most to the root. -/
theorem PolicyEffect.sameRegistry {P : Platform} {s t : KernelState} {ret : Ret}
    (h : PolicyEffect P s ret t) : SameRegistry s.engine t.engine := by
  rcases h.engine_cases with hsame | ⟨error, -, -, hnonpos, hlatch⟩ | ⟨_, _, _, _, hcommit⟩
  · rw [hsame]
    exact .refl _
  · rw [hlatch]
    exact ⟨rfl, rfl, hnonpos⟩
  · rw [hcommit]
    exact commitRootLocked_sameRegistry ..

theorem copyKfuncString_ok {destSize : ℕ} {src : Option Bytes} {allowEmpty : Bool} {id : Bytes}
    (h : copyKfuncString destSize src allowEmpty = .ok id) : id.length < destSize ∧ 0 ∉ id := by
  unfold copyKfuncString at h
  split at h
  · cases h
  · rename_i src
    split at h
    · cases h
    · rename_i hsize
      split at h
      · cases h
      · rename_i hterminated
        split at h
        · cases h
        · obtain rfl := Except.ok.inj h
          rw [not_not] at hterminated
          have hzero : (0 : UInt8) ∉ src.takeWhile (· != 0) := fun hmem => by
            simpa using List.mem_takeWhile_imp hmem
          refine ⟨?_, hzero⟩
          have hle := (List.takeWhile_prefix (l := src) (· != 0)).length_le
          have hne : (src.takeWhile (· != 0)).length ≠ src.length := by
            intro heq
            rw [(List.takeWhile_prefix _).eq_of_length heq] at hzero
            exact hzero hterminated
          omega

theorem CreateEffect.registry {id : Bytes} {s t : KernelState} {result : Except Ret ℕ}
    (h : CreateEffect id s result t) (hlength : id.length < containerIdMaxLen) (hzero : 0 ∉ id) :
    RegistryEffect s.engine t.engine := by
  cases h with
  | found | failed => exact .same (.refl _)
  | created namespaces hfind hgrown =>
      exact .created id ((notMem_containerIds_iff s id).mpr hfind) hlength hzero rfl

/-- Every call but a measurement. -/
theorem kernelStep_registry (P : Platform) (s : KernelState) {op : KernelOp}
    (hop : op.isMeasurement = false) :
    RegistryEffect s.engine (kernelStep P s op).2.engine := by
  cases hpolicy : op.isPolicyCall with
  | true => exact .same (kernelStep_policy P s hpolicy).sameRegistry
  | false =>
      cases op with
      | measurementExtend | addMeasurement => cases hop
      | policyBindMap | policyApply | policyUpdateField => cases hpolicy
      | containerGetOrCreate env containerId =>
          simp only [kernelStep, containerGetOrCreate]
          split
          · exact .same (.refl _)
          · rename_i id hid
            obtain ⟨hlength, hzero⟩ := copyKfuncString_ok hid
            split
            · exact .same (.refl _)
            · have heffect := createContainerNode_effect env id s
              split <;> rename_i hresult <;> rw [hresult] at heffect <;>
                exact heffect.registry hlength hzero
      | commitGetError available => exact .same (commitCheckLocked_sameRegistry available s.engine)
      | policyNamespaceGet alloc id =>
          obtain ⟨namespaces, -, hstate⟩ := policyNamespaceGetLocked_frame alloc id s
          simp only [kernelStep]
          split <;> rename_i hresult <;> rw [hresult] at hstate <;> simp only at hstate <;>
            subst hstate <;> exact .same (.refl _)
      | mapSyscall m map =>
          simp only [kernelStep]
          split <;> exact .same (.refl _)

end BpfIma
