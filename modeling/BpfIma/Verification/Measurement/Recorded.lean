import BpfIma.Verification.Measurement.Sections

/-! # Recorded measurements

Whatever the interleaving of callers, a call that returns zero has its digest in the list
of its namespace, once. The lists hold the recorded requests in the order of their commits. -/

namespace BpfIma

open CString Machine

/-! ## The journal of recorded requests -/

/-- The request that a section records: the last one does if it changes a list. -/
def recordedBy (s t : KernelState) (caller : Caller) : ExtendAction → Option MeasurementRequest
  | .addContainerMeasurement _ =>
      if t.engine.containers = s.engine.containers then none else caller.data
  | _ => none

def recordedRequest (P : Platform) (s : KernelState) (caller : Caller) (action : ExtendAction) :
    Option MeasurementRequest :=
  recordedBy s (extendAction P s caller action).2 caller action

theorem recordedBy_same {s t : KernelState} (h : t.engine.containers = s.engine.containers)
    (caller : Caller) (action : ExtendAction) : recordedBy s t caller action = none := by
  cases action with
  | addContainerMeasurement env => simp [recordedBy, h]
  | enter | commitGetError | findContainerById | createContainerNode => rfl

/-- `entry` is made of an accepted request. -/
structure EntryOf (P : Platform) (request : MeasurementRequest) (entry : MeasurementEntry) :
    Prop where
  prepared : preparedBytes (some request) measurementRequestSize = some request.hashedBytes
  created : createMeasurementEntry true (some (cstr request.eventName))
    (some (cstr request.terminateData.additionalData)) (some (cstr request.dependencies))
    (some (P.sha256 request.hashedBytes)) = some entry

theorem EntryOf.digest {P : Platform} {request : MeasurementRequest} {entry : MeasurementEntry}
    (h : EntryOf P request entry) : entry.digest = P.sha256 request.hashedBytes :=
  (createMeasurementEntry_eq_some h.created).2

/-- The requests for one namespace, in the order in which they were recorded. -/
def requestsFor (id : Bytes) (log : List MeasurementRequest) : List MeasurementRequest :=
  log.filter fun request => request.effectiveNamespace == id

/-- The lists hold the recorded requests of their namespaces. -/
structure Journal (P : Platform) (s : CommitState) (log : List MeasurementRequest) : Prop where
  known : ∀ request ∈ log, request.effectiveNamespace ∈ s.containerIds
  lists : ∀ c ∈ s.containers,
    List.Forall₂ (EntryOf P) (requestsFor (cstr c.id) log) c.measurementList

namespace Journal

variable {P : Platform} {s t : CommitState} {log : List MeasurementRequest}

theorem same (h : Journal P s log) (hcontainers : t.containers = s.containers) :
    Journal P t log := by
  constructor
  · rw [CommitState.containerIds, hcontainers]
    exact h.known
  · rw [hcontainers]
    exact h.lists

theorem create (h : Journal P s log) {id : Bytes} (hnew : id ∉ s.containerIds)
    (hid : cstr (freshContainer id).id = id) :
    Journal P { s with containers := s.containers ++ [freshContainer id] } log := by
  constructor
  · intro request hrequest
    simp only [CommitState.containerIds, List.map_append]
    exact List.mem_append_left _ (h.known request hrequest)
  · intro c hc
    rcases List.mem_append.mp hc with hc | hc
    · exact h.lists c hc
    · obtain rfl := List.mem_singleton.mp hc
      have hnone : requestsFor (cstr (freshContainer id).id) log = [] := by
        rw [hid, requestsFor, List.filter_eq_nil_iff]
        intro request hrequest heq
        exact hnew (beq_iff_eq.mp heq ▸ h.known request hrequest)
      rw [hnone]
      exact .nil

theorem effect (h : Journal P s log) (heffect : RegistryEffect s t) : Journal P t log := by
  cases heffect with
  | same hsame => exact h.same hsame.containers
  | created id hnew hlength hzero ht =>
      rw [ht]
      exact h.create hnew (cstr_strscpy hlength hzero)

theorem records (h : Journal P s log) (hregistry : Registry s) {i : ℕ} {node : ContainerNode}
    {entry : MeasurementEntry} (hrecords : Records s i node entry t) {request : MeasurementRequest}
    (hname : request.effectiveNamespace = cstr node.id) (hentry : EntryOf P request entry) :
    Journal P t (log ++ [request]) := by
  constructor
  · rw [hrecords.containerIds]
    intro r hr
    rcases List.mem_append.mp hr with hr | hr
    · exact h.known r hr
    · rw [List.mem_singleton.mp hr, hname]
      exact List.mem_map_of_mem hrecords.node_mem
  · intro c hc
    rcases hrecords.mem_containers hc with ⟨j, hj, hplace⟩ | ⟨newLeaf, rfl⟩
    · have hother : requestsFor (cstr c.id) (log ++ [request]) = requestsFor (cstr c.id) log := by
        have hne : request.effectiveNamespace ≠ cstr c.id := fun heq =>
          hregistry.id_ne hj hrecords.place hplace (heq.symm.trans hname)
        simp [requestsFor, hne]
      rw [hother]
      exact h.lists c (List.mem_of_getElem? hplace)
    · have hmore : requestsFor (cstr node.id) (log ++ [request]) =
          requestsFor (cstr node.id) log ++ [request] := by simp [requestsFor, hname]
      change List.Forall₂ _ (requestsFor (cstr node.id) _) (node.measurementList ++ [entry])
      rw [hmore]
      exact List.rel_append (h.lists node hrecords.node_mem) (.cons hentry .nil)

/-- A recorded digest is that of a recorded request. -/
theorem exists_request (h : Journal P s log) {c : ContainerNode} (hc : c ∈ s.containers)
    {digest : Digest} (hdigest : digest ∈ c.digests) :
    ∃ request ∈ log, request.effectiveNamespace = cstr c.id ∧
      preparedBytes (some request) measurementRequestSize = some request.hashedBytes ∧
      digest = P.sha256 request.hashedBytes := by
  obtain ⟨entry, hentry, rfl⟩ := List.mem_map.mp hdigest
  obtain ⟨i, hi, rfl⟩ := List.mem_iff_getElem.mp hentry
  have hlength := (h.lists c hc).length_eq
  have hof := (h.lists c hc).get (hlength ▸ hi) hi
  obtain ⟨hmem, hname⟩ := List.mem_filter.mp
    (List.get_mem (requestsFor (cstr c.id) log) ⟨i, hlength ▸ hi⟩)
  exact ⟨_, hmem, beq_iff_eq.mp hname, hof.prepared, hof.digest⟩

end Journal

/-! ## Interleaved callers -/

/-- The digest of the call is in the list of its namespace. -/
def HoldsDigest (s : KernelState) (request : MeasurementRequest) (hashValue : Digest) : Prop :=
  ∃ i c, findContainerById s request.effectiveNamespace = some i ∧
    s.engine.containers[i]? = some c ∧ hashValue ∈ c.digests

/-- What a caller knows at the point it has come to. -/
def CallerKnows (P : Platform) (s : KernelState) (caller : Caller) : Prop :=
  match caller.point with
  | .idle => True
  | .hashed request hashValue | .checked request hashValue | .notFound request hashValue =>
      ∃ source, Prepared P caller request hashValue source
  | .referenced request hashValue i =>
      (∃ source, Prepared P caller request hashValue source) ∧
        findContainerById s request.effectiveNamespace = some i
  | .returned ret =>
      ret = 0 → ∃ request hashValue source, Prepared P caller request hashValue source ∧
        HoldsDigest s request hashValue

/-- What holds of the module between sections. -/
structure ModuleKept (P : Platform) (s : KernelState) (log : List MeasurementRequest) : Prop where
  registry : Registry s.engine
  journal : Journal P s.engine log

theorem HoldsDigest.grown {s t : KernelState} {request : MeasurementRequest} {hashValue : Digest}
    (h : HoldsDigest s request hashValue) (hgrown : Grown s.engine t.engine) :
    HoldsDigest t request hashValue := by
  obtain ⟨i, c, hfind, hc, hmem⟩ := h
  obtain ⟨c', hc', hmem'⟩ := hgrown.mem_digests hc hmem
  exact ⟨i, c', hgrown.findContainerById hfind, hc', hmem'⟩

theorem CallerKnows.grown {P : Platform} {s t : KernelState} {caller : Caller}
    (h : CallerKnows P s caller) (hgrown : Grown s.engine t.engine) : CallerKnows P t caller := by
  unfold CallerKnows at h ⊢
  split at h
  · trivial
  · exact h
  · exact h
  · exact h
  · exact ⟨h.1, hgrown.findContainerById h.2⟩
  · intro hret
    obtain ⟨request, hashValue, source, hprepared, hholds⟩ := h hret
    exact ⟨request, hashValue, source, hprepared, hholds.grown hgrown⟩

theorem Records.containers_ne {s t : CommitState} {i : ℕ} {node : ContainerNode}
    {entry : MeasurementEntry} (h : Records s i node entry t) : t.containers ≠ s.containers := by
  intro heq
  obtain ⟨c, hc, -, hlist⟩ := h.recorded
  rw [heq, h.place] at hc
  obtain rfl := Option.some.inj hc
  simp at hlist

theorem returned_ne_zero {ret : Ret} (h : ret < 0) : (if ret = 1 then 0 else ret) ≠ 0 := by
  split
  · rename_i hone
    rw [hone] at h
    exact absurd h (by decide)
  · exact h.ne

/-- What the last section leaves: a module that is kept, and a caller that knows its digest
recorded if it returns zero. -/
theorem AddOutcome.keeps {P : Platform} {s : KernelState} {log : List MeasurementRequest}
    (h : ModuleKept P s log) {caller : Caller} {request source : MeasurementRequest}
    {hashValue : Digest} (hprepared : Prepared P caller request hashValue source) {i : ℕ}
    (hfind : findContainerById s request.effectiveNamespace = some i) {node : ContainerNode}
    (hnode : s.engine.containers[i]? = some node)
    (hname : cstr node.id = request.effectiveNamespace) {env : AddEnv} {ret : Ret}
    {engine : CommitState}
    (hadd : AddOutcome s.engine i node (cstr request.eventName) (some (cstr request.additionalData))
      (some (cstr request.dependencies)) hashValue ret engine) :
    ModuleKept P { s with engine := engine }
        (log ++ (recordedBy s { s with engine := engine } caller
          (.addContainerMeasurement env)).toList) ∧
      CallerKnows P { s with engine := engine }
        { caller with point := .returned (if ret = 1 then 0 else ret) } ∧
      Grown s.engine engine := by
  have hsame (hregistry : SameRegistry s.engine engine) :
      ModuleKept P { s with engine := engine }
        (log ++ (recordedBy s { s with engine := engine } caller
          (.addContainerMeasurement env)).toList) := by
    rw [recordedBy_same hregistry.containers, Option.toList_none, List.append_nil]
    exact ⟨h.registry.same hregistry, h.journal.same hregistry.containers⟩
  cases hadd with
  | failed hret hregistry =>
      exact ⟨hsame hregistry, fun hzero => absurd hzero (returned_ne_zero hret),
        .of_eq hregistry.containers⟩
  | duplicate hexists hregistry =>
      refine ⟨hsame hregistry, fun _ => ⟨request, hashValue, source, hprepared.setPoint, ?_⟩,
        .of_eq hregistry.containers⟩
      obtain ⟨c, hc, hid, hdigest⟩ := (h.registry.table hashValue (cstr node.id)).mp hexists
      obtain ⟨j, hj⟩ := List.mem_iff_getElem?.mp hc
      have hij : j = i := by
        by_contra hne
        exact h.registry.id_ne hne hnode hj hid
      rw [hij] at hj
      exact HoldsDigest.grown ⟨i, c, hfind, hj, hdigest⟩ (.of_eq hregistry.containers)
  | recorded entry hentry hrecords hnonpos =>
      have hof : EntryOf P source entry := by
        refine ⟨hprepared.preparedBytes, ?_⟩
        rw [hprepared.request, hprepared.hashValue] at hentry
        exact hentry
      have hsource : source.effectiveNamespace = cstr node.id := by
        rw [hname, hprepared.request]
        rfl
      have hlogged : recordedBy s { s with engine := engine } caller
          (.addContainerMeasurement env) = some source := by
        rw [recordedBy, if_neg hrecords.containers_ne, hprepared.data]
      refine ⟨?_, fun _ => ⟨request, hashValue, source, hprepared.setPoint, ?_⟩, hrecords.grown⟩
      · rw [hlogged, Option.toList_some]
        exact ⟨h.registry.records hrecords hnonpos,
          h.journal.records h.registry hrecords hsource hof⟩
      · obtain ⟨c, hc, -, hlist⟩ := hrecords.recorded
        refine ⟨i, c, Grown.findContainerById hrecords.grown hfind, hc, ?_⟩
        rw [ContainerNode.digests, hlist, List.map_append, hprepared.hashValue, ← hof.digest]
        simp

/-- The container that `create_container_node` returns is the one of that name. -/
theorem CreateEffect.find {id : Bytes} {s t : KernelState} {i : ℕ}
    (h : CreateEffect id s (.ok i) t) (hlength : id.length < containerIdMaxLen) (hzero : 0 ∉ id) :
    findContainerById t id = some i := by
  cases h with
  | found _ hfind => exact hfind
  | created namespaces hfind hgrown =>
      have hid : cstr (freshContainer id).id = id := cstr_strscpy hlength hzero
      unfold findContainerById at hfind ⊢
      simp only [List.findIdx?_append, hfind]
      simp [hid]

/-- What the last section of a call can come to. -/
theorem CallerKnows.added {P : Platform} {s : KernelState} {caller : Caller}
    (h : CallerKnows P s caller) (hregistry : Registry s.engine) {request : MeasurementRequest}
    {hashValue : Digest} {i : ℕ} (hpoint : caller.point = .referenced request hashValue i)
    {env : AddEnv} {ret : Ret} {engine : CommitState}
    (hadd : addContainerMeasurement P.toHashSuite (policyGetConfig s) env s.engine (some i)
      (some (cstr request.eventName)) (some (cstr request.additionalData))
      (some (cstr request.dependencies)) (some hashValue) = (ret, engine)) :
    ∃ source node, Prepared P caller request hashValue source ∧
      findContainerById s request.effectiveNamespace = some i ∧
      s.engine.containers[i]? = some node ∧ cstr node.id = request.effectiveNamespace ∧
      AddOutcome s.engine i node (cstr request.eventName) (some (cstr request.additionalData))
        (some (cstr request.dependencies)) hashValue ret engine := by
  simp only [CallerKnows, hpoint] at h
  obtain ⟨⟨source, hsource⟩, hfind⟩ := h
  obtain ⟨node, hnode, hname⟩ := getElem?_of_findContainerById hfind
  have houtcome := addContainerMeasurement_outcome P.toHashSuite (policyGetConfig s) env
    hregistry hnode (cstr request.eventName) (some (cstr request.additionalData))
    (some (cstr request.dependencies)) hashValue
  rw [hadd] at houtcome
  exact ⟨source, node, hsource, hfind, hnode, hname, houtcome⟩

/-- Every section keeps the module and what its caller knows. -/
theorem ExtendEffect.keeps {P : Platform} {s t : KernelState} {log : List MeasurementRequest}
    {caller caller' : Caller} {action : ExtendAction}
    (heffect : ExtendEffect P s caller action caller' t) (h : ModuleKept P s log)
    (hcaller : CallerKnows P s caller) :
    ModuleKept P t (log ++ (recordedBy s t caller action).toList) ∧ CallerKnows P t caller' ∧
      Grown s.engine t.engine := by
  have hquiet {u : KernelState} (hregistry : SameRegistry s.engine u.engine) :
      ModuleKept P u (log ++ (recordedBy s u caller action).toList) := by
    rw [recordedBy_same hregistry.containers, Option.toList_none, List.append_nil]
    exact ⟨h.registry.same hregistry, h.journal.same hregistry.containers⟩
  cases heffect with
  | outOfTurn => exact ⟨hquiet (.refl _), hcaller, .refl _⟩
  | @entered data dataSize hashRet =>
      refine ⟨hquiet (.refl _), ?_, .refl _⟩
      rcases enterExtend_cases P data dataSize hashRet with
        ⟨ret, hret, heq⟩ | ⟨request, hashValue, source, heq, hprepared⟩
      · rw [heq]
        exact fun hzero => absurd hzero hret
      · rw [heq]
        exact ⟨source, hprepared _⟩
  | refused hret =>
      exact ⟨hquiet (commitCheckLocked_sameRegistry _ _), fun hzero => absurd hzero hret,
        .of_eq rfl⟩
  | checked request hashValue hpoint =>
      simp only [CallerKnows, hpoint] at hcaller
      obtain ⟨source, hsource⟩ := hcaller
      exact ⟨hquiet (commitCheckLocked_sameRegistry _ _), ⟨source, hsource.setPoint⟩, .of_eq rfl⟩
  | found request hashValue i hpoint hfind =>
      simp only [CallerKnows, hpoint] at hcaller
      obtain ⟨source, hsource⟩ := hcaller
      exact ⟨hquiet (.refl _), ⟨⟨source, hsource.setPoint⟩, hfind⟩, .refl _⟩
  | notFound request hashValue hpoint =>
      simp only [CallerKnows, hpoint] at hcaller
      obtain ⟨source, hsource⟩ := hcaller
      exact ⟨hquiet (.refl _), ⟨source, hsource.setPoint⟩, .refl _⟩
  | notCreated hret => exact ⟨hquiet (.refl _), fun hzero => absurd hzero hret, .refl _⟩
  | created request hashValue i hpoint hcreate =>
      simp only [CallerKnows, hpoint] at hcaller
      obtain ⟨source, hsource⟩ := hcaller
      have hname : request.effectiveNamespace = source.effectiveNamespace := by
        rw [hsource.request]
        rfl
      obtain ⟨hlength, hzero⟩ := source.effectiveNamespace_length hsource.accepted
      rw [← hname] at hlength hzero
      have hregistry := hcreate.registry hlength hzero
      refine ⟨?_, ⟨⟨source, hsource.setPoint⟩, hcreate.find hlength hzero⟩, hregistry.grown⟩
      simp only [recordedBy, Option.toList_none, List.append_nil]
      exact ⟨h.registry.effect hregistry, h.journal.effect hregistry⟩
  | @added env request hashValue i hpoint ret engine hadd =>
      obtain ⟨source, node, hsource, hfind, hnode, hname, houtcome⟩ :=
        hcaller.added h.registry hpoint hadd
      exact houtcome.keeps h hsource hfind hnode hname

theorem callers_relyGuarantee (P : Platform) :
    Threads.RelyGuarantee (extendAction P) (otherCall P) (recordedRequest P) (ModuleKept P)
      (CallerKnows P) fun s t => Grown s.engine t.engine where
  act {s caller log} action h hcaller := (extendAction_effect P s caller action).keeps h hcaller
  other {s log} op h := by
    unfold otherCall
    split
    · exact ⟨h, .refl _⟩
    · rename_i hop
      have hregistry := kernelStep_registry P s (by simpa using hop)
      exact ⟨⟨h.registry.effect hregistry, h.journal.effect hregistry⟩, hregistry.grown⟩
  stable hgrown hcaller := hcaller.grown hgrown

/-- The requests that the calls of a run recorded, oldest first. -/
def recordedRequests (P : Platform) (maps : ℕ → BpfMap) (tpmPcrIndex : ℤ) (ops : List SystemOp) :
    List MeasurementRequest :=
  collect (systemStep P) (Threads.emitted (recordedRequest P)) (systemLoaded maps tpmPcrIndex) ops

theorem systemRun_holds (P : Platform) (maps : ℕ → BpfMap) (tpmPcrIndex : ℤ)
    (ops : List SystemOp) :
    Threads.Holds (ModuleKept P) (CallerKnows P) (systemRun P maps tpmPcrIndex ops)
      (recordedRequests P maps tpmPcrIndex ops) := by
  have hloaded : Threads.Holds (ModuleKept P) (CallerKnows P) (systemLoaded maps tpmPcrIndex) [] :=
    ⟨⟨.of_loaded maps tpmPcrIndex, by simp, by simp [systemLoaded, moduleLoaded]⟩, fun _ => trivial⟩
  exact (callers_relyGuarantee P).run hloaded ops

theorem systemRun_grown (P : Platform) (maps : ℕ → BpfMap) (tpmPcrIndex : ℤ)
    (ops later : List SystemOp) :
    Grown (systemRun P maps tpmPcrIndex ops).shared.engine
      (systemRun P maps tpmPcrIndex (ops ++ later)).shared.engine := by
  rw [systemRun, systemRun, run_append]
  exact (callers_relyGuarantee P).guarantee (fun s => .refl _) Grown.trans
    (systemRun_holds P maps tpmPcrIndex ops) later

/-- In every interleaving of callers and other calls: the digest table is the set of digests
in the lists, under their containers; no list holds a digest twice; a call that returned
zero has the hash of its prepared data in the list of its namespace; and lists only grow. -/
theorem acknowledged_recorded_once (P : Platform) (maps : ℕ → BpfMap) (tpmPcrIndex : ℤ)
    (ops : List SystemOp) (s : SystemState) (hs : s = systemRun P maps tpmPcrIndex ops) :
    (∀ digest id,
      (∃ entry ∈ s.shared.engine.sha256HashTable,
        entry.sha256Hash = digest ∧ cstr entry.namespaceId = id) ↔
      ∃ c ∈ s.shared.engine.containers, cstr c.id = id ∧
        ∃ entry ∈ c.measurementList, entry.digest = digest) ∧
      (∀ c ∈ s.shared.engine.containers, (c.measurementList.map MeasurementEntry.digest).Nodup) ∧
      (∀ n, (s.locals n).point = .returned 0 →
        ∃ request bytes i c, (s.locals n).data = some request ∧
          preparedBytes (s.locals n).data (s.locals n).dataSize = some bytes ∧
          findContainerById s.shared request.effectiveNamespace = some i ∧
          s.shared.engine.containers[i]? = some c ∧
          ∃ entry ∈ c.measurementList, entry.digest = P.sha256 bytes) ∧
      ∀ (later : List SystemOp) (i : ℕ) (c : ContainerNode),
        s.shared.engine.containers[i]? = some c →
        ∃ c', (systemRun P maps tpmPcrIndex (ops ++ later)).shared.engine.containers[i]? =
            some c' ∧
          c'.id = c.id ∧ c.measurementList <+: c'.measurementList := by
  subst hs
  have hholds := systemRun_holds P maps tpmPcrIndex ops
  refine ⟨?_, hholds.shared.registry.nodup, ?_, systemRun_grown P maps tpmPcrIndex ops⟩
  · intro digest id
    rw [← hashExists_iff, hholds.shared.registry.table]
    simp only [ContainerNode.digests, List.mem_map]
  · intro n hpoint
    have hcaller := hholds.locals n
    rw [CallerKnows, hpoint] at hcaller
    obtain ⟨request, hashValue, source, hprepared, i, c, hfind, hc, hmem⟩ := hcaller rfl
    refine ⟨source, source.hashedBytes, i, c, hprepared.data, hprepared.bytes, ?_, hc, ?_⟩
    · rw [hprepared.request] at hfind
      exact hfind
    · rw [hprepared.hashValue] at hmem
      exact List.mem_map.mp hmem

/-- The sections of the call of caller `n`, on a host on which nothing fails. -/
def callSections (n : ℕ) (request : MeasurementRequest) : List SystemOp :=
  [.act n (.enter (some request) measurementRequestSize 0), .act n (.commitGetError true),
    .act n .findContainerById, .act n (.createContainerNode workingCreate),
    .act n (.addContainerMeasurement workingAdd)]

/-- Two callers with the same request, section by section. -/
def racingCalls : List SystemOp :=
  List.flatten (List.zipWith (fun a b => [a, b]) (callSections 0 hookRequest)
    (callSections 1 hookRequest))

/-- Both calls return zero; one of them has recorded the digest, for both. -/
theorem acknowledged_recorded_once_racingCalls :
    ((systemRun referencePlatform (fun _ => otherMap) 10 racingCalls).locals 0).point =
        .returned 0 ∧
      ((systemRun referencePlatform (fun _ => otherMap) 10 racingCalls).locals 1).point =
        .returned 0 ∧
      (systemRun referencePlatform (fun _ => otherMap) 10 racingCalls).shared.engine.containers.map
        (fun c => c.measurementList.length) = [1] ∧
      ∃ bytes c, preparedBytes (some hookRequest) measurementRequestSize = some bytes ∧
        c ∈ (systemRun referencePlatform (fun _ => otherMap) 10
          racingCalls).shared.engine.containers ∧
        ∃ entry ∈ c.measurementList, entry.digest = referencePlatform.sha256 bytes := by
  have hrun : ((systemRun referencePlatform (fun _ => otherMap) 10 racingCalls).locals 0).point =
        .returned 0 ∧
      ((systemRun referencePlatform (fun _ => otherMap) 10 racingCalls).locals 1).point =
        .returned 0 ∧
      (systemRun referencePlatform (fun _ => otherMap) 10 racingCalls).shared.engine.containers.map
        (fun c => c.measurementList.length) = [1] ∧
      ((systemRun referencePlatform (fun _ => otherMap) 10 racingCalls).locals 1).data =
        some hookRequest ∧
      ((systemRun referencePlatform (fun _ => otherMap) 10 racingCalls).locals 1).dataSize =
        measurementRequestSize := by decide +kernel
  obtain ⟨hfirst, hsecond, hlists, hdata, hsize⟩ := hrun
  obtain ⟨request, bytes, i, c, -, hbytes, -, hc, hentry⟩ :=
    (acknowledged_recorded_once referencePlatform (fun _ => otherMap) 10 racingCalls _ rfl).2.2.1 1
      hsecond
  rw [hdata, hsize] at hbytes
  exact ⟨hfirst, hsecond, hlists, bytes, c, hbytes, List.mem_of_getElem? hc, hentry⟩

end BpfIma
