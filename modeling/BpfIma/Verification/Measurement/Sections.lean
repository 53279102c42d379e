import BpfIma.Verification.Measurement.Registry
import BpfIma.Verification.Measurement.Template

/-! # The sections of a measurement call

What each lock-delimited section of `bpfima_measurement_extend` can do, whatever other
callers do between two of them. -/

namespace BpfIma

open CString Machine

/-! ## Prepared requests -/

/-- What a successful preparation leaves in the first `total_len` bytes of `concat_data`. -/
def preparedBytes (data : Option MeasurementRequest) (dataSize : ℕ) : Option Bytes :=
  let (ret, mem) := prepareMeasurement data dataSize ⟨.zero, List.replicate concatDataSize 0, 0⟩
  if ret = 0 then some (mem.concatData.take mem.totalLen) else none

theorem preparedBytes_eq_some {data : Option MeasurementRequest} {dataSize : ℕ} {bytes : Bytes}
    (h : preparedBytes data dataSize = some bytes) :
    ∃ request, data = some request ∧ dataSize = measurementRequestSize ∧ request.accepted ∧
      bytes = request.hashedBytes ∧ request.hashedBytes ≠ [] := by
  unfold preparedBytes at h
  cases hprepare : prepareMeasurement data dataSize ⟨.zero, List.replicate concatDataSize 0, 0⟩ with
  | mk ret mem =>
    simp only [hprepare] at h
    split at h
    · rename_i hret
      subst hret
      obtain ⟨request, hdata, haccepted, -, hbytes, hne⟩ := prepareMeasurement_ok hprepare
      refine ⟨request, hdata, ?_, haccepted, (Option.some.inj h).symm.trans hbytes, hne⟩
      by_contra hsize
      rw [hdata] at hprepare
      simp only [prepareMeasurement, ne_eq, hsize, not_false_eq_true, if_true] at hprepare
      cases (Prod.mk.inj hprepare).1
    · cases h

/-- The local variables of a call that was prepared for its arguments. -/
structure Prepared (P : Platform) (caller : Caller) (request : MeasurementRequest)
    (hashValue : Digest) (source : MeasurementRequest) : Prop where
  data : caller.data = some source
  bytes : preparedBytes caller.data caller.dataSize = some source.hashedBytes
  request : request = source.terminateData
  hashValue : hashValue = P.sha256 source.hashedBytes

theorem Prepared.accepted {P : Platform} {caller : Caller} {request source : MeasurementRequest}
    {hashValue : Digest} (h : Prepared P caller request hashValue source) : source.accepted := by
  obtain ⟨source', hdata, -, haccepted, -⟩ := preparedBytes_eq_some h.bytes
  obtain rfl := Option.some.inj (h.data.symm.trans hdata)
  exact haccepted

theorem Prepared.preparedBytes {P : Platform} {caller : Caller}
    {request source : MeasurementRequest} {hashValue : Digest}
    (h : Prepared P caller request hashValue source) :
    preparedBytes (some source) measurementRequestSize = some source.hashedBytes := by
  obtain ⟨-, -, hsize, -⟩ := preparedBytes_eq_some h.bytes
  rw [← h.data, ← hsize]
  exact h.bytes

theorem Prepared.setPoint {P : Platform} {caller : Caller} {request source : MeasurementRequest}
    {hashValue : Digest} (h : Prepared P caller request hashValue source) {point : CallPoint} :
    Prepared P { caller with point := point } request hashValue source :=
  ⟨h.data, h.bytes, h.request, h.hashValue⟩

theorem enterExtend_cases (P : Platform) (data : Option MeasurementRequest) (dataSize : ℕ)
    (hashRet : Ret) :
    (∃ ret, ret ≠ 0 ∧ enterExtend P data dataSize hashRet = .returned ret) ∨
      ∃ request hashValue source,
        enterExtend P data dataSize hashRet = .hashed request hashValue ∧
        ∀ point, Prepared P ⟨data, dataSize, point⟩ request hashValue source := by
  unfold enterExtend
  cases hprepare : prepareMeasurement data dataSize ⟨.zero, List.replicate concatDataSize 0, 0⟩ with
  | mk ret mem =>
    simp only
    split
    · rename_i hret
      exact .inl ⟨ret, hret, rfl⟩
    · rename_i hret
      rw [not_not] at hret
      subst hret
      split
      · rename_i hhash
        exact .inl ⟨hashRet, hhash, rfl⟩
      · obtain ⟨source, hdata, -, hrequest, hbytes, -⟩ := prepareMeasurement_ok hprepare
        refine .inr ⟨_, _, source, rfl, fun point => ⟨hdata, ?_, hrequest, ?_⟩⟩
        · simp only [preparedBytes, hprepare, if_true, hbytes]
        · rw [hbytes]

theorem MeasurementRequest.effectiveNamespace_length {request : MeasurementRequest}
    (h : request.accepted) :
    request.effectiveNamespace.length < containerIdMaxLen ∧ 0 ∉ request.effectiveNamespace := by
  unfold MeasurementRequest.effectiveNamespace
  split
  · exact ⟨length_cstr_lt h.2.2.1, zero_notMem_cstr _⟩
  · decide

/-! ## The sections of a call -/

def CallPoint.isReturned : CallPoint → Bool
  | .returned _ => true
  | _ => false

def ExtendAction.isEnter : ExtendAction → Bool
  | .enter .. => true
  | _ => false

/-- The section ends a call of the caller with the return value `ret`. -/
def CallReturns (P : Platform) (s : KernelState) (caller : Caller) (action : ExtendAction)
    (ret : Ret) : Prop :=
  (extendAction P s caller action).1.point = .returned ret ∧
    (caller.point.isReturned = true → action.isEnter = true)

instance (P : Platform) (s : KernelState) (caller : Caller) (action : ExtendAction) (ret : Ret) :
    Decidable (CallReturns P s caller action ret) :=
  inferInstanceAs (Decidable (_ ∧ _))

/-- The rules of one section. -/
inductive ExtendEffect (P : Platform) (s : KernelState) (caller : Caller) :
    ExtendAction → Caller → KernelState → Prop where
  | outOfTurn {action : ExtendAction}
      (hturn : caller.point.isReturned = true → action.isEnter = false) :
      ExtendEffect P s caller action caller s
  | entered {data : Option MeasurementRequest} {dataSize : ℕ} {hashRet : Ret} :
      ExtendEffect P s caller (.enter data dataSize hashRet)
        ⟨data, dataSize, enterExtend P data dataSize hashRet⟩ s
  | refused {available : Bool} {ret : Ret} (hret : ret ≠ 0) :
      ExtendEffect P s caller (.commitGetError available) { caller with point := .returned ret }
        { s with engine := (commitCheckLocked available s.engine).2 }
  | checked {available : Bool} (request : MeasurementRequest) (hashValue : Digest)
      (hpoint : caller.point = .hashed request hashValue) :
      ExtendEffect P s caller (.commitGetError available)
        { caller with point := .checked request hashValue }
        { s with engine := (commitCheckLocked available s.engine).2 }
  | found (request : MeasurementRequest) (hashValue : Digest) (i : ℕ)
      (hpoint : caller.point = .checked request hashValue)
      (hfind : findContainerById s request.effectiveNamespace = some i) :
      ExtendEffect P s caller .findContainerById
        { caller with point := .referenced request hashValue i } s
  | notFound (request : MeasurementRequest) (hashValue : Digest)
      (hpoint : caller.point = .checked request hashValue) :
      ExtendEffect P s caller .findContainerById
        { caller with point := .notFound request hashValue } s
  | notCreated {env : CreateEnv} {ret : Ret} (hret : ret ≠ 0) :
      ExtendEffect P s caller (.createContainerNode env) { caller with point := .returned ret } s
  | created {env : CreateEnv} {t : KernelState} (request : MeasurementRequest)
      (hashValue : Digest) (i : ℕ) (hpoint : caller.point = .notFound request hashValue)
      (hcreate : CreateEffect request.effectiveNamespace s (.ok i) t) :
      ExtendEffect P s caller (.createContainerNode env)
        { caller with point := .referenced request hashValue i } t
  | added {env : AddEnv} (request : MeasurementRequest) (hashValue : Digest) (i : ℕ)
      (hpoint : caller.point = .referenced request hashValue i) (ret : Ret)
      (engine : CommitState)
      (hadd : addContainerMeasurement P.toHashSuite (policyGetConfig s) env s.engine (some i)
        (some (cstr request.eventName)) (some (cstr request.additionalData))
        (some (cstr request.dependencies)) (some hashValue) = (ret, engine)) :
      ExtendEffect P s caller (.addContainerMeasurement env)
        { caller with point := .returned (if ret = 1 then 0 else ret) } { s with engine := engine }

theorem extendAction_effect (P : Platform) (s : KernelState) (caller : Caller)
    (action : ExtendAction) :
    ExtendEffect P s caller action (extendAction P s caller action).1
      (extendAction P s caller action).2 := by
  unfold extendAction
  split
  · exact .entered
  · exact .entered
  · rename_i request hashValue available hpoint
    simp only
    split
    · rename_i hret
      exact .refused hret
    · exact .checked request hashValue hpoint
  · rename_i request hashValue hpoint
    split
    · rename_i i hfind
      exact .found request hashValue i hpoint hfind
    · exact .notFound request hashValue hpoint
  · rename_i request hashValue env hpoint
    have heffect := createContainerNode_effect env request.effectiveNamespace s
    split
    · rename_i ret t hresult
      rw [hresult] at heffect
      cases heffect with
      | failed hret => exact .notCreated hret
    · rename_i i t hresult
      rw [hresult] at heffect
      exact .created request hashValue i hpoint heffect
  · rename_i request hashValue i env hpoint
    exact .added request hashValue i hpoint _ _ rfl
  · rename_i action _ _ _ henter _ _ _ _
    refine .outOfTurn fun hreturned => ?_
    cases hpoint : caller.point with
    | returned ret =>
        cases action with
        | enter data dataSize hashRet => exact absurd rfl (henter ret data dataSize hashRet hpoint)
        | commitGetError | findContainerById | createContainerNode | addContainerMeasurement => rfl
    | idle | hashed | checked | notFound | referenced =>
        rw [hpoint] at hreturned
        cases hreturned

/-- A call that nobody interrupts is `bpfima_measurement_extend` as one step. -/
theorem solo_extendAction (P : Platform) (env : ExtendEnv) (data : Option MeasurementRequest)
    (dataSize : ℕ) (s : KernelState) {caller : Caller}
    (hfree : caller.point = .idle ∨ ∃ ret, caller.point = .returned ret) :
    Threads.solo (extendAction P) s caller
        [.enter data dataSize env.hashRet, .commitGetError env.available, .findContainerById,
          .createContainerNode env.create, .addContainerMeasurement env.add] =
      (⟨data, dataSize, .returned (measurementExtend P env data dataSize s).1⟩,
        (measurementExtend P env data dataSize s).2) := by
  have henter : extendAction P s caller (.enter data dataSize env.hashRet) =
      (⟨data, dataSize, enterExtend P data dataSize env.hashRet⟩, s) := by
    rcases hfree with hpoint | ⟨ret, hpoint⟩ <;> simp only [extendAction, hpoint]
  simp only [Threads.solo, henter, enterExtend, measurementExtend]
  cases prepareMeasurement data dataSize ⟨.zero, List.replicate concatDataSize 0, 0⟩ with
  | mk ret mem =>
    simp only
    by_cases hret : ret = 0
    · subst hret
      by_cases hhash : env.hashRet = 0
      · simp only [hhash, ne_eq, not_true_eq_false, if_false, extendAction]
        by_cases hcheck : (commitCheckLocked env.available s.engine).1 = 0
        · simp only [hcheck, not_true_eq_false, if_false]
          cases hfind : findContainerById
              { s with engine := (commitCheckLocked env.available s.engine).2 }
              mem.request.effectiveNamespace with
          | some i => simp only [createContainerNode, hfind]
          | none =>
              simp only
              cases hcreate : createContainerNode env.create mem.request.effectiveNamespace
                  { s with engine := (commitCheckLocked env.available s.engine).2 } with
              | mk result t =>
                cases result with
                | error ret => rfl
                | ok i => rfl
        · simp only [hcheck, not_false_eq_true, if_true]
      · simp only [hhash, ne_eq, not_false_eq_true, not_true_eq_false, if_true, if_false,
          extendAction]
    · simp only [hret, ne_eq, not_false_eq_true, if_true, extendAction]

/-- The interleaved system contains the machine of whole calls: a caller that runs from
beginning to end takes the module through the step of that machine. -/
theorem run_uninterrupted (P : Platform) (env : ExtendEnv) (data : Option MeasurementRequest)
    (dataSize : ℕ) (s : SystemState) {n : ℕ}
    (hfree : (s.locals n).point = .idle ∨ ∃ ret, (s.locals n).point = .returned ret) :
    run (systemStep P) s
        ([.enter data dataSize env.hashRet, .commitGetError env.available, .findContainerById,
          .createContainerNode env.create, .addContainerMeasurement env.add].map (.act n)) =
      ⟨(kernelStep P s.shared (.measurementExtend env data dataSize)).2,
        Function.update s.locals n
          ⟨data, dataSize,
            .returned (kernelStep P s.shared (.measurementExtend env data dataSize)).1⟩⟩ := by
  rw [systemStep, Threads.run_solo, solo_extendAction P env data dataSize s.shared hfree]
  rfl

end BpfIma
