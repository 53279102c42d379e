import BpfIma.Verification.Measurement.Recorded

/-! # Deduplication

A call that returns zero and records nothing repeats bytes that are recorded already. -/

namespace BpfIma

open CString Machine

/-! ## Equal bytes -/

/-- The two strings that a request with separator-free data is split into again. -/
theorem MeasurementRequest.splitN_hashedBytes {request : MeasurementRequest}
    (haccepted : request.accepted) (hdata : request.data ≠ [])
    (hseparator : separator ∉ request.data) :
    Text.splitN separator 2 request.hashedBytes =
      if request.hasDependencies then [request.data, cstr request.dependencies]
      else [request.data] := by
  have hspace : " ".ascii = [separator] := by decide
  by_cases hflag : request.hasDependencies
  · have hbytes : request.hashedBytes =
        request.data ++ separator :: cstr request.dependencies := by
      simp [MeasurementRequest.hashedBytes, hdata, hflag, hspace]
    rw [hbytes, Text.splitN_append hseparator 0, if_pos hflag]
    rfl
  · have hdeps : cstr request.dependencies = [] :=
      (cstr_eq_nil_iff _).mpr (haccepted.2.2.2.2.2.2.2.resolve_left hflag)
    have hbytes : request.hashedBytes = request.data := by
      simp [MeasurementRequest.hashedBytes, hflag, hdeps]
    rw [hbytes, Text.splitN_of_notMem hseparator, if_neg hflag]

/-- Requests with separator-free data are told apart by their prepared bytes. -/
theorem MeasurementRequest.eq_of_hashedBytes_eq {a b : MeasurementRequest} (ha : a.accepted)
    (hb : b.accepted) (hadata : a.data ≠ [] ∧ separator ∉ a.data)
    (hbdata : b.data ≠ [] ∧ separator ∉ b.data) (h : a.hashedBytes = b.hashedBytes) :
    a.data = b.data ∧ cstr a.dependencies = cstr b.dependencies := by
  have hsplit := congrArg (Text.splitN separator 2) h
  rw [a.splitN_hashedBytes ha hadata.1 hadata.2,
    b.splitN_hashedBytes hb hbdata.1 hbdata.2] at hsplit
  split at hsplit <;> split at hsplit
  · simpa using hsplit
  · simp at hsplit
  · simp at hsplit
  · rename_i hafree hbfree
    refine ⟨by simpa using hsplit, ?_⟩
    rw [(cstr_eq_nil_iff _).mpr (ha.2.2.2.2.2.2.2.resolve_left hafree),
      (cstr_eq_nil_iff _).mpr (hb.2.2.2.2.2.2.2.resolve_left hbfree)]

/-- A call that returns zero and records nothing found its digest in the table. -/
theorem ExtendEffect.duplicate {P : Platform} {s t : KernelState} {log : List MeasurementRequest}
    {caller caller' : Caller} {action : ExtendAction}
    (heffect : ExtendEffect P s caller action caller' t) (h : ModuleKept P s log)
    (hcaller : CallerKnows P s caller) (hreturns : caller'.point = .returned 0)
    (hturn : caller.point.isReturned = true → action.isEnter = true)
    (hnothing : recordedBy s t caller action = none) :
    ∃ source earlier, caller.data = some source ∧
      preparedBytes caller.data caller.dataSize = some source.hashedBytes ∧ earlier ∈ log ∧
      earlier.effectiveNamespace = source.effectiveNamespace ∧
      preparedBytes (some earlier) measurementRequestSize = some earlier.hashedBytes ∧
      P.sha256 source.hashedBytes = P.sha256 earlier.hashedBytes := by
  cases heffect with
  | outOfTurn hturn' =>
      have hreturned : caller.point.isReturned = true := by
        rw [hreturns]
        rfl
      rw [hturn' hreturned] at hturn
      exact absurd (hturn hreturned) (by decide)
  | @entered data dataSize hashRet =>
      rcases enterExtend_cases P data dataSize hashRet with ⟨ret, hret, heq⟩ | ⟨_, _, _, heq, -⟩
      · exact absurd (CallPoint.returned.inj (heq.symm.trans hreturns)) hret
      · cases heq.symm.trans hreturns
  | refused hret => exact absurd (CallPoint.returned.inj hreturns) hret
  | notCreated hret => exact absurd (CallPoint.returned.inj hreturns) hret
  | checked | found | notFound | created => cases hreturns
  | @added env request hashValue i hpoint ret engine hadd =>
      obtain ⟨source, node, hsource, -, -, hname, houtcome⟩ :=
        hcaller.added h.registry hpoint hadd
      cases houtcome with
      | failed hret =>
          exact absurd (CallPoint.returned.inj hreturns) (returned_ne_zero hret)
      | duplicate hexists hsame =>
          obtain ⟨c, hc, hid, hdigest⟩ := (h.registry.table hashValue (cstr node.id)).mp hexists
          obtain ⟨earlier, hmem, hnamespace, hprepared, hhash⟩ :=
            h.journal.exists_request hc hdigest
          refine ⟨source, earlier, hsource.data, hsource.bytes, hmem, ?_, hprepared, ?_⟩
          · rw [hnamespace, hid, hname, hsource.request]
            rfl
          · rw [← hsource.hashValue, hhash]
      | recorded entry hentry hrecords =>
          rw [recordedBy, if_neg hrecords.containers_ne, hsource.data] at hnothing
          cases hnothing

/-- In every interleaving: a call that returns zero without appending an entry repeats the
prepared data of a call for its namespace that was recorded before, unless their hashes
collide. Data without separators is then repeated as it is, and so are the dependencies. -/
theorem unrecorded_call_repeats (P : Platform) (maps : ℕ → BpfMap) (tpmPcrIndex : ℤ)
    (ops : List SystemOp) (s : SystemState) (hs : s = systemRun P maps tpmPcrIndex ops) (n : ℕ)
    (action : ExtendAction) (hreturns : CallReturns P s.shared (s.locals n) action 0)
    (hnothing : recordedRequest P s.shared (s.locals n) action = none)
    (hcollision : ∀ earlier ∈ recordedRequests P maps tpmPcrIndex ops, ∀ a b,
      preparedBytes (some earlier) measurementRequestSize = some a →
      preparedBytes (s.locals n).data (s.locals n).dataSize = some b →
      P.sha256 a = P.sha256 b → a = b) :
    ∃ request earlier bytes, (s.locals n).data = some request ∧
      earlier ∈ recordedRequests P maps tpmPcrIndex ops ∧
      earlier.effectiveNamespace = request.effectiveNamespace ∧
      preparedBytes (some earlier) measurementRequestSize = some bytes ∧
      preparedBytes (s.locals n).data (s.locals n).dataSize = some bytes ∧
      (request.data ≠ [] ∧ separator ∉ request.data →
        earlier.data ≠ [] ∧ separator ∉ earlier.data →
        earlier.data = request.data ∧ cstr earlier.dependencies = cstr request.dependencies) := by
  subst hs
  have hholds := systemRun_holds P maps tpmPcrIndex ops
  obtain ⟨request, earlier, hdata, hbytes, hmem, hname, hprepared, hhash⟩ :=
    (extendAction_effect P _ _ action).duplicate hholds.shared (hholds.locals n) hreturns.1
      hreturns.2 hnothing
  have hsame := hcollision earlier hmem _ _ hprepared hbytes hhash.symm
  refine ⟨request, earlier, request.hashedBytes, hdata, hmem, hname, hsame ▸ hprepared, hbytes, ?_⟩
  intro hrequest hearlier
  obtain ⟨r, hr, -, haccepted, -⟩ := preparedBytes_eq_some hbytes
  obtain ⟨e, he, -, haccepted', -⟩ := preparedBytes_eq_some hprepared
  obtain rfl := Option.some.inj (hdata.symm.trans hr)
  obtain rfl := Option.some.inj he
  exact earlier.eq_of_hashedBytes_eq haccepted' haccepted hearlier hrequest hsame

/-- The request of another hook for the same file. -/
def renamedRequest : MeasurementRequest :=
  { hookRequest with eventName := strscpy (CString.zero _) "file_mmap".ascii }

/-- A call of caller 0, and the call of caller 1 up to its last section. -/
def repeatedCalls (first second : MeasurementRequest) : List SystemOp :=
  callSections 0 first ++ (callSections 1 second).dropLast

/-- Caller 1 is about to repeat the request of caller 0. -/
def repeatedState (first second : MeasurementRequest) : SystemState :=
  systemRun referencePlatform (fun _ => otherMap) 10 (repeatedCalls first second)

theorem unrecorded_call_repeats_hookRequest :
    ∃ request earlier bytes,
      ((repeatedState hookRequest hookRequest).locals 1).data = some request ∧
      earlier ∈ recordedRequests referencePlatform (fun _ => otherMap) 10
        (repeatedCalls hookRequest hookRequest) ∧
      preparedBytes (some earlier) measurementRequestSize = some bytes ∧
      preparedBytes (some request) measurementRequestSize = some bytes := by
  have hrun : recordedRequests referencePlatform (fun _ => otherMap) 10
        (repeatedCalls hookRequest hookRequest) = [hookRequest] ∧
      ((repeatedState hookRequest hookRequest).locals 1).data = some hookRequest ∧
      ((repeatedState hookRequest hookRequest).locals 1).dataSize = measurementRequestSize ∧
      CallReturns referencePlatform (repeatedState hookRequest hookRequest).shared
        ((repeatedState hookRequest hookRequest).locals 1)
        (.addContainerMeasurement workingAdd) 0 ∧
      recordedRequest referencePlatform (repeatedState hookRequest hookRequest).shared
        ((repeatedState hookRequest hookRequest).locals 1)
        (.addContainerMeasurement workingAdd) = none := by decide +kernel
  obtain ⟨hlog, hdata, hsize, hreturns, hnothing⟩ := hrun
  obtain ⟨request, earlier, bytes, hrequest, hmem, -, hearlier, hbytes, -⟩ :=
    unrecorded_call_repeats referencePlatform (fun _ => otherMap) 10
      (repeatedCalls hookRequest hookRequest) _ rfl 1 (.addContainerMeasurement workingAdd) hreturns
      hnothing (by
        intro earlier hmem a b ha hb _
        rw [hlog] at hmem
        obtain rfl := List.mem_singleton.mp hmem
        change preparedBytes ((repeatedState hookRequest hookRequest).locals 1).data
          ((repeatedState hookRequest hookRequest).locals 1).dataSize = some b at hb
        rw [hdata, hsize] at hb
        exact Option.some.inj (ha.symm.trans hb))
  refine ⟨request, earlier, bytes, hrequest, hmem, hearlier, ?_⟩
  rw [← hsize, ← hrequest]
  exact hbytes

/-- The call of another hook for the same file returns zero and appends nothing, although no
call with its event name was recorded. -/
theorem renamedRequest_dropped :
    CallReturns referencePlatform (repeatedState hookRequest renamedRequest).shared
        ((repeatedState hookRequest renamedRequest).locals 1)
        (.addContainerMeasurement workingAdd) 0 ∧
      recordedRequest referencePlatform (repeatedState hookRequest renamedRequest).shared
        ((repeatedState hookRequest renamedRequest).locals 1)
        (.addContainerMeasurement workingAdd) = none ∧
      ((repeatedState hookRequest renamedRequest).locals 1).data = some renamedRequest ∧
      (∀ earlier ∈ recordedRequests referencePlatform (fun _ => otherMap) 10
        (repeatedCalls hookRequest renamedRequest),
        preparedBytes (some earlier) measurementRequestSize =
            preparedBytes (some renamedRequest) measurementRequestSize ∧
          cstr earlier.eventName ≠ cstr renamedRequest.eventName) := by
  decide +kernel

end BpfIma
