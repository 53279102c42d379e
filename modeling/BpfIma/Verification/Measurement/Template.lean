import BpfIma.Model.Verifier
import BpfIma.Verification.Kernel.Effects

/-! # Template hashes

The kernel hashes a measurement request, prints the committed entry as a line, and the
verifier hashes what it reads in that line. -/

namespace BpfIma

open CString Errno Text

/-! ## What both sides hash -/

/-- The bytes of `additional_data` that count. -/
def MeasurementRequest.data (request : MeasurementRequest) : Bytes :=
  request.additionalData.toList.take request.additionalDataLen.toNat

/-- What `bpfima_prepare_measurement` leaves in `concat_data`. -/
def MeasurementRequest.hashedBytes (request : MeasurementRequest) : Bytes :=
  request.data ++ (if request.data ≠ [] ∧ request.hasDependencies then " ".ascii else []) ++
    cstr request.dependencies

/-- What follows the event in the line of an entry. -/
def lineFields (data dependencies : Bytes) : Bytes :=
  if data ≠ [] ∧ dependencies ≠ [] then data ++ separator :: dependencies
  else data ++ dependencies

/-- What `Validate` hashes when `fields` follows the event. -/
def verifiedBytes (fields : Bytes) : Bytes :=
  match splitN separator 2 fields with
  | fileHash :: rest =>
      fileHash ++ if rest.headD [] = [] then [] else separator :: rest.headD []
  | [] => []

/-- The line of an entry passes the verifier. -/
def MeasurementEntry.Verifies (S : HashSuite) (entry : MeasurementEntry) : Prop :=
  ∃ file, parseHashedFile (trimRight (containerMeasurementsSeqShow entry)) = .ok file ∧
    file.templateHash = entry.digest.toList ∧ file.validate S .sha256 = .ok ()

instance (S : HashSuite) (entry : MeasurementEntry) : Decidable (entry.Verifies S) :=
  match h : parseHashedFile (trimRight (containerMeasurementsSeqShow entry)) with
  | .error _ => isFalse fun ⟨_, hparse, _⟩ => by cases h.symm.trans hparse
  | .ok file =>
      decidable_of_iff (file.templateHash = entry.digest.toList ∧ file.validate S .sha256 = .ok ())
        ⟨fun hfile => ⟨file, h, hfile⟩, fun ⟨_, hparse, hfile⟩ =>
          Except.ok.inj (h.symm.trans hparse) ▸ hfile⟩

/-- The requests that the hooks make: no field breaks the line or, but for the
dependencies, its fields. -/
structure MeasurementRequest.PlainText (request : MeasurementRequest) : Prop where
  eventName : ∀ c ∈ cstr request.eventName, c ≠ separator ∧ c ≠ carriageReturn ∧ c ≠ lineFeed
  data : ∀ c ∈ request.data, c ≠ 0 ∧ c ≠ separator ∧ c ≠ carriageReturn ∧ c ≠ lineFeed
  dependencies : ∀ c ∈ cstr request.dependencies, c ≠ carriageReturn ∧ c ≠ lineFeed

/-- No byte of the text ends a line. -/
def OneLine (text : Bytes) : Prop := ∀ c ∈ text, c ≠ carriageReturn ∧ c ≠ lineFeed

/-- The two ways in which a separator ends the hashed bytes. -/
def MeasurementRequest.EndsInSeparator (request : MeasurementRequest) : Prop :=
  (request.data ≠ [] ∧ request.hasDependencies ∧ cstr request.dependencies = []) ∨
    (request.data = [] ∧ ∃ word, separator ∉ word ∧ cstr request.dependencies = word ++ [separator])

theorem verifiedBytes_of_notMem {fields : Bytes} (h : separator ∉ fields) :
    verifiedBytes fields = fields := by
  simp [verifiedBytes, splitN_of_notMem h]

theorem verifiedBytes_append {word : Bytes} (h : separator ∉ word) (rest : Bytes) :
    verifiedBytes (word ++ separator :: rest) =
      if rest = [] then word else word ++ separator :: rest := by
  rw [verifiedBytes, splitN_append h 0]
  by_cases hrest : rest = [] <;> simp [splitN, hrest]

/-- Only a separator at the end of the fields gets lost. -/
theorem verifiedBytes_eq_self {fields : Bytes}
    (h : ∀ word, separator ∉ word → fields ≠ word ++ [separator]) :
    verifiedBytes fields = fields := by
  rcases cut_cases separator fields with hnone | ⟨word, rest, hword, rfl⟩
  · exact verifiedBytes_of_notMem hnone
  · rw [verifiedBytes_append hword, if_neg]
    rintro rfl
    exact h word hword rfl

namespace MeasurementRequest

variable {request : MeasurementRequest}

theorem PlainText.separator_notMem_data (h : request.PlainText) : separator ∉ request.data :=
  fun hmem => (h.data _ hmem).2.1 rfl

theorem PlainText.separator_notMem_eventName (h : request.PlainText) :
    separator ∉ cstr request.eventName :=
  fun hmem => (h.eventName _ hmem).1 rfl

theorem PlainText.oneLine (h : request.PlainText) :
    OneLine (request.data ++ cstr request.dependencies) := by
  intro c hc
  rcases List.mem_append.mp hc with hc | hc
  · exact (h.data c hc).2.2
  · exact h.dependencies c hc

/-- Bytes that are hashed show in the line. -/
theorem lineFields_ne_nil (h : request.hashedBytes ≠ []) :
    lineFields request.data (cstr request.dependencies) ≠ [] := by
  intro hempty
  have hboth : request.data = [] ∧ cstr request.dependencies = [] := by
    unfold lineFields at hempty
    split at hempty <;> simp_all
  simp [hashedBytes, hboth] at h

theorem verifiedBytes_eq_hashedBytes (hdata : separator ∉ request.data)
    (h : ¬ request.EndsInSeparator)
    (hflag : request.hasDependencies ∨ cstr request.dependencies = []) :
    verifiedBytes (lineFields request.data (cstr request.dependencies)) = request.hashedBytes := by
  simp only [EndsInSeparator, not_or, not_and, not_exists] at h
  by_cases hempty : request.data = []
  · rw [verifiedBytes_eq_self]
    · simp [lineFields, hashedBytes, hempty]
    · intro word hword
      simpa [lineFields, hempty] using h.2 hempty word hword
  · by_cases hdeps : cstr request.dependencies = []
    · have hnoflag : ¬ request.hasDependencies := fun hf => h.1 hempty hf hdeps
      have hfields : lineFields request.data (cstr request.dependencies) = request.data := by
        simp [lineFields, hdeps]
      rw [hfields, verifiedBytes_of_notMem hdata]
      simp [hashedBytes, hnoflag, hdeps]
    · have hfields : lineFields request.data (cstr request.dependencies) =
          request.data ++ separator :: cstr request.dependencies := by
        simp [lineFields, hempty, hdeps]
      have hset := hflag.resolve_right hdeps
      rw [hfields, verifiedBytes_append hdata, if_neg hdeps]
      simp [hashedBytes, hempty, hset, String.ascii, separator]

theorem verifiedBytes_eq_dropLast (hseparator : separator ∉ request.data)
    (h : request.EndsInSeparator) :
    verifiedBytes (lineFields request.data (cstr request.dependencies)) =
      request.hashedBytes.dropLast := by
  rcases h with ⟨hdata, hflag, hdeps⟩ | ⟨hdata, word, hword, hdeps⟩
  · have hfields : lineFields request.data (cstr request.dependencies) = request.data := by
      simp [lineFields, hdeps]
    rw [hfields, verifiedBytes_of_notMem hseparator]
    simp [hashedBytes, hdata, hflag, hdeps, String.ascii]
  · have hfields : lineFields request.data (cstr request.dependencies) = word ++ [separator] := by
      simp [lineFields, hdata, hdeps]
    rw [hfields, verifiedBytes_append hword, if_pos rfl]
    simp [hashedBytes, hdata, hdeps]

end MeasurementRequest

/-! ## The line of an entry -/

section Line

variable {S : HashSuite} {entry : MeasurementEntry}

theorem seqShow_eq
    (hfields : lineFields (cstr entry.eventData) (cstr entry.dependencies) ≠ []) :
    containerMeasurementsSeqShow entry =
      hexEncode entry.digest.toList ++ separator :: (cstr entry.eventName ++ separator ::
        lineFields (cstr entry.eventData) (cstr entry.dependencies)) ++ [lineFeed] := by
  have hspace : " ".ascii = [separator] := by decide
  simp only [containerMeasurementsSeqShow, hspace, ne_eq, ← cstr_eq_nil_iff]
  by_cases hdata : cstr entry.eventData = [] <;> by_cases hdeps : cstr entry.dependencies = []
  · simp [lineFields, hdata, hdeps] at hfields
  all_goals simp [lineFields, hdata, hdeps]

theorem mem_lineFields {data dependencies : Bytes} {c : UInt8}
    (h : c ∈ lineFields data dependencies) : c = separator ∨ c ∈ data ++ dependencies := by
  unfold lineFields at h
  split at h
  · simpa [or_left_comm] using h
  · exact .inr h

theorem OneLine.trimRight_eq {text : Bytes} (h : OneLine text) : trimRight text = text :=
  trimRight_eq_self_iff.mpr
    ⟨fun hlast => (h _ (List.mem_of_getLast? hlast)).1 rfl,
      fun hlast => (h _ (List.mem_of_getLast? hlast)).2 rfl⟩

theorem OneLine.lineFields {data dependencies : Bytes} (h : OneLine (data ++ dependencies)) :
    OneLine (lineFields data dependencies) := by
  intro c hc
  rcases mem_lineFields hc with rfl | hc
  · decide
  · exact h c hc

/-- Trimming a line can only shorten what follows the event. -/
theorem trimRight_seqShow
    (hfields : lineFields (cstr entry.eventData) (cstr entry.dependencies) ≠ []) :
    trimRight (containerMeasurementsSeqShow entry) =
      hexEncode entry.digest.toList ++ separator :: (cstr entry.eventName ++ separator ::
        trimRight (lineFields (cstr entry.eventData) (cstr entry.dependencies))) := by
  have hcr : separator ≠ carriageReturn := by decide
  have hlf : separator ≠ lineFeed := by decide
  rw [seqShow_eq hfields, trimRight_concat_lineFeed, trimRight_append hcr hlf,
    trimRight_append hcr hlf]

/-- The verifier accepts the line if the digest is the hash of the bytes it reads. -/
theorem verifies_iff (hname : separator ∉ cstr entry.eventName)
    (hlines : trimRight (lineFields (cstr entry.eventData) (cstr entry.dependencies)) =
      lineFields (cstr entry.eventData) (cstr entry.dependencies))
    (hfields : lineFields (cstr entry.eventData) (cstr entry.dependencies) ≠ []) :
    entry.Verifies S ↔ entry.digest.toList =
      S.sum .sha256
        (verifiedBytes (lineFields (cstr entry.eventData) (cstr entry.dependencies))) := by
  obtain ⟨fileHash, rest, hsplit⟩ := splitN_succ_eq_cons separator 1
    (lineFields (cstr entry.eventData) (cstr entry.dependencies))
  have hparse : parseHashedFile (trimRight (containerMeasurementsSeqShow entry)) =
      .ok ⟨entry.digest.toList, cstr entry.eventName, fileHash, rest.headD []⟩ := by
    rw [trimRight_seqShow hfields, hlines, parseHashedFile,
      splitN_append (notMem_hexEncode (by decide) _) 2, splitN_append hname 1, hsplit]
    simp only [hexDecode_hexEncode]
  simp only [MeasurementEntry.Verifies, hparse, HashedFile.validate_ok_iff]
  constructor
  · rintro ⟨file, hfile, -, hvalid⟩
    obtain rfl := Except.ok.inj hfile
    simpa only [verifiedBytes, hsplit, HashedFile.computeTemplateHash] using hvalid
  · intro hdigest
    refine ⟨_, rfl, rfl, ?_⟩
    simpa only [verifiedBytes, hsplit, HashedFile.computeTemplateHash] using hdigest

end Line

/-! ## From the request to the entry -/

theorem take_writeAt {buffer bytes : Bytes} {offset : ℕ} (h : offset ≤ buffer.length) :
    (writeAt buffer offset bytes).take (offset + bytes.length) = buffer.take offset ++ bytes := by
  have hlength : (buffer.take offset ++ bytes).length = offset + bytes.length := by
    simp [h]
  rw [writeAt, ← hlength, List.take_left]

theorem length_writeAt {buffer bytes : Bytes} {offset : ℕ}
    (h : offset + bytes.length ≤ buffer.length) :
    (writeAt buffer offset bytes).length = buffer.length := by
  simp only [writeAt, List.length_append, List.length_take, List.length_drop]
  omega

/-- Three strings written one after the other. -/
theorem take_writeAt_three {buffer a b c : Bytes}
    (h : a.length + b.length + c.length ≤ buffer.length) :
    (writeAt (writeAt (writeAt buffer 0 a) a.length b) (a.length + b.length) c).take
      (a.length + b.length + c.length) = a ++ b ++ c := by
  have hfirst : (writeAt buffer 0 a).length = buffer.length := length_writeAt (by omega)
  have hsecond : (writeAt (writeAt buffer 0 a) a.length b).length = buffer.length :=
    (length_writeAt (by omega)).trans hfirst
  have hstart : (writeAt buffer 0 a).take a.length = a := by
    simpa using @take_writeAt buffer a 0 (Nat.zero_le _)
  rw [take_writeAt (by omega), take_writeAt (by omega), hstart]

theorem MeasurementRequest.length_data {request : MeasurementRequest}
    (h : request.additionalDataLen.toNat < eventDataSize) :
    request.data.length = request.additionalDataLen.toNat := by
  rw [MeasurementRequest.data, List.length_take, List.Vector.toList_length]
  omega

/-- The terminator comes after the data. -/
theorem MeasurementRequest.take_terminateData {request : MeasurementRequest}
    (h : request.additionalDataLen.toNat < eventDataSize) :
    request.terminateData.additionalData.toList.take request.additionalDataLen.toNat =
      request.data := by
  have hindex : (Fin.ofNat eventDataSize request.additionalDataLen.toNat).val =
      request.additionalDataLen.toNat := Nat.mod_eq_of_lt h
  rw [MeasurementRequest.data, MeasurementRequest.terminateData, List.Vector.toList_set, hindex,
    List.take_set_of_le le_rfl]

/-- What stands between the data and the dependencies. -/
def MeasurementRequest.dataSeparator (request : MeasurementRequest) : Bytes :=
  if request.data ≠ [] ∧ request.hasDependencies then " ".ascii else []

theorem MeasurementRequest.hashedBytes_eq (request : MeasurementRequest) :
    request.hashedBytes = request.data ++ request.dataSeparator ++ cstr request.dependencies := rfl

/-- The code looks at the length of the data, after it has terminated them. -/
theorem MeasurementRequest.dataSeparator_of_length (request : MeasurementRequest) :
    (if request.data.length ≠ 0 ∧ request.terminateData.hasDependencies then " ".ascii else []) =
      request.dataSeparator := by
  have hflag : request.terminateData.hasDependencies ↔ request.hasDependencies := Iff.rfl
  simp only [dataSeparator, hflag, ne_eq, List.length_eq_zero_iff]

/-- The separator has its place if the data do not fill the buffer. -/
theorem MeasurementRequest.length_dataSeparator {request : MeasurementRequest} {size : ℕ}
    (hfits : request.data.length ≤ size)
    (hroom : ¬ (request.data.length ≠ 0 ∧ request.terminateData.hasDependencies ∧
      request.data.length = size)) :
    request.data.length + request.dataSeparator.length ≤ size := by
  have hone : " ".ascii.length = 1 := by decide
  rw [← request.dataSeparator_of_length]
  split_ifs with hset
  · have hne : request.data.length ≠ size := fun heq => hroom ⟨hset.1, hset.2, heq⟩
    rw [hone]
    omega
  · simpa using hfits

theorem MeasurementRequest.length_hashedBytes (request : MeasurementRequest) :
    request.hashedBytes.length = request.data.length + request.dataSeparator.length +
      (cstr request.dependencies).length := by
  rw [request.hashedBytes_eq, List.length_append, List.length_append]

/-- The end of `bpfima_prepare_measurement`, from `offset` on. -/
def appendedDependencies (concatSize offset : ℕ) (mem : PrepareMemory) : Ret × PrepareMemory :=
  let dependencies := cstr mem.request.dependencies
  if concatSize - offset < dependencies.length then (-e2big, mem)
  else
    let mem := { mem with concatData := writeAt mem.concatData offset dependencies }
    if offset + dependencies.length = 0 then (-einval, mem)
    else (0, { mem with totalLen := offset + dependencies.length })

/-- The preparation of an accepted request, in terms of what is to be hashed. -/
theorem prepareMeasurement_accepted {request : MeasurementRequest} (h : request.accepted)
    (mem : PrepareMemory) :
    prepareMeasurement (some request) measurementRequestSize mem =
      let concatSize := mem.concatData.length
      let mem := { mem with request := request.terminateData }
      if concatSize < request.data.length then (-e2big, mem)
      else
        let mem := { mem with concatData := writeAt mem.concatData 0 request.data }
        if request.data.length ≠ 0 ∧ request.terminateData.hasDependencies ∧
            request.data.length = concatSize then (-e2big, mem)
        else
          appendedDependencies concatSize (request.data.length + request.dataSeparator.length)
            { mem with
              concatData := writeAt mem.concatData request.data.length request.dataSeparator } := by
  have hlen : request.additionalDataLen.toNat < eventDataSize := h.2.2.2.2.1
  have hlen' : request.terminateData.additionalDataLen = request.additionalDataLen := rfl
  simp only [prepareMeasurement, h, not_true_eq_false, if_false, ne_eq, hlen',
    request.take_terminateData hlen, appendedDependencies, ← request.dataSeparator_of_length]
  rw [← request.length_data hlen]

/-- How `bpfima_prepare_measurement` of a whole request ends. -/
inductive PrepareOutcome (request : MeasurementRequest) (mem : PrepareMemory) :
    Ret → PrepareMemory → Prop where
  | refused (h : ¬ request.accepted) :
      PrepareOutcome request mem (-einval) { mem with request := request }
  | tooBig {left : PrepareMemory} (h : request.accepted)
      (hbig : mem.concatData.length < request.hashedBytes.length)
      (hrequest : left.request = request.terminateData) :
      PrepareOutcome request mem (-e2big) left
  | empty {left : PrepareMemory} (h : request.accepted) (hempty : request.hashedBytes = [])
      (hrequest : left.request = request.terminateData) :
      PrepareOutcome request mem (-einval) left
  | prepared {left : PrepareMemory} (h : request.accepted)
      (hfits : request.hashedBytes.length ≤ mem.concatData.length)
      (hne : request.hashedBytes ≠ []) (hrequest : left.request = request.terminateData)
      (hlen : left.totalLen = request.hashedBytes.length)
      (hbytes : left.concatData.take left.totalLen = request.hashedBytes) :
      PrepareOutcome request mem 0 left

theorem prepareMeasurement_outcome (request : MeasurementRequest) (mem : PrepareMemory) :
    PrepareOutcome request mem
      (prepareMeasurement (some request) measurementRequestSize mem).1
      (prepareMeasurement (some request) measurementRequestSize mem).2 := by
  by_cases haccepted : request.accepted
  · have hdeps : request.terminateData.dependencies = request.dependencies := rfl
    have htotal := request.length_hashedBytes
    rw [prepareMeasurement_accepted haccepted]
    dsimp only
    by_cases hdata : mem.concatData.length < request.data.length
    · rw [if_pos hdata]
      exact .tooBig haccepted (by omega) rfl
    rw [if_neg hdata]
    by_cases hroom : request.data.length ≠ 0 ∧ request.terminateData.hasDependencies ∧
        request.data.length = mem.concatData.length
    · have hone : request.dataSeparator.length = 1 := by
        rw [← request.dataSeparator_of_length, if_pos ⟨hroom.1, hroom.2.1⟩]
        rfl
      rw [if_pos hroom]
      exact .tooBig haccepted (by omega) rfl
    have hbound := MeasurementRequest.length_dataSeparator (Nat.le_of_not_lt hdata) hroom
    simp only [if_neg hroom, appendedDependencies, hdeps]
    by_cases hdepsFit : mem.concatData.length -
        (request.data.length + request.dataSeparator.length) < (cstr request.dependencies).length
    · rw [if_pos hdepsFit]
      exact .tooBig haccepted (by omega) rfl
    rw [if_neg hdepsFit]
    by_cases hpositive : request.data.length + request.dataSeparator.length +
        (cstr request.dependencies).length = 0
    · rw [if_pos hpositive]
      exact .empty haccepted (List.length_eq_zero_iff.mp (htotal.trans hpositive)) rfl
    · rw [if_neg hpositive]
      have hne : request.hashedBytes ≠ [] := by
        rw [← List.length_pos_iff]
        omega
      -- The three copies end up side by side.
      refine .prepared haccepted (by omega) hne rfl htotal.symm ?_
      rw [request.hashedBytes_eq]
      exact take_writeAt_three (by omega)
  · simp only [prepareMeasurement, ne_eq, not_true_eq_false, if_false, haccepted,
      not_false_eq_true, if_true]
    exact .refused haccepted

/-- What a successful preparation hands on. -/
theorem prepareMeasurement_ok {data : Option MeasurementRequest} {dataSize : ℕ}
    {mem mem' : PrepareMemory} (h : prepareMeasurement data dataSize mem = (0, mem')) :
    ∃ request, data = some request ∧ request.accepted ∧ mem'.request = request.terminateData ∧
      mem'.concatData.take mem'.totalLen = request.hashedBytes ∧ request.hashedBytes ≠ [] := by
  cases data with
  | none => cases (Prod.mk.inj h).1
  | some request =>
      have hsize : dataSize = measurementRequestSize := by
        by_contra hne
        simp only [prepareMeasurement, ne_eq, hne, not_false_eq_true, if_true] at h
        cases (Prod.mk.inj h).1
      have houtcome := prepareMeasurement_outcome request mem
      rw [← hsize, h] at houtcome
      cases houtcome with
      | prepared haccepted hfits hne hrequest hlen hbytes =>
          exact ⟨request, rfl, haccepted, hrequest, hbytes, hne⟩

/-! ## Committed entries -/

/-- The measurement list of the container at position `i`; empty if there is none. -/
def CommitState.measurements (s : CommitState) (i : ℕ) : List MeasurementEntry :=
  (s.containers[i]?.map ContainerNode.measurementList).getD []

theorem StepEffect.measurements {S : HashSuite} {s t : CommitState} {config : PolicyConfig}
    {env : AddEnv} {container : Option ℕ} {name : Bytes} {data dependencies : Option Bytes}
    {digest : Digest} {ret : Ret}
    (h : StepEffect S s (.addMeasurement config env container (some name) data dependencies
      (some digest)) ret t) (i : ℕ) :
    t.measurements i = s.measurements i ∨
      ∃ entry,
        createMeasurementEntry true (some name) data dependencies (some digest) = some entry ∧
        t.measurements i = s.measurements i ++ [entry] := by
  cases h with
  | refused | commandFailed => exact .inl rfl
  | @measured _ _ j _ _ _ _ node entry hardware p hnode hentry =>
      have hanchor : (anchorRoot s hardware p.newRoot).containers = s.containers := by
        cases hardware <;> rfl
      simp only [CommitState.measurements, containers_trimHistoryLocked, publishEvent, hanchor]
      by_cases hij : j = i
      · subst hij
        exact .inr ⟨entry, hentry, by simp [hnode, ContainerNode.append]⟩
      · exact .inl (by simp [hij])

theorem measurements_createContainerNode (env : CreateEnv) (id : Bytes) (s : KernelState) (i : ℕ) :
    (createContainerNode env id s).2.engine.measurements i = s.engine.measurements i := by
  have heffect := createContainerNode_effect env id s
  generalize (createContainerNode env id s).1 = result, (createContainerNode env id s).2 = t
    at heffect ⊢
  cases heffect with
  | found | failed => rfl
  | created namespaces hfind hgrown =>
      simp only [CommitState.measurements, List.getElem?_append]
      split
      · rfl
      · rename_i hi
        rw [List.getElem?_eq_none (not_lt.mp hi)]
        cases hfresh : [freshContainer id][i - s.engine.containers.length]? with
        | none => rfl
        | some c =>
            obtain rfl := List.mem_singleton.mp (List.mem_of_getElem? hfresh)
            rfl

/-- An entry that appears in a list was made from an accepted request. -/
theorem measurementExtend_commits {P : Platform} {env : ExtendEnv}
    {data : Option MeasurementRequest} {dataSize : ℕ} {s : KernelState} {i : ℕ}
    {entry : MeasurementEntry}
    (h : (measurementExtend P env data dataSize s).2.engine.measurements i =
      s.engine.measurements i ++ [entry]) :
    ∃ request, data = some request ∧ request.accepted ∧ request.hashedBytes ≠ [] ∧
      createMeasurementEntry true (some (cstr request.eventName))
        (some (cstr request.terminateData.additionalData)) (some (cstr request.dependencies))
        (some (P.sha256 request.hashedBytes)) = some entry := by
  have hgrown : ∀ t : CommitState, t.measurements i = s.engine.measurements i →
      t.measurements i ≠ s.engine.measurements i ++ [entry] := by
    intro t ht h
    simp [ht] at h
  unfold measurementExtend at h
  cases hprepare : prepareMeasurement data dataSize ⟨.zero, List.replicate concatDataSize 0, 0⟩ with
  | mk ret mem =>
    simp only [hprepare] at h
    split at h
    · exact absurd h (hgrown _ rfl)
    · rename_i hret
      rw [not_not] at hret
      subst hret
      obtain ⟨request, hdata, haccepted, hrequest, hhashed, hne⟩ := prepareMeasurement_ok hprepare
      refine ⟨request, hdata, haccepted, hne, ?_⟩
      rw [hhashed, hrequest] at h
      split at h
      · exact absurd h (hgrown _ rfl)
      · split at h
        · exact absurd h (hgrown _ rfl)
        · have hcreate := measurements_createContainerNode env.create
            request.terminateData.effectiveNamespace
            { s with engine := (commitCheckLocked env.available s.engine).2 } i
          split at h
          · rename_i ret t hresult
            rw [hresult] at hcreate
            exact absurd h (hgrown _ hcreate)
          · rename_i j t hresult
            rw [hresult] at hcreate
            have heffect := commitStep_effect P.toHashSuite t.engine
              (.addMeasurement (policyGetConfig t) env.add (some j)
                (some (cstr request.terminateData.eventName))
                (some (cstr request.terminateData.additionalData))
                (some (cstr request.terminateData.dependencies))
                (some (P.sha256 request.hashedBytes)))
            rcases heffect.measurements i with hsame | ⟨entry', hentry, hmore⟩
            · exact absurd h (hgrown _ (hsame.trans hcreate))
            · have hlists := (hmore.symm.trans h).trans (congrArg (· ++ [entry]) hcreate.symm)
              have heq : entry' = entry := by simpa using hlists
              rw [← heq]
              exact hentry

theorem MeasurementRequest.cstr_terminateData {request : MeasurementRequest}
    (hlen : request.additionalDataLen.toNat < eventDataSize) (hzero : (0 : UInt8) ∉ request.data) :
    cstr request.terminateData.additionalData = request.data := by
  have hindex : (Fin.ofNat eventDataSize request.additionalDataLen.toNat).val =
      request.additionalDataLen.toNat := Nat.mod_eq_of_lt hlen
  have hsplit : request.terminateData.additionalData.toList =
      request.data ++ 0 :: request.additionalData.toList.drop
        (request.additionalDataLen.toNat + 1) := by
    rw [MeasurementRequest.terminateData, List.Vector.toList_set, hindex, MeasurementRequest.data,
      List.set_eq_take_append_cons_drop, if_pos (by simpa using hlen)]
  rw [cstr, hsplit, takeWhile_append_zero hzero]

/-- An optional text is copied as it is. -/
theorem cstr_copied {n : ℕ} {text : Bytes} (hlen : text.length < n) (hzero : (0 : UInt8) ∉ text) :
    cstr (match some text with
      | some (c :: rest) => strscpy (CString.zero n) (c :: rest)
      | _ => CString.zero n) = text := by
  cases text with
  | nil => exact cstr_zero n
  | cons c rest => exact cstr_strscpy hlen hzero

/-- The texts in a committed entry are those of the request. -/
theorem createMeasurementEntry_texts {P : Platform} {request : MeasurementRequest}
    {entry : MeasurementEntry} (haccepted : request.accepted) (hzero : (0 : UInt8) ∉ request.data)
    (h : createMeasurementEntry true (some (cstr request.eventName))
      (some (cstr request.terminateData.additionalData)) (some (cstr request.dependencies))
      (some (P.sha256 request.hashedBytes)) = some entry) :
    cstr entry.eventName = cstr request.eventName ∧ cstr entry.eventData = request.data ∧
      cstr entry.dependencies = cstr request.dependencies ∧
      entry.digest = P.sha256 request.hashedBytes := by
  obtain ⟨hname, -, -, hdeps, hlen, -⟩ := haccepted
  have hdata : request.data.length < eventDataSize := by
    rw [request.length_data hlen]
    exact hlen
  rw [request.cstr_terminateData hlen hzero] at h
  simp only [createMeasurementEntry, not_true_eq_false, if_false] at h
  obtain rfl := Option.some.inj h
  exact ⟨cstr_strscpy (length_cstr_lt hname) (zero_notMem_cstr _), cstr_copied hdata hzero,
    cstr_copied (length_cstr_lt hdeps) (zero_notMem_cstr _), rfl⟩

/-! ## Agreement -/

/-- The line printed for a committed request passes the verifier if the bytes that the kernel
hashed do not end in a separator that the line does not show. If they do, it does not pass, unless
the hash function does not tell them from those without the separator. -/
theorem printed_line_verifies_iff (P : Platform) (env : ExtendEnv) (request : MeasurementRequest)
    (dataSize : ℕ) (s : KernelState) (i : ℕ) (entry : MeasurementEntry)
    (hplain : request.PlainText)
    (hcommitted : (measurementExtend P env (some request) dataSize s).2.engine.measurements i =
      s.engine.measurements i ++ [entry]) :
    ((¬ (request.data ≠ [] ∧ request.hasDependencies ∧ cstr request.dependencies = []) ∧
      ¬ (request.data = [] ∧ ∃ word, separator ∉ word ∧
        cstr request.dependencies = word ++ [separator])) →
      entry.Verifies P.toHashSuite) ∧
    (P.sum .sha256 request.hashedBytes.dropLast ≠ P.sum .sha256 request.hashedBytes →
      entry.Verifies P.toHashSuite →
      ¬ (request.data ≠ [] ∧ request.hasDependencies ∧ cstr request.dependencies = []) ∧
      ¬ (request.data = [] ∧ ∃ word, separator ∉ word ∧
        cstr request.dependencies = word ++ [separator])) := by
  obtain ⟨request', hrequest, haccepted, hne, hentry⟩ := measurementExtend_commits hcommitted
  obtain rfl := Option.some.inj hrequest
  have hzero : (0 : UInt8) ∉ request.data := fun h => (hplain.data 0 h).1 rfl
  obtain ⟨hname, hdata, hdeps, hdigest⟩ := createMeasurementEntry_texts haccepted hzero hentry
  have hverifies : entry.Verifies P.toHashSuite ↔ P.sum .sha256 request.hashedBytes =
      P.sum .sha256 (verifiedBytes (lineFields request.data (cstr request.dependencies))) := by
    have hline := @verifies_iff P.toHashSuite entry
    rw [hname, hdata, hdeps, hdigest] at hline
    exact hline hplain.separator_notMem_eventName hplain.oneLine.lineFields.trimRight_eq
      (request.lineFields_ne_nil hne)
  have hflag : request.hasDependencies ∨ cstr request.dependencies = [] :=
    haccepted.2.2.2.2.2.2.2.imp_right (cstr_eq_nil_iff _).mpr
  have hseparator := hplain.separator_notMem_data
  rw [hverifies, ← not_or]
  refine ⟨fun hends => ?_, fun hdistinct hhash hends => ?_⟩
  · rw [request.verifiedBytes_eq_hashedBytes hseparator hends hflag]
  · rw [request.verifiedBytes_eq_dropLast hseparator hends] at hhash
    exact hdistinct hhash.symm

/-- What the file hooks send when the policy does not ask for dependencies: the flag is set
and the dependencies are empty. -/
def hookRequest : MeasurementRequest :=
  { MeasurementRequest.zero with
    eventName := strscpy (CString.zero _) "bprm_check_security".ascii
    additionalData := strscpy (CString.zero _) (hexEncode (List.replicate 32 0xab))
    additionalDataLen := 64
    flags := measurementHasDependencies }

def workingExtend : ExtendEnv := ⟨0, true, workingCreate, workingAdd⟩

def loadedModule : KernelState := moduleLoaded (fun _ => otherMap) 10

def extendFresh (request : MeasurementRequest) : Ret × KernelState :=
  measurementExtend referencePlatform workingExtend (some request) measurementRequestSize
    loadedModule

def committedEntry (request : MeasurementRequest) : MeasurementEntry :=
  ((extendFresh request).2.engine.measurements 0).headD
    ⟨CString.zero _, CString.zero _, CString.zero _, zeroDigest⟩

theorem hookRequest_line_refused :
    hookRequest.PlainText ∧ (extendFresh hookRequest).1 = 0 ∧
      (extendFresh hookRequest).2.engine.measurements 0 = [committedEntry hookRequest] ∧
      ¬ (committedEntry hookRequest).Verifies referencePlatform.toHashSuite := by
  refine ⟨⟨?_, ?_, ?_⟩, ?_⟩ <;> decide +kernel

/-- The same request of a policy that asks for dependencies. -/
def dependenciesRequest : MeasurementRequest :=
  { hookRequest with dependencies := strscpy (CString.zero _) "/usr/bin/my tool:bash".ascii }

theorem printed_line_verifies_iff_dependenciesRequest :
    (extendFresh dependenciesRequest).1 = 0 ∧
      (committedEntry dependenciesRequest).Verifies referencePlatform.toHashSuite := by
  have hplain : dependenciesRequest.PlainText := by
    refine ⟨?_, ?_, ?_⟩ <;> decide +kernel
  have hcommitted : (extendFresh dependenciesRequest).1 = 0 ∧
      (measurementExtend referencePlatform workingExtend (some dependenciesRequest)
          measurementRequestSize loadedModule).2.engine.measurements 0 =
        loadedModule.engine.measurements 0 ++ [committedEntry dependenciesRequest] := by
    decide +kernel
  have hiff := printed_line_verifies_iff referencePlatform workingExtend dependenciesRequest
    measurementRequestSize loadedModule 0 _ hplain hcommitted.2
  refine ⟨hcommitted.1, hiff.1 ⟨by decide +kernel, ?_⟩⟩
  have hdata : dependenciesRequest.data ≠ [] := by decide +kernel
  exact fun h => hdata h.1

end BpfIma
