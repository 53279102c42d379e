import BpfIma.Verification.Measurement.Recorded

/-! # Framing of the measurement list

The kernel prints dependencies as they are. The text of a list has one line per entry, and
the verifier reads the dependencies back, exactly if none of them holds a line feed or ends
in a carriage return. -/

namespace BpfIma

open CString Text

/-! ## The line of an entry -/

/-- A text without the bytes that end a field or a line. -/
def OneField (text : Bytes) : Prop :=
  ∀ c ∈ text, c ≠ separator ∧ c ≠ carriageReturn ∧ c ≠ lineFeed

instance (text : Bytes) : Decidable (OneField text) := List.decidableBAll _ _

theorem OneField.separator_notMem {text : Bytes} (h : OneField text) : separator ∉ text :=
  fun hmem => (h _ hmem).1 rfl

theorem OneField.lineFeed_notMem {text : Bytes} (h : OneField text) : lineFeed ∉ text :=
  fun hmem => (h _ hmem).2.2 rfl

theorem OneField.oneLine {text : Bytes} (h : OneField text) : OneLine text :=
  fun c hc => (h c hc).2

/-- The line of an entry, without its terminator. -/
def entryLine (entry : MeasurementEntry) : Bytes :=
  hexEncode entry.digest.toList ++ separator :: (cstr entry.eventName ++ separator ::
    (cstr entry.eventData ++
      if cstr entry.dependencies = [] then [] else separator :: cstr entry.dependencies))

/-- What the verifier makes of the line. -/
def entryFile (entry : MeasurementEntry) : HashedFile where
  templateHash := entry.digest.toList
  event := cstr entry.eventName
  fileHash := cstr entry.eventData
  filePath := trimRight (cstr entry.dependencies)

/-- Event name and data are fields of their own. -/
structure MeasurementEntry.HookText (entry : MeasurementEntry) : Prop where
  eventName : OneField (cstr entry.eventName)
  eventData : OneField (cstr entry.eventData)
  nonempty : cstr entry.eventData ≠ []

namespace MeasurementEntry.HookText

variable {entry : MeasurementEntry}

theorem seqShow_eq (h : entry.HookText) :
    containerMeasurementsSeqShow entry = entryLine entry ++ [lineFeed] := by
  have hfields : lineFields (cstr entry.eventData) (cstr entry.dependencies) =
      cstr entry.eventData ++
        if cstr entry.dependencies = [] then [] else separator :: cstr entry.dependencies := by
    by_cases hdeps : cstr entry.dependencies = [] <;> simp [lineFields, h.nonempty, hdeps]
  rw [BpfIma.seqShow_eq (by simp [hfields, h.nonempty]), hfields]
  rfl

theorem lineFeed_mem_entryLine (h : entry.HookText) :
    lineFeed ∈ entryLine entry ↔ lineFeed ∈ cstr entry.dependencies := by
  have hhex : lineFeed ∉ hexEncode entry.digest.toList := notMem_hexEncode (by decide) _
  have hspace : lineFeed ≠ separator := by decide
  by_cases hdeps : cstr entry.dependencies = []
  · simp [entryLine, hhex, hspace, h.eventName.lineFeed_notMem, h.eventData.lineFeed_notMem, hdeps]
  · simp [entryLine, hhex, hspace, h.eventName.lineFeed_notMem, h.eventData.lineFeed_notMem, hdeps]

theorem trimRight_entryLine (h : entry.HookText) :
    trimRight (entryLine entry) =
      hexEncode entry.digest.toList ++ separator :: (cstr entry.eventName ++ separator ::
        (cstr entry.eventData ++
          if cstr entry.dependencies = [] then []
          else separator :: trimRight (cstr entry.dependencies))) := by
  have hcr : separator ≠ carriageReturn := by decide
  have hlf : separator ≠ lineFeed := by decide
  rw [entryLine, trimRight_append hcr hlf, trimRight_append hcr hlf]
  by_cases hdeps : cstr entry.dependencies = []
  · simp only [hdeps, if_true, List.append_nil, h.eventData.oneLine.trimRight_eq]
  · simp only [hdeps, if_false, trimRight_append hcr hlf]

/-- The verifier reads the fields back, and the dependencies up to terminators at their end. -/
theorem parse_entryLine (h : entry.HookText) :
    parseHashedFile (trimRight (entryLine entry ++ [lineFeed])) = .ok (entryFile entry) := by
  rw [trimRight_concat_lineFeed, h.trimRight_entryLine, parseHashedFile,
    splitN_append (notMem_hexEncode (by decide) _), splitN_append h.eventName.separator_notMem]
  by_cases hdeps : cstr entry.dependencies = []
  · simp only [hdeps, if_true, List.append_nil, splitN_of_notMem h.eventData.separator_notMem,
      hexDecode_hexEncode]
    simp [entryFile, hdeps, trimRight]
  · simp only [hdeps, if_false, splitN_append h.eventData.separator_notMem, hexDecode_hexEncode]
    rfl

end MeasurementEntry.HookText

/-! ## The text of a list -/

/-- `ReadLine` and `ParseHashedFile`, line by line, give the files. -/
def ReadsAs (text : Bytes) (files : List HashedFile) : Prop :=
  (LineReader.fromBytes text).unread.map (fun line => parseHashedFile (trimRight line)) =
    files.map .ok
deriving Decidable

/-- One file per entry, in order, with its digest and its dependencies. -/
def Framed (text : Bytes) (digests : List Digest) (dependencies : List Bytes) : Prop :=
  ∃ files, ReadsAs text files ∧
    files.map HashedFile.templateHash = digests.map List.Vector.toList ∧
    files.map HashedFile.filePath = dependencies

/-- The dependencies survive in a line. -/
def StaysInLine (dependencies : Bytes) : Prop :=
  lineFeed ∉ dependencies ∧ dependencies.getLast? ≠ some carriageReturn
deriving Decidable

theorem StaysInLine.iff_trimRight {dependencies : Bytes} (h : lineFeed ∉ dependencies) :
    StaysInLine dependencies ↔ trimRight dependencies = dependencies := by
  rw [trimRight_eq_self_iff]
  exact ⟨fun hstays => ⟨hstays.2, fun hlast => h (List.mem_of_getLast? hlast)⟩,
    fun hself => ⟨h, hself.1⟩⟩

section List

variable {entries : List MeasurementEntry}

theorem renderMeasurements_eq (h : ∀ entry ∈ entries, entry.HookText) :
    renderMeasurements entries = entries.flatMap fun entry => entryLine entry ++ [lineFeed] :=
  List.flatMap_congr fun entry hentry => (h entry hentry).seqShow_eq

/-- Without line feeds in the dependencies, every entry is read as its file. -/
theorem readsAs_iff (h : ∀ entry ∈ entries, entry.HookText)
    (hlines : ∀ entry ∈ entries, lineFeed ∉ cstr entry.dependencies) {files : List HashedFile} :
    ReadsAs (renderMeasurements entries) files ↔ files = entries.map entryFile := by
  have hchunks : (LineReader.fromBytes (renderMeasurements entries)).unread =
      entries.map fun entry => entryLine entry ++ [lineFeed] := by
    rw [renderMeasurements_eq h]
    exact chunks_flatMap _ _ fun entry hentry hmem =>
      hlines entry hentry ((h entry hentry).lineFeed_mem_entryLine.mp hmem)
  have hparse : entries.map (fun entry =>
      parseHashedFile (trimRight (entryLine entry ++ [lineFeed]))) =
        (entries.map entryFile).map .ok := by
    rw [List.map_map]
    exact List.map_congr_left fun entry hentry => (h entry hentry).parse_entryLine
  rw [ReadsAs, hchunks, List.map_map]
  change entries.map
    (fun entry => parseHashedFile (trimRight (entryLine entry ++ [lineFeed]))) = _ ↔ _
  rw [hparse, (List.map_injective_iff.mpr fun a b hab => Except.ok.inj hab).eq_iff]
  exact eq_comm

theorem framed_iff (h : ∀ entry ∈ entries, entry.HookText) :
    Framed (renderMeasurements entries) (entries.map MeasurementEntry.digest)
        (entries.map fun entry => cstr entry.dependencies) ↔
      ∀ entry ∈ entries, StaysInLine (cstr entry.dependencies) := by
  constructor
  · rintro ⟨files, hreads, hhashes, hpaths⟩
    have hlength : files.length = entries.length := by
      simpa using congrArg List.length hhashes
    -- A line feed in the dependencies gives a line too many.
    have hlines : ∀ entry ∈ entries, lineFeed ∉ cstr entry.dependencies := by
      intro entry hentry hmem
      have hchunks := congrArg List.length hreads
      rw [List.length_map, List.length_map, renderMeasurements_eq h, hlength] at hchunks
      exact (length_chunks_flatMap entryLine entries).2 hchunks entry hentry
        ((h entry hentry).lineFeed_mem_entryLine.mpr hmem)
    rw [(readsAs_iff h hlines).mp hreads, List.map_map] at hpaths
    intro entry hentry
    rw [StaysInLine.iff_trimRight (hlines entry hentry)]
    exact List.map_inj_left.mp hpaths entry hentry
  · intro hstays
    refine ⟨entries.map entryFile,
      (readsAs_iff h fun entry hentry => (hstays entry hentry).1).mpr rfl, ?_, ?_⟩
    · rw [List.map_map, List.map_map]
      rfl
    · rw [List.map_map]
      exact List.map_congr_left fun entry hentry =>
        (StaysInLine.iff_trimRight (hstays entry hentry).1).mp (hstays entry hentry)

end List

/-! ## The recorded requests -/

/-- Event name and data as the hooks produce them. -/
structure MeasurementRequest.HookText (request : MeasurementRequest) : Prop where
  eventName : OneField (cstr request.eventName)
  data : OneField request.data
  nonempty : request.data ≠ []
  zero_notMem : (0 : UInt8) ∉ request.data

theorem EntryOf.hookText {P : Platform} {request : MeasurementRequest} {entry : MeasurementEntry}
    (h : EntryOf P request entry) (hhook : request.HookText) :
    entry.HookText ∧ cstr entry.dependencies = cstr request.dependencies := by
  obtain ⟨r, hr, -, haccepted, -⟩ := preparedBytes_eq_some h.prepared
  obtain rfl := Option.some.inj hr
  obtain ⟨hname, hdata, hdeps, -⟩ :=
    createMeasurementEntry_texts haccepted hhook.zero_notMem h.created
  refine ⟨⟨?_, ?_, ?_⟩, hdeps⟩
  · rw [hname]
    exact hhook.eventName
  · rw [hdata]
    exact hhook.data
  · rw [hdata]
    exact hhook.nonempty

theorem forall₂_entryOf_hookText {P : Platform} {requests : List MeasurementRequest}
    {entries : List MeasurementEntry} (h : List.Forall₂ (EntryOf P) requests entries)
    (hhooks : ∀ request ∈ requests, request.HookText) :
    (∀ entry ∈ entries, entry.HookText) ∧
      entries.map (fun entry => cstr entry.dependencies) =
        requests.map fun request => cstr request.dependencies := by
  induction h with
  | nil => exact ⟨by simp, rfl⟩
  | cons hentry _ ih =>
      obtain ⟨hhead, htail⟩ := List.forall_mem_cons.mp hhooks
      obtain ⟨htext, hdeps⟩ := hentry.hookText hhead
      obtain ⟨htexts, hall⟩ := ih htail
      refine ⟨List.forall_mem_cons.mpr ⟨htext, htexts⟩, ?_⟩
      rw [List.map_cons, List.map_cons, hdeps, hall]

/-- In every interleaving of callers: the text of a list that hooks filled is read as one
entry per recorded request, in order, with its digest and its dependencies, exactly if no
dependencies hold a line feed or end in a carriage return. -/
theorem measurement_list_framed_iff (P : Platform) (maps : ℕ → BpfMap) (tpmPcrIndex : ℤ)
    (ops : List SystemOp) (c : ContainerNode)
    (hc : c ∈ (systemRun P maps tpmPcrIndex ops).shared.engine.containers)
    (hhooks : ∀ request ∈ requestsFor (cstr c.id) (recordedRequests P maps tpmPcrIndex ops),
      request.HookText) :
    Framed (renderMeasurements c.measurementList) c.digests
        ((requestsFor (cstr c.id) (recordedRequests P maps tpmPcrIndex ops)).map
          fun request => cstr request.dependencies) ↔
      ∀ request ∈ requestsFor (cstr c.id) (recordedRequests P maps tpmPcrIndex ops),
        StaysInLine (cstr request.dependencies) := by
  have hlist := (systemRun_holds P maps tpmPcrIndex ops).shared.journal.lists c hc
  obtain ⟨htexts, hdeps⟩ := forall₂_entryOf_hookText hlist hhooks
  have hsame : (∀ entry ∈ c.measurementList, StaysInLine (cstr entry.dependencies)) ↔
      ∀ request ∈ requestsFor (cstr c.id) (recordedRequests P maps tpmPcrIndex ops),
        StaysInLine (cstr request.dependencies) := by
    rw [← List.forall_mem_map (P := StaysInLine), hdeps, List.forall_mem_map]
  rw [← hdeps, ← hsame]
  exact framed_iff htexts

/-- The container after one call for the request. -/
def calledContainer (request : MeasurementRequest) : ContainerNode :=
  (systemRun referencePlatform (fun _ => otherMap) 10
    (callSections 0 request)).shared.engine.containers.headD (freshContainer [])

theorem measurement_list_framed_iff_dependenciesRequest :
    (calledContainer dependenciesRequest).digests.length = 1 ∧
      Framed (renderMeasurements (calledContainer dependenciesRequest).measurementList)
        (calledContainer dependenciesRequest).digests [cstr dependenciesRequest.dependencies] := by
  have hrun : calledContainer dependenciesRequest ∈
        (systemRun referencePlatform (fun _ => otherMap) 10
          (callSections 0 dependenciesRequest)).shared.engine.containers ∧
      (calledContainer dependenciesRequest).digests.length = 1 ∧
      requestsFor (cstr (calledContainer dependenciesRequest).id)
        (recordedRequests referencePlatform (fun _ => otherMap) 10
          (callSections 0 dependenciesRequest)) = [dependenciesRequest] := by decide +kernel
  have htext : OneField (cstr dependenciesRequest.eventName) ∧ OneField dependenciesRequest.data ∧
      dependenciesRequest.data ≠ [] ∧ (0 : UInt8) ∉ dependenciesRequest.data ∧
      StaysInLine (cstr dependenciesRequest.dependencies) := by decide +kernel
  obtain ⟨hc, hlength, hrequests⟩ := hrun
  obtain ⟨hname, hdata, hne, hzero, hstays⟩ := htext
  have hframed := measurement_list_framed_iff referencePlatform (fun _ => otherMap) 10
    (callSections 0 dependenciesRequest) (calledContainer dependenciesRequest) hc
  rw [hrequests] at hframed
  refine ⟨hlength, (hframed ?_).mpr ?_⟩
  · exact List.forall_mem_singleton.mpr ⟨hname, hdata, hne, hzero⟩
  · exact List.forall_mem_singleton.mpr hstays

/-- The request for a file in a directory whose name ends a line and starts another. -/
def forgedRequest : MeasurementRequest :=
  { hookRequest with
    dependencies := strscpy (CString.zero _)
      ("/tmp/\n".ascii ++ hexEncode zeroDigest.toList ++ " mmap_file 0 /bin/sh".ascii) }

/-- One measurement is recorded and two entries are read: the second one was never measured. -/
theorem forgedRequest_reads_twice :
    OneField (cstr forgedRequest.eventName) ∧ OneField forgedRequest.data ∧
      forgedRequest.data ≠ [] ∧ (0 : UInt8) ∉ forgedRequest.data ∧
      recordedRequests referencePlatform (fun _ => otherMap) 10 (callSections 0 forgedRequest) =
        [forgedRequest] ∧
      calledContainer forgedRequest ∈ (systemRun referencePlatform (fun _ => otherMap) 10
        (callSections 0 forgedRequest)).shared.engine.containers ∧
      (∃ file, ReadsAs (renderMeasurements (calledContainer forgedRequest).measurementList)
        [file, ⟨zeroDigest.toList, "mmap_file".ascii, "0".ascii, "/bin/sh".ascii⟩]) ∧
      ¬ Framed (renderMeasurements (calledContainer forgedRequest).measurementList)
        (calledContainer forgedRequest).digests [cstr forgedRequest.dependencies] := by
  have hfacts : (OneField (cstr forgedRequest.eventName) ∧ OneField forgedRequest.data ∧
        forgedRequest.data ≠ [] ∧ (0 : UInt8) ∉ forgedRequest.data ∧
        recordedRequests referencePlatform (fun _ => otherMap) 10 (callSections 0 forgedRequest) =
          [forgedRequest] ∧
        calledContainer forgedRequest ∈ (systemRun referencePlatform (fun _ => otherMap) 10
          (callSections 0 forgedRequest)).shared.engine.containers) ∧
      ReadsAs (renderMeasurements (calledContainer forgedRequest).measurementList)
        [⟨(referencePlatform.sha256 forgedRequest.hashedBytes).toList,
            "bprm_check_security".ascii, hexEncode (List.replicate 32 0xab), "/tmp/".ascii⟩,
          ⟨zeroDigest.toList, "mmap_file".ascii, "0".ascii, "/bin/sh".ascii⟩] := by
    decide +kernel
  obtain ⟨⟨hname, hdata, hne, hzero, hrecorded, hc⟩, hreads⟩ := hfacts
  refine ⟨hname, hdata, hne, hzero, hrecorded, hc, ⟨_, hreads⟩, ?_⟩
  rintro ⟨files, hreads', -, hpaths⟩
  have hlength := congrArg List.length (hreads'.symm.trans hreads)
  have hpaths' := congrArg List.length hpaths
  simp only [List.length_map, List.length_cons, List.length_nil] at hlength hpaths'
  omega

end BpfIma
