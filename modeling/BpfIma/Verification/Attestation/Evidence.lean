import BpfIma.Verification.Attestation.Exact

/-! # Tamper evidence of attested entries

An attested entry is bound to its leaf digest in its file hash and its dependencies. The
name of the event is no part of the template hash, so an entry attests under any event. -/

namespace BpfIma

open HashChain Text

/-! ## Reading a list -/

theorem MeasurementList.hashedFiles_of_next {S : HashSuite} {l l' : MeasurementList}
    {file : HashedFile} (hnext : l.next S = (.ok (), l'))
    (hcurrent : l'.current = some (.hashedFile file)) :
    l.hashedFiles S = (l'.hashedFiles S).map (file :: ·) := by
  rw [MeasurementList.hashedFiles.eq_def]
  split
  · rename_i h
    cases hnext.symm.trans h
  · rename_i h
    cases hnext.symm.trans h
  · rename_i l'' h
    obtain ⟨-, rfl⟩ := Prod.mk.inj (hnext.symm.trans h)
    simp only [hcurrent]

theorem MeasurementList.hashedFiles_of_unread_nil {S : HashSuite} {l : MeasurementList}
    (h : l.src.unread = []) : l.hashedFiles S = .ok [] := by
  have hnext : l.next S = (.error .eof, l) := by
    simp [MeasurementList.next, LineReader.readLine, h]
  rw [MeasurementList.hashedFiles.eq_def]
  split
  · rfl
  · rename_i hne h'
    obtain ⟨heof, -⟩ := Prod.mk.inj (hnext.symm.trans h')
    exact absurd (Except.error.inj heof).symm hne
  · rename_i h'
    cases hnext.symm.trans h'

theorem MeasurementList.hashedFiles_of_fileLines {S : HashSuite} {l : MeasurementList}
    {lines : List Bytes} {files : List HashedFile} (hunread : l.src.unread = lines)
    (hparse : l.parse = fun line => (parseHashedFile line).map .hashedFile)
    (h : List.Forall₂ (FileLine S l.hashAlgo) lines files) : l.hashedFiles S = .ok files := by
  induction lines generalizing l files with
  | nil =>
      cases h
      exact MeasurementList.hashedFiles_of_unread_nil hunread
  | cons line lines ih =>
      obtain ⟨file, files, hfile, hfiles, rfl⟩ := List.forall₂_cons_left_iff.mp h
      have hentry : l.parse (trimRight line) = .ok (.hashedFile file) := by
        rw [hparse]
        simp only [hfile.1]
        rfl
      have hnext := MeasurementList.next_of_valid hunread hentry hfile.2
      rw [MeasurementList.hashedFiles_of_next hnext rfl,
        ih (l := l.accept S (.hashedFile file) lines) rfl hparse hfiles]
      rfl

theorem hashedFiles_of_fileLines {S : HashSuite} {src : LineReader} {hashAlgo : CryptoHash}
    {files : List HashedFile} (hvalid : Pcr.isValidAlgo hashAlgo = true)
    (h : List.Forall₂ (FileLine S hashAlgo) src.unread files) :
    hashedFiles S src hashAlgo = .ok files := by
  simp only [hashedFiles, newHashedFileList, newList, Pcr.new, hvalid, if_true, Option.map_some]
  exact MeasurementList.hashedFiles_of_fileLines rfl rfl h

/-! ## What an entry hashes -/

/-- The bytes whose digest is the template hash. -/
def HashedFile.hashedBytes (h : HashedFile) : Bytes :=
  h.fileHash ++ if h.filePath = [] then [] else separator :: h.filePath

/-- The inputs hashed for a list of entries: by their template hashes and by the register. -/
def entryInputs (S : HashSuite) (files : List HashedFile) : List Bytes :=
  files.map HashedFile.hashedBytes ++
    messages (S.sum .sha256) (registerStart .sha256) (files.map HashedFile.templateHash)

/-- The inputs hashed when a list is read. -/
def listInputs (S : HashSuite) (text : Bytes) : List Bytes :=
  match hashedFiles S (.fromBytes text) .sha256 with
  | .ok files => entryInputs S files
  | .error _ => []

/-- The fields that the template hash binds, and what is read from them. -/
structure HashedFile.SameContent (h h' : HashedFile) : Prop where
  fileHash : h.fileHash = h'.fileHash
  filePath : h.filePath = h'.filePath
  path : h.path = h'.path
  ancestry : h.ancestry = h'.ancestry

theorem separator_notMem_fileHash {line : Bytes} {file : HashedFile}
    (h : parseHashedFile line = .ok file) : separator ∉ file.fileHash := by
  unfold parseHashedFile at h
  split at h
  · rename_i hash event fileHash rest hfields
    split at h
    · cases h
    · obtain rfl := Except.ok.inj h
      exact notMem_splitN (i := 2) (by rw [hfields]; rfl) (by decide)
  · cases h

theorem cut_hashedBytes {file : HashedFile} (h : separator ∉ file.fileHash) :
    cut separator file.hashedBytes =
      if file.filePath = [] then none else some (file.fileHash, file.filePath) := by
  unfold HashedFile.hashedBytes
  split
  · rw [List.append_nil, cut_eq_none h]
  · rw [cut_append h]

/-- The hashed bytes are cut at the end of the file hash. -/
theorem HashedFile.sameContent_of_hashedBytes {file file' : HashedFile}
    (h : separator ∉ file.fileHash) (h' : separator ∉ file'.fileHash)
    (heq : file.hashedBytes = file'.hashedBytes) : file.SameContent file' := by
  have hboth : file.fileHash = file'.fileHash ∧ file.filePath = file'.filePath := by
    have hcut := cut_hashedBytes h
    rw [heq, cut_hashedBytes h'] at hcut
    by_cases hpath : file.filePath = []
    · by_cases hpath' : file'.filePath = []
      · refine ⟨?_, hpath.trans hpath'.symm⟩
        simpa [HashedFile.hashedBytes, hpath, hpath'] using heq
      · simp [hpath, hpath'] at hcut
    · by_cases hpath' : file'.filePath = []
      · simp [hpath, hpath'] at hcut
      · simp only [hpath, hpath', if_false, Option.some.injEq, Prod.mk.injEq] at hcut
        exact ⟨hcut.1.symm, hcut.2.symm⟩
  obtain ⟨hhash, hpath⟩ := hboth
  refine ⟨hhash, hpath, ?_, ?_⟩
  · rw [HashedFile.path, hpath]
    rfl
  · rw [HashedFile.ancestry, hpath]
    rfl

/-! ## Two attested lists -/

theorem length_registerStart (hashAlgo : CryptoHash) :
    (registerStart hashAlgo).length = hashAlgo.size :=
  List.length_replicate

/-- The entries of an accepted target, and what its register holds after them. -/
theorem exists_files_of_attest {S : HashSuite} {hashAlgo : CryptoHash} {target leaves : LineReader}
    {expected : Bytes} (h : ((freshOver hashAlgo target leaves expected).attest S).1 = .ok ()) :
    ∃ files, List.Forall₂ (FileLine S hashAlgo) target.unread files ∧
      ((freshOver hashAlgo target leaves expected).attest S).2.target.aggregate.aggregate =
        chain (S.sum hashAlgo) (registerStart hashAlgo) (files.map HashedFile.templateHash) := by
  obtain ⟨hashes, -, hconsumed, hunread, -⟩ := Verifier.attest_ok (Prod.ext h rfl)
  obtain ⟨files, hfiles, rfl⟩ := (map_eq_map_some_iff fun _ _ => lineHash_target_freshOver).mp
    (hconsumed.map_lineHash hunread)
  exact ⟨files, hfiles, hconsumed.aggregate⟩

theorem FileLine.templateHash_eq {S : HashSuite} {hashAlgo : CryptoHash} {line : Bytes}
    {file : HashedFile} (h : FileLine S hashAlgo line file) :
    file.templateHash = S.sum hashAlgo file.hashedBytes :=
  HashedFile.validate_ok_iff.mp h.2

/-- Entries with the same template hashes have the same content. -/
theorem forall₂_sameContent {S : HashSuite} {hashAlgo : CryptoHash} {lines lines' : List Bytes}
    {files files' : List HashedFile} (h : List.Forall₂ (FileLine S hashAlgo) lines files)
    (h' : List.Forall₂ (FileLine S hashAlgo) lines' files')
    (hinj : Set.InjOn (S.sum hashAlgo)
      {m | m ∈ files.map HashedFile.hashedBytes ∨ m ∈ files'.map HashedFile.hashedBytes})
    (heq : files.map HashedFile.templateHash = files'.map HashedFile.templateHash) :
    List.Forall₂ HashedFile.SameContent files files' := by
  induction h generalizing lines' files' with
  | nil =>
      obtain rfl : files' = [] := by simpa using heq.symm
      exact .nil
  | @cons line file lines files hline _ ih =>
      obtain ⟨file', files', rfl, hhash, hrest⟩ := List.map_eq_cons_iff.mp heq.symm
      obtain ⟨line', lines', hline', hlines', rfl⟩ := List.forall₂_cons_right_iff.mp h'
      rw [hline.templateHash_eq, hline'.templateHash_eq] at hhash
      refine .cons ?_ (ih hlines' (hinj.mono ?_) hrest.symm)
      · exact HashedFile.sameContent_of_hashedBytes (separator_notMem_fileHash hline.1)
          (separator_notMem_fileHash hline'.1) (hinj (by simp) (by simp) hhash.symm)
      · rintro m (hm | hm)
        · exact .inl (List.mem_cons_of_mem _ hm)
        · exact .inr (List.mem_cons_of_mem _ hm)

/-- Two target lists with as many entries and the same last leaf digest, accepted against the
same leaves and PCR value, agree in all that the template hashes bind. -/
theorem attested_entries_evident (S : HashSuite) (target target' leaves expected : Bytes)
    (v v' : Verifier) (hv : openVerifier target leaves expected = some v)
    (hv' : openVerifier target' leaves expected = some v') (hok : (v.attest S).1 = .ok ())
    (hok' : (v'.attest S).1 = .ok ()) (hlength : (chunks target).length = (chunks target').length)
    (hlast : (v.attest S).2.target.aggregate.aggregate =
      (v'.attest S).2.target.aggregate.aggregate)
    (hfree : Set.InjOn (S.sum .sha256) {m | m ∈ listInputs S target ++ listInputs S target'}) :
    ∃ files files', hashedFiles S (.fromBytes target) .sha256 = .ok files ∧
      hashedFiles S (.fromBytes target') .sha256 = .ok files' ∧
      List.Forall₂ HashedFile.SameContent files files' := by
  obtain rfl := verifierOver_eq_some hv
  obtain rfl := verifierOver_eq_some hv'
  obtain ⟨files, hfiles, haggregate⟩ := exists_files_of_attest hok
  obtain ⟨files', hfiles', haggregate'⟩ := exists_files_of_attest hok'
  have hread := hashedFiles_of_fileLines rfl hfiles
  have hread' := hashedFiles_of_fileLines rfl hfiles'
  simp only [listInputs, hread, hread'] at hfree
  refine ⟨files, files', hread, hread', forall₂_sameContent hfiles hfiles' (hfree.mono ?_) ?_⟩
  · rintro m (hm | hm)
    · exact List.mem_append_left _ (List.mem_append_left _ hm)
    · exact List.mem_append_right _ (List.mem_append_left _ hm)
  · rw [haggregate, haggregate'] at hlast
    refine chain_injective_of_length (S.sum .sha256) (S.length_sum .sha256)
      (length_registerStart .sha256) (hfree.mono ?_) ?_ hlast
    · rintro m (hm | hm)
      · exact List.mem_append_left _ (List.mem_append_right _ hm)
      · exact List.mem_append_right _ (List.mem_append_right _ hm)
    · rw [List.length_map, List.length_map, ← hfiles.length_eq, ← hfiles'.length_eq]
      exact hlength

section Sample

variable (event : Bytes)

def mappedFile : Bytes := "mmap_file".ascii

def connectedSocket : Bytes := "socket_connect".ascii

theorem fileLines_sampleTarget (h : event ∈ [mappedFile, connectedSocket]) :
    List.Forall₂ (FileLine referencePlatform.toHashSuite .sha256)
      (LineReader.fromBytes (sampleTarget event)).unread [sampleFile event] := by
  revert event
  decide +kernel

theorem hashedFiles_sampleTarget (h : event ∈ [mappedFile, connectedSocket]) :
    hashedFiles referencePlatform.toHashSuite (.fromBytes (sampleTarget event)) .sha256 =
      .ok [sampleFile event] :=
  hashedFiles_of_fileLines rfl (fileLines_sampleTarget event h)

def sampleVerifier (event : Bytes) : Verifier :=
  freshOver .sha256 (.fromBytes (sampleTarget event)) (.fromBytes sampleLeaves) samplePcr

theorem openVerifier_sampleTarget :
    openVerifier (sampleTarget event) sampleLeaves samplePcr = some (sampleVerifier event) := rfl

theorem attest_sampleVerifier (h : event ∈ [mappedFile, connectedSocket]) :
    ((sampleVerifier event).attest referencePlatform.toHashSuite).1 = .ok () :=
  attest_freshOver_iff.mpr ⟨_, _, fileLines_sampleTarget event h, reachedBy_sampleLeaves,
    foundInOrder_sampleFile event⟩

theorem aggregate_sampleVerifier (h : event ∈ [mappedFile, connectedSocket]) :
    ((sampleVerifier event).attest referencePlatform.toHashSuite).2.target.aggregate.aggregate =
      sampleLeaf := by
  obtain ⟨files, hfiles, haggregate⟩ := exists_files_of_attest (attest_sampleVerifier event h)
  have hread := hashedFiles_of_fileLines rfl hfiles
  rw [hashedFiles_sampleTarget event h] at hread
  obtain rfl := Except.ok.inj hread
  exact haggregate

theorem injOn_listInputs_sampleTarget :
    Set.InjOn (referencePlatform.sum .sha256)
      {m | m ∈ listInputs referencePlatform.toHashSuite (sampleTarget mappedFile) ++
        listInputs referencePlatform.toHashSuite (sampleTarget connectedSocket)} := by
  simp only [listInputs, hashedFiles_sampleTarget mappedFile (by simp),
    hashedFiles_sampleTarget connectedSocket (by simp)]
  have hfree : CollisionFree (referencePlatform.sum .sha256) (registerStart .sha256)
      {m | m ∈ entryInputs referencePlatform.toHashSuite [sampleFile mappedFile] ++
        entryInputs referencePlatform.toHashSuite [sampleFile connectedSocket]} := by
    decide +kernel
  exact hfree.injOn

end Sample

theorem attested_entries_evident_sampleTarget :
    ∃ files files',
      hashedFiles referencePlatform.toHashSuite (.fromBytes (sampleTarget mappedFile)) .sha256 =
        .ok files ∧
      hashedFiles referencePlatform.toHashSuite (.fromBytes (sampleTarget connectedSocket))
        .sha256 = .ok files' ∧
      files.length = 1 ∧ List.Forall₂ HashedFile.SameContent files files' := by
  have hlines : (chunks (sampleTarget mappedFile)).length =
      (chunks (sampleTarget connectedSocket)).length := by decide +kernel
  have haggregate := (aggregate_sampleVerifier mappedFile (by simp)).trans
    (aggregate_sampleVerifier connectedSocket (by simp)).symm
  obtain ⟨files, files', hread, hread', hsame⟩ :=
    attested_entries_evident referencePlatform.toHashSuite (sampleTarget mappedFile)
      (sampleTarget connectedSocket) sampleLeaves samplePcr _ _ (openVerifier_sampleTarget _)
      (openVerifier_sampleTarget _) (attest_sampleVerifier _ (by simp))
      (attest_sampleVerifier _ (by simp)) hlines haggregate injOn_listInputs_sampleTarget
  refine ⟨files, files', hread, hread', ?_, hsame⟩
  rw [hashedFiles_sampleTarget _ (by simp)] at hread
  rw [← Except.ok.inj hread]
  rfl

/-- The measurement of a mapped file attests as that of a connected socket. -/
theorem event_not_evident :
    ∃ v v' file file',
      openVerifier (sampleTarget mappedFile) sampleLeaves samplePcr = some v ∧
      openVerifier (sampleTarget connectedSocket) sampleLeaves samplePcr = some v' ∧
      (v.attest referencePlatform.toHashSuite).1 = .ok () ∧
      (v'.attest referencePlatform.toHashSuite).1 = .ok () ∧
      (v.attest referencePlatform.toHashSuite).2.target.aggregate.aggregate =
        (v'.attest referencePlatform.toHashSuite).2.target.aggregate.aggregate ∧
      Set.InjOn (referencePlatform.sum .sha256)
        {m | m ∈ listInputs referencePlatform.toHashSuite (sampleTarget mappedFile) ++
          listInputs referencePlatform.toHashSuite (sampleTarget connectedSocket)} ∧
      hashedFiles referencePlatform.toHashSuite (.fromBytes (sampleTarget mappedFile)) .sha256 =
        .ok [file] ∧
      hashedFiles referencePlatform.toHashSuite (.fromBytes (sampleTarget connectedSocket))
        .sha256 = .ok [file'] ∧
      file.event ≠ file'.event ∧ file.isFile = true ∧ file'.isFile = false :=
  ⟨_, _, _, _, openVerifier_sampleTarget _, openVerifier_sampleTarget _,
    attest_sampleVerifier _ (by simp), attest_sampleVerifier _ (by simp),
    (aggregate_sampleVerifier _ (by simp)).trans (aggregate_sampleVerifier _ (by simp)).symm,
    injOn_listInputs_sampleTarget, hashedFiles_sampleTarget _ (by simp),
    hashedFiles_sampleTarget _ (by simp), by decide +kernel⟩

end BpfIma
