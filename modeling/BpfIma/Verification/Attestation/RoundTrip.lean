import BpfIma.Verification.Attestation.Evidence

/-! # Measurement lists round-trip

`MarshalHashedFiles` writes what `HashedFiles` reads back, through lines, reader and list. -/

namespace BpfIma

open Text

/-- An entry made by `NewHashedFile` whose line can be told apart: the fields before the path
hold no separator, and nothing is trimmed from the end of the line but its terminator. -/
structure HashedFile.Writable (S : HashSuite) (hashAlgo : CryptoHash) (h : HashedFile) : Prop where
  made : h = newHashedFile S hashAlgo h.event h.fileHash h.filePath
  event_separator : separator ∉ h.event
  event_lineFeed : lineFeed ∉ h.event
  fileHash_separator : separator ∉ h.fileHash
  fileHash_lineFeed : lineFeed ∉ h.fileHash
  filePath_lineFeed : lineFeed ∉ h.filePath
  line_end : h.string.getLast? ≠ some carriageReturn

/-- A line ends as its last fields do, whatever its template hash is. -/
theorem HashedFile.getLast?_string (h : HashedFile) :
    h.string.getLast? = (separator ::
      (h.fileHash ++ if h.filePath = [] then [] else separator :: h.filePath)).getLast? := by
  rw [HashedFile.string, ← List.cons_append, ← List.append_assoc]
  exact List.getLast?_append_of_ne_nil _ (List.cons_ne_nil _ _)

namespace HashedFile.Writable

variable {S : HashSuite} {hashAlgo : CryptoHash} {h : HashedFile}

theorem validate (hw : h.Writable S hashAlgo) : h.validate S hashAlgo = .ok () := by
  rw [HashedFile.validate_ok_iff]
  calc h.templateHash = (newHashedFile S hashAlgo h.event h.fileHash h.filePath).templateHash :=
        congrArg HashedFile.templateHash hw.made
    _ = h.computeTemplateHash S hashAlgo := rfl

theorem lineFeed_notMem_string (hw : h.Writable S hashAlgo) : lineFeed ∉ h.string := by
  have hhash : lineFeed ∉ hexEncode h.templateHash := notMem_hexEncode (by decide) _
  have hsep : lineFeed ≠ separator := by decide
  have hpath : lineFeed ∉ (if h.filePath = [] then [] else separator :: h.filePath) := by
    split
    · simp
    · simp [hsep, hw.filePath_lineFeed]
  simp only [HashedFile.string, List.mem_append, List.mem_cons, not_or]
  exact ⟨hhash, hsep, hw.event_lineFeed, hsep, hw.fileHash_lineFeed, hpath⟩

theorem trimRight_string (hw : h.Writable S hashAlgo) :
    trimRight (h.string ++ [lineFeed]) = h.string := by
  rw [trimRight_concat_lineFeed, trimRight_eq_self_iff]
  exact ⟨hw.line_end, fun hlast => hw.lineFeed_notMem_string (List.mem_of_getLast? hlast)⟩

/-- The fields of a line; an empty path is no field. -/
theorem splitN_string (hw : h.Writable S hashAlgo) :
    splitN separator 4 h.string = hexEncode h.templateHash :: h.event :: h.fileHash ::
      if h.filePath = [] then [] else [h.filePath] := by
  have hhash : separator ∉ hexEncode h.templateHash := notMem_hexEncode (by decide) _
  rw [HashedFile.string, splitN_append hhash, splitN_append hw.event_separator]
  split
  · rw [List.append_nil, splitN_of_notMem hw.fileHash_separator]
  · rw [splitN_append hw.fileHash_separator]
    rfl

theorem parse_string (hw : h.Writable S hashAlgo) : parseHashedFile h.string = .ok h := by
  have hpath : (if h.filePath = [] then [] else [h.filePath]).headD [] = h.filePath := by
    split
    · simp [*]
    · rfl
  simp only [parseHashedFile, hw.splitN_string, hexDecode_hexEncode, hpath]

theorem fileLine (hw : h.Writable S hashAlgo) :
    FileLine S hashAlgo (h.string ++ [lineFeed]) h := by
  refine ⟨?_, hw.validate⟩
  rw [hw.trimRight_string]
  exact hw.parse_string

end HashedFile.Writable

/-- Reading a marshalled list gives its entries, in order, and marshalling them again the
same bytes. -/
theorem hashedFiles_marshalHashedFiles (S : HashSuite) (entries : List HashedFile)
    (h : ∀ entry ∈ entries, entry.Writable S .sha256) :
    hashedFiles S (.fromBytes (marshalHashedFiles entries)) .sha256 = .ok entries ∧
      (hashedFiles S (.fromBytes (marshalHashedFiles entries)) .sha256).map marshalHashedFiles =
        .ok (marshalHashedFiles entries) := by
  have hlines : chunks (marshalHashedFiles entries) =
      entries.map fun entry => entry.string ++ [lineFeed] :=
    chunks_flatMap HashedFile.string entries fun entry hentry =>
      (h entry hentry).lineFeed_notMem_string
  have hread : hashedFiles S (.fromBytes (marshalHashedFiles entries)) .sha256 = .ok entries := by
    apply hashedFiles_of_fileLines rfl
    rw [LineReader.fromBytes, hlines, List.forall₂_map_left_iff, List.forall₂_same]
    exact fun entry hentry => (h entry hentry).fileLine
  refine ⟨hread, ?_⟩
  rw [hread]
  rfl

/-- An entry without a path, one without event and file hash, and one whose path starts with
a separator. -/
def writableEntries (S : HashSuite) : List HashedFile :=
  [newHashedFile S .sha256 "inode_setattr".ascii "0600".ascii [],
    newHashedFile S .sha256 [] [] "a".ascii,
    newHashedFile S .sha256 "mmap_file".ascii "00ff".ascii " /opt/my app:sh".ascii]

theorem hashedFiles_marshalHashedFiles_writableEntries :
    (∀ entry ∈ writableEntries referencePlatform.toHashSuite,
      entry.Writable referencePlatform.toHashSuite .sha256) ∧
    hashedFiles referencePlatform.toHashSuite
        (.fromBytes (marshalHashedFiles (writableEntries referencePlatform.toHashSuite))) .sha256 =
      .ok (writableEntries referencePlatform.toHashSuite) := by
  have hwritable : ∀ entry ∈ writableEntries referencePlatform.toHashSuite,
      entry.Writable referencePlatform.toHashSuite .sha256 := by
    intro entry hentry
    simp only [writableEntries, List.mem_cons, List.not_mem_nil, or_false] at hentry
    rcases hentry with rfl | rfl | rfl <;>
      exact ⟨rfl, by decide, by decide, by decide, by decide, by decide, by
        rw [HashedFile.getLast?_string]
        decide⟩
  exact ⟨hwritable, (hashedFiles_marshalHashedFiles _ _ hwritable).1⟩

end BpfIma
