import BpfIma.Library.Text
import BpfIma.Model.Base

/-! # The attestation verifier

The Go packages `reader`, `pcr`, `measurement` and `verifier`. Methods with a pointer
receiver take and return the receiver; an error is a value of the type of its site. -/

namespace BpfIma

open Text

/-! ## Lines -/

/-- `reader.Reader` over an in-memory list: the source and the lines not yet read, each
with its terminator. -/
structure LineReader where
  raw : Bytes
  unread : List Bytes

def LineReader.fromBytes (raw : Bytes) : LineReader := ⟨raw, chunks raw⟩

/-- `ReadLine`; `none` is `io.EOF`. -/
def LineReader.readLine (r : LineReader) : Option Bytes × LineReader :=
  match r.unread with
  | [] => (none, r)
  | line :: lines => (some (trimRight line), { r with unread := lines })

def LineReader.rewind (r : LineReader) : LineReader := .fromBytes r.raw

/-! ## Registers -/

structure Pcr where
  aggregate : Bytes
  hashAlgo : CryptoHash
deriving DecidableEq

def Pcr.isValidAlgo : CryptoHash → Bool
  | .sha1 | .sha256 | .sha384 | .sha512 => true
  | .other _ _ => false

/-- `pcr.New`; `none` for an algorithm that no PCR bank has. -/
def Pcr.new (hashAlgo : CryptoHash) : Option Pcr :=
  if Pcr.isValidAlgo hashAlgo then some ⟨List.replicate hashAlgo.size 0, hashAlgo⟩ else none

def Pcr.extend (S : HashSuite) (p : Pcr) (b : Bytes) : Pcr :=
  { p with aggregate := S.sum p.hashAlgo (p.aggregate ++ b) }

def Pcr.reset (p : Pcr) : Pcr := { p with aggregate := List.replicate p.aggregate.length 0 }

/-! ## Entries -/

/-- Why an entry is refused: the first four wrap `ErrMalformedEntry`, the others
`ErrInvalidEntry`. -/
inductive EntryError where
  | fieldCount (got : ℕ)
  | templateHash (error : HexError)
  | emptyLeafDigest
  | leafDigest (error : HexError)
  | templateHashMismatch (event filePath : Bytes)
  | leafDigestSize (want got : ℕ)
deriving DecidableEq, Repr

/-- The byte of `measurement.Separator`. -/
def separator : UInt8 := 0x20

/-- The byte of `measurement.DependencySeparator`. -/
def dependencySeparator : UInt8 := 0x3a

structure HashedFile where
  templateHash : Bytes
  event : Bytes
  fileHash : Bytes
  filePath : Bytes
deriving DecidableEq, Repr

structure Leaf where
  digest : Bytes
deriving DecidableEq, Repr

/-- `ParseHashedFile`: `<template hash> <event> <file hash> [<file path>]`. -/
def parseHashedFile (line : Bytes) : Except EntryError HashedFile :=
  match splitN separator 4 line with
  | hash :: event :: fileHash :: rest =>
      match hexDecode hash with
      | .error e => .error (.templateHash e)
      | .ok templateHash => .ok ⟨templateHash, event, fileHash, rest.headD []⟩
  | fields => .error (.fieldCount fields.length)

def HashedFile.computeTemplateHash (S : HashSuite) (hashAlgo : CryptoHash) (h : HashedFile) :
    Bytes :=
  S.sum hashAlgo (h.fileHash ++ if h.filePath = [] then [] else separator :: h.filePath)

/-- `NewHashedFile`; `filePath` is empty without dependencies. -/
def newHashedFile (S : HashSuite) (hashAlgo : CryptoHash) (event fileHash filePath : Bytes) :
    HashedFile :=
  let h : HashedFile := ⟨[], event, fileHash, filePath⟩
  { h with templateHash := h.computeTemplateHash S hashAlgo }

/-- `String`: the line of the measurement. -/
def HashedFile.string (h : HashedFile) : Bytes :=
  hexEncode h.templateHash ++ separator :: (h.event ++ separator :: (h.fileHash ++
    if h.filePath = [] then [] else separator :: h.filePath))

def HashedFile.validate (S : HashSuite) (hashAlgo : CryptoHash) (h : HashedFile) :
    Except EntryError Unit :=
  if h.templateHash = h.computeTemplateHash S hashAlgo then .ok ()
  else .error (.templateHashMismatch h.event h.filePath)

theorem HashedFile.validate_ok_iff {S : HashSuite} {hashAlgo : CryptoHash} {h : HashedFile} :
    h.validate S hashAlgo = .ok () ↔ h.templateHash = h.computeTemplateHash S hashAlgo := by
  unfold HashedFile.validate
  split <;> simp [*]

/-- `fileEvents`: the events that measure the content of a file. -/
def fileEvents : List Bytes :=
  ["bprm_check_security".ascii, "file_post_open".ascii, "mmap_file".ascii]

def HashedFile.isFile (h : HashedFile) : Bool := h.event ∈ fileEvents

/-- `Path`: the dependencies up to the first separator. -/
def HashedFile.path (h : HashedFile) : Bytes :=
  match cut dependencySeparator h.filePath with
  | some (path, _) => path
  | none => h.filePath

/-- `Ancestry`; `none` is `nil`. -/
def HashedFile.ancestry (h : HashedFile) : Option (List Bytes) :=
  match cut dependencySeparator h.filePath with
  | none => none
  | some (_, ancestry) =>
      if ancestry = [] then none else some (split dependencySeparator ancestry)

/-- `ParseLeaf`: `<leaf digest> [optional annotations]`. -/
def parseLeaf (line : Bytes) : Except EntryError Leaf :=
  let hexDigest := match cut separator line with
    | some (before, _) => before
    | none => line
  if hexDigest = [] then .error .emptyLeafDigest
  else
    match hexDecode hexDigest with
    | .error e => .error (.leafDigest e)
    | .ok digest => .ok ⟨digest⟩

def Leaf.validate (hashAlgo : CryptoHash) (l : Leaf) : Except EntryError Unit :=
  if l.digest.length = hashAlgo.size then .ok ()
  else .error (.leafDigestSize hashAlgo.size l.digest.length)

/-- The `Measurement` interface. -/
inductive Measurement where
  | leaf (l : Leaf)
  | hashedFile (h : HashedFile)
deriving DecidableEq, Repr

def Measurement.templateHash : Measurement → Bytes
  | .leaf l => l.digest
  | .hashedFile h => h.templateHash

def Measurement.validate (S : HashSuite) (hashAlgo : CryptoHash) :
    Measurement → Except EntryError Unit
  | .leaf l => l.validate hashAlgo
  | .hashedFile h => h.validate S hashAlgo

/-! ## Lists -/

/-- What `List.Next` returns instead of an entry. -/
inductive ListError where
  | eof
  | parse (error : EntryError)
  | validation (error : EntryError)
deriving DecidableEq, Repr

/-- `measurement.List`. -/
structure MeasurementList where
  src : LineReader
  parse : Bytes → Except EntryError Measurement
  aggregate : Pcr
  current : Option Measurement

def MeasurementList.hashAlgo (l : MeasurementList) : CryptoHash := l.aggregate.hashAlgo

def newList (src : LineReader) (parse : Bytes → Except EntryError Measurement)
    (hashAlgo : CryptoHash) : Option MeasurementList :=
  (Pcr.new hashAlgo).map fun aggregate => ⟨src, parse, aggregate, none⟩

def newHashedFileList (src : LineReader) (hashAlgo : CryptoHash) : Option MeasurementList :=
  newList src (fun line => (parseHashedFile line).map .hashedFile) hashAlgo

def newLeafList (src : LineReader) (hashAlgo : CryptoHash) : Option MeasurementList :=
  newList src (fun line => (parseLeaf line).map .leaf) hashAlgo

/-- `List.Next`: the line is consumed even if it is refused. -/
def MeasurementList.next (S : HashSuite) (l : MeasurementList) :
    Except ListError Unit × MeasurementList :=
  match l.src.readLine with
  | (none, src) => (.error .eof, { l with src := src })
  | (some line, src) =>
      match l.parse line with
      | .error e => (.error (.parse e), { l with src := src })
      | .ok entry =>
          match entry.validate S l.hashAlgo with
          | .error e => (.error (.validation e), { l with src := src })
          | .ok () =>
              (.ok (),
                { l with
                  src := src
                  current := some entry
                  aggregate := l.aggregate.extend S entry.templateHash })

def MeasurementList.reset (l : MeasurementList) : MeasurementList :=
  { l with src := l.src.rewind, aggregate := l.aggregate.reset, current := none }

theorem MeasurementList.length_unread_next {S : HashSuite} {l l' : MeasurementList}
    (h : l.next S = (.ok (), l')) : l'.src.unread.length + 1 = l.src.unread.length := by
  unfold MeasurementList.next LineReader.readLine at h
  cases hunread : l.src.unread with
  | nil => simp [hunread] at h
  | cons line lines =>
      simp only [hunread] at h
      split at h
      · cases h
      · split at h
        · cases h
        · obtain ⟨-, rfl⟩ := Prod.mk.inj h
          rfl

/-- Why `HashedFiles` fails; an entry of another type wraps `ErrMalformedEntry`. -/
inductive HashedFilesError where
  | invalidPcrAlgorithm (hashAlgo : CryptoHash)
  | list (error : ListError)
  | notHashedFile
deriving DecidableEq, Repr

/-- The loop of `HashedFiles`. -/
def MeasurementList.hashedFiles (S : HashSuite) (l : MeasurementList) :
    Except HashedFilesError (List HashedFile) :=
  match _h : l.next S with
  | (.error .eof, _) => .ok []
  | (.error e, _) => .error (.list e)
  | (.ok (), l') =>
      match l'.current with
      | some (.hashedFile entry) => (hashedFiles S l').map (entry :: ·)
      | _ => .error .notHashedFile
termination_by l.src.unread.length
decreasing_by
  have := MeasurementList.length_unread_next _h
  omega

/-- `HashedFiles`: every entry of a list, with its template hash validated. -/
def hashedFiles (S : HashSuite) (src : LineReader) (hashAlgo : CryptoHash) :
    Except HashedFilesError (List HashedFile) :=
  match newHashedFileList src hashAlgo with
  | none => .error (.invalidPcrAlgorithm hashAlgo)
  | some l => l.hashedFiles S

/-- `MarshalHashedFiles`: one line per entry. -/
def marshalHashedFiles (entries : List HashedFile) : Bytes :=
  entries.flatMap fun entry => entry.string ++ [lineFeed]

/-! ## Attestation -/

/-- Why attestation fails: the first three wrap `ErrInvalidLeaves`, the next two
`ErrInvalidTarget`, and `Attest` says which of its two parts failed. -/
inductive AttestError where
  | alreadyReached (expected : Bytes)
  | digestMismatch (computed expected : Bytes)
  | invalidLeaves (error : ListError)
  | invalidTarget (error : ListError)
  | leafNotFound (leafDigest : Bytes) (error : AttestError)
  | failedToVerifyTarget (error : AttestError)
  | failedToVerifyLeaves (error : AttestError)
deriving DecidableEq, Repr

structure Verifier where
  target : MeasurementList
  leaves : MeasurementList
  expected : Bytes
  pcr : Pcr
  pcrMatched : Bool

inductive NewError where
  | hashAlgorithmMismatch (target leaves : CryptoHash)
  | invalidPcrAlgorithm (hashAlgo : CryptoHash)
  | expectedSize (want got : ℕ)
deriving DecidableEq, Repr

/-- `verifier.New`. -/
def newVerifier (target leaves : MeasurementList) (expected : Bytes) : Except NewError Verifier :=
  if target.hashAlgo ≠ leaves.hashAlgo then
    .error (.hashAlgorithmMismatch target.hashAlgo leaves.hashAlgo)
  else
    match Pcr.new leaves.hashAlgo with
    | none => .error (.invalidPcrAlgorithm leaves.hashAlgo)
    | some pcr =>
        if expected.length ≠ leaves.hashAlgo.size then
          .error (.expectedSize leaves.hashAlgo.size expected.length)
        else .ok ⟨target, leaves, expected, pcr, false⟩

def Verifier.reset (expected : Bytes) (v : Verifier) : Except NewError Unit × Verifier :=
  if expected.length ≠ v.leaves.hashAlgo.size then
    (.error (.expectedSize v.leaves.hashAlgo.size expected.length), v)
  else
    (.ok (),
      { target := v.target.reset
        leaves := v.leaves.reset
        expected := expected
        pcr := v.pcr.reset
        pcrMatched := false })

def Verifier.isLeafFound (v : Verifier) : Bool :=
  match v.leaves.current with
  | none => false
  | some leaf => v.target.aggregate.aggregate == leaf.templateHash

/-- The body of the loop of `replayLeaves` after a leaf was read. -/
def Verifier.extendPcr (S : HashSuite) (leaves : MeasurementList) (v : Verifier) : Verifier :=
  let pcr := v.pcr.extend S leaves.aggregate.aggregate
  { v with leaves := leaves, pcr := pcr, pcrMatched := pcr.aggregate == v.expected }

/-- `replayLeaves`. -/
def Verifier.replayLeaves (S : HashSuite) (done : Verifier → Bool) (v : Verifier) :
    Except AttestError Unit × Verifier :=
  if done v then (.ok (), v)
  else if v.pcrMatched then (.error (.alreadyReached v.expected), v)
  else
    match _h : v.leaves.next S with
    | (.error .eof, leaves) =>
        (.error (.digestMismatch v.pcr.aggregate v.expected), { v with leaves := leaves })
    | (.error e, leaves) => (.error (.invalidLeaves e), { v with leaves := leaves })
    | (.ok (), leaves) => replayLeaves S done (v.extendPcr S leaves)
termination_by v.leaves.src.unread.length
decreasing_by
  have := MeasurementList.length_unread_next _h
  simp only [Verifier.extendPcr]
  omega

theorem Verifier.target_replayLeaves (S : HashSuite) (done : Verifier → Bool) (v : Verifier) :
    (v.replayLeaves S done).2.target = v.target := by
  fun_induction Verifier.replayLeaves S done v with
  | case1 | case2 | case3 | case4 => rfl
  | case5 v _ _ leaves _ ih => exact ih

/-- `AttestTarget`. -/
def Verifier.attestTarget (S : HashSuite) (v : Verifier) : Except AttestError Unit × Verifier :=
  match _h : v.target.next S with
  | (.error .eof, target) => (.ok (), { v with target := target })
  | (.error e, target) => (.error (.invalidTarget e), { v with target := target })
  | (.ok (), target) =>
      match _hr : { v with target := target }.replayLeaves S Verifier.isLeafFound with
      | (.error e, replayed) =>
          (.error (.leafNotFound replayed.target.aggregate.aggregate e), replayed)
      | (.ok (), replayed) => attestTarget S replayed
termination_by v.target.src.unread.length
decreasing_by
  have hnext := MeasurementList.length_unread_next _h
  have htarget := Verifier.target_replayLeaves S Verifier.isLeafFound { v with target := target }
  rw [_hr] at htarget
  simp only at htarget
  rw [htarget]
  omega

/-- `AttestLeaves`. -/
def Verifier.attestLeaves (S : HashSuite) (v : Verifier) : Except AttestError Unit × Verifier :=
  v.replayLeaves S Verifier.pcrMatched

/-- `Attest`. -/
def Verifier.attest (S : HashSuite) (v : Verifier) : Except AttestError Unit × Verifier :=
  match v.attestTarget S with
  | (.error e, v) => (.error (.failedToVerifyTarget e), v)
  | (.ok (), v) =>
      match v.attestLeaves S with
      | (.error e, v) => (.error (.failedToVerifyLeaves e), v)
      | (.ok (), v) => (.ok (), v)

end BpfIma
