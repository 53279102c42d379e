import BpfIma.Verification.Attestation.Exact
import BpfIma.Verification.Attestation.History

/-! # Completeness of attestation

The verifier accepts what an honest host sends: it finds the leaves of a container in the
root history in whichever way they are interleaved with other events. -/

namespace BpfIma

open HashChain Occurrence Text

/-! ## The leaf list of a host -/

/-- The line of a value in the history file. -/
def leafLine (d : Digest) : Bytes := hexEncode d.toList ++ [lineFeed]

theorem chunks_renderHistory {s : CommitState} (hintact : Intact s) :
    chunks (renderHistory s.merkleRootHistory) = s.historyValues.map leafLine := by
  have hlines : renderHistory s.merkleRootHistory = s.historyValues.flatMap leafLine := by
    rw [renderHistory, CommitState.historyValues, List.flatMap_map]
    refine List.flatMap_congr fun entry hentry => ?_
    simp [merkleRootHistorySeqShow, hintact entry hentry, leafLine]
  rw [hlines]
  exact chunks_flatMap (fun d : Digest => hexEncode d.toList) s.historyValues
    fun d _ => notMem_hexEncode (by decide) _

theorem parseLeaf_leafLine (d : Digest) : parseLeaf (trimRight (leafLine d)) = .ok ⟨d.toList⟩ := by
  have htrim : trimRight (leafLine d) = hexEncode d.toList :=
    trimRight_line (notMem_hexEncode (by decide) _) (notMem_hexEncode (by decide) _)
  have hne : hexEncode d.toList ≠ [] := by
    intro h
    have hlen := congrArg List.length h
    simp [length_hexEncode] at hlen
  simp only [htrim, parseLeaf]
  rw [cut_eq_none (notMem_hexEncode (by decide) _)]
  simp [hne]

theorem leafLine_leaf (d : Digest) : LeafLine .sha256 (leafLine d) ⟨d.toList⟩ :=
  ⟨parseLeaf_leafLine d, if_pos d.toList_length⟩

/-- What the PCR holds after events with the given values. -/
def pcrAfter (S : HashSuite) (values : List Digest) : Digest :=
  S.foldDigests (S.digestContents zeroDigest values)

theorem toList_pcrAfter (S : HashSuite) (values : List Digest) :
    (pcrAfter S values).toList = replayedPcr S .sha256 (values.map List.Vector.toList) := by
  rw [pcrAfter, S.toList_foldDigests, S.map_toList_digestContents]
  rfl

/-! ## Completeness -/

/-- A line with the template hash `d` that a list of hashed files accepts. -/
def ValidLine (S : HashSuite) (line : Bytes) (d : Digest) : Prop :=
  ∃ file, parseHashedFile (trimRight line) = .ok file ∧ file.validate S .sha256 = .ok () ∧
    file.templateHash = d.toList

instance (S : HashSuite) (line : Bytes) (d : Digest) : Decidable (ValidLine S line d) :=
  match h : parseHashedFile (trimRight line) with
  | .error _ => isFalse fun ⟨_, hparse, _⟩ => by cases h.symm.trans hparse
  | .ok file =>
      decidable_of_iff (file.validate S .sha256 = .ok () ∧ file.templateHash = d.toList)
        ⟨fun hfile => ⟨file, h, hfile⟩, fun ⟨_, hparse, hfile⟩ =>
          Except.ok.inj (h.symm.trans hparse) ▸ hfile⟩

theorem exists_files {S : HashSuite} {lines : List Bytes} {digests : List Digest}
    (h : List.Forall₂ (ValidLine S) lines digests) :
    ∃ files, List.Forall₂ (FileLine S .sha256) lines files ∧
      files.map HashedFile.templateHash = digests.map List.Vector.toList := by
  induction h with
  | nil => exact ⟨[], .nil, rfl⟩
  | cons hline _ ih =>
      obtain ⟨file, hparse, hvalid, hhash⟩ := hline
      obtain ⟨files, hfiles, hhashes⟩ := ih
      refine ⟨file :: files, .cons ⟨hparse, hvalid⟩ hfiles, ?_⟩
      rw [List.map_cons, hhash, hhashes]
      rfl

/-- Only the last of the events leads the PCR to the expected value. -/
theorem pcrAfter_ne_pcrValue {S : HashSuite} {s : CommitState} (hextended : AllExtended S s)
    (hfirst : ∀ j < s.merkleRootHistory.length, 1 ≤ j →
      S.foldDigests (s.tpm.extended.take j) ≠ pcrValue S s)
    {front back : List Digest} (happend : front ++ back = s.historyValues) (hfront : front ≠ [])
    (hback : back ≠ []) : pcrAfter S front ≠ pcrValue S s := by
  have htake : s.tpm.extended.take front.length = S.digestContents zeroDigest front := by
    rw [hextended, ← happend, S.digestContents_append]
    exact List.take_left' (S.length_digestContents _ _)
  have hlength : s.merkleRootHistory.length = front.length + back.length := by
    rw [← List.length_append, happend, CommitState.historyValues, List.length_map]
  have hj := hfirst front.length (by have := List.length_pos_iff.mpr hback; omega)
    (List.length_pos_iff.mpr hfront)
  rwa [htake] at hj

/-- The leaf of a value in the history. -/
def historyLeaf (d : Digest) : Leaf := ⟨d.toList⟩

/-- The history of `t`, which goes on from that of `s`, reaches the PCR value of `s` with the
last event of `s`. -/
theorem reachedBy_renderHistory {S : HashSuite} {s t : CommitState} {later : List Digest}
    (ht : Intact t) (hvalues : t.historyValues = s.historyValues ++ later)
    (hextended : AllExtended S s) (hne : s.merkleRootHistory ≠ [])
    (hfirst : ∀ j < s.merkleRootHistory.length, 1 ≤ j →
      S.foldDigests (s.tpm.extended.take j) ≠ pcrValue S s) :
    ReachedBy S .sha256 (pcrValue S s).toList (chunks (renderHistory t.merkleRootHistory))
      (s.historyValues.map historyLeaf) := by
  have hdigests : (s.historyValues.map historyLeaf).map Leaf.digest =
      s.historyValues.map List.Vector.toList := by
    rw [List.map_map]
    rfl
  have hlength : s.historyValues.length = s.merkleRootHistory.length := List.length_map _
  refine ⟨?_, ?_, ?_, fun j hj hlt => ?_⟩
  · rw [List.length_map, hlength]
    exact List.length_pos_iff.mpr hne
  · rw [chunks_renderHistory ht, hvalues, List.map_append, List.length_map,
      List.take_left' (List.length_map _), List.forall₂_map_left_iff, List.forall₂_map_right_iff,
      List.forall₂_same]
    exact fun d _ => leafLine_leaf d
  · rw [hdigests, ← toList_pcrAfter, pcrAfter, pcrValue, hextended]
  · rw [List.length_map] at hlt
    rw [hdigests, ← List.map_take, ← toList_pcrAfter]
    intro heq
    refine pcrAfter_ne_pcrValue hextended hfirst (List.take_append_drop j _) ?_ ?_
      (List.Vector.toList_injective heq)
    · rw [← List.length_pos_iff, List.length_take]
      omega
    · rw [← List.length_pos_iff, List.length_drop]
      omega

/-- The verifier accepts the history of `t` against the PCR value of `s`. -/
theorem attest_freshVerifier {S : HashSuite} {s t : CommitState} {later digests : List Digest}
    {targetText : Bytes} (ht : Intact t) (hvalues : t.historyValues = s.historyValues ++ later)
    (hextended : AllExtended S s) (hne : s.merkleRootHistory ≠ [])
    (hfirst : ∀ j < s.merkleRootHistory.length, 1 ≤ j →
      S.foldDigests (s.tpm.extended.take j) ≠ pcrValue S s)
    (hsub : (S.digestContents zeroDigest digests).Sublist s.historyValues)
    (htarget : List.Forall₂ (ValidLine S) (chunks targetText) digests) :
    ((freshVerifier targetText (renderHistory t.merkleRootHistory) (pcrValue S s).toList).attest
      S).1 = .ok () := by
  obtain ⟨files, hfiles, hhashes⟩ := exists_files htarget
  have hreached := reachedBy_renderHistory ht hvalues hextended hne hfirst
  have hfound : FoundInOrder S .sha256 files (s.historyValues.map historyLeaf) := by
    rw [← occurs_contents_iff, hhashes, List.map_map]
    have hcontents : contents (S.sum .sha256) (registerStart .sha256)
        (digests.map List.Vector.toList) =
        (S.digestContents zeroDigest digests).map List.Vector.toList :=
      (S.map_toList_digestContents zeroDigest digests).symm
    rw [hcontents]
    exact .of_sublist (hsub.map List.Vector.toList)
  exact attest_freshOver_iff.mpr ⟨files, _, hfiles, hreached, hfound⟩

/-- An honest host is accepted: the history of a whole run and the first `m` entries of a
container, against the first PCR value that covers them. -/
theorem attestation_complete (P : Platform) (maps : ℕ → BpfMap) (tpmPcrIndex : ℤ)
    (ops rest : List KernelOp) (targetText : Bytes) (c : ContainerNode) (m : ℕ)
    (hintact : Intact (kernelRun P maps tpmPcrIndex (ops ++ rest)).engine)
    (hextended : AllExtended P.toHashSuite (kernelRun P maps tpmPcrIndex ops).engine)
    (hne : (kernelRun P maps tpmPcrIndex ops).engine.merkleRootHistory ≠ [])
    (hfirst : ∀ j < (kernelRun P maps tpmPcrIndex ops).engine.merkleRootHistory.length, 1 ≤ j →
      P.foldDigests ((kernelRun P maps tpmPcrIndex ops).engine.tpm.extended.take j) ≠
        pcrValue P.toHashSuite (kernelRun P maps tpmPcrIndex ops).engine)
    (hc : c ∈ (kernelRun P maps tpmPcrIndex ops).engine.containers)
    (htarget : List.Forall₂ (ValidLine P.toHashSuite) (chunks targetText) (c.digests.take m)) :
    ∃ v, openVerifier targetText
        (renderHistory (kernelRun P maps tpmPcrIndex (ops ++ rest)).engine.merkleRootHistory)
        (pcrValue P.toHashSuite (kernelRun P maps tpmPcrIndex ops).engine).toList = some v ∧
      (v.attest P.toHashSuite).1 = .ok () := by
  refine ⟨_, openVerifier_eq _ _ _, ?_⟩
  have hextends := extends_kernelRun P maps tpmPcrIndex ops rest
  obtain ⟨hintact', later, hlater⟩ := hextends hintact
  have hleaves := ((AuditedHistory.of_run P maps tpmPcrIndex ops).trail hintact').interleaved c hc
  have hfront : (P.digestContents zeroDigest (c.digests.take m)).Sublist
      (c.leaves P.toHashSuite) := by
    rw [ContainerNode.leaves, ← List.take_append_drop m c.digests, P.digestContents_append]
    simp
  have hvalues : (kernelRun P maps tpmPcrIndex (ops ++ rest)).engine.historyValues =
      (kernelRun P maps tpmPcrIndex ops).engine.historyValues ++
        later.map MerkleRootEntry.value := by
    rw [CommitState.historyValues, ← hlater, List.map_append]
    rfl
  exact attest_freshVerifier hintact hvalues hextended hne hfirst (hfront.trans hleaves) htarget

/-- The first container after `interleavedOps`. -/
def attestedContainer : ContainerNode :=
  (workingRun interleavedOps).engine.containers.headD (freshContainer [])

theorem attestation_complete_interleaved :
    (workingRun interleavedOps).engine.merkleRootHistory.length = 2 ∧
    ∃ v, openVerifier (renderMeasurements attestedContainer.measurementList)
        (renderHistory
          (workingRun (interleavedOps ++ [fileMeasured 0 "z".ascii])).engine.merkleRootHistory)
        (pcrValue referencePlatform.toHashSuite (workingRun interleavedOps).engine).toList =
          some v ∧
      (v.attest referencePlatform.toHashSuite).1 = .ok () := by
  have hfacts : Intact (workingRun (interleavedOps ++ [fileMeasured 0 "z".ascii])).engine ∧
      AllExtended referencePlatform.toHashSuite (workingRun interleavedOps).engine ∧
      (workingRun interleavedOps).engine.merkleRootHistory.length = 2 ∧
      (∀ j < (workingRun interleavedOps).engine.merkleRootHistory.length, 1 ≤ j →
        referencePlatform.foldDigests ((workingRun interleavedOps).engine.tpm.extended.take j) ≠
          pcrValue referencePlatform.toHashSuite (workingRun interleavedOps).engine) ∧
      attestedContainer ∈ (workingRun interleavedOps).engine.containers ∧
      List.Forall₂ (ValidLine referencePlatform.toHashSuite)
        (chunks (renderMeasurements attestedContainer.measurementList))
        (attestedContainer.digests.take 1) := by decide +kernel
  obtain ⟨hintact, hextended, hlength, hfirst, hc, htarget⟩ := hfacts
  refine ⟨hlength, ?_⟩
  have hne : (workingRun interleavedOps).engine.merkleRootHistory ≠ [] := by
    rw [← List.length_pos_iff, hlength]
    decide
  simp only [workingRun] at hne hfirst hc ⊢
  exact attestation_complete referencePlatform _ 10 interleavedOps [fileMeasured 0 "z".ascii] _
    attestedContainer 1 hintact hextended hne hfirst hc htarget

end BpfIma
