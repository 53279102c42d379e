import BpfIma.Verification.Attestation.History
import BpfIma.Verification.Attestation.Replay

/-! # Soundness of attestation

A verifier that accepts two lists against a PCR value of the kernel has read exactly the
history the PCR stands for, and its target list is a prefix of one container's list. -/

namespace BpfIma

open CString HashChain Text

/-! ## What is attested -/

/-- The digest list of the container at position `i`; empty if there is none. -/
def containerDigests (s : CommitState) (i : ℕ) : List Digest :=
  (s.containers[i]?.map ContainerNode.digests).getD []

/-- The template hashes of the target lines. -/
def Verifier.targetHashes (S : HashSuite) (v : Verifier) : List Bytes :=
  v.target.src.unread.filterMap (v.target.lineHash S)

/-- The number of leaf lines that `Attest` reads. -/
def Verifier.leavesRead (S : HashSuite) (v : Verifier) : ℕ :=
  v.leaves.src.unread.length - (v.attest S).2.leaves.src.unread.length

/-- The digests of these lines. -/
def Verifier.leafDigests (S : HashSuite) (v : Verifier) : List Bytes :=
  (v.leaves.src.unread.take (v.leavesRead S)).filterMap (v.leaves.lineHash S)

/-! ## Hashed inputs -/

/-- Inputs hashed to extend a register from zero with the values. -/
def extendInputs (S : HashSuite) (values : List Bytes) : List Bytes :=
  messages (S.sum .sha256) zeroDigest.toList values

/-- Inputs hashed in a run that led to `s`: by the leaf, root and PCR extends and for the
policy events. -/
def runInputs (P : Platform) (s : KernelState) : List Bytes :=
  s.engine.containers.flatMap
      (fun c => extendInputs P.toHashSuite (c.digests.map List.Vector.toList)) ++
  extendInputs P.toHashSuite (s.engine.historyValues.map List.Vector.toList) ++
  extendInputs P.toHashSuite (s.engine.tpm.extended.map List.Vector.toList) ++
  s.policyChanges.map fun change => cstr change.policyString

/-- Inputs hashed in the replay: by the target and leaf aggregates and by the PCR. -/
def replayInputs (S : HashSuite) (v : Verifier) : List Bytes :=
  extendInputs S (v.targetHashes S) ++ extendInputs S (v.leafDigests S) ++
  extendInputs S (contents (S.sum .sha256) zeroDigest.toList (v.leafDigests S))

/-! ## Fresh verifiers -/

theorem filterMap_of_map_eq {α β : Type*} {f : α → Option β} {xs : List α} {ys : List β}
    (h : xs.map f = ys.map some) : xs.filterMap f = ys := by
  rw [← Function.id_comp f, ← List.filterMap_map, h]
  simp

/-- What a fresh verifier read when it accepts. -/
theorem freshVerifier_attested {S : HashSuite} {target leaves expected : Bytes} {v : Verifier}
    (hv : v = freshVerifier target leaves expected) (hok : (v.attest S).1 = .ok ()) :
    v.Attested S (v.attest S).2 (v.targetHashes S) (v.leafDigests S) ∧
      v.leavesRead S = (v.leafDigests S).length := by
  obtain ⟨hashes, digests, h⟩ := Verifier.attested_of_ok (by rw [hv]; rfl) (Prod.ext hok rfl)
  obtain ⟨lines, hlines, hmap⟩ := h.leaves.leaves.unread
  have hread : v.leavesRead S = lines.length := by
    rw [Verifier.leavesRead, hlines, List.length_append, Nat.add_sub_cancel]
  have hdigests : v.leafDigests S = digests := by
    rw [Verifier.leafDigests, hread, hlines, List.take_left]
    exact filterMap_of_map_eq hmap
  have hhashes : v.targetHashes S = hashes := filterMap_of_map_eq h.target
  rw [hhashes, hdigests]
  refine ⟨h, ?_⟩
  rw [hread, ← List.length_map (v.leaves.lineHash S), hmap, List.length_map]

theorem length_lineHash_freshVerifier {S : HashSuite} {target leaves expected line hash : Bytes}
    (h : (freshVerifier target leaves expected).target.lineHash S line = some hash) :
    hash.length = merkleHashSize := by
  simp only [freshVerifier, MeasurementList.lineHash, MeasurementList.hashAlgo] at h
  cases hparse : parseHashedFile (trimRight line) with
  | error e => simp [hparse, Except.map] at h
  | ok file =>
      simp only [hparse, Except.map, Measurement.validate, Measurement.templateHash] at h
      split at h
      · cases h
      · rename_i hvalid
        obtain rfl := Option.some.inj h
        rw [HashedFile.validate_ok_iff.mp hvalid]
        exact S.length_sum .sha256 _

/-! ## Unwinding the registers -/

section Unwinding

variable {P : Platform} {s : KernelState} {v : Verifier} {target leaves : Bytes}

/-- The PCR determines the leaves. -/
theorem leafDigests_eq_history (hextended : AllExtended P.toHashSuite s.engine)
    (hv : v = freshVerifier target leaves (pcrValue P.toHashSuite s.engine).toList)
    (hfree : CollisionFree (P.sum .sha256) zeroDigest.toList
      {m | m ∈ runInputs P s ++ replayInputs P.toHashSuite v})
    (h : v.Attested P.toHashSuite (v.attest P.toHashSuite).2 (v.targetHashes P.toHashSuite)
      (v.leafDigests P.toHashSuite)) :
    v.leafDigests P.toHashSuite = s.engine.historyValues.map List.Vector.toList := by
  have hroots : s.engine.tpm.extended.map List.Vector.toList =
      contents (P.sum .sha256) zeroDigest.toList
        (s.engine.historyValues.map List.Vector.toList) := by
    rw [hextended, P.map_toList_digestContents]
  have hpcr : (v.attest P.toHashSuite).2.pcr.aggregate = v.expected := by
    have hmatched := h.leaves.pcrMatched
    rw [h.reached] at hmatched
    split at hmatched
    · rw [hv] at hmatched
      cases hmatched
    · exact beq_iff_eq.mp hmatched.symm
  have hchain : chain (P.sum .sha256) zeroDigest.toList
        (contents (P.sum .sha256) zeroDigest.toList (v.leafDigests P.toHashSuite)) =
      chain (P.sum .sha256) zeroDigest.toList (s.engine.tpm.extended.map List.Vector.toList) := by
    rw [← P.toList_foldDigests]
    refine Eq.trans ?_ (hpcr.trans (by rw [hv]; rfl))
    rw [h.leaves.pcr, hv]
    rfl
  -- The PCR is a chain over the contents of another chain, so it is unwound twice.
  have hcontents := chain_injective (P.sum .sha256) (P.length_sum .sha256) rfl
    (hfree.mono _ ?_) hchain
  · rw [hroots] at hcontents
    refine contents_injective (P.sum .sha256) (P.length_sum .sha256) rfl (hfree.mono _ ?_) hcontents
    rintro m (hm | hm) <;> simp [runInputs, replayInputs, extendInputs, hm]
  · rintro m (hm | hm) <;> simp [runInputs, replayInputs, extendInputs, hm]

/-- The history determines the target list. -/
theorem targetHashes_prefix_of_mem (haudit : AuditedHistory P s) (hintact : Intact s.engine)
    {expected : Bytes} (hv : v = freshVerifier target leaves expected)
    (hfree : CollisionFree (P.sum .sha256) zeroDigest.toList
      {m | m ∈ runInputs P s ++ replayInputs P.toHashSuite v})
    {value : Digest} (hvalue : value ∈ s.engine.historyValues)
    (hne : v.targetHashes P.toHashSuite ≠ [])
    (hchain : value.toList =
      chain (P.sum .sha256) zeroDigest.toList (v.targetHashes P.toHashSuite)) :
    ∃ c ∈ s.engine.containers,
      v.targetHashes P.toHashSuite <+: c.digests.map List.Vector.toList := by
  rcases (haudit.trail hintact).origin value hvalue with ⟨c, hc, hleaf⟩ | hpolicy
  · obtain ⟨front, -, hfront, rfl⟩ := P.mem_digestContents hleaf
    refine ⟨c, hc, ?_⟩
    rw [P.toList_foldl_extendHash] at hchain
    have hsame := chain_injective (P.sum .sha256) (P.length_sum .sha256) rfl
      (hfree.mono _ ?_) hchain
    · rw [← hsame]
      exact hfront.map _
    · rintro m (hm | hm)
      · refine List.mem_append_left _ ?_
        have hm' := mem_messages_mono _ (hfront.map List.Vector.toList) hm
        simp only [runInputs, List.mem_append, List.mem_flatMap]
        exact .inl (.inl (.inl ⟨c, hc, hm'⟩))
      · simp [replayInputs, extendInputs, hm]
  · -- A policy event hashes more bytes than an extend of the target aggregate.
    exfalso
    obtain ⟨change, hchange, rfl⟩ := List.mem_map.mp hpolicy
    have hwf := haudit.changes change hchange
    obtain ⟨init, last, hhashes⟩ := (List.eq_nil_or_concat _).resolve_left hne
    rw [List.concat_eq_append] at hhashes
    rw [hwf.changeHash, P.toList_sha256, hhashes, chain_concat] at hchain
    have hinput : cstr change.policyString =
        chain (P.sum .sha256) zeroDigest.toList init ++ last := by
      refine hfree.injOn ?_ ?_ hchain
      · refine List.mem_append_left _ (List.mem_append_right _ ?_)
        exact List.mem_map_of_mem hchange
      · have hmem : chain (P.sum .sha256) zeroDigest.toList init ++ last ∈
            extendInputs P.toHashSuite (v.targetHashes P.toHashSuite) := by
          rw [hhashes, extendInputs, messages_concat]
          simp
        simp [replayInputs, hmem]
    have hlast : last.length = merkleHashSize := by
      have hmem : last ∈ v.targetHashes P.toHashSuite := by rw [hhashes]; simp
      obtain ⟨line, -, hline⟩ := List.mem_filterMap.mp hmem
      rw [hv] at hline
      exact length_lineHash_freshVerifier hline
    have hinit : (chain (P.sum .sha256) zeroDigest.toList init).length = merkleHashSize :=
      length_chain _ (P.length_sum .sha256) zeroDigest.toList_length init
    have hlong := hwf.long
    rw [hinput, List.length_append, hinit, hlast] at hlong
    omega

end Unwinding

/-! ## Soundness -/

/-- If a verifier accepts two texts against the PCR after `k` commits of a run whose history
was not trimmed, then it read the first `k` values of the history as leaves, and the entries
of the target are the first ones of one container. -/
theorem attestation_sound (P : Platform) (maps : ℕ → BpfMap) (tpmPcrIndex : ℤ)
    (ops rest : List KernelOp) (targetText leafText : Bytes) (v : Verifier)
    (hintact : Intact (kernelRun P maps tpmPcrIndex (ops ++ rest)).engine)
    (hextended : AllExtended P.toHashSuite (kernelRun P maps tpmPcrIndex ops).engine)
    (hopen : openVerifier targetText leafText
      (pcrValue P.toHashSuite (kernelRun P maps tpmPcrIndex ops).engine).toList = some v)
    (hfree : CollisionFree (P.sum .sha256) zeroDigest.toList
      {m | m ∈ runInputs P (kernelRun P maps tpmPcrIndex ops) ++ replayInputs P.toHashSuite v})
    (hok : (v.attest P.toHashSuite).1 = .ok ()) :
    let k := (kernelRun P maps tpmPcrIndex ops).engine.merkleRootHistory.length
    v.leavesRead P.toHashSuite = k ∧
      v.leafDigests P.toHashSuite =
        ((kernelRun P maps tpmPcrIndex (ops ++ rest)).engine.historyValues.take k).map
          List.Vector.toList ∧
      v.target.src.unread.map (v.target.lineHash P.toHashSuite) =
        (v.targetHashes P.toHashSuite).map some ∧
      ∃ i, v.targetHashes P.toHashSuite <+:
        (containerDigests (kernelRun P maps tpmPcrIndex ops).engine i).map List.Vector.toList := by
  rw [openVerifier_eq] at hopen
  have hv := (Option.some.inj hopen).symm
  obtain ⟨hattested, hread⟩ := freshVerifier_attested hv hok
  have hleaves := leafDigests_eq_history hextended hv hfree hattested
  have hextends := extends_kernelRun P maps tpmPcrIndex ops rest
  refine ⟨?_, ?_, hattested.target, ?_⟩
  · rw [hread, hleaves, List.length_map, CommitState.historyValues, List.length_map]
  · rw [hleaves, hextends.take_historyValues hintact]
  · by_cases hne : v.targetHashes P.toHashSuite = []
    · exact ⟨0, by simp [hne]⟩
    · have hfound := hattested.found hne
      rw [hleaves] at hfound
      obtain ⟨value, hvalue, hchain⟩ := List.mem_map.mp hfound
      obtain ⟨c, hc, hprefix⟩ := targetHashes_prefix_of_mem
        (AuditedHistory.of_run P maps tpmPcrIndex ops)
        (hextends hintact).1 hv hfree hvalue hne (by rw [hchain, hv]; rfl)
      obtain ⟨i, hi⟩ := List.mem_iff_getElem?.mp hc
      exact ⟨i, by simpa [containerDigests, hi] using hprefix⟩

/-- The list of the first container after `interleavedOps`. -/
def honestTarget : Bytes :=
  renderMeasurements (((workingRun interleavedOps).engine.containers.map
    ContainerNode.measurementList).headD [])

def honestLeaves : Bytes := renderHistory (workingRun interleavedOps).engine.merkleRootHistory

def honestVerifier : Verifier :=
  freshVerifier honestTarget honestLeaves
    (pcrValue referencePlatform.toHashSuite (workingRun interleavedOps).engine).toList

theorem attestation_sound_honestVerifier :
    (honestVerifier.attest referencePlatform.toHashSuite).1 = .ok () ∧
      honestVerifier.leavesRead referencePlatform.toHashSuite = 2 ∧
      ∃ i, honestVerifier.targetHashes referencePlatform.toHashSuite <+:
        (containerDigests (workingRun interleavedOps).engine i).map List.Vector.toList := by
  have hfacts : Intact (workingRun (interleavedOps ++ [fileMeasured 0 "z".ascii])).engine ∧
      AllExtended referencePlatform.toHashSuite (workingRun interleavedOps).engine ∧
      (honestVerifier.attest referencePlatform.toHashSuite).1 = .ok () ∧
      (workingRun interleavedOps).engine.merkleRootHistory.length = 2 ∧
      CollisionFree (referencePlatform.sum .sha256) zeroDigest.toList
        {m | m ∈ runInputs referencePlatform (workingRun interleavedOps) ++
          replayInputs referencePlatform.toHashSuite honestVerifier} := by decide +kernel
  obtain ⟨hintact, hextended, hok, hlength, hfree⟩ := hfacts
  obtain ⟨hread, -, -, hprefix⟩ := attestation_sound referencePlatform _ 10 interleavedOps
    [fileMeasured 0 "z".ascii] honestTarget honestLeaves honestVerifier hintact hextended
    (openVerifier_eq honestTarget honestLeaves _) hfree hok
  rw [workingRun] at hlength
  exact ⟨hok, hread.trans hlength, hprefix⟩

end BpfIma
