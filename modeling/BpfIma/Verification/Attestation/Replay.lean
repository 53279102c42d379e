import BpfIma.Library.HashChain
import BpfIma.Library.Occurrence
import BpfIma.Model.Verifier

/-! # What the verifier replays

A successful replay reads leaf lines one after the other; what the registers hold then is
determined by the digests read. -/

namespace BpfIma

open HashChain Occurrence Text

/-! ## Reading entries -/

/-- The template hash of a line, if the list accepts it. -/
def MeasurementList.lineHash (S : HashSuite) (l : MeasurementList) (line : Bytes) : Option Bytes :=
  match l.parse (trimRight line) with
  | .error _ => none
  | .ok entry =>
      match entry.validate S l.hashAlgo with
      | .error _ => none
      | .ok () => some entry.templateHash

theorem MeasurementList.next_ok {S : HashSuite} {l l' : MeasurementList}
    (h : l.next S = (.ok (), l')) :
    ∃ line entry, l.src.unread = line :: l'.src.unread ∧
      l.lineHash S line = some entry.templateHash ∧ l'.current = some entry ∧
      l'.aggregate = l.aggregate.extend S entry.templateHash ∧ l'.parse = l.parse := by
  unfold MeasurementList.next LineReader.readLine at h
  cases hunread : l.src.unread with
  | nil => simp [hunread] at h
  | cons line lines =>
      simp only [hunread] at h
      split at h
      · cases h
      · rename_i entry hparse
        split at h
        · cases h
        · rename_i hvalidate
          obtain ⟨-, rfl⟩ := Prod.mk.inj h
          exact ⟨line, entry, rfl, by simp [MeasurementList.lineHash, hparse, hvalidate],
            rfl, rfl, rfl⟩

/-- What a list that read some entries consumed, and what its register holds. -/
structure MeasurementList.Consumed (S : HashSuite) (l : MeasurementList) (hashes : List Bytes)
    (l' : MeasurementList) : Prop where
  unread : ∃ lines, l.src.unread = lines ++ l'.src.unread ∧
    lines.map (l.lineHash S) = hashes.map some
  algo : l'.hashAlgo = l.hashAlgo
  aggregate : l'.aggregate.aggregate = chain (S.sum l.hashAlgo) l.aggregate.aggregate hashes
  current : l'.current.map Measurement.templateHash =
    hashes.getLast?.or (l.current.map Measurement.templateHash)
  parse : l'.parse = l.parse

theorem MeasurementList.Consumed.lineHash {S : HashSuite} {l l' : MeasurementList}
    {hashes : List Bytes} (h : l.Consumed S hashes l') : l'.lineHash S = l.lineHash S := by
  funext line
  simp only [MeasurementList.lineHash, h.parse, h.algo]

/-- A list that was read to its end. -/
theorem MeasurementList.Consumed.map_lineHash {S : HashSuite} {l l' : MeasurementList}
    {hashes : List Bytes} (h : l.Consumed S hashes l') (hend : l'.src.unread = []) :
    l.src.unread.map (l.lineHash S) = hashes.map some := by
  obtain ⟨lines, hlines, hmap⟩ := h.unread
  rw [hlines, hend, List.append_nil, hmap]

theorem MeasurementList.Consumed.nil (S : HashSuite) (l : MeasurementList) : l.Consumed S [] l where
  unread := ⟨[], rfl, rfl⟩
  algo := rfl
  aggregate := rfl
  current := by simp
  parse := rfl

theorem MeasurementList.Consumed.single {S : HashSuite} {l l' : MeasurementList}
    (h : l.next S = (.ok (), l')) :
    ∃ entry, l'.current = some entry ∧ l.Consumed S [entry.templateHash] l' := by
  obtain ⟨line, entry, hunread, hhash, hcurrent, haggregate, hparse⟩ := l.next_ok h
  refine ⟨entry, hcurrent, ⟨[line], hunread, by simp [hhash]⟩, ?_, ?_, ?_, hparse⟩
  · rw [MeasurementList.hashAlgo, haggregate]
    rfl
  · rw [haggregate]
    rfl
  · simp [hcurrent]

theorem MeasurementList.Consumed.trans {S : HashSuite} {l l' l'' : MeasurementList}
    {hashes rest : List Bytes} (h : l.Consumed S hashes l') (h' : l'.Consumed S rest l'') :
    l.Consumed S (hashes ++ rest) l'' := by
  obtain ⟨lines, hlines, hmap⟩ := h.unread
  obtain ⟨lines', hlines', hmap'⟩ := h'.unread
  refine ⟨⟨lines ++ lines', ?_, ?_⟩, h'.algo.trans h.algo, ?_, ?_, h'.parse.trans h.parse⟩
  · rw [hlines, hlines', List.append_assoc]
  · rw [List.map_append, hmap, ← h.lineHash, hmap', List.map_append]
  · rw [h'.aggregate, h.algo, h.aggregate, chain_append]
  · rw [h'.current, h.current, List.getLast?_append, Option.or_assoc]

theorem MeasurementList.next_eof {S : HashSuite} {l l' : MeasurementList}
    (h : l.next S = (.error .eof, l')) : l.src.unread = [] ∧ l' = l := by
  unfold MeasurementList.next LineReader.readLine at h
  cases hunread : l.src.unread with
  | nil =>
      simp only [hunread] at h
      exact ⟨rfl, (Prod.mk.inj h).2.symm⟩
  | cons line lines =>
      simp only [hunread] at h
      split at h
      · cases h
      · split at h <;> cases h

/-! ## Replaying leaves -/

/-- The verifier `v` replayed leaves with the given digests and is `v'` then, up to its
target list. -/
structure Verifier.Replays (S : HashSuite) (v : Verifier) (digests : List Bytes) (v' : Verifier) :
    Prop where
  leaves : v.leaves.Consumed S digests v'.leaves
  pcrAlgo : v'.pcr.hashAlgo = v.pcr.hashAlgo
  pcr : v'.pcr.aggregate = chain (S.sum v.pcr.hashAlgo) v.pcr.aggregate
    (contents (S.sum v.leaves.hashAlgo) v.leaves.aggregate.aggregate digests)
  expected : v'.expected = v.expected
  pcrMatched : v'.pcrMatched =
    if digests = [] then v.pcrMatched else v'.pcr.aggregate == v.expected

namespace Verifier.Replays

variable {S : HashSuite} {v v' v'' : Verifier} {digests rest : List Bytes}

theorem nil (S : HashSuite) (v : Verifier) : v.Replays S [] v where
  leaves := .nil S v.leaves
  pcrAlgo := rfl
  pcr := rfl
  expected := rfl
  pcrMatched := by simp

theorem single {leaves : MeasurementList} {digest : Bytes}
    (h : v.leaves.Consumed S [digest] leaves) : v.Replays S [digest] (v.extendPcr S leaves) := by
  refine ⟨h, rfl, ?_, rfl, rfl⟩
  simp only [Verifier.extendPcr, Pcr.extend, h.aggregate]
  rfl

theorem trans (h : v.Replays S digests v') (h' : v'.Replays S rest v'') :
    v.Replays S (digests ++ rest) v'' := by
  refine ⟨h.leaves.trans h'.leaves, h'.pcrAlgo.trans h.pcrAlgo, ?_,
    h'.expected.trans h.expected, ?_⟩
  · rw [h'.pcr, h.pcrAlgo, h.pcr, h.leaves.algo, h.leaves.aggregate, contents_append, chain_append]
  · rw [h'.pcrMatched, h.pcrMatched, h.expected]
    rcases eq_or_ne rest [] with rfl | hrest
    · have hpcr : v''.pcr.aggregate = v'.pcr.aggregate := by simpa [contents] using h'.pcr
      simp [hpcr]
    · simp [hrest]

/-- The target list plays no part in a replay. -/
theorem setTarget (h : v.Replays S digests v') (target target' : MeasurementList) :
    ({ v with target := target } : Verifier).Replays S digests { v' with target := target' } :=
  ⟨h.leaves, h.pcrAlgo, h.pcr, h.expected, h.pcrMatched⟩

end Verifier.Replays

/-- Whether the PCR has the expected value once leaves with the digests are replayed. -/
def Verifier.matchedAfter (S : HashSuite) (v : Verifier) (digests : List Bytes) : Bool :=
  if digests = [] then v.pcrMatched
  else chain (S.sum v.pcr.hashAlgo) v.pcr.aggregate
    (contents (S.sum v.leaves.hashAlgo) v.leaves.aggregate.aggregate digests) == v.expected

theorem Verifier.Replays.pcrMatched_eq {S : HashSuite} {v v' : Verifier} {digests : List Bytes}
    (h : v.Replays S digests v') : v'.pcrMatched = v.matchedAfter S digests := by
  rw [h.pcrMatched, h.pcr]
  rfl

theorem Verifier.Replays.matchedAfter {S : HashSuite} {v v' : Verifier} {digests : List Bytes}
    (h : v.Replays S digests v') (rest : List Bytes) :
    v'.matchedAfter S rest = v.matchedAfter S (digests ++ rest) := by
  rcases eq_or_ne rest [] with rfl | hrest
  · rw [List.append_nil, ← h.pcrMatched_eq]
    rfl
  · rw [Verifier.matchedAfter, if_neg hrest, Verifier.matchedAfter,
      if_neg (List.append_ne_nil_of_right_ne_nil _ hrest), h.pcrAlgo, h.pcr, h.leaves.algo,
      h.leaves.aggregate, h.expected, contents_append, chain_append]

/-- The expected value is not reached before the last of the leaves. -/
def Verifier.Unreached (S : HashSuite) (v : Verifier) (digests : List Bytes) : Prop :=
  ∀ front back, digests = front ++ back → back ≠ [] → v.matchedAfter S front = false

theorem Verifier.Unreached.nil (S : HashSuite) (v : Verifier) : v.Unreached S [] := by
  intro front back happend hback
  exact absurd (List.append_eq_nil_iff.mp happend.symm).2 hback

theorem Verifier.Unreached.append {S : HashSuite} {v v' : Verifier} {digests rest : List Bytes}
    (h : v.Unreached S digests) (hreplays : v.Replays S digests v') (h' : v'.Unreached S rest) :
    v.Unreached S (digests ++ rest) := by
  intro front back happend hback
  rcases List.append_eq_append_iff.mp happend with ⟨middle, rfl, hrest⟩ | ⟨middle, hfront, rfl⟩
  · rw [← hreplays.matchedAfter]
    exact h' middle back hrest hback
  · rcases eq_or_ne middle [] with rfl | hmiddle
    · obtain rfl : digests = front := by simpa using hfront
      have hnone := h' [] rest rfl hback
      rwa [hreplays.matchedAfter, List.append_nil] at hnone
    · exact h front middle hfront hmiddle

theorem Verifier.Replays.unreached {S : HashSuite} {v v' : Verifier} {digests rest : List Bytes}
    (h : v.Replays S digests v') (hunreached : v.Unreached S (digests ++ rest)) :
    v'.Unreached S rest := by
  intro front back happend hback
  rw [h.matchedAfter]
  exact hunreached _ back (by rw [happend, List.append_assoc]) hback

/-- The template hash of the last leaf read. -/
def Verifier.currentLeaf (v : Verifier) : Option Bytes :=
  v.leaves.current.map Measurement.templateHash

theorem Verifier.isLeafFound_iff {v : Verifier} :
    v.isLeafFound = true ↔ v.currentLeaf = some v.target.aggregate.aggregate := by
  unfold Verifier.isLeafFound Verifier.currentLeaf
  cases v.leaves.current with
  | none => simp
  | some leaf =>
      simp only [Option.map_some, beq_iff_eq, Option.some.injEq]
      exact eq_comm

/-- The last leaf read stands at the end of those seen. -/
theorem Verifier.Replays.exists_seen {S : HashSuite} {v v' : Verifier} {digests : List Bytes}
    (h : v.Replays S digests v') :
    ∃ earlier, v.currentLeaf.toList ++ digests = earlier ++ v'.currentLeaf.toList := by
  rw [Verifier.currentLeaf, Verifier.currentLeaf, h.leaves.current]
  rcases List.eq_nil_or_concat digests with rfl | ⟨init, last, rfl⟩
  · exact ⟨[], by simp⟩
  · exact ⟨(v.leaves.current.map Measurement.templateHash).toList ++ init, by simp⟩

theorem Verifier.replayLeaves_ok {S : HashSuite} {done : Verifier → Bool} {v v' : Verifier}
    (h : v.replayLeaves S done = (.ok (), v')) :
    ∃ digests, v.Replays S digests v' ∧ v.Unreached S digests ∧ done v' = true := by
  fun_induction Verifier.replayLeaves S done v with
  | case1 v hdone =>
      obtain ⟨-, rfl⟩ := Prod.mk.inj h
      exact ⟨[], .nil S v, .nil S v, hdone⟩
  | case2 | case3 | case4 => cases h
  | case5 v hdone hmatched leaves hnext ih =>
      obtain ⟨entry, -, hconsumed⟩ := MeasurementList.Consumed.single hnext
      have hfirst := Replays.single hconsumed
      obtain ⟨digests, hrest, hunreached, hdone'⟩ := ih h
      refine ⟨[entry.templateHash] ++ digests, hfirst.trans hrest, .append ?_ hfirst hunreached,
        hdone'⟩
      intro front back happend hback
      obtain rfl : front = [] := by
        rcases List.append_eq_singleton_iff.mp happend.symm with ⟨hfront, -⟩ | ⟨-, hnil⟩
        · exact hfront
        · exact absurd hnil hback
      exact Bool.eq_false_iff.mpr hmatched

/-- A target list that is attested was read to its end, and the contents of its register
occur in order among the leaves that were read. -/
theorem Verifier.attestTarget_ok {S : HashSuite} {v v' : Verifier}
    (h : v.attestTarget S = (.ok (), v')) :
    ∃ hashes digests, v.target.Consumed S hashes v'.target ∧ v'.target.src.unread = [] ∧
      v.Replays S digests v' ∧ v.Unreached S digests ∧
      Occurs (contents (S.sum v.target.hashAlgo) v.target.aggregate.aggregate hashes)
        (v.currentLeaf.toList ++ digests) := by
  fun_induction Verifier.attestTarget S v with
  | case1 v target hnext =>
      obtain ⟨hunread, rfl⟩ := MeasurementList.next_eof hnext
      obtain ⟨-, rfl⟩ := Prod.mk.inj h
      exact ⟨[], [], .nil S _, hunread, .nil S v, .nil S v, .nil _⟩
  | case2 | case3 => cases h
  | case4 v target hnext replayed hreplay ih =>
      obtain ⟨entry, -, hfirst⟩ := MeasurementList.Consumed.single hnext
      obtain ⟨digests, hreplays, hunreached, hfound⟩ := Verifier.replayLeaves_ok hreplay
      have htarget : replayed.target = target := by
        have hkept := Verifier.target_replayLeaves S Verifier.isLeafFound
          { v with target := target }
        rwa [hreplay] at hkept
      obtain ⟨hashes, rest, hconsumed, hunread, hrest, hunreached', hoccurs⟩ := ih h
      rw [htarget] at hconsumed hoccurs
      have hreplays' : v.Replays S digests { replayed with target := v.target } :=
        hreplays.setTarget v.target v.target
      have hboth : v.Replays S (digests ++ rest) v' :=
        hreplays'.trans (hrest.setTarget v.target v'.target)
      refine ⟨[entry.templateHash] ++ hashes, digests ++ rest, hfirst.trans hconsumed, hunread,
        hboth, .append hunreached hreplays' hunreached', ?_⟩
      -- The leaf that was found ends the leaves seen before the rest of the target.
      obtain ⟨earlier, hseen⟩ := hreplays.exists_seen
      have hcurrent := Verifier.isLeafFound_iff.mp hfound
      rw [htarget, hfirst.aggregate] at hcurrent
      rw [hcurrent] at hseen hoccurs
      rw [hfirst.algo, hfirst.aggregate] at hoccurs
      rw [← List.append_assoc]
      change Occurs _
        (({ v with target := target } : Verifier).currentLeaf.toList ++ digests ++ rest)
      rw [hseen, List.append_assoc]
      exact .append_left earlier (.here hoccurs)

/-- What a successful attestation of a fresh verifier has checked. -/
structure Verifier.Attested (S : HashSuite) (v v' : Verifier) (hashes digests : List Bytes) :
    Prop where
  target : v.target.src.unread.map (v.target.lineHash S) = hashes.map some
  leaves : v.Replays S digests v'
  reached : v'.pcrMatched = true
  found : hashes ≠ [] →
    chain (S.sum v.target.hashAlgo) v.target.aggregate.aggregate hashes ∈ digests

/-- What a successful attestation has read. -/
theorem Verifier.attest_ok {S : HashSuite} {v v' : Verifier} (h : v.attest S = (.ok (), v')) :
    ∃ hashes digests, v.target.Consumed S hashes v'.target ∧ v'.target.src.unread = [] ∧
      v.Replays S digests v' ∧ v.Unreached S digests ∧ v'.pcrMatched = true ∧
      Occurs (contents (S.sum v.target.hashAlgo) v.target.aggregate.aggregate hashes)
        (v.currentLeaf.toList ++ digests) := by
  unfold Verifier.attest at h
  split at h
  · cases h
  · rename_i middle htarget
    split at h
    · cases h
    · rename_i last hleaves
      obtain ⟨-, rfl⟩ := Prod.mk.inj h
      obtain ⟨hashes, digests, hconsumed, hunread, hreplays, hunreached, hoccurs⟩ :=
        Verifier.attestTarget_ok htarget
      obtain ⟨rest, hrest, hunreached', hreached⟩ := Verifier.replayLeaves_ok hleaves
      have htarget : last.target = middle.target := by
        have hkept := Verifier.target_replayLeaves S Verifier.pcrMatched middle
        rwa [show middle.replayLeaves S Verifier.pcrMatched = _ from hleaves] at hkept
      refine ⟨hashes, digests ++ rest, htarget ▸ hconsumed, htarget ▸ hunread, hreplays.trans hrest,
        .append hunreached hreplays hunreached', hreached, ?_⟩
      rw [← List.append_assoc]
      exact hoccurs.append_right rest

theorem Verifier.attested_of_ok {S : HashSuite} {v v' : Verifier} (hfresh : v.leaves.current = none)
    (h : v.attest S = (.ok (), v')) : ∃ hashes digests, v.Attested S v' hashes digests := by
  obtain ⟨hashes, digests, hconsumed, hunread, hreplays, -, hreached, hoccurs⟩ :=
    Verifier.attest_ok h
  refine ⟨hashes, digests, hconsumed.map_lineHash hunread, hreplays, hreached, fun hne => ?_⟩
  rw [Verifier.currentLeaf, hfresh] at hoccurs
  exact hoccurs.mem (chain_mem_contents _ _ hne)

/-! ## Fresh verifiers -/

/-- A verifier over a target and a leaf list in memory, for SHA-256. -/
def openVerifier (target leaves expected : Bytes) : Option Verifier :=
  (newHashedFileList (.fromBytes target) .sha256).bind fun targetList =>
    (newLeafList (.fromBytes leaves) .sha256).bind fun leafList =>
      (newVerifier targetList leafList expected).toOption

/-- What `openVerifier` returns. -/
def freshVerifier (target leaves expected : Bytes) : Verifier where
  target := ⟨.fromBytes target, fun line => (parseHashedFile line).map .hashedFile,
    ⟨zeroDigest.toList, .sha256⟩, none⟩
  leaves := ⟨.fromBytes leaves, fun line => (parseLeaf line).map .leaf,
    ⟨zeroDigest.toList, .sha256⟩, none⟩
  expected := expected
  pcr := ⟨zeroDigest.toList, .sha256⟩
  pcrMatched := false

theorem openVerifier_eq (target leaves : Bytes) (expected : Digest) :
    openVerifier target leaves expected.toList =
      some (freshVerifier target leaves expected.toList) := by
  have hsize : expected.toList.length = CryptoHash.size .sha256 := expected.toList_length
  simp only [openVerifier, newHashedFileList, newLeafList, newList, Pcr.new, Pcr.isValidAlgo,
    if_true, Option.map_some, Option.bind_some, newVerifier, MeasurementList.hashAlgo, ne_eq,
    not_true_eq_false, if_false, hsize]
  rfl

end BpfIma
