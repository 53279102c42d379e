import BpfIma.Verification.Attestation.Replay

/-! # What the verifier accepts

`Attest` accepts exactly if every target line is valid, the leaves lead the PCR to the
expected value and the contents of the target register occur among them in order. It reads
no leaf line after the one at which the value is reached. -/

namespace BpfIma

open HashChain Occurrence Text

/-! ## Single steps -/

theorem MeasurementList.lineHash_eq_some {S : HashSuite} {l : MeasurementList} {line hash : Bytes} :
    l.lineHash S line = some hash ↔
      ∃ entry, l.parse (trimRight line) = .ok entry ∧ entry.validate S l.hashAlgo = .ok () ∧
        entry.templateHash = hash := by
  unfold MeasurementList.lineHash
  constructor
  · intro h
    split at h
    · cases h
    · rename_i entry hparse
      split at h
      · cases h
      · rename_i hvalid
        exact ⟨entry, hparse, hvalid, Option.some.inj h⟩
  · rintro ⟨entry, hparse, hvalid, hhash⟩
    simp only [hparse, hvalid, hhash]

/-- The list after it accepted an entry. -/
def MeasurementList.accept (S : HashSuite) (l : MeasurementList) (entry : Measurement)
    (unread : List Bytes) : MeasurementList :=
  { l with
    src := { l.src with unread := unread }
    current := some entry
    aggregate := l.aggregate.extend S entry.templateHash }

theorem MeasurementList.consumed_accept {S : HashSuite} {l : MeasurementList} {line : Bytes}
    {lines : List Bytes} {entry : Measurement} (hunread : l.src.unread = line :: lines)
    (hhash : l.lineHash S line = some entry.templateHash) :
    l.Consumed S [entry.templateHash] (l.accept S entry lines) :=
  ⟨⟨[line], hunread, by simp [hhash]⟩, rfl, rfl, rfl, rfl⟩

theorem MeasurementList.next_of_valid {S : HashSuite} {l : MeasurementList} {line : Bytes}
    {lines : List Bytes} {entry : Measurement} (hunread : l.src.unread = line :: lines)
    (hparse : l.parse (trimRight line) = .ok entry)
    (hvalid : entry.validate S l.hashAlgo = .ok ()) :
    l.next S = (.ok (), l.accept S entry lines) := by
  simp only [MeasurementList.next, LineReader.readLine, hunread, hparse, hvalid]
  rfl

namespace Verifier

variable {S : HashSuite} {done : Verifier → Bool} {v : Verifier}

theorem replayLeaves_of_done (h : done v = true) : v.replayLeaves S done = (.ok (), v) := by
  rw [Verifier.replayLeaves.eq_def, if_pos h]

theorem replayLeaves_of_matched (h : done v = false) (hmatched : v.pcrMatched = true) :
    v.replayLeaves S done = (.error (.alreadyReached v.expected), v) := by
  rw [Verifier.replayLeaves.eq_def, if_neg (Bool.eq_false_iff.mp h), if_pos hmatched]

theorem replayLeaves_of_next {leaves : MeasurementList} (h : done v = false)
    (hmatched : v.pcrMatched = false) (hnext : v.leaves.next S = (.ok (), leaves)) :
    v.replayLeaves S done = (v.extendPcr S leaves).replayLeaves S done := by
  rw [Verifier.replayLeaves.eq_def]
  simp only [h, hmatched, Bool.false_eq_true, if_false]
  split
  · rename_i hnext'
    cases hnext.symm.trans hnext'
  · rename_i hnext'
    cases hnext.symm.trans hnext'
  · rename_i leaves' hnext'
    obtain ⟨-, rfl⟩ := Prod.mk.inj (hnext.symm.trans hnext')
    rfl

variable (S v) in
theorem attestTarget_eq :
    v.attestTarget S =
      match v.target.next S with
      | (.error .eof, target) => (.ok (), { v with target := target })
      | (.error e, target) => (.error (.invalidTarget e), { v with target := target })
      | (.ok (), target) =>
          match { v with target := target }.replayLeaves S Verifier.isLeafFound with
          | (.error e, replayed) =>
              (.error (.leafNotFound replayed.target.aggregate.aggregate e), replayed)
          | (.ok (), replayed) => replayed.attestTarget S := by
  rw [Verifier.attestTarget.eq_def]
  split
  · rename_i h
    simp only [h]
  · rename_i h
    simp only [h]
  · rename_i target h
    simp only [h]
    split
    · rename_i hreplay
      simp only [hreplay]
    · rename_i hreplay
      simp only [hreplay]

theorem attestTarget_of_eof {target : MeasurementList}
    (h : v.target.next S = (.error .eof, target)) :
    v.attestTarget S = (.ok (), { v with target := target }) := by
  rw [attestTarget_eq, h]

theorem attestTarget_of_found {v' : Verifier} {target : MeasurementList}
    (h : v.target.next S = (.ok (), target))
    (hfound : { v with target := target }.replayLeaves S Verifier.isLeafFound = (.ok (), v')) :
    v.attestTarget S = v'.attestTarget S := by
  rw [attestTarget_eq, h]
  simp only [hfound]

end Verifier

/-! ## Leaves to come -/

/-- The next lines have the given template hashes, and `rest` follows. -/
def MeasurementList.Offers (S : HashSuite) (l : MeasurementList) (hashes rest : List Bytes) :
    Prop :=
  ∃ lines, l.src.unread = lines ++ rest ∧ lines.map (l.lineHash S) = hashes.map some

theorem MeasurementList.Offers.next {S : HashSuite} {l : MeasurementList} {hash : Bytes}
    {hashes rest : List Bytes} (h : l.Offers S (hash :: hashes) rest) :
    ∃ l', l.next S = (.ok (), l') ∧ l.Consumed S [hash] l' ∧ l'.Offers S hashes rest := by
  obtain ⟨lines, hunread, hmap⟩ := h
  obtain ⟨line, lines, rfl, hhash, hrest⟩ := List.map_eq_cons_iff.mp hmap
  obtain ⟨entry, hparse, hvalid, rfl⟩ := MeasurementList.lineHash_eq_some.mp hhash
  have hconsumed := MeasurementList.consumed_accept hunread hhash
  refine ⟨_, MeasurementList.next_of_valid hunread hparse hvalid, hconsumed, lines, rfl, ?_⟩
  rw [hconsumed.lineHash, hrest]

namespace Verifier

variable {S : HashSuite} {v : Verifier} {digest : Bytes} {digests rest : List Bytes}

/-- One turn of the loop of `replayLeaves`. -/
theorem replayLeaves_of_offers {done : Verifier → Bool}
    (hoffers : v.leaves.Offers S (digest :: digests) rest) (hdone : done v = false)
    (hmatched : v.pcrMatched = false) :
    ∃ v', v.replayLeaves S done = v'.replayLeaves S done ∧ v.Replays S [digest] v' ∧
      v'.target = v.target ∧ v'.leaves.Offers S digests rest := by
  obtain ⟨leaves, hnext, hconsumed, hoffers'⟩ := hoffers.next
  exact ⟨v.extendPcr S leaves, replayLeaves_of_next hdone hmatched hnext, .single hconsumed, rfl,
    hoffers'⟩

theorem Replays.currentLeaf {v' : Verifier} (h : v.Replays S [digest] v') :
    v'.currentLeaf = some digest := by
  rw [Verifier.currentLeaf, h.leaves.current]
  rfl

theorem Unreached.pcrMatched (h : v.Unreached S digests) (hne : digests ≠ []) :
    v.pcrMatched = false :=
  h [] digests rfl hne

/-- The search for a leaf that is to come finds it, and stops early enough for the values
that are searched next. -/
theorem replayLeaves_isLeafFound {others : List Bytes}
    (hoffers : v.leaves.Offers S digests rest) (hunreached : v.Unreached S digests)
    (hoccurs : Occurs (v.target.aggregate.aggregate :: others)
      (v.currentLeaf.toList ++ digests)) :
    ∃ v' front back, digests = front ++ back ∧
      v.replayLeaves S Verifier.isLeafFound = (.ok (), v') ∧ v.Replays S front v' ∧
      v'.target = v.target ∧ v'.leaves.Offers S back rest ∧
      Occurs others (v'.currentLeaf.toList ++ back) := by
  -- The leaves before the next match are passed one by one.
  induction digests generalizing v with
  | nil =>
      have hcurrent : v.currentLeaf = some v.target.aggregate.aggregate := by
        cases hleaf : v.currentLeaf with
        | none =>
            rw [hleaf] at hoccurs
            cases hoccurs
        | some leaf =>
            rw [hleaf] at hoccurs
            have hmem := hoccurs.mem List.mem_cons_self
            simp only [Option.toList_some, List.append_nil, List.mem_singleton] at hmem
            rw [hmem]
      have hdone := Verifier.isLeafFound_iff.mpr hcurrent
      exact ⟨v, [], [], rfl, replayLeaves_of_done hdone, .nil S v, rfl, hoffers, hoccurs.tail⟩
  | cons digest digests ih =>
      by_cases hfound : v.isLeafFound = true
      · exact ⟨v, [], digest :: digests, rfl, replayLeaves_of_done hfound, .nil S v, rfl, hoffers,
          hoccurs.tail⟩
      · obtain ⟨v', hreplay, hfirst, htarget, hoffers'⟩ := replayLeaves_of_offers hoffers
          (Bool.eq_false_iff.mpr hfound) (hunreached.pcrMatched (List.cons_ne_nil _ _))
        have hoccurs' : Occurs (v'.target.aggregate.aggregate :: others)
            (v'.currentLeaf.toList ++ digests) := by
          rw [htarget, hfirst.currentLeaf]
          rw [Verifier.isLeafFound_iff] at hfound
          cases hleaf : v.currentLeaf with
          | none =>
              rw [hleaf] at hoccurs
              exact hoccurs
          | some leaf =>
              rw [hleaf] at hoccurs hfound
              exact hoccurs.of_ne fun heq => hfound (congrArg some heq)
        obtain ⟨v'', front, back, rfl, hreplay', hreplays, htarget', hoffers'', hothers⟩ :=
          ih hoffers' (hfirst.unreached hunreached) hoccurs'
        exact ⟨v'', digest :: front, back, rfl, hreplay.trans hreplay', hfirst.trans hreplays,
          htarget'.trans htarget, hoffers'', hothers⟩

/-- After the target the remaining leaves are read up to the expected PCR value. -/
theorem replayLeaves_pcrMatched (hoffers : v.leaves.Offers S digests rest)
    (hunreached : v.Unreached S digests) (hreached : v.matchedAfter S digests = true) :
    (v.replayLeaves S Verifier.pcrMatched).1 = .ok () := by
  induction digests generalizing v with
  | nil => rw [replayLeaves_of_done hreached]
  | cons digest digests ih =>
      have hmatched := hunreached.pcrMatched (List.cons_ne_nil _ _)
      obtain ⟨v', hreplay, hfirst, -, hoffers'⟩ :=
        replayLeaves_of_offers hoffers hmatched hmatched
      rw [hreplay]
      exact ih hoffers' (hfirst.unreached hunreached)
        (by rwa [hfirst.matchedAfter])

/-- The target is accepted if the contents of its register are leaves to come. -/
theorem attestTarget_of_occurs {hashes : List Bytes}
    (htarget : v.target.src.unread.map (v.target.lineHash S) = hashes.map some)
    (hoffers : v.leaves.Offers S digests rest) (hunreached : v.Unreached S digests)
    (hoccurs : Occurs (contents (S.sum v.target.hashAlgo) v.target.aggregate.aggregate hashes)
      (v.currentLeaf.toList ++ digests)) :
    ∃ v' front back, digests = front ++ back ∧ v.attestTarget S = (.ok (), v') ∧
      v.Replays S front v' ∧ v'.leaves.Offers S back rest := by
  -- Each target line extends the register once, and what it then holds is the next leaf to find.
  induction hashes generalizing v digests with
  | nil =>
      have hunread : v.target.src.unread = [] := by simpa using htarget
      refine ⟨v, [], digests, rfl, attestTarget_of_eof ?_, .nil S v, hoffers⟩
      simp [MeasurementList.next, LineReader.readLine, hunread]
  | cons hash hashes ih =>
      have htarget' : v.target.Offers S (hash :: hashes) [] := ⟨_, by simp, htarget⟩
      obtain ⟨target, hnext, hconsumed, lines, hlines, hrest⟩ := htarget'.next
      rw [contents, ← hconsumed.algo] at hoccurs
      have hextended : extend (S.sum target.hashAlgo) v.target.aggregate.aggregate hash =
          target.aggregate.aggregate := by
        rw [hconsumed.aggregate, hconsumed.algo]
        rfl
      rw [hextended] at hoccurs
      obtain ⟨v', front, back, rfl, hreplay, hreplays, htarget', hoffers', hothers⟩ :=
        replayLeaves_isLeafFound (v := { v with target := target }) hoffers hunreached hoccurs
      have hreplays' : v.Replays S front v' := hreplays.setTarget v.target v'.target
      rw [List.append_nil] at hlines
      obtain ⟨v'', front', back', rfl, hattest, hrest', hoffers''⟩ := ih (v := v')
        (by rw [htarget', hlines, hrest]) hoffers' (hreplays'.unreached hunreached)
        (by rwa [htarget'])
      refine ⟨v'', front ++ front', back', by rw [List.append_assoc], ?_, hreplays'.trans hrest',
        hoffers''⟩
      rw [attestTarget_of_found hnext hreplay, hattest]

theorem attest_of_occurs {hashes : List Bytes}
    (htarget : v.target.src.unread.map (v.target.lineHash S) = hashes.map some)
    (hoffers : v.leaves.Offers S digests rest) (hunreached : v.Unreached S digests)
    (hreached : v.matchedAfter S digests = true)
    (hoccurs : Occurs (contents (S.sum v.target.hashAlgo) v.target.aggregate.aggregate hashes)
      (v.currentLeaf.toList ++ digests)) : (v.attest S).1 = .ok () := by
  obtain ⟨v', front, back, rfl, hattest, hreplays, hoffers'⟩ :=
    attestTarget_of_occurs htarget hoffers hunreached hoccurs
  have hleaves : (v'.attestLeaves S).1 = .ok () :=
    replayLeaves_pcrMatched hoffers' (hreplays.unreached hunreached)
      (by rwa [hreplays.matchedAfter])
  obtain ⟨v'', hv''⟩ : ∃ v'', v'.attestLeaves S = (.ok (), v'') := ⟨_, Prod.ext hleaves rfl⟩
  rw [Verifier.attest, hattest]
  simp only [hv'']

end Verifier

/-! ## Leaves that are not read -/

/-- The verifier with another source of leaves. -/
def Verifier.withSource (v : Verifier) (src : LineReader) : Verifier :=
  { v with leaves := { v.leaves with src := src } }

theorem Verifier.isLeafFound_withSource (v : Verifier) (src : LineReader) :
    (v.withSource src).isLeafFound = v.isLeafFound := rfl

theorem Verifier.pcrMatched_withSource (v : Verifier) (src : LineReader) :
    (v.withSource src).pcrMatched = v.pcrMatched := rfl

/-- Two verifiers that differ in their leaf sources only: the same lines come first, at the end
of which the expected value is reached, and then `rest` in one and `rest'` in the other. -/
structure Verifier.SameUpTo (S : HashSuite) (rest rest' : List Bytes) (v w : Verifier) :
    Prop where
  withSource : w = v.withSource w.leaves.src
  lines : ∃ lines digests, v.leaves.src.unread = lines ++ rest ∧
    w.leaves.src.unread = lines ++ rest' ∧
    lines.map (v.leaves.lineHash S) = digests.map some ∧ v.matchedAfter S digests = true

namespace Verifier.SameUpTo

variable {S : HashSuite} {rest rest' : List Bytes} {v w : Verifier}

theorem setTarget (h : SameUpTo S rest rest' v w) (target : MeasurementList) :
    SameUpTo S rest rest' { v with target := target } { w with target := target } := by
  refine ⟨?_, h.lines⟩
  conv_lhs => rw [h.withSource]
  rfl

theorem target_eq (h : SameUpTo S rest rest' v w) : w.target = v.target := by
  rw [h.withSource]
  rfl

variable (S rest rest') in
/-- The same result, in states that differ in the unread leaves only. -/
def Outcome (r r' : Except AttestError Unit × Verifier) : Prop :=
  r'.1 = r.1 ∧ SameUpTo S rest rest' r.2 r'.2

theorem replayLeaves_of_stopped {done : Verifier → Bool}
    (hdone : ∀ (v : Verifier) (src : LineReader), done (v.withSource src) = done v)
    (h : SameUpTo S rest rest' v w) (hstop : done v = true ∨ v.pcrMatched = true) :
    Outcome S rest rest' (v.replayLeaves S done) (w.replayLeaves S done) := by
  have hdone' : done w = done v := by rw [h.withSource, hdone]
  have hmatched' : w.pcrMatched = v.pcrMatched := by rw [h.withSource]; rfl
  have hexpected' : w.expected = v.expected := by rw [h.withSource]; rfl
  cases hv : done v with
  | true =>
      rw [replayLeaves_of_done hv, replayLeaves_of_done (hdone'.trans hv)]
      exact ⟨rfl, h⟩
  | false =>
      have hmatched := hstop.resolve_left (Bool.eq_false_iff.mp hv)
      rw [replayLeaves_of_matched hv hmatched,
        replayLeaves_of_matched (hdone'.trans hv) (hmatched'.trans hmatched), hexpected']
      exact ⟨rfl, h⟩

/-- Neither of the two loops reads beyond the shared lines. -/
theorem replayLeaves {done : Verifier → Bool}
    (hdone : ∀ (v : Verifier) (src : LineReader), done (v.withSource src) = done v)
    (h : SameUpTo S rest rest' v w) :
    Outcome S rest rest' (v.replayLeaves S done) (w.replayLeaves S done) := by
  obtain ⟨lines, digests, hv, hw, hmap, hreached⟩ := h.lines
  induction digests generalizing v w lines with
  | nil => exact h.replayLeaves_of_stopped hdone (.inr hreached)
  | cons digest digests ih =>
      by_cases hstop : done v = true ∨ v.pcrMatched = true
      · exact h.replayLeaves_of_stopped hdone hstop
      · obtain ⟨hrun, hmatched⟩ := not_or.mp hstop
        rw [Bool.not_eq_true] at hrun hmatched
        obtain ⟨line, lines, rfl, hhash, htail⟩ := List.map_eq_cons_iff.mp hmap
        obtain ⟨entry, hparse, hvalid, rfl⟩ := MeasurementList.lineHash_eq_some.mp hhash
        have hfirst : v.Replays S [entry.templateHash]
            (v.extendPcr S (v.leaves.accept S entry (lines ++ rest))) :=
          .single (MeasurementList.consumed_accept hv hhash)
        have hreached' := (hfirst.matchedAfter digests).trans hreached
        have hsource := h.withSource
        generalize w.leaves.src = src at hsource hw
        subst hsource
        rw [replayLeaves_of_next hrun hmatched (MeasurementList.next_of_valid hv hparse hvalid),
          replayLeaves_of_next ((hdone v src).trans hrun) hmatched
            (MeasurementList.next_of_valid hw hparse hvalid)]
        exact ih ⟨rfl, lines, digests, rfl, rfl, htail, hreached'⟩ lines rfl rfl htail hreached'

/-- The search for a leaf with the other leaves behind. -/
theorem replayLeaves_eq (h : SameUpTo S rest rest' v w) {result : Except AttestError Unit}
    {replayed : Verifier} (hreplay : v.replayLeaves S isLeafFound = (result, replayed)) :
    ∃ replayed', w.replayLeaves S isLeafFound = (result, replayed') ∧
      SameUpTo S rest rest' replayed replayed' := by
  obtain ⟨hresult, hstate⟩ := h.replayLeaves isLeafFound_withSource
  rw [hreplay] at hresult hstate
  exact ⟨(w.replayLeaves S isLeafFound).2, Prod.ext hresult rfl, hstate⟩

theorem attestTarget (h : SameUpTo S rest rest' v w) :
    Outcome S rest rest' (v.attestTarget S) (w.attestTarget S) := by
  fun_induction Verifier.attestTarget S v generalizing w with
  | case1 v target hnext =>
      rw [attestTarget_eq, h.target_eq]
      simp only [hnext]
      exact ⟨rfl, h.setTarget target⟩
  | case2 v error target hne hnext =>
      rw [attestTarget_eq, h.target_eq]
      simp only [hnext]
      exact ⟨rfl, h.setTarget target⟩
  | case3 v target hnext error replayed hreplay =>
      obtain ⟨replayed', hreplay', hstate⟩ := (h.setTarget target).replayLeaves_eq hreplay
      rw [attestTarget_eq, h.target_eq]
      simp only [hnext, hreplay']
      exact ⟨by rw [hstate.target_eq], hstate⟩
  | case4 v target hnext replayed hreplay ih =>
      obtain ⟨replayed', hreplay', hstate⟩ := (h.setTarget target).replayLeaves_eq hreplay
      rw [attestTarget_of_found (h.target_eq ▸ hnext) hreplay']
      exact ih hstate

/-- Attestation has the same result with any leaves after those at which the expected value
is reached, and reads none of them. -/
theorem attest (h : SameUpTo S rest rest' v w) :
    Outcome S rest rest' (v.attest S) (w.attest S) := by
  obtain ⟨hresult, hstate⟩ := h.attestTarget
  unfold Verifier.attest
  rcases htarget : v.attestTarget S with ⟨result, v'⟩
  rcases htarget' : w.attestTarget S with ⟨result', w'⟩
  rw [htarget, htarget'] at hresult hstate
  obtain rfl : result' = result := hresult
  cases result' with
  | error e => exact ⟨rfl, hstate⟩
  | ok =>
      obtain ⟨hresult, hstate⟩ := hstate.replayLeaves pcrMatched_withSource
      rcases hleaves : v'.replayLeaves S pcrMatched with ⟨result, v''⟩
      rcases hleaves' : w'.replayLeaves S pcrMatched with ⟨result', w''⟩
      rw [hleaves, hleaves'] at hresult hstate
      obtain rfl : result' = result := hresult
      simp only [attestLeaves, hleaves, hleaves']
      cases result' with
      | error e => exact ⟨rfl, hstate⟩
      | ok => exact ⟨rfl, hstate⟩

end Verifier.SameUpTo

/-! ## Fresh verifiers -/

/-- A verifier over two lists that were not read yet. -/
def verifierOver (hashAlgo : CryptoHash) (target leaves : LineReader) (expected : Bytes) :
    Option Verifier :=
  (newHashedFileList target hashAlgo).bind fun targetList =>
    (newLeafList leaves hashAlgo).bind fun leafList =>
      (newVerifier targetList leafList expected).toOption

/-- The content of a register before it is extended. -/
def registerStart (hashAlgo : CryptoHash) : Bytes := List.replicate hashAlgo.size 0

/-- What `verifierOver` returns. -/
def freshOver (hashAlgo : CryptoHash) (target leaves : LineReader) (expected : Bytes) :
    Verifier where
  target := ⟨target, fun line => (parseHashedFile line).map .hashedFile,
    ⟨registerStart hashAlgo, hashAlgo⟩, none⟩
  leaves := ⟨leaves, fun line => (parseLeaf line).map .leaf,
    ⟨registerStart hashAlgo, hashAlgo⟩, none⟩
  expected := expected
  pcr := ⟨registerStart hashAlgo, hashAlgo⟩
  pcrMatched := false

theorem verifierOver_eq_some {hashAlgo : CryptoHash} {target leaves : LineReader}
    {expected : Bytes} {v : Verifier} (h : verifierOver hashAlgo target leaves expected = some v) :
    v = freshOver hashAlgo target leaves expected := by
  unfold verifierOver newHashedFileList newLeafList newList Pcr.new at h
  by_cases hvalid : Pcr.isValidAlgo hashAlgo = true
  · by_cases hsize : expected.length = hashAlgo.size
    · simp only [hvalid, if_true, Option.map_some, Option.bind_some, newVerifier, Pcr.new,
        MeasurementList.hashAlgo, ne_eq, hsize, not_true_eq_false, if_false] at h
      exact (Option.some.inj h).symm
    · simp [hvalid, newVerifier, Pcr.new, MeasurementList.hashAlgo, hsize, Except.toOption] at h
  · simp [hvalid] at h

/-- The file of a target line that parses and validates. -/
def FileLine (S : HashSuite) (hashAlgo : CryptoHash) (line : Bytes) (file : HashedFile) : Prop :=
  parseHashedFile (trimRight line) = .ok file ∧ file.validate S hashAlgo = .ok ()
deriving Decidable

/-- The leaf of a leaf line that parses and validates. -/
def LeafLine (hashAlgo : CryptoHash) (line : Bytes) (leaf : Leaf) : Prop :=
  parseLeaf (trimRight line) = .ok leaf ∧ leaf.validate hashAlgo = .ok ()
deriving Decidable

/-- The PCR after leaves with the digests: it is extended after each leaf with the fold of
the leaves so far. -/
def replayedPcr (S : HashSuite) (hashAlgo : CryptoHash) (digests : List Bytes) : Bytes :=
  chain (S.sum hashAlgo) (registerStart hashAlgo)
    (contents (S.sum hashAlgo) (registerStart hashAlgo) digests)

/-- The first lines have the leaves `read`, and the last of them is the first at which the
replayed PCR has the expected value. -/
structure ReachedBy (S : HashSuite) (hashAlgo : CryptoHash) (expected : Bytes)
    (lines : List Bytes) (read : List Leaf) : Prop where
  nonempty : 1 ≤ read.length
  lines : List.Forall₂ (LeafLine hashAlgo) (lines.take read.length) read
  reached : replayedPcr S hashAlgo (read.map Leaf.digest) = expected
  first : ∀ j, 1 ≤ j → j < read.length →
    replayedPcr S hashAlgo ((read.map Leaf.digest).take j) ≠ expected

/-- The folds of the target entries are leaves, from left to right. -/
def FoundInOrder (S : HashSuite) (hashAlgo : CryptoHash) (files : List HashedFile)
    (read : List Leaf) : Prop :=
  ∃ index : Fin files.length → Fin read.length, Monotone index ∧
    ∀ j : Fin files.length, (read.get (index j)).digest =
      chain (S.sum hashAlgo) (registerStart hashAlgo)
        ((files.map HashedFile.templateHash).take (j + 1))

section Fresh

variable {S : HashSuite} {hashAlgo : CryptoHash} {target leaves : LineReader} {expected : Bytes}

theorem lineHash_target_freshOver {line hash : Bytes} :
    (freshOver hashAlgo target leaves expected).target.lineHash S line = some hash ↔
      ∃ file, FileLine S hashAlgo line file ∧ file.templateHash = hash := by
  rw [MeasurementList.lineHash_eq_some]
  simp only [freshOver, MeasurementList.hashAlgo, FileLine]
  cases parseHashedFile (trimRight line) with
  | error e => simp [Except.map]
  | ok file => simp [Except.map, Measurement.validate, Measurement.templateHash]

theorem lineHash_leaves_freshOver {line digest : Bytes} :
    (freshOver hashAlgo target leaves expected).leaves.lineHash S line = some digest ↔
      ∃ leaf, LeafLine hashAlgo line leaf ∧ leaf.digest = digest := by
  rw [MeasurementList.lineHash_eq_some]
  simp only [freshOver, MeasurementList.hashAlgo, LeafLine]
  cases parseLeaf (trimRight line) with
  | error e => simp [Except.map]
  | ok leaf => simp [Except.map, Measurement.validate, Measurement.templateHash]

theorem map_eq_map_some_iff {α β γ : Type*} {f : α → Option β} {R : α → γ → Prop} {value : γ → β}
    (hf : ∀ a b, f a = some b ↔ ∃ c, R a c ∧ value c = b) {as : List α} {bs : List β} :
    as.map f = bs.map some ↔ ∃ cs, List.Forall₂ R as cs ∧ cs.map value = bs := by
  induction as generalizing bs with
  | nil =>
      constructor
      · exact fun h => ⟨[], .nil, (List.map_eq_nil_iff.mp h.symm).symm⟩
      · rintro ⟨cs, hall, rfl⟩
        cases hall
        rfl
  | cons a as ih =>
      constructor
      · intro h
        obtain ⟨b, bs, rfl, hb, hbs⟩ := List.map_eq_cons_iff.mp h.symm
        obtain ⟨c, hc, rfl⟩ := (hf a b).mp hb.symm
        obtain ⟨cs, hcs, rfl⟩ := ih.mp hbs.symm
        exact ⟨c :: cs, .cons hc hcs, rfl⟩
      · rintro ⟨_ | ⟨c, cs⟩, hall, rfl⟩
        · cases hall
        · obtain ⟨hc, hcs⟩ := List.forall₂_cons.mp hall
          simp only [List.map_cons, (hf a (value c)).mpr ⟨c, hc, rfl⟩, ih.mpr ⟨cs, hcs, rfl⟩]

theorem matchedAfter_freshOver {digests : List Bytes} (hne : digests ≠ []) :
    (freshOver hashAlgo target leaves expected).matchedAfter S digests = true ↔
      replayedPcr S hashAlgo digests = expected := by
  rw [Verifier.matchedAfter, if_neg hne]
  exact beq_iff_eq

theorem unreached_freshOver {digests : List Bytes} :
    (freshOver hashAlgo target leaves expected).Unreached S digests ↔
      ∀ j, 1 ≤ j → j < digests.length → replayedPcr S hashAlgo (digests.take j) ≠ expected := by
  constructor
  · intro h j hj hlt
    have hne : digests.take j ≠ [] := by
      rw [← List.length_pos_iff, List.length_take]
      omega
    have hback : digests.drop j ≠ [] := by
      rw [← List.length_pos_iff, List.length_drop]
      omega
    have hfalse := h _ _ (List.take_append_drop j digests).symm hback
    rwa [← Bool.not_eq_true, matchedAfter_freshOver hne] at hfalse
  · rintro h front back rfl hback
    rcases eq_or_ne front [] with rfl | hfront
    · rfl
    · have hlater := h front.length (List.length_pos_iff.mpr hfront)
        (by simpa using List.length_pos_iff.mpr hback)
      rw [List.take_left] at hlater
      rwa [← Bool.not_eq_true, matchedAfter_freshOver hfront]

theorem occurs_contents_iff {files : List HashedFile} {read : List Leaf} :
    Occurs (contents (S.sum hashAlgo) (registerStart hashAlgo) (files.map HashedFile.templateHash))
      (read.map Leaf.digest) ↔ FoundInOrder S hashAlgo files read := by
  rw [contents_map_eq_ofFn]
  exact occurs_ofFn_map_iff

theorem ReachedBy.offers {lines : List Bytes} {read : List Leaf}
    (h : ReachedBy S hashAlgo expected lines read) :
    (lines.take read.length).map ((freshOver hashAlgo target leaves expected).leaves.lineHash S) =
      (read.map Leaf.digest).map some :=
  (map_eq_map_some_iff fun _ _ => lineHash_leaves_freshOver).mpr ⟨read, h.lines, rfl⟩

theorem ReachedBy.map_ne_nil {lines : List Bytes} {read : List Leaf}
    (h : ReachedBy S hashAlgo expected lines read) : read.map Leaf.digest ≠ [] := by
  rw [← List.length_pos_iff, List.length_map]
  exact h.nonempty

theorem attest_freshOver_iff :
    ((freshOver hashAlgo target leaves expected).attest S).1 = .ok () ↔
      ∃ files read, List.Forall₂ (FileLine S hashAlgo) target.unread files ∧
        ReachedBy S hashAlgo expected leaves.unread read ∧ FoundInOrder S hashAlgo files read := by
  constructor
  · intro h
    obtain ⟨hashes, digests, hconsumed, hunread, hreplays, hunreached, hreached, hoccurs⟩ :=
      Verifier.attest_ok (Prod.ext h rfl)
    obtain ⟨files, hfiles, rfl⟩ := (map_eq_map_some_iff fun _ _ => lineHash_target_freshOver).mp
      (hconsumed.map_lineHash hunread)
    obtain ⟨lines, hlines, hmap⟩ := hreplays.leaves.unread
    obtain ⟨read, hread, rfl⟩ :=
      (map_eq_map_some_iff fun _ _ => lineHash_leaves_freshOver).mp hmap
    rw [hreplays.pcrMatched_eq] at hreached
    have hne : read.map Leaf.digest ≠ [] := by
      rintro hnil
      rw [hnil] at hreached
      cases hreached
    have hlength : read.length = lines.length := hread.length_eq.symm
    refine ⟨files, read, hfiles, ⟨?_, ?_, ?_, ?_⟩, occurs_contents_iff.mp hoccurs⟩
    · rwa [← List.length_pos_iff, List.length_map] at hne
    · rw [show leaves.unread = _ from hlines, hlength, List.take_left]
      exact hread
    · exact (matchedAfter_freshOver hne).mp hreached
    · simpa using unreached_freshOver.mp hunreached
  · rintro ⟨files, read, hfiles, hread, hfound⟩
    exact Verifier.attest_of_occurs
      ((map_eq_map_some_iff fun _ _ => lineHash_target_freshOver).mpr ⟨files, hfiles, rfl⟩)
      ⟨_, (List.take_append_drop read.length _).symm, hread.offers⟩
      (unreached_freshOver.mpr (by simpa using hread.first))
      ((matchedAfter_freshOver hread.map_ne_nil).mpr hread.reached)
      (occurs_contents_iff.mpr hfound)

theorem sameUpTo_freshOver {leaves' : LineReader} {read : List Leaf}
    (h : ReachedBy S hashAlgo expected leaves.unread read)
    (hsame : leaves'.unread.take read.length = leaves.unread.take read.length) :
    Verifier.SameUpTo S (leaves.unread.drop read.length) (leaves'.unread.drop read.length)
      (freshOver hashAlgo target leaves expected)
      (freshOver hashAlgo target leaves' expected) where
  withSource := rfl
  lines := by
    refine ⟨leaves.unread.take read.length, read.map Leaf.digest, ?_, ?_, h.offers,
      (matchedAfter_freshOver h.map_ne_nil).mpr h.reached⟩
    · exact (List.take_append_drop _ _).symm
    · rw [← hsame]
      exact (List.take_append_drop _ _).symm

end Fresh

/-- What `Attest` of a fresh verifier accepts; and that it reads no leaf line after the first
one at which the replayed PCR has the expected value, so that those lines have no influence. -/
theorem attest_exact (S : HashSuite) (hashAlgo : CryptoHash) (target leaves : LineReader)
    (expected : Bytes) (v : Verifier)
    (hv : verifierOver hashAlgo target leaves expected = some v) :
    ((v.attest S).1 = .ok () ↔
      ∃ files read, List.Forall₂ (FileLine S hashAlgo) target.unread files ∧
        ReachedBy S hashAlgo expected leaves.unread read ∧
        FoundInOrder S hashAlgo files read) ∧
      ∀ read, ReachedBy S hashAlgo expected leaves.unread read →
        leaves.unread.drop read.length <:+ (v.attest S).2.leaves.src.unread ∧
        ∀ (leaves' : LineReader) (v' : Verifier),
          verifierOver hashAlgo target leaves' expected = some v' →
          leaves'.unread.take read.length = leaves.unread.take read.length →
          (v'.attest S).1 = (v.attest S).1 := by
  obtain rfl := verifierOver_eq_some hv
  refine ⟨attest_freshOver_iff, fun read hread => ⟨?_, fun leaves' v' hv' hsame => ?_⟩⟩
  · obtain ⟨lines, -, hlines, -⟩ := (sameUpTo_freshOver hread rfl).attest.2.lines
    exact ⟨lines, hlines.symm⟩
  · obtain rfl := verifierOver_eq_some hv'
    exact (sameUpTo_freshOver hread hsame).attest.1

/-- The measurement of one file by a hook. -/
def sampleFile (event : Bytes) : HashedFile where
  templateHash := referencePlatform.sum .sha256 "f p".ascii
  event := event
  fileHash := "f".ascii
  filePath := "p".ascii

/-- A target list with one entry, for `sampleFile event`. -/
def sampleTarget (event : Bytes) : Bytes :=
  hexEncode (sampleFile event).templateHash ++ " ".ascii ++ event ++ " f p\n".ascii

/-- The fold of such a list. -/
def sampleLeaf : Bytes :=
  chain (referencePlatform.sum .sha256) (registerStart .sha256) [(sampleFile []).templateHash]

/-- A leaf list with `sampleLeaf` and a line that no leaf has. -/
def sampleLeaves : Bytes := hexEncode sampleLeaf ++ "\n?\n".ascii

def samplePcr : Bytes := replayedPcr referencePlatform.toHashSuite .sha256 [sampleLeaf]

theorem reachedBy_sampleLeaves :
    ReachedBy referencePlatform.toHashSuite .sha256 samplePcr
      (LineReader.fromBytes sampleLeaves).unread [⟨sampleLeaf⟩] where
  nonempty := le_rfl
  lines := by decide +kernel
  reached := rfl
  first := fun j hj hlt => absurd hj (by simpa using hlt)

theorem foundInOrder_sampleFile (event : Bytes) :
    FoundInOrder referencePlatform.toHashSuite .sha256 [sampleFile event] [⟨sampleLeaf⟩] :=
  ⟨id, monotone_id, Fin.cases rfl fun j => j.elim0⟩

theorem attest_exact_sample :
    ∃ v, verifierOver .sha256 (.fromBytes (sampleTarget "e".ascii)) (.fromBytes sampleLeaves)
        samplePcr = some v ∧
      (v.attest referencePlatform.toHashSuite).1 = .ok () ∧
      ["?\n".ascii] <:+ (v.attest referencePlatform.toHashSuite).2.leaves.src.unread := by
  have hfacts : (LineReader.fromBytes sampleLeaves).unread.drop 1 = ["?\n".ascii] ∧
      List.Forall₂ (FileLine referencePlatform.toHashSuite .sha256)
        (LineReader.fromBytes (sampleTarget "e".ascii)).unread [sampleFile "e".ascii] := by
    decide +kernel
  obtain ⟨hiff, hlater⟩ := attest_exact referencePlatform.toHashSuite .sha256
    (.fromBytes (sampleTarget "e".ascii)) (.fromBytes sampleLeaves) samplePcr
    (freshOver .sha256 _ _ _) rfl
  have hok := hiff.mpr ⟨_, _, hfacts.2, reachedBy_sampleLeaves, foundInOrder_sampleFile _⟩
  obtain ⟨hunread, -⟩ := hlater _ reachedBy_sampleLeaves
  rw [List.length_singleton, hfacts.1] at hunread
  exact ⟨freshOver .sha256 _ _ _, rfl, hok, hunread⟩

end BpfIma
