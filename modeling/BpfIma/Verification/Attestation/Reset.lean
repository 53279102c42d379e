import BpfIma.Library.Machine
import BpfIma.Verification.Attestation.Exact

/-! # Resetting a verifier

Calls move the cursors, the registers and the current entries of a verifier, but never the
texts, the parsers or the widths of the registers. A reset therefore leads back to the state
that `verifier.New` returns. -/

namespace BpfIma

open Machine

/-! ## Calls -/

/-- A call of an exported method that changes the verifier. -/
inductive VerifierCall where
  | attest
  | attestTarget
  | attestLeaves
  | reset (expected : Bytes)
deriving DecidableEq, Repr

inductive CallResult where
  | attested (result : Except AttestError Unit)
  | reset (result : Except NewError Unit)

def Verifier.call (S : HashSuite) (v : Verifier) : VerifierCall → CallResult × Verifier
  | .attest => ((v.attest S).map .attested id)
  | .attestTarget => ((v.attestTarget S).map .attested id)
  | .attestLeaves => ((v.attestLeaves S).map .attested id)
  | .reset expected => ((v.reset expected).map .reset id)

/-- The results of a sequence of calls, in order. -/
def Verifier.callResults (S : HashSuite) : Verifier → List VerifierCall → List CallResult :=
  collect (Verifier.call S) fun v call => some (v.call S call).1

/-! ## What calls keep -/

structure Pcr.SameBank (p q : Pcr) : Prop where
  algo : q.hashAlgo = p.hashAlgo
  length : q.aggregate.length = p.hashAlgo.size

theorem Pcr.SameBank.extend {p q : Pcr} (h : p.SameBank q) (S : HashSuite) (b : Bytes) :
    p.SameBank (q.extend S b) where
  algo := h.algo
  length := by
    rw [← h.algo]
    exact S.length_sum _ _

theorem Pcr.SameBank.reset {p q : Pcr} (h : p.SameBank q) : p.SameBank q.reset where
  algo := h.algo
  length := by simpa [Pcr.reset] using h.length

theorem Pcr.new_eq_some {hashAlgo : CryptoHash} {p : Pcr} (h : Pcr.new hashAlgo = some p) :
    p = ⟨List.replicate hashAlgo.size 0, hashAlgo⟩ := by
  unfold Pcr.new at h
  split at h
  · exact (Option.some.inj h).symm
  · cases h

theorem Pcr.SameBank.of_new {p : Pcr} (h : Pcr.new p.hashAlgo = some p) : p.SameBank p where
  algo := rfl
  length := by
    rw [congrArg Pcr.aggregate (Pcr.new_eq_some h)]
    exact List.length_replicate

/-- A register that is reset holds what a new one holds. -/
theorem Pcr.SameBank.reset_eq {p q : Pcr} (h : p.SameBank q) (hp : Pcr.new p.hashAlgo = some p) :
    q.reset = p := by
  have hstart := Pcr.new_eq_some hp
  rw [Pcr.reset, h.length, h.algo]
  exact hstart.symm

/-- `l` reads the text of `start`, somewhere. -/
structure MeasurementList.SameText (start l : MeasurementList) : Prop where
  raw : l.src.raw = start.src.raw
  parse : l.parse = start.parse
  bank : start.aggregate.SameBank l.aggregate

theorem MeasurementList.SameText.next {start l : MeasurementList} (h : start.SameText l)
    (S : HashSuite) : start.SameText (l.next S).2 := by
  unfold MeasurementList.next LineReader.readLine
  cases l.src.unread with
  | nil => exact ⟨h.raw, h.parse, h.bank⟩
  | cons line lines =>
      -- a line that is refused moves the cursor only
      dsimp only
      split
      · exact ⟨h.raw, h.parse, h.bank⟩
      · split
        · exact ⟨h.raw, h.parse, h.bank⟩
        · exact ⟨h.raw, h.parse, h.bank.extend S _⟩

theorem MeasurementList.SameText.reset {start l : MeasurementList} (h : start.SameText l) :
    start.SameText l.reset where
  raw := h.raw
  parse := h.parse
  bank := h.bank.reset

/-- A list as `NewList` returns it over `FromBytes`. -/
structure MeasurementList.Fresh (l : MeasurementList) : Prop where
  src : l.src = .fromBytes l.src.raw
  aggregate : Pcr.new l.hashAlgo = some l.aggregate
  current : l.current = none

theorem MeasurementList.SameText.reset_eq {start l : MeasurementList} (h : start.SameText l)
    (hstart : start.Fresh) : l.reset = start := by
  have hsrc : l.src.rewind = start.src := by
    rw [LineReader.rewind, h.raw]
    exact hstart.src.symm
  have haggregate : l.aggregate.reset = start.aggregate := h.bank.reset_eq hstart.aggregate
  rw [MeasurementList.reset, hsrc, haggregate, h.parse, ← hstart.current]

theorem fresh_newList {raw : Bytes} {parse : Bytes → Except EntryError Measurement}
    {hashAlgo : CryptoHash} {l : MeasurementList}
    (h : newList (.fromBytes raw) parse hashAlgo = some l) : l.Fresh ∧ l.hashAlgo = hashAlgo := by
  obtain ⟨aggregate, hnew, rfl⟩ := Option.map_eq_some_iff.mp h
  have halgo : aggregate.hashAlgo = hashAlgo := by rw [Pcr.new_eq_some hnew]
  refine ⟨⟨rfl, ?_, rfl⟩, halgo⟩
  rw [MeasurementList.hashAlgo, halgo]
  exact hnew

theorem MeasurementList.Fresh.sameText {l : MeasurementList} (h : l.Fresh) : l.SameText l where
  raw := rfl
  parse := rfl
  bank := .of_new h.aggregate

/-- `v` works on the texts of `start`. -/
structure Verifier.SameTexts (start v : Verifier) : Prop where
  target : start.target.SameText v.target
  leaves : start.leaves.SameText v.leaves
  pcr : start.pcr.SameBank v.pcr

namespace Verifier.SameTexts

variable {start v : Verifier}

theorem replayLeaves (h : start.SameTexts v) (S : HashSuite) (done : Verifier → Bool) :
    start.SameTexts (v.replayLeaves S done).2 := by
  -- along the loop; each round reads a leaf and extends the PCR
  fun_induction Verifier.replayLeaves S done v with
  | case1 | case2 => exact h
  | case3 v _ _ leaves hnext | case4 v _ _ _ leaves _ hnext =>
      have hleaves := h.leaves.next S
      rw [hnext] at hleaves
      exact ⟨h.target, hleaves, h.pcr⟩
  | case5 v _ _ leaves hnext ih =>
      have hleaves := h.leaves.next S
      rw [hnext] at hleaves
      exact ih ⟨h.target, hleaves, h.pcr.extend S _⟩

theorem attestTarget (h : start.SameTexts v) (S : HashSuite) :
    start.SameTexts (v.attestTarget S).2 := by
  fun_induction Verifier.attestTarget S v with
  | case1 v target hnext | case2 v e target _ hnext =>
      have htarget := h.target.next S
      rw [hnext] at htarget
      exact ⟨htarget, h.leaves, h.pcr⟩
  | case3 v target hnext e replayed hreplay =>
      have htarget := h.target.next S
      rw [hnext] at htarget
      have hreplayed := replayLeaves (v := { v with target := target })
        ⟨htarget, h.leaves, h.pcr⟩ S Verifier.isLeafFound
      rw [hreplay] at hreplayed
      exact hreplayed
  | case4 v target hnext replayed hreplay ih =>
      have htarget := h.target.next S
      rw [hnext] at htarget
      have hreplayed := replayLeaves (v := { v with target := target })
        ⟨htarget, h.leaves, h.pcr⟩ S Verifier.isLeafFound
      rw [hreplay] at hreplayed
      exact ih hreplayed

theorem attest (h : start.SameTexts v) (S : HashSuite) : start.SameTexts (v.attest S).2 := by
  have htarget := h.attestTarget S
  unfold Verifier.attest
  split
  · rename_i hresult
    rwa [hresult] at htarget
  · rename_i middle hresult
    rw [hresult] at htarget
    have hleaves := htarget.replayLeaves S Verifier.pcrMatched
    split
    · rename_i hreplay
      rwa [← Verifier.attestLeaves, hreplay] at hleaves
    · rename_i hreplay
      rwa [← Verifier.attestLeaves, hreplay] at hleaves

theorem reset (h : start.SameTexts v) (expected : Bytes) :
    start.SameTexts (v.reset expected).2 := by
  unfold Verifier.reset
  split
  · exact h
  · exact ⟨h.target.reset, h.leaves.reset, h.pcr.reset⟩

theorem call (h : start.SameTexts v) (S : HashSuite) (call : VerifierCall) :
    start.SameTexts (v.call S call).2 := by
  cases call with
  | attest => exact h.attest S
  | attestTarget => exact h.attestTarget S
  | attestLeaves => exact h.replayLeaves S _
  | reset expected => exact h.reset expected

theorem run (h : start.SameTexts v) (S : HashSuite) (calls : List VerifierCall) :
    start.SameTexts (run (Verifier.call S) v calls) :=
  run_invariant (P := start.SameTexts) (fun _ op hv => hv.call S op) calls h

end Verifier.SameTexts

/-! ## Starting over -/

theorem newVerifier_ok {target leaves : MeasurementList} {expected : Bytes} {v : Verifier}
    (h : newVerifier target leaves expected = .ok v) :
    target.hashAlgo = leaves.hashAlgo ∧
      ∃ pcr, Pcr.new leaves.hashAlgo = some pcr ∧ v = ⟨target, leaves, expected, pcr, false⟩ := by
  unfold newVerifier at h
  split at h
  · cases h
  · rename_i halgo
    split at h
    · cases h
    · rename_i pcr hpcr
      split at h
      · cases h
      · exact ⟨not_not.mp halgo, pcr, hpcr, (Except.ok.inj h).symm⟩

theorem newVerifier_of_size {target leaves : MeasurementList} {expected : Bytes} {pcr : Pcr}
    (halgo : target.hashAlgo = leaves.hashAlgo) (hpcr : Pcr.new leaves.hashAlgo = some pcr)
    (hsize : expected.length = leaves.hashAlgo.size) :
    newVerifier target leaves expected = .ok ⟨target, leaves, expected, pcr, false⟩ := by
  simp [newVerifier, halgo, hpcr, hsize]

/-- A reset leads to the state of a new verifier. -/
theorem Verifier.SameTexts.reset_eq {start v : Verifier} (h : start.SameTexts v)
    (htarget : start.target.Fresh) (hleaves : start.leaves.Fresh)
    (hpcr : Pcr.new start.pcr.hashAlgo = some start.pcr) {expected : Bytes}
    (hsize : expected.length = start.leaves.hashAlgo.size) :
    v.reset expected = (.ok (), ⟨start.target, start.leaves, expected, start.pcr, false⟩) := by
  have halgo : v.leaves.hashAlgo = start.leaves.hashAlgo := h.leaves.bank.algo
  rw [Verifier.reset, halgo, if_neg (not_not.mpr hsize), h.target.reset_eq htarget,
    h.leaves.reset_eq hleaves, h.pcr.reset_eq hpcr]

/-- Reset is equivalent to starting over: whatever was called before, it succeeds for a
digest of the right size, and what is called after it returns what a new verifier over the
same texts returns. -/
theorem reset_like_new (S : HashSuite) (hashAlgo : CryptoHash) (targetText leafText : Bytes)
    (target leaves : MeasurementList)
    (htarget : newHashedFileList (.fromBytes targetText) hashAlgo = some target)
    (hleaves : newLeafList (.fromBytes leafText) hashAlgo = some leaves) (first : Bytes)
    (v : Verifier) (hnew : newVerifier target leaves first = .ok v)
    (earlier : List VerifierCall) (expected : Bytes) (hsize : expected.length = hashAlgo.size) :
    ∃ restored fresh, (run (Verifier.call S) v earlier).reset expected = (.ok (), restored) ∧
      newVerifier target leaves expected = .ok fresh ∧
      ∀ later, restored.callResults S later = fresh.callResults S later := by
  obtain ⟨hfreshTarget, -⟩ := fresh_newList htarget
  obtain ⟨hfreshLeaves, hleafAlgo⟩ := fresh_newList hleaves
  obtain ⟨halgo, pcr, hpcr, rfl⟩ := newVerifier_ok hnew
  rw [← hleafAlgo] at hsize
  have hpcrAlgo : pcr.hashAlgo = leaves.hashAlgo := by rw [Pcr.new_eq_some hpcr]
  rw [← hpcrAlgo] at hpcr
  have hstart : Verifier.SameTexts ⟨target, leaves, first, pcr, false⟩
      ⟨target, leaves, first, pcr, false⟩ :=
    ⟨hfreshTarget.sameText, hfreshLeaves.sameText, .of_new hpcr⟩
  refine ⟨_, _, (hstart.run S earlier).reset_eq hfreshTarget hfreshLeaves hpcr hsize,
    newVerifier_of_size halgo (hpcrAlgo ▸ hpcr) hsize, fun later => rfl⟩

/-- The entry of the target was found, and the leaf behind it refused: all registers and cursors
have moved. -/
def movedVerifier : Verifier :=
  run (Verifier.call referencePlatform.toHashSuite)
    (freshVerifier (sampleTarget "e".ascii) sampleLeaves zeroDigest.toList)
    [.attestTarget, .attestLeaves]

theorem reset_like_new_movedVerifier :
    movedVerifier.target.current ≠ none ∧ movedVerifier.leaves.src.unread = [] ∧
      movedVerifier.pcr.aggregate = samplePcr ∧
      ∃ restored fresh, movedVerifier.reset samplePcr = (.ok (), restored) ∧
        newVerifier (freshVerifier (sampleTarget "e".ascii) sampleLeaves []).target
            (freshVerifier (sampleTarget "e".ascii) sampleLeaves []).leaves samplePcr =
          .ok fresh ∧
        ∀ later, restored.callResults referencePlatform.toHashSuite later =
          fresh.callResults referencePlatform.toHashSuite later := by
  have hmoved : movedVerifier.target.current ≠ none ∧ movedVerifier.leaves.src.unread = [] ∧
      movedVerifier.pcr.aggregate = samplePcr := by decide +kernel
  exact ⟨hmoved.1, hmoved.2.1, hmoved.2.2, reset_like_new referencePlatform.toHashSuite .sha256
    (sampleTarget "e".ascii) sampleLeaves _ _ rfl rfl zeroDigest.toList _ rfl
    [.attestTarget, .attestLeaves] samplePcr (by decide +kernel)⟩

end BpfIma
