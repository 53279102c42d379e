import BpfIma.Model.Simulator
import BpfIma.Verification.Attestation.Completeness
import BpfIma.Verification.Kernel.Ledger

/-! # The simulator and the PCR as text

What the script computes from the history file is what the kernel tells a BPF program, as long as
nothing was trimmed; and a trimmed history is refused. -/

namespace BpfIma.Simulator

open CString Text

/-! ## Lines -/

/-- The characters of a hexadecimal number are kept, and not more than these. -/
theorem hexDigit_kept : ∀ n < 16, isSpace (hexDigit n) = false ∧
    toLower (hexDigit n) = hexDigit n ∧ hexDigit n ≠ 120 ∧
    hexDigit n ∈ "0123456789abcdef".ascii ∧ (fromHexChar (hexDigit n)).isSome = true := by decide

/-- A text without blanks at its ends is stripped of what stands behind it. -/
theorem strip_append {s : Bytes} {blanks : Bytes} (hne : s ≠ [])
    (hfirst : isSpace (s.head hne) = false) (hlast : isSpace (s.getLast hne) = false)
    (hblanks : ∀ c ∈ blanks, isSpace c = true) : strip (s ++ blanks) = s := by
  have hfront : (s ++ blanks).dropWhile isSpace = s ++ blanks := by
    cases s with
    | nil => exact absurd rfl hne
    | cons c s =>
        rw [List.head_cons] at hfirst
        simp [hfirst]
  rw [strip, hfront, List.rdropWhile, List.reverse_append,
    List.dropWhile_append_of_pos (by simpa using hblanks)]
  have hback : s.reverse.dropWhile isSpace = s.reverse := by
    rw [List.dropWhile_eq_self_iff]
    intro hpos
    rw [List.getElem_reverse]
    simpa [List.getLast_eq_getElem] using hlast
  rw [hback, List.reverse_reverse]

/-- A line of the history without its line feed. -/
def entryText (entry : MerkleRootEntry) : Bytes :=
  hexEncode entry.value.toList ++
    if entry.isAggregate then
      " [AGGREGATE:".ascii ++ decimal entry.aggregatedCount ++ " entries]".ascii else []

theorem seqShow_eq (entry : MerkleRootEntry) :
    merkleRootHistorySeqShow entry = entryText entry ++ [lineFeed] := rfl

theorem hexEncode_digest_ne_nil (d : Digest) : hexEncode d.toList ≠ [] := by
  intro h
  have hlength := congrArg List.length h
  simp [length_hexEncode] at hlength

theorem entryText_ne_nil (entry : MerkleRootEntry) : entryText entry ≠ [] := by
  intro h
  exact hexEncode_digest_ne_nil entry.value (List.append_eq_nil_iff.mp h).1

theorem strip_entryText (entry : MerkleRootEntry) {blanks : Bytes}
    (hblanks : ∀ c ∈ blanks, isSpace c = true) :
    strip (entryText entry ++ blanks) = entryText entry := by
  have hdigit {c : UInt8} (h : c ∈ hexEncode entry.value.toList) : isSpace c = false := by
    obtain ⟨n, hn, rfl⟩ := eq_hexDigit_of_mem h
    exact (hexDigit_kept n hn).1
  refine strip_append (entryText_ne_nil entry) ?_ ?_ hblanks
  · simp only [entryText, List.head_append_of_ne_nil (hexEncode_digest_ne_nil entry.value)]
    exact hdigit (List.head_mem _)
  · cases hagg : entry.isAggregate with
    | true =>
        have hlast : entryText entry = (hexEncode entry.value.toList ++ " [AGGREGATE:".ascii ++
            decimal entry.aggregatedCount ++ " entries".ascii) ++ "]".ascii := by
          simp [entryText, hagg, String.ascii]
        simp only [hlast]
        rw [List.getLast_append_of_ne_nil _ (by decide)]
        decide
    | false =>
        have hplain : entryText entry = hexEncode entry.value.toList := by
          simp [entryText, hagg]
        simp only [hplain]
        exact hdigit (List.getLast_mem _)

theorem strip_hexEncode (d : Digest) : strip (hexEncode d.toList) = hexEncode d.toList := by
  have hdigit {c : UInt8} (h : c ∈ hexEncode d.toList) : isSpace c = false := by
    obtain ⟨n, hn, rfl⟩ := eq_hexDigit_of_mem h
    exact (hexDigit_kept n hn).1
  have hstrip := strip_append (hexEncode_digest_ne_nil d)
    (hdigit (List.head_mem _)) (hdigit (List.getLast_mem _)) (show ∀ c ∈ [], isSpace c by simp)
  rwa [List.append_nil] at hstrip

theorem filter_hexEncode (bytes : Bytes) :
    (hexEncode bytes).filter (fun c => (fromHexChar c).isSome) = hexEncode bytes := by
  refine List.filter_eq_self.mpr fun c hc => ?_
  obtain ⟨n, hn, rfl⟩ := eq_hexDigit_of_mem hc
  exact (hexDigit_kept n hn).2.2.2.2

/-- The digits that are left of a text. -/
def hexDigitsOf (s : Bytes) : Bytes := s.filter fun c => c ∈ "0123456789abcdef".ascii

theorem fromHexChar_of_mem {c : UInt8} (h : c ∈ "0123456789abcdef".ascii) :
    (fromHexChar c).isSome = true := by
  have hall : "0123456789abcdef".ascii.all (fun c => (fromHexChar c).isSome) = true := by decide
  exact List.all_eq_true.mp hall c h

theorem hexDigitsOf_hexEncode (bytes : Bytes) :
    hexDigitsOf (hexEncode bytes) = hexEncode bytes := by
  refine List.filter_eq_self.mpr fun c hc => ?_
  obtain ⟨n, hn, rfl⟩ := eq_hexDigit_of_mem hc
  simpa using (hexDigit_kept n hn).2.2.2.1

theorem map_toLower_hexEncode (bytes : Bytes) :
    (hexEncode bytes).map toLower = hexEncode bytes := by
  refine (List.map_congr_left fun c hc => ?_).trans (List.map_id _)
  obtain ⟨n, hn, rfl⟩ := eq_hexDigit_of_mem hc
  exact (hexDigit_kept n hn).2.1

/-- No digest is taken for a number that starts with `0x`. -/
theorem take_two_ne (d : Digest) (rest : Bytes) :
    (hexEncode d.toList ++ rest).take 2 ≠ "0x".ascii := by
  obtain ⟨b, bytes, hbytes⟩ : ∃ b bytes, d.toList = b :: bytes :=
    List.exists_cons_of_ne_nil fun h => by simpa [h] using d.toList_length
  have hencode : hexEncode d.toList =
      hexDigit (b.toNat / 16) :: hexDigit (b.toNat % 16) :: hexEncode bytes := by
    rw [hbytes]
    rfl
  intro h
  rw [hencode] at h
  obtain ⟨-, hsecond⟩ := List.cons.inj h
  exact (hexDigit_kept _ (by omega)).2.2.1 (List.cons.inj hsecond).1

theorem hexDigitsOf_append (s t : Bytes) :
    hexDigitsOf (s ++ t) = hexDigitsOf s ++ hexDigitsOf t :=
  List.filter_append ..

/-- Digits are read, with a zero before them if their number is odd. -/
theorem fromHex_padded {digits : Bytes} (h : ∀ c ∈ digits, (fromHexChar c).isSome = true) :
    ∃ bytes, fromHex (if digits.length % 2 ≠ 0 then "0".ascii ++ digits else digits) = some bytes ∧
      digits.length ≤ 2 * bytes.length := by
  have hread {padded : Bytes} (hvalid : ∀ c ∈ padded, (fromHexChar c).isSome = true)
      (heven : padded.length % 2 = 0) (hle : digits.length ≤ padded.length) :
      ∃ bytes, fromHex padded = some bytes ∧ digits.length ≤ 2 * bytes.length := by
    obtain ⟨bytes, hdecode, hbytes⟩ := exists_hexDecode hvalid heven
    exact ⟨bytes, by rw [fromHex, hdecode], by omega⟩
  have hzero : "0".ascii.length = 1 := by decide
  split
  · refine hread (fun c hc => ?_) ?_ ?_
    · rcases List.mem_append.mp hc with hc | hc
      · rw [List.mem_singleton.mp hc]
        decide
      · exact h c hc
    · rw [List.length_append, hzero]
      omega
    · rw [List.length_append]
      omega
  · exact hread h (by omega) le_rfl

/-- The digits of a line that starts with a digest. -/
theorem parseHexLine_digest {d : Digest} {suffix : Bytes}
    (hstrip : strip (hexEncode d.toList ++ suffix) = hexEncode d.toList ++ suffix) :
    parseHexLine (hexEncode d.toList ++ suffix) =
      let digits := hexEncode d.toList ++ hexDigitsOf (suffix.map toLower)
      fromHex (if digits.length % 2 ≠ 0 then "0".ascii ++ digits else digits) := by
  have hfilter : (hexEncode d.toList ++ suffix.map toLower).filter
      (fun c => c ∈ "0123456789abcdef".ascii) =
        hexEncode d.toList ++ hexDigitsOf (suffix.map toLower) := by
    rw [List.filter_append]
    exact congrArg (· ++ _) (hexDigitsOf_hexEncode _)
  simp only [parseHexLine]
  rw [hstrip, List.map_append, map_toLower_hexEncode, if_neg (take_two_ne _ _), hfilter]

/-- The letters of an aggregate's note that pass for digits. -/
theorem hexDigitsOf_note (n : ℕ) :
    hexDigitsOf ((" [AGGREGATE:".ascii ++ decimal n ++ " entries]".ascii).map toLower) =
      "aeae".ascii ++ hexDigitsOf ((decimal n).map toLower) ++ "ee".ascii := by
  have hfront : hexDigitsOf (" [AGGREGATE:".ascii.map toLower) = "aeae".ascii := by decide
  have hback : hexDigitsOf (" entries]".ascii.map toLower) = "ee".ascii := by decide
  rw [List.map_append, List.map_append, hexDigitsOf_append, hexDigitsOf_append, hfront, hback]

theorem parseHexLine_entryText (entry : MerkleRootEntry) :
    (entry.isAggregate = false → parseHexLine (entryText entry) = some entry.value.toList) ∧
      (entry.isAggregate = true → ∃ b, parseHexLine (entryText entry) = some b ∧
        merkleHashSize < b.length) := by
  have hstrip : strip (entryText entry) = entryText entry := by
    simpa using strip_entryText entry (show ∀ c ∈ [], isSpace c by simp)
  constructor
  · intro hplain
    rw [entryText, hplain] at hstrip ⊢
    rw [parseHexLine_digest hstrip]
    simp [hexDigitsOf, length_hexEncode, fromHex]
  · intro haggregate
    rw [entryText, haggregate, if_pos rfl] at hstrip ⊢
    rw [parseHexLine_digest hstrip, hexDigitsOf_note]
    have hvalid : ∀ c ∈ hexEncode entry.value.toList ++ ("aeae".ascii ++
        hexDigitsOf ((decimal entry.aggregatedCount).map toLower) ++ "ee".ascii),
        (fromHexChar c).isSome = true := by
      intro c hc
      rw [← hexDigitsOf_note] at hc
      rcases List.mem_append.mp hc with hc | hc
      · obtain ⟨n, hn, rfl⟩ := eq_hexDigit_of_mem hc
        exact (hexDigit_kept n hn).2.2.2.2
      · exact fromHexChar_of_mem (by simpa using (List.mem_filter.mp hc).2)
    -- The six letters make the entry too long.
    obtain ⟨bytes, hread, hbytes⟩ := fromHex_padded hvalid
    refine ⟨bytes, hread, ?_⟩
    have hsize : merkleHashSize = 32 := rfl
    have hletters : "aeae".ascii.length = 4 ∧ "ee".ascii.length = 2 := by decide
    simp only [List.length_append, length_hexEncode, List.Vector.toList_length, hletters] at hbytes
    omega

/-! ## The history file -/

/-- The text of an entry stays on its line. -/
theorem notMem_entryText {c : UInt8} (hc : c = carriageReturn ∨ c = lineFeed)
    (entry : MerkleRootEntry) : c ∉ entryText entry := by
  intro h
  rcases List.mem_append.mp h with h | h
  · exact notMem_hexEncode (by rcases hc with rfl | rfl <;> decide) _ h
  · split at h
    · rcases List.mem_append.mp h with h | h
      · rcases List.mem_append.mp h with h | h
        · exact absurd h (by rcases hc with rfl | rfl <;> decide)
        · exact notMem_decimal (.inl (by rcases hc with rfl | rfl <;> decide)) _ h
      · exact absurd h (by rcases hc with rfl | rfl <;> decide)
    · cases h

theorem carriageReturn_notMem_renderHistory (history : List MerkleRootEntry) :
    carriageReturn ∉ renderHistory history := by
  intro h
  obtain ⟨entry, -, hmem⟩ := List.mem_flatMap.mp h
  rcases List.mem_append.mp hmem with hmem | hmem
  · exact notMem_entryText (.inl rfl) entry hmem
  · exact absurd (List.mem_singleton.mp hmem) (by decide)

theorem readHistory_renderHistory (history : List MerkleRootEntry) :
    readHistory (renderHistory history) =
      readHistoryLines (history.map fun entry => entryText entry ++ [lineFeed]) := by
  rw [readHistory, universalNewlines_eq_self (carriageReturn_notMem_renderHistory history)]
  exact congrArg readHistoryLines
    (chunks_flatMap entryText history fun entry _ => notMem_entryText (.inr rfl) entry)

theorem strip_line (entry : MerkleRootEntry) :
    strip (entryText entry ++ [lineFeed]) = entryText entry :=
  strip_entryText entry (List.forall_mem_singleton.mpr rfl)

/-- The script reads a history without aggregates as its values. -/
theorem readHistory_plain {history : List MerkleRootEntry}
    (h : ∀ entry ∈ history, entry.isAggregate = false) :
    readHistory (renderHistory history) =
      .ok (history.map fun entry => entry.value.toList) := by
  rw [readHistory_renderHistory]
  induction history with
  | nil => rfl
  | cons entry history ih =>
      have hparse := (parseHexLine_entryText entry).1 (h entry List.mem_cons_self)
      have hrest := ih fun e he => h e (List.mem_cons_of_mem _ he)
      simp only [List.map_cons, readHistoryLines, strip_line, entryText_ne_nil, if_false, hparse,
        hrest]
      simp

/-- It refuses a history with an aggregate. -/
theorem readHistory_aggregate {history : List MerkleRootEntry}
    (h : ∃ entry ∈ history, entry.isAggregate = true) :
    ∃ failure, readHistory (renderHistory history) = .error failure := by
  rw [readHistory_renderHistory]
  induction history with
  | nil => simp at h
  | cons entry history ih =>
      simp only [List.map_cons, readHistoryLines, strip_line, entryText_ne_nil, if_false]
      cases hagg : entry.isAggregate with
      | true =>
          obtain ⟨b, hparse, hlong⟩ := (parseHexLine_entryText entry).2 hagg
          simp only [hparse, if_pos hlong.ne']
          exact ⟨_, rfl⟩
      | false =>
          obtain ⟨aggregate, hmem, haggregate⟩ := h
          have hrest : aggregate ∈ history := by
            rcases List.mem_cons.mp hmem with rfl | hmem
            · cases hagg.symm.trans haggregate
            · exact hmem
          obtain ⟨failure, hfailure⟩ := ih ⟨aggregate, hrest, haggregate⟩
          simp only [(parseHexLine_entryText entry).1 hagg, hfailure]
          split <;> exact ⟨_, rfl⟩

/-! ## The registers -/

theorem computeMerkleRoot_eq (S : HashSuite) (values : List Digest) :
    computeMerkleRoot S (values.map List.Vector.toList) = (S.foldDigests values).toList := by
  unfold computeMerkleRoot HashSuite.foldDigests
  generalize zeroDigest = start
  induction values generalizing start with
  | nil => rfl
  | cons v values ih => exact ih (S.extendHash start v)

theorem computeSimulatedPcr_eq (S : HashSuite) (values : List Digest) :
    computeSimulatedPcr S (values.map List.Vector.toList) = (pcrAfter S values).toList := by
  unfold computeSimulatedPcr pcrAfter HashSuite.foldDigests
  -- The two registers go on from any contents.
  have hloop (root pcr : Digest) : ((values.map List.Vector.toList).foldl
      (fun (registers : Bytes × Bytes) leaf =>
        let root := S.sum .sha256 (registers.1 ++ leaf)
        (root, S.sum .sha256 (registers.2 ++ root))) (root.toList, pcr.toList)).2 =
      ((S.digestContents root values).foldl S.extendHash pcr).toList := by
    induction values generalizing root pcr with
    | nil => rfl
    | cons v values ih => exact ih (S.extendHash root v) (S.extendHash pcr (S.extendHash root v))
  exact hloop zeroDigest zeroDigest

end BpfIma.Simulator

namespace BpfIma

open CString Errno Text

/-- After any run of entry points, the simulator refuses the history file if it was trimmed; if
not, it computes the root that a BPF program is given, and the value of the PCR unless an error is
latched or the epoch does without the device. -/
theorem simulator_agrees (P : Platform) (writable : ℤ) (maps : ℕ → BpfMap) (tpmPcrIndex : ℤ)
    (ops : List EntryOp) (s : KernelState)
    (hs : s = entryRun P writable maps tpmPcrIndex ops) :
    (¬ Intact s.engine → ∃ failure,
        Simulator.readHistory (renderHistory s.engine.merkleRootHistory) = .error failure) ∧
      (Intact s.engine → ∃ history,
        Simulator.readHistory (renderHistory s.engine.merkleRootHistory) = .ok history ∧
        (∀ buffer : Bytes, buffer.length = merkleHashSize →
          merkleGetRoot (some buffer) s =
            (0, some (Simulator.computeMerkleRoot P.toHashSuite history))) ∧
        (s.engine.commitError = 0 → commitHardwareAllowedLocked s.engine = true →
          Simulator.computeSimulatedPcr P.toHashSuite history =
            (pcrValue P.toHashSuite s.engine).toList)) := by
  obtain ⟨calls, -, hrun⟩ := entryRun_eq_kernelRun P writable maps tpmPcrIndex ops
  have hledger : Ledger P.toHashSuite s.engine := by
    rw [hs, hrun]
    exact .of_kernelRun P maps tpmPcrIndex calls
  refine ⟨fun htrimmed => ?_, fun hintact => ?_⟩
  · refine Simulator.readHistory_aggregate ?_
    simpa [Intact] using htrimmed
  · have hvalues : (s.engine.merkleRootHistory.map fun entry => entry.value.toList) =
        s.engine.historyValues.map List.Vector.toList := (List.map_map ..).symm
    refine ⟨_, Simulator.readHistory_plain hintact, fun buffer hbuffer => ?_, fun hunlatched
      hallowed => ?_⟩
    · rw [hvalues, Simulator.computeMerkleRoot_eq, ← hledger.root hintact]
      simp [merkleGetRoot, hbuffer]
    · rw [hvalues, Simulator.computeSimulatedPcr_eq, pcrAfter, pcrValue,
        hledger.allExtended hunlatched hintact hallowed]

theorem simulator_agrees_readonlyOps :
    ∃ history,
      Simulator.readHistory (renderHistory (entryRun referencePlatform 0
        (fun _ => unboundPolicyMap) 10 readonlyOps).engine.merkleRootHistory) = .ok history ∧
      Simulator.computeSimulatedPcr referencePlatform.toHashSuite history =
        (pcrValue referencePlatform.toHashSuite (entryRun referencePlatform 0
          (fun _ => unboundPolicyMap) 10 readonlyOps).engine).toList := by
  have hstate : Intact (entryRun referencePlatform 0 (fun _ => unboundPolicyMap) 10
        readonlyOps).engine ∧
      (entryRun referencePlatform 0 (fun _ => unboundPolicyMap) 10
        readonlyOps).engine.commitError = 0 ∧
      commitHardwareAllowedLocked (entryRun referencePlatform 0 (fun _ => unboundPolicyMap) 10
        readonlyOps).engine = true := by decide +kernel
  obtain ⟨hintact, hunlatched, hallowed⟩ := hstate
  obtain ⟨history, hread, -, hpcr⟩ := (simulator_agrees referencePlatform 0
    (fun _ => unboundPolicyMap) 10 readonlyOps _ rfl).2 hintact
  exact ⟨history, hread, hpcr hunlatched hallowed⟩

/-! ## The PCR as text -/

theorem appendPcrDigest_eq {size : ℕ} {text digest : Bytes}
    (h : text.length + 2 * digest.length < size - 1) :
    appendPcrDigest size text digest = text ++ hexEncode digest := by
  induction digest generalizing text with
  | nil => simp [appendPcrDigest, hexEncode]
  | cons b digest ih =>
      have hbyte : (hexByte b).length = 2 := rfl
      rw [List.length_cons] at h
      have hfits : fitted (size - text.length) (hexByte b) = hexByte b :=
        List.take_of_length_le (by omega)
      rw [appendPcrDigest, if_pos (by omega), hfits, ih (by rw [List.length_append]; omega),
        List.append_assoc]
      rfl

theorem pcrLabel_length {index : ℤ} (h : 0 ≤ index ∧ index ≤ 23) (label : String) :
    (pcrLabel index label).length ≤ 5 + label.ascii.length := by
  have hindex : (formatInt index).length ≤ 2 := by
    rw [formatInt, if_neg (by omega)]
    exact Numerals.length_digits_le (show 1 < 10 by decide) 1 (by omega)
  simp only [pcrLabel, List.length_append]
  have hpcr : "PCR".ascii.length = 3 := by decide
  omega

/-- The answers differ from the first letter behind the number on. -/
theorem pcrLabel_differs (index : ℤ) {label other : String} (h : ¬ label.ascii <+: other.ascii) :
    ¬ pcrLabel index label <+: pcrLabel index other := by
  rw [pcrLabel, pcrLabel, List.prefix_append_right_inj]
  exact h

/-- A call that answers with the value of a PCR found the engine in order and leaves it so. -/
theorem tpmGetPcrValue_real {env : PcrEnv} {size : ℕ} {s t : KernelState} {text : Bytes}
    (hindex : 0 ≤ s.engine.tpmPcrIndex ∧ s.engine.tpmPcrIndex ≤ 23)
    (hcall : tpmGetPcrValue env (some size) s = (0, some text, t))
    (hreal : pcrLabel s.engine.tpmPcrIndex "_REAL:" <+: text) :
    t = s ∧ s.engine.commitError = 0 ∧ commitHardwareAllowedLocked s.engine = true ∧
      text = pcrLabel s.engine.tpmPcrIndex "_REAL:" ++ hexEncode env.digest.toList := by
  have hfits (label : String) (hlabel : label.ascii.length ≤ 16) (hsize : ¬ size < pcrBufferSize) :
      fitted size (pcrLabel s.engine.tpmPcrIndex label) = pcrLabel s.engine.tpmPcrIndex label := by
    have hlength := pcrLabel_length hindex label
    rw [pcrBufferSize] at hsize
    exact List.take_of_length_le (by omega)
  have hother (other : String) (hlabel : other.ascii.length ≤ 16)
      (hdiffers : ¬ "_REAL:".ascii <+: other.ascii) (hsize : ¬ size < pcrBufferSize)
      (htext : fitted size (pcrLabel s.engine.tpmPcrIndex other) = text) : False := by
    rw [hfits other hlabel hsize] at htext
    rw [← htext] at hreal
    exact pcrLabel_differs _ hdiffers hreal
  unfold tpmGetPcrValue at hcall
  simp only at hcall
  split at hcall
  · cases hcall
  · rename_i hsize
    split at hcall
    · simp only [Prod.mk.injEq, Option.some.injEq] at hcall
      exact (hother "_ATOMIC_CONTEXT" (by decide) (by decide) hsize hcall.2.1).elim
    · split at hcall
      · rename_i hfailed
        exact absurd (Prod.mk.inj hcall).1 hfailed
      · rename_i hchecked
        obtain ⟨hunlatched, hsame⟩ := commitCheckLocked_zero (not_not.mp hchecked)
        rw [hsame] at hcall
        split at hcall
        · split at hcall
          · cases hcall
          · simp only [Prod.mk.injEq, Option.some.injEq] at hcall
            exact (hother "_HASH_SIMULATION" (by decide) (by decide) hsize hcall.2.1).elim
        · split at hcall
          · cases hcall
          · rename_i hallowed
            split at hcall
            · simp only [Prod.mk.injEq, Option.some.injEq] at hcall
              exact (hother "_HASH_SIMULATION" (by decide) (by decide) hsize hcall.2.1).elim
            · simp only [Prod.mk.injEq, Option.some.injEq] at hcall
              obtain ⟨-, htext, rfl⟩ := hcall
              refine ⟨rfl, hunlatched, by simpa using hallowed, ?_⟩
              rw [hfits "_REAL:" (by decide) hsize] at htext
              rw [← htext]
              have hlength := pcrLabel_length hindex "_REAL:"
              have hlabel : "_REAL:".ascii.length = 6 := by decide
              rw [pcrBufferSize] at hsize
              refine appendPcrDigest_eq ?_
              rw [env.digest.toList_length, merkleHashSize]
              omega

/-- A PCR value that a BPF program is given as real is all that the device read, and the call
changes nothing. If the history was not trimmed and the device reads what was extended into it,
the verifier computes the same value from the history file, and the simulator reports a match. -/
theorem pcr_text_replays_history (P : Platform) (writable : ℤ) (maps : ℕ → BpfMap)
    (tpmPcrIndex : ℤ) (ops : List EntryOp) (s : KernelState)
    (hs : s = entryRun P writable maps tpmPcrIndex ops)
    (hindex : 0 ≤ s.engine.tpmPcrIndex ∧ s.engine.tpmPcrIndex ≤ 23)
    (env : PcrEnv) (size : ℕ) (text : Bytes) (t : KernelState)
    (hcall : tpmGetPcrValue env (some size) s = (0, some text, t))
    (hreal : pcrLabel s.engine.tpmPcrIndex "_REAL:" <+: text) :
    t = s ∧ ∃ value,
      text = pcrLabel s.engine.tpmPcrIndex "_REAL:" ++ value ∧
      hexDecode value = .ok env.digest.toList ∧
      (Intact s.engine → env.digest = pcrValue P.toHashSuite s.engine → ∃ leaves report,
        List.Forall₂ (LeafLine .sha256) (chunks (renderHistory s.engine.merkleRootHistory))
          leaves ∧
        hexDecode value = .ok (replayedPcr P.toHashSuite .sha256 (leaves.map Leaf.digest)) ∧
        Simulator.main P.toHashSuite (renderHistory s.engine.merkleRootHistory) value =
          .ok report ∧
        report.simulatedPcr = report.providedPcr ∧ report.code = 0) := by
  obtain ⟨hsame, hunlatched, hallowed, htext⟩ := tpmGetPcrValue_real hindex hcall hreal
  refine ⟨hsame, hexEncode env.digest.toList, htext, hexDecode_hexEncode _, ?_⟩
  intro hintact hdevice
  obtain ⟨calls, -, hrun⟩ := entryRun_eq_kernelRun P writable maps tpmPcrIndex ops
  have hledger : Ledger P.toHashSuite s.engine := by
    rw [hs, hrun]
    exact .of_kernelRun P maps tpmPcrIndex calls
  have hpcr : pcrValue P.toHashSuite s.engine = pcrAfter P.toHashSuite s.engine.historyValues := by
    rw [pcrAfter, pcrValue, hledger.allExtended hunlatched hintact hallowed]
  have hread : Simulator.readHistory (renderHistory s.engine.merkleRootHistory) =
      .ok (s.engine.historyValues.map List.Vector.toList) := by
    rw [Simulator.readHistory_plain hintact, CommitState.historyValues, List.map_map]
    rfl
  have hargument : Simulator.fromHex ((Simulator.strip (hexEncode env.digest.toList)).filter
      fun c => (fromHexChar c).isSome) = some env.digest.toList := by
    rw [Simulator.strip_hexEncode, Simulator.filter_hexEncode, Simulator.fromHex,
      hexDecode_hexEncode]
  have hsimulated : Simulator.computeSimulatedPcr P.toHashSuite
      (s.engine.historyValues.map List.Vector.toList) = env.digest.toList := by
    rw [Simulator.computeSimulatedPcr_eq, hdevice, hpcr]
  refine ⟨s.engine.historyValues.map historyLeaf,
    ⟨Simulator.computeMerkleRoot P.toHashSuite (s.engine.historyValues.map List.Vector.toList),
      env.digest.toList, env.digest.toList, 0⟩, ?_, ?_, ?_, rfl, rfl⟩
  · rw [chunks_renderHistory hintact, List.forall₂_map_left_iff, List.forall₂_map_right_iff,
      List.forall₂_same]
    exact fun d _ => leafLine_leaf d
  · have hdigests : (s.engine.historyValues.map historyLeaf).map Leaf.digest =
        s.engine.historyValues.map List.Vector.toList := by
      rw [List.map_map]
      rfl
    rw [hdigests, hexDecode_hexEncode, hdevice, hpcr, toList_pcrAfter]
  · simp only [Simulator.main, hread, Simulator.hexEncode_digest_ne_nil, hargument, hsimulated,
      if_true, if_false]

theorem pcr_text_replays_history_readonlyOps :
    ∃ value report,
      Simulator.main referencePlatform.toHashSuite (renderHistory (entryRun referencePlatform 0
        (fun _ => unboundPolicyMap) 10 readonlyOps).engine.merkleRootHistory) value = .ok report ∧
      report.code = 0 := by
  have hstate : (0 ≤ (entryRun referencePlatform 0 (fun _ => unboundPolicyMap) 10
          readonlyOps).engine.tpmPcrIndex ∧
        (entryRun referencePlatform 0 (fun _ => unboundPolicyMap) 10
          readonlyOps).engine.tpmPcrIndex ≤ 23) ∧
      Intact (entryRun referencePlatform 0 (fun _ => unboundPolicyMap) 10 readonlyOps).engine ∧
      (entryRun referencePlatform 0 (fun _ => unboundPolicyMap) 10
        readonlyOps).engine.commitError = 0 ∧
      (entryRun referencePlatform 0 (fun _ => unboundPolicyMap) 10
        readonlyOps).engine.hardwareAnchored = true := by decide +kernel
  obtain ⟨hindex, hintact, hunlatched, hanchored⟩ := hstate
  generalize hs : entryRun referencePlatform 0 (fun _ => unboundPolicyMap) 10 readonlyOps = s
    at hindex hintact hunlatched hanchored ⊢
  have hcheck : commitCheckLocked true s.engine = (0, s.engine) :=
    commitCheckLocked_of_fits hunlatched ⟨fun _ => rfl, fun h => by
      simp [commitHardwareAllowedLocked, hanchored] at h⟩
  have hcall : tpmGetPcrValue ⟨true, true, true, 0, pcrValue referencePlatform.toHashSuite
      s.engine⟩ (some 80) s = (0, some (appendPcrDigest 80 (fitted 80
        (pcrLabel s.engine.tpmPcrIndex "_REAL:"))
          (pcrValue referencePlatform.toHashSuite s.engine).toList), s) := by
    simp [tpmGetPcrValue, pcrBufferSize, hcheck, commitHardwareAllowedLocked, hanchored]
  have hlabel := pcrLabel_length hindex "_REAL:"
  have hsix : "_REAL:".ascii.length = 6 := by decide
  have hfits : fitted 80 (pcrLabel s.engine.tpmPcrIndex "_REAL:") =
      pcrLabel s.engine.tpmPcrIndex "_REAL:" := List.take_of_length_le (by omega)
  rw [hfits, appendPcrDigest_eq (by rw [List.Vector.toList_length, merkleHashSize]; omega)] at hcall
  obtain ⟨-, value, -, -, hreplays⟩ := pcr_text_replays_history referencePlatform 0
    (fun _ => unboundPolicyMap) 10 readonlyOps s hs.symm hindex _ 80 _ s hcall
    (List.prefix_append _ _)
  obtain ⟨leaves, report, -, -, hmain, -, hcode⟩ := hreplays hintact rfl
  exact ⟨value, report, hmain, hcode⟩

end BpfIma
