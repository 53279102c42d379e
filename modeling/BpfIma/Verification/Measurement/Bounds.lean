import BpfIma.Library.Bits
import BpfIma.Model.MeasurementBytes
import BpfIma.Verification.Measurement.Template

/-! # Measurement requests are prepared within bounds

The preparation of the bytes of a request makes no write outside of the caller's memory, and it
comes to the preparation of the request that the bytes stand for. -/

namespace BpfIma

open CString Errno

/-! ## Writes -/

/-- A write that stays inside is the write. -/
theorem store_eq_writeAt {n : ℕ} (b : Buffer n) (offset : ℕ) (bytes : Bytes)
    (h : offset + bytes.length ≤ n) :
    ∃ out, store b offset bytes = some out ∧ out.toList = writeAt b.toList offset bytes :=
  ⟨_, dif_pos h, rfl⟩

theorem writeAt_nil (buffer : Bytes) (offset : ℕ) : writeAt buffer offset [] = buffer := by
  rw [writeAt, List.append_nil, List.length_nil, Nat.add_zero, List.take_append_drop]

/-- The terminator has its place in `additional_data`. -/
theorem store_terminator {request : MeasurementRequest}
    (h : request.additionalDataLen.toNat < eventDataSize) :
    store request.additionalData request.additionalDataLen.toNat [0] =
      some request.terminateData.additionalData := by
  have hindex : (Fin.ofNat eventDataSize request.additionalDataLen.toNat).val =
      request.additionalDataLen.toNat := Nat.mod_eq_of_lt h
  have hlength : request.additionalDataLen.toNat < request.additionalData.toList.length := by
    rwa [List.Vector.toList_length]
  obtain ⟨out, hstore, hout⟩ := store_eq_writeAt request.additionalData
    request.additionalDataLen.toNat [0] h
  rw [hstore]
  refine congrArg some (List.Vector.toList_injective ?_)
  rw [hout, MeasurementRequest.terminateData, List.Vector.toList_set, hindex, writeAt,
    List.set_eq_take_append_cons_drop, if_pos hlength, List.append_assoc]
  rfl

/-! ## Refinement -/

section Refinement

variable {concatSize : UInt64}

/-- The memory in which sizes are numbers. -/
def PrepareBuffers.memory (mem : PrepareBuffers concatSize) : PrepareMemory :=
  ⟨mem.request, mem.concatData.toList, mem.totalLen.toNat⟩

/-- With an offset inside the buffer no difference wraps and the copy fits. -/
theorem appendDependencies_eq {offset : UInt64} (hoffset : offset ≤ concatSize)
    (mem : PrepareBuffers concatSize) :
    ∃ ret mem', appendDependencies offset mem = some (ret, mem') ∧
      appendedDependencies concatSize.toNat offset.toNat mem.memory = (ret, mem'.memory) := by
  have hle : offset.toNat ≤ concatSize.toNat := UInt64.le_iff_toNat_le.mp hoffset
  have hsize := concatSize.toNat_lt
  have hdeps : (cstr mem.request.dependencies).length ≤ dependenciesSize := length_cstr_le _
  have hdepsLen : (UInt64.ofNat (cstr mem.request.dependencies).length).toNat =
      (cstr mem.request.dependencies).length :=
    UInt64.toNat_ofNat_of_lt' (hdeps.trans_lt (by decide))
  have hrequest : mem.memory.request = mem.request := rfl
  simp only [appendDependencies, appendedDependencies, UInt64.lt_iff_toNat_lt,
    UInt64.toNat_sub_of_le _ _ hoffset, hdepsLen, hrequest]
  by_cases hfits : concatSize.toNat - offset.toNat < (cstr mem.request.dependencies).length
  · rw [if_pos hfits, if_pos hfits]
    exact ⟨_, _, rfl, rfl⟩
  · rw [if_neg hfits, if_neg hfits]
    obtain ⟨out, hstore, hout⟩ := store_eq_writeAt mem.concatData offset.toNat
      (cstr mem.request.dependencies) (by omega)
    have htotal : (offset + UInt64.ofNat (cstr mem.request.dependencies).length).toNat =
        offset.toNat + (cstr mem.request.dependencies).length := by
      rw [UInt64.toNat_add, hdepsLen, Nat.mod_eq_of_lt (by omega)]
    have hzero : offset + UInt64.ofNat (cstr mem.request.dependencies).length = 0 ↔
        offset.toNat + (cstr mem.request.dependencies).length = 0 := by
      rw [← UInt64.toNat_inj, htotal]
      rfl
    simp only [hstore, Option.bind_eq_bind, Option.bind_some, hzero]
    by_cases hempty : offset.toNat + (cstr mem.request.dependencies).length = 0
    · rw [if_pos hempty, if_pos hempty]
      exact ⟨_, _, rfl, by simp only [PrepareBuffers.memory, hout]⟩
    · rw [if_neg hempty, if_neg hempty]
      exact ⟨_, _, rfl, by simp only [PrepareBuffers.memory, hout, htotal]⟩

/-- The data and the separator are copied into the buffer, or do not fit. -/
theorem prepareAccepted_refines {request : MeasurementRequest} (h : request.accepted)
    (mem : PrepareBuffers concatSize) :
    ∃ ret mem', prepareAccepted request mem = some (ret, mem') ∧
      prepareMeasurement (some request) measurementRequestSize mem.memory = (ret, mem'.memory) := by
  have hlen : request.additionalDataLen.toNat < eventDataSize := h.2.2.2.2.1
  have hlen' : request.terminateData.additionalDataLen = request.additionalDataLen := rfl
  have hwide : request.additionalDataLen.toUInt64.toNat = request.data.length :=
    (UInt32.toNat_toUInt64 _).trans (request.length_data hlen).symm
  have htake : request.terminateData.additionalData.toList.take request.data.length =
      request.data := by
    rw [request.length_data hlen, request.take_terminateData hlen]
  have hsize : mem.memory.concatData.length = concatSize.toNat := List.Vector.toList_length _
  have hstored : { request with additionalData := request.terminateData.additionalData } =
    request.terminateData := rfl
  have hnonzero : request.additionalDataLen.toUInt64 ≠ 0 ↔ request.data.length ≠ 0 := by
    rw [ne_eq, ← UInt64.toNat_inj, hwide]
    rfl
  have hequal : request.additionalDataLen.toUInt64 = concatSize ↔
      request.data.length = concatSize.toNat := by
    rw [← UInt64.toNat_inj, hwide]
  simp only [prepareAccepted, store_terminator hlen, Option.bind_eq_bind, Option.bind_some, hstored,
    hwide, htake, UInt64.lt_iff_toNat_lt, hnonzero, hequal, prepareMeasurement_accepted h, hsize]
  by_cases hdata : concatSize.toNat < request.data.length
  · rw [if_pos hdata, if_pos hdata]
    exact ⟨_, _, rfl, rfl⟩
  rw [if_neg hdata, if_neg hdata]
  obtain ⟨first, hfirst, hout⟩ := store_eq_writeAt mem.concatData 0 request.data (by omega)
  have hwritten : writeAt mem.memory.concatData 0 request.data = first.toList := hout.symm
  simp only [hfirst, Option.bind_some, hwritten, ← request.dataSeparator_of_length]
  by_cases hset : request.data.length ≠ 0 ∧ request.terminateData.hasDependencies
  · rw [if_pos hset, if_pos hset]
    by_cases hfull : request.data.length = concatSize.toNat
    · rw [if_pos hfull, if_pos ⟨hset.1, hset.2, hfull⟩]
      exact ⟨_, _, rfl, rfl⟩
    · rw [if_neg hfull, if_neg fun hroom => hfull hroom.2.2]
      have hone : " ".ascii.length = 1 := by decide
      have hnext : request.data.length + 1 ≤ concatSize.toNat := by omega
      obtain ⟨second, hsecond, hout'⟩ := store_eq_writeAt first request.data.length " ".ascii
        (by omega)
      have hoffset : (request.additionalDataLen.toUInt64 + 1).toNat = request.data.length + 1 := by
        rw [UInt64.toNat_add, hwide]
        exact Nat.mod_eq_of_lt (hnext.trans_lt concatSize.toNat_lt)
      simp only [hsecond, Option.bind_some, ← hout', hone, ← hoffset]
      exact appendDependencies_eq (by rwa [UInt64.le_iff_toNat_le, hoffset]) _
  · rw [if_neg hset, if_neg hset, if_neg fun hroom => hset ⟨hroom.1, hroom.2.1⟩, writeAt_nil,
      List.length_nil, Nat.add_zero, ← hwide]
    exact appendDependencies_eq (by rw [UInt64.le_iff_toNat_le]; omega) _

/-- The preparation of bytes makes no write outside of the caller's memory, and it comes to the
preparation of the request that they stand for. -/
theorem prepareMeasurementBytes_refines (order : ByteOrder) (data : Option Bytes)
    (dataSize : UInt32) (mem : PrepareBuffers concatSize) :
    ∃ ret mem', prepareMeasurementBytes order data dataSize mem = some (ret, mem') ∧
      prepareMeasurement (data.map (MeasurementRequest.ofBytes order)) dataSize.toNat mem.memory =
        (ret, mem'.memory) := by
  cases data with
  | none => exact ⟨_, _, rfl, rfl⟩
  | some data =>
      rw [prepareMeasurementBytes, Option.map_some]
      by_cases hsize : dataSize.toNat ≠ measurementRequestSize
      · rw [if_pos hsize, prepareMeasurement, if_pos hsize]
        exact ⟨_, _, rfl, rfl⟩
      rw [if_neg hsize, not_not.mp hsize]
      generalize MeasurementRequest.ofBytes order data = request
      by_cases haccepted : request.accepted
      · simp only [haccepted, not_true_eq_false, if_false]
        exact prepareAccepted_refines haccepted mem
      · simp only [prepareMeasurement, haccepted, not_false_eq_true, if_true, ne_eq,
          not_true_eq_false, if_false]
        exact ⟨_, _, rfl, rfl⟩

end Refinement

/-! ## Requests that can be prepared -/

/-- What a request needs to be prepared in a buffer of `concatSize` bytes. -/
structure MeasurementRequest.Preparable (request : MeasurementRequest) (concatSize : ℕ) :
    Prop where
  eventName : terminated request.eventName = true ∧ cstr request.eventName ≠ []
  namespaceId : terminated request.namespaceId = true
  dependencies : terminated request.dependencies = true
  additionalDataLen : request.additionalDataLen.toNat < 256
  flags : request.flags = 0 ∨ request.flags = measurementHasDependencies
  validNamespace : cstr request.namespaceId ≠ [] → validateNamespace (cstr request.namespaceId) = 0
  flagged : cstr request.dependencies ≠ [] → request.flags = measurementHasDependencies
  hashed : request.hashedBytes ≠ []
  fits : request.hashedBytes.length ≤ concatSize

/-- A mask of the only known flag leaves this flag or nothing. -/
theorem flags_known_iff (flags : UInt32) :
    flags &&& ~~~measurementHasDependencies = 0 ↔
      flags = 0 ∨ flags = measurementHasDependencies := by
  constructor
  · intro h
    have hmask : measurementHasDependencies &&& flags = flags := Bits.Subset.and_eq h
    have hle : flags.toNat ≤ 1 := by
      rw [← hmask, UInt32.toNat_and]
      exact Nat.and_le_left
    rcases Nat.le_one_iff_eq_zero_or_eq_one.mp hle with hzero | hone
    · exact .inl (UInt32.toNat_inj.mp hzero)
    · exact .inr (UInt32.toNat_inj.mp hone)
  · rintro (rfl | rfl) <;> decide

theorem MeasurementRequest.preparable_iff (request : MeasurementRequest) (concatSize : ℕ) :
    request.Preparable concatSize ↔
      request.accepted ∧ request.hashedBytes ≠ [] ∧ request.hashedBytes.length ≤ concatSize := by
  have hflag : request.flags = 0 ∨ request.flags = measurementHasDependencies →
      (request.hasDependencies ↔ request.flags = measurementHasDependencies) := by
    rintro (h | h) <;> rw [hasDependencies, h] <;> decide
  constructor
  · intro h
    refine ⟨⟨h.eventName.1, (cstr_eq_nil_iff _).not.mp h.eventName.2, h.namespaceId,
      h.dependencies, h.additionalDataLen, (flags_known_iff _).mpr h.flags,
      fun hne => h.validNamespace ((cstr_eq_nil_iff _).not.mpr hne), ?_⟩, h.hashed, h.fits⟩
    by_cases hempty : cstr request.dependencies = []
    · exact .inr ((cstr_eq_nil_iff _).mp hempty)
    · exact .inl ((hflag h.flags).mpr (h.flagged hempty))
  · rintro ⟨⟨hname, hnonempty, hns, hdeps, hlen, hflags, hvalid, hflagged⟩, hhashed, hfits⟩
    have hknown := (flags_known_iff _).mp hflags
    exact ⟨⟨hname, (cstr_eq_nil_iff _).not.mpr hnonempty⟩, hns, hdeps, hlen, hknown,
      fun hne => hvalid ((cstr_eq_nil_iff _).not.mp hne),
      fun hne => (hflag hknown).mp (hflagged.resolve_right ((cstr_eq_nil_iff _).not.mp hne)),
      hhashed, hfits⟩

/-- Data, separator and dependencies that pass the checks leave a byte of the buffer of
`bpfima_measurement_extend` free. -/
theorem MeasurementRequest.length_hashedBytes_lt {request : MeasurementRequest}
    (h : request.accepted) : request.hashedBytes.length < concatDataSize := by
  have hdata : request.data.length < eventDataSize := by
    rw [request.length_data h.2.2.2.2.1]
    exact h.2.2.2.2.1
  have hdeps : (cstr request.dependencies).length < dependenciesSize := length_cstr_lt h.2.2.2.1
  have hseparator : request.dataSeparator.length ≤ 1 := by
    rw [dataSeparator]
    split_ifs <;> decide
  rw [request.length_hashedBytes, concatDataSize]
  omega

section Outcome

variable {request : MeasurementRequest} {mem left : PrepareMemory} {ret : Ret}
  (h : PrepareOutcome request mem ret left)

include h

theorem PrepareOutcome.request_eq :
    left.request = request ∨ left.request = request.terminateData := by
  cases h with
  | refused h => exact .inl rfl
  | tooBig h hbig hrequest => exact .inr hrequest
  | empty h hempty hrequest => exact .inr hrequest
  | prepared h hfits hne hrequest hlen hbytes => exact .inr hrequest

theorem PrepareOutcome.ret_eq_zero_iff :
    ret = 0 ↔ request.Preparable mem.concatData.length := by
  rw [request.preparable_iff]
  cases h with
  | refused h => exact iff_of_false (by decide) fun hall => h hall.1
  | tooBig h hbig hrequest => exact iff_of_false (by decide) fun hall => hbig.not_ge hall.2.2
  | empty h hempty hrequest => exact iff_of_false (by decide) fun hall => hall.2.1 hempty
  | prepared h hfits hne hrequest hlen hbytes => exact iff_of_true rfl ⟨h, hne, hfits⟩

theorem PrepareOutcome.hashed (hret : ret = 0) :
    left.totalLen = request.hashedBytes.length ∧
      left.concatData.take left.totalLen = request.hashedBytes := by
  cases h with
  | refused h => cases hret
  | tooBig h hbig hrequest => cases hret
  | empty h hempty hrequest => cases hret
  | prepared h hfits hne hrequest hlen hbytes => exact ⟨hlen, hbytes⟩

theorem PrepareOutcome.ne_e2big (hsize : concatDataSize ≤ mem.concatData.length) :
    ret ≠ -e2big := by
  cases h with
  | refused h => decide
  | tooBig h hbig hrequest =>
      have hlt := request.length_hashedBytes_lt h
      omega
  | empty h hempty hrequest => decide
  | prepared h hfits hne hrequest hlen hbytes => decide

end Outcome

/-- The preparation of any request of the right size stays within the buffer and the fields,
succeeds for the requests that can be prepared and leaves the bytes to be hashed. The buffer of
`bpfima_measurement_extend` is never too small. -/
theorem measurement_prepared_within_bounds (order : ByteOrder)
    (data : Buffer measurementRequestSize) {concatSize : UInt64}
    (mem : PrepareBuffers concatSize) :
    let request := MeasurementRequest.ofBytes order data.toList
    ∃ ret mem', prepareMeasurementBytes order (some data.toList) 904 mem = some (ret, mem') ∧
      (mem'.request = request ∨ mem'.request = request.terminateData) ∧
      (ret = 0 ↔ request.Preparable concatSize.toNat) ∧
      (ret = 0 → mem'.totalLen.toNat = request.hashedBytes.length ∧
        mem'.concatData.toList.take mem'.totalLen.toNat = request.hashedBytes) ∧
      (concatSize.toNat = concatDataSize →
        ret ≠ -e2big ∧ (ret = 0 → mem'.totalLen.toNat ≤ 511)) := by
  intro request
  obtain ⟨ret, mem', hbytes, hrefines⟩ :=
    prepareMeasurementBytes_refines order (some data.toList) 904 mem
  have hsize : mem.memory.concatData.length = concatSize.toNat := List.Vector.toList_length _
  have houtcome := prepareMeasurement_outcome request mem.memory
  have hwhole : prepareMeasurement (some request) measurementRequestSize mem.memory =
      (ret, mem'.memory) := hrefines
  rw [hwhole] at houtcome
  have hsucceeds := houtcome.ret_eq_zero_iff
  rw [hsize] at hsucceeds
  refine ⟨ret, mem', hbytes, houtcome.request_eq, hsucceeds, houtcome.hashed, fun hextend => ?_⟩
  refine ⟨houtcome.ne_e2big (by omega), fun hret => ?_⟩
  have haccepted : request.accepted := ((request.preparable_iff _).mp (hsucceeds.mp hret)).1
  have htotal : mem'.totalLen.toNat = request.hashedBytes.length := (houtcome.hashed hret).1
  rw [htotal]
  exact Nat.le_of_lt_succ (request.length_hashedBytes_lt haccepted)

/-- The bytes of a request with data and dependencies, on a little-endian host. -/
def listingRequest : Buffer measurementRequestSize :=
  ⟨"exec".ascii ++ List.replicate 252 0 ++ List.replicate 128 0 ++
    ("sh".ascii ++ List.replicate 254 0) ++ ("/bin/ls".ascii ++ List.replicate 249 0) ++
    [7, 0, 0, 0] ++ [1, 0, 0, 0], by decide +kernel⟩

/-- The memory of `bpfima_measurement_extend` before the call. -/
def extendBuffers : PrepareBuffers 512 := ⟨.zero, CString.zero _, 0⟩

theorem measurement_prepared_listingRequest :
    ∃ mem', prepareMeasurementBytes .little (some listingRequest.toList) 904 extendBuffers =
        some (0, mem') ∧
      mem'.concatData.toList.take mem'.totalLen.toNat = "/bin/ls sh".ascii := by
  obtain ⟨ret, mem', hprepared, -, hzero, hhashed, -⟩ :=
    measurement_prepared_within_bounds .little listingRequest extendBuffers
  have hret : ret = 0 := by
    rw [hzero, MeasurementRequest.preparable_iff]
    decide +kernel
  subst hret
  refine ⟨mem', hprepared, (hhashed rfl).2.trans ?_⟩
  decide +kernel

end BpfIma
