import Mathlib.Tactic.IntervalCases
import BpfIma.Model.PolicyWire
import BpfIma.Verification.Policy.Effects
import BpfIma.Verification.Policy.Snapshot

/-! # The wire format does not depend on the host

On either host the encoder leaves the little-endian image of a request, the write handler
reads the request back from that image, and the digest of a record is taken over the same
bytes. -/

namespace BpfIma

open Layout

/-! ## Integers -/

section Integers

variable (order : ByteOrder)

/-- A host reads what it wrote, in whichever order it wrote it. -/
theorem ByteOrder.nat_arranged (memory : Bytes) :
    order.nat (match order with | .little => memory | .big => memory.reverse) =
      littleEndian memory := by
  cases order with
  | little => rfl
  | big => exact congrArg littleEndian memory.reverse_reverse

theorem ByteOrder.nat_bytes16 (v : UInt16) : order.nat (order.bytes16 v) = v.toNat :=
  (order.nat_arranged _).trans (littleEndian_bytes16 v)

theorem ByteOrder.nat_bytes32 (v : UInt32) : order.nat (order.bytes32 v) = v.toNat :=
  (order.nat_arranged _).trans (littleEndian_bytes32 v)

theorem ByteOrder.nat_bytes64 (v : UInt64) : order.nat (order.bytes64 v) = v.toNat :=
  (order.nat_arranged _).trans (littleEndian_bytes64 v)

@[simp] theorem ByteOrder.length_bytes16 (v : UInt16) : (order.bytes16 v).length = 2 := by
  cases order <;> rfl

@[simp] theorem ByteOrder.length_bytes32 (v : UInt32) : (order.bytes32 v).length = 4 := by
  cases order <;> rfl

@[simp] theorem ByteOrder.length_bytes64 (v : UInt64) : (order.bytes64 v).length = 8 := by
  cases order <;> rfl

theorem reads_read16 (v : UInt16) : Reads order.read16 (order.bytes16 v) v := by
  have h := (reads_bytes ⟨order.bytes16 v, order.length_bytes16 v⟩).map
    fun memory => UInt16.ofNat (order.nat memory.toList)
  rwa [List.Vector.toList_mk, order.nat_bytes16, UInt16.ofNat_toNat] at h

theorem reads_read32 (v : UInt32) : Reads order.read32 (order.bytes32 v) v := by
  have h := (reads_bytes ⟨order.bytes32 v, order.length_bytes32 v⟩).map
    fun memory => UInt32.ofNat (order.nat memory.toList)
  rwa [List.Vector.toList_mk, order.nat_bytes32, UInt32.ofNat_toNat] at h

theorem reads_read64 (v : UInt64) : Reads order.read64 (order.bytes64 v) v := by
  have h := (reads_bytes ⟨order.bytes64 v, order.length_bytes64 v⟩).map
    fun memory => UInt64.ofNat (order.nat memory.toList)
  rwa [List.Vector.toList_mk, order.nat_bytes64, UInt64.ofNat_toNat] at h

end Integers

/-! ## Structures -/

section Structures

variable (order : ByteOrder)

theorem PolicyConfig.reads (config : PolicyConfig) :
    Reads (PolicyConfig.read order) (config.image order) config := by
  simp only [PolicyConfig.image, List.append_assoc]
  exact (reads_byte _).bind <| (reads_bytes _).bind <| (reads_read32 order _).bind <|
    (reads_read32 order _).bind <| (reads_read32 order _).bind <| (reads_read32 order _).bind <|
    (reads_read32 order _).bind <| (reads_read32 order _).bind <| (reads_byte _).bind <|
    (reads_bytes _).bind <| (reads_read32 order _).map _

theorem PatternEntry.reads (entry : PatternEntry) :
    Reads (PatternEntry.read order) (entry.image order) entry := by
  rw [PatternEntry.image, List.append_assoc]
  exact (reads_bytes _).bind <| (reads_byte _).bind <| (reads_byte _).bind <|
    (reads_read16 order _).map _

theorem HookConfig.reads (hook : HookConfig) :
    Reads (HookConfig.read order) (hook.image order) hook := by
  simp only [HookConfig.image, List.append_assoc]
  exact (reads_read32 order _).bind <| (reads_read32 order _).bind <|
    (reads_read32 order _).bind <| (reads_read32 order _).map _

theorem PolicySnapshot.reads (snapshot : PolicySnapshot) :
    Reads (PolicySnapshot.read order) (snapshot.image order) snapshot := by
  simp only [PolicySnapshot.image, List.append_assoc]
  exact (PolicyConfig.reads order _).bind <| (reads_array (PatternEntry.reads order) _).bind <|
    (reads_array (PatternEntry.reads order) _).bind <|
    (reads_array (HookConfig.reads order) _).map _

theorem PolicyRecord.reads (record : PolicyRecord) :
    Reads (PolicyRecord.read order) (record.image order) record :=
  (reads_bytes _).bind <| (PolicySnapshot.reads order _).map _

theorem RequestMemory.reads (memory : RequestMemory) :
    Reads (RequestMemory.read order) (memory.image order) memory := by
  simp only [RequestMemory.image, List.append_assoc]
  exact (reads_read32 order _).bind <| (reads_read32 order _).bind <|
    (reads_read64 order _).bind <| (PolicyRecord.reads order _).bind <| (reads_bytes _).map _

end Structures

/-! ## Sizes -/

section Sizes

variable (order : ByteOrder)

@[simp] theorem PolicyConfig.length_image (config : PolicyConfig) :
    (config.image order).length = 36 := by
  simp [PolicyConfig.image]

@[simp] theorem PatternEntry.length_image (entry : PatternEntry) :
    (entry.image order).length = 68 := by
  simp [PatternEntry.image]

@[simp] theorem HookConfig.length_image (hook : HookConfig) :
    (hook.image order).length = 16 := by
  simp [HookConfig.image]

@[simp] theorem PolicySnapshot.length_image (snapshot : PolicySnapshot) :
    (snapshot.image order).length = 1252 := by
  rw [PolicySnapshot.image, List.length_append, List.length_append, List.length_append,
    PolicyConfig.length_image, length_array (PatternEntry.length_image order),
    length_array (PatternEntry.length_image order), length_array (HookConfig.length_image order)]
  rfl

@[simp] theorem PolicyRecord.length_image (record : PolicyRecord) :
    (record.image order).length = 1380 := by
  simp [PolicyRecord.image]

theorem RequestMemory.length_image (memory : RequestMemory) :
    (memory.image order).length = policyRequestSize := by
  simp [RequestMemory.image, policyRequestSize]

/-- The bytes 16 to 1395 of a request are its record. -/
theorem RequestMemory.record_image (memory : RequestMemory) :
    ((memory.image order).drop 16).take 1380 = memory.request.record.image order := by
  have hhead : (order.bytes32 memory.request.version ++ order.bytes32 memory.request.reserved ++
      order.bytes64 memory.request.expectedGeneration).length = 16 := by simp
  rw [RequestMemory.image, List.append_assoc _ (memory.request.record.image order),
    List.drop_left' hhead, List.take_left' (memory.request.record.length_image order)]

end Sizes

/-! ## Byte order -/

/-- The four bytes of a swapped word, read from the other end. -/
theorem bytes32_swap32 (v : UInt32) :
    ByteOrder.big.bytes32 (swap32 v) = ByteOrder.little.bytes32 v := by
  simp only [ByteOrder.bytes32, List.reverse_cons, List.reverse_nil, List.nil_append,
    List.cons_append, List.cons.injEq, and_true, ← UInt8.toBitVec_inj]
  refine ⟨?_, ?_, ?_, ?_⟩ <;>
    · ext i hi
      interval_cases i <;> simp [swap32]

theorem bytes64_little (v : UInt64) : ByteOrder.little.bytes64 v =
    ByteOrder.little.bytes32 v.toUInt32 ++ ByteOrder.little.bytes32 (v >>> 32).toUInt32 := by
  simp only [ByteOrder.bytes64, ByteOrder.bytes32, List.cons_append, List.nil_append,
    List.cons.injEq, and_true, ← UInt8.toBitVec_inj]
  refine ⟨?_, ?_, ?_, ?_, ?_, ?_, ?_, ?_⟩ <;>
    · ext i hi
      interval_cases i <;> simp

theorem bytes64_big (v : UInt64) : ByteOrder.big.bytes64 v =
    ByteOrder.big.bytes32 (v >>> 32).toUInt32 ++ ByteOrder.big.bytes32 v.toUInt32 := by
  have h := congrArg List.reverse (bytes64_little v)
  rwa [List.reverse_append] at h

theorem toUInt32_swap64 (v : UInt64) : (swap64 v).toUInt32 = swap32 (v >>> 32).toUInt32 := by
  rw [← UInt32.toBitVec_inj]
  ext i hi
  simp [swap64]

theorem shiftRight_swap64 (v : UInt64) : (swap64 v >>> 32).toUInt32 = swap32 v.toUInt32 := by
  rw [← UInt32.toBitVec_inj]
  refine BitVec.eq_of_getLsbD_eq fun i hi => ?_
  have hhigh : 32 + i < 64 := by omega
  have hlow : i < 64 := by omega
  simp [swap64, hi, hhigh, hlow]

theorem bytes64_swap64 (v : UInt64) :
    ByteOrder.big.bytes64 (swap64 v) = ByteOrder.little.bytes64 v := by
  rw [bytes64_big, bytes64_little, toUInt32_swap64, shiftRight_swap64, bytes32_swap32,
    bytes32_swap32]

section Order

variable (order : ByteOrder)

theorem ByteOrder.bytes32_cpuToLe32 (v : UInt32) :
    order.bytes32 (order.cpuToLe32 v) = ByteOrder.little.bytes32 v := by
  cases order with
  | little => rfl
  | big => exact bytes32_swap32 v

theorem ByteOrder.bytes64_cpuToLe64 (v : UInt64) :
    order.bytes64 (order.cpuToLe64 v) = ByteOrder.little.bytes64 v := by
  cases order with
  | little => rfl
  | big => exact bytes64_swap64 v

theorem ByteOrder.bytes16_zero : order.bytes16 0 = ByteOrder.little.bytes16 0 := by
  cases order <;> rfl

theorem ByteOrder.bytes32_zero : order.bytes32 0 = ByteOrder.little.bytes32 0 := by
  cases order <;> rfl

theorem ByteOrder.bytes32_injective : Function.Injective order.bytes32 := by
  intro v w h
  have hv := (reads_read32 order v).run
  rw [h] at hv
  exact hv.symm.trans (reads_read32 order w).run

theorem ByteOrder.bytes64_injective : Function.Injective order.bytes64 := by
  intro v w h
  have hv := (reads_read64 order v).run
  rw [h] at hv
  exact hv.symm.trans (reads_read64 order w).run

theorem swap32_swap32 (v : UInt32) : swap32 (swap32 v) = v := by
  apply ByteOrder.big.bytes32_injective
  calc ByteOrder.big.bytes32 (swap32 (swap32 v))
      = (ByteOrder.big.bytes32 (swap32 v)).reverse := by
        rw [bytes32_swap32, ByteOrder.bytes32, ByteOrder.bytes32, List.reverse_reverse]
    _ = ByteOrder.big.bytes32 v := by rw [bytes32_swap32, ByteOrder.bytes32, ByteOrder.bytes32]

theorem swap64_swap64 (v : UInt64) : swap64 (swap64 v) = v := by
  apply ByteOrder.big.bytes64_injective
  rw [bytes64_big, toUInt32_swap64, shiftRight_swap64, toUInt32_swap64, shiftRight_swap64,
    swap32_swap32, swap32_swap32, bytes64_big]

@[simp] theorem ByteOrder.le32ToCpu_cpuToLe32 (v : UInt32) :
    order.le32ToCpu (order.cpuToLe32 v) = v := by
  cases order with
  | little => rfl
  | big => exact swap32_swap32 v

@[simp] theorem ByteOrder.le64ToCpu_cpuToLe64 (v : UInt64) :
    order.le64ToCpu (order.cpuToLe64 v) = v := by
  cases order with
  | little => rfl
  | big => exact swap64_swap64 v

@[simp] theorem ByteOrder.le32ToCpu_zero : order.le32ToCpu 0 = 0 := by
  cases order <;> rfl

end Order

/-! ## Requests -/

/-- The reserved fields are zero; the padding may hold anything. -/
structure PolicySnapshot.ReservedZero (snapshot : PolicySnapshot) : Prop where
  config : snapshot.config.reserved = 0
  cgroups : ∀ i, (snapshot.cgroups.get i).reserved = 0
  paths : ∀ i, (snapshot.paths.get i).reserved = 0
  hooks : ∀ i, (snapshot.hooks.get i).reserved = 0

structure PolicyRequest.ReservedZero (request : PolicyRequest) : Prop where
  reserved : request.reserved = 0
  snapshot : request.record.snapshot.ReservedZero

theorem PolicySnapshot.Accepted.reservedZero {snapshot : PolicySnapshot}
    (h : snapshot.Accepted) : snapshot.ReservedZero :=
  ⟨h.config.2.2.2.2.2.2.2, fun i => (h.cgroups i).2.2.1, fun i => (h.paths i).2.2.1,
    fun i => (h.hooks i).2.2.2⟩

section Requests

variable (order : ByteOrder)

/-- The six integers of the configuration that are turned little-endian. -/
theorem PolicyConfig.image_toLe {config : PolicyConfig} (h : config.reserved = 0) :
    PolicyConfig.image order
        { config with
          filterFlags := order.cpuToLe32 config.filterFlags
          actionFlags := order.cpuToLe32 config.actionFlags
          minFileSize := order.cpuToLe32 config.minFileSize
          maxPathDepth := order.cpuToLe32 config.maxPathDepth
          logLevel := order.cpuToLe32 config.logLevel
          merkleHistoryMaxSize := order.cpuToLe32 config.merkleHistoryMaxSize } =
      config.image .little := by
  simp only [PolicyConfig.image, order.bytes32_cpuToLe32, h, order.bytes32_zero]

theorem PatternEntry.flatMap_image {n : ℕ} {entries : List.Vector PatternEntry n}
    (h : ∀ i, (entries.get i).reserved = 0) :
    entries.toList.flatMap (PatternEntry.image order) =
      entries.toList.flatMap (PatternEntry.image .little) := by
  refine array_congr fun i => ?_
  rw [PatternEntry.image, PatternEntry.image, h i, order.bytes16_zero]

/-- The encoder leaves the little-endian image of the request. -/
theorem image_policyEncodeRequest {memory : RequestMemory} (h : memory.request.ReservedZero) :
    (policyEncodeRequest order memory).image order = memory.image .little := by
  have hhooks : (memory.request.record.snapshot.hooks.map fun hook =>
      { hook with
        flags := order.cpuToLe32 hook.flags
        filterOverride := order.cpuToLe32 hook.filterOverride
        actionOverride := order.cpuToLe32 hook.actionOverride }).toList.flatMap
        (HookConfig.image order) =
      memory.request.record.snapshot.hooks.toList.flatMap (HookConfig.image .little) := by
    rw [List.Vector.toList_map, List.flatMap_map]
    refine array_congr fun i => ?_
    simp only [HookConfig.image, order.bytes32_cpuToLe32, h.snapshot.hooks i, order.bytes32_zero]
  simp only [RequestMemory.image, PolicyRecord.image, PolicySnapshot.image, policyEncodeRequest,
    order.bytes32_cpuToLe32, order.bytes64_cpuToLe64, h.reserved, order.bytes32_zero,
    PolicyConfig.image_toLe order h.snapshot.config,
    PatternEntry.flatMap_image order h.snapshot.cgroups,
    PatternEntry.flatMap_image order h.snapshot.paths, hhooks]

theorem requestToCpu_policyEncodeRequest {memory : RequestMemory}
    (h : memory.request.reserved = 0) :
    requestToCpu order (policyEncodeRequest order memory) = memory := by
  have hhooks (hooks : List.Vector HookConfig hookMax) :
      (hooks.map fun hook =>
        { hook with
          flags := order.cpuToLe32 hook.flags
          filterOverride := order.cpuToLe32 hook.filterOverride
          actionOverride := order.cpuToLe32 hook.actionOverride }).map (fun hook =>
        { hook with
          flags := order.le32ToCpu hook.flags
          filterOverride := order.le32ToCpu hook.filterOverride
          actionOverride := order.le32ToCpu hook.actionOverride }) = hooks := by
    refine List.Vector.ext fun i => ?_
    simp only [List.Vector.get_map, order.le32ToCpu_cpuToLe32]
  have hreserved : order.le32ToCpu memory.request.reserved = memory.request.reserved := by
    rw [h, order.le32ToCpu_zero]
  simp only [requestToCpu, policyEncodeRequest, order.le32ToCpu_cpuToLe32,
    order.le64ToCpu_cpuToLe64, hreserved, hhooks]

/-- The write handler reads a request back from its little-endian image. -/
theorem decodeRequest_image {memory : RequestMemory} (h : memory.request.ReservedZero) :
    decodeRequest order (memory.image .little) = memory := by
  rw [← image_policyEncodeRequest order h, decodeRequest,
    (RequestMemory.reads order (policyEncodeRequest order memory)).run,
    requestToCpu_policyEncodeRequest order h.reserved]

/-- A normalised record is hashed over its little-endian image. -/
theorem image_wire {record : PolicyRecord} {input : PolicySnapshot}
    (h : normalizeSnapshot input = .ok record.snapshot) :
    (record.wire order).image order = record.image .little := by
  obtain ⟨haccepted, -⟩ := normalizeSnapshot_eq_ok.mp (normalizeSnapshot_idempotent h)
  have hreserved := haccepted.reservedZero
  have hhooks : (record.snapshot.hooks.map fun hook =>
      { hook with flags := order.cpuToLe32 hook.flags }).toList.flatMap (HookConfig.image order) =
      record.snapshot.hooks.toList.flatMap (HookConfig.image .little) := by
    rw [List.Vector.toList_map, List.flatMap_map]
    refine array_congr fun i => ?_
    obtain ⟨-, hfilter, haction, -⟩ := haccepted.hooks i
    simp only [HookConfig.image, order.bytes32_cpuToLe32, hfilter, haction, hreserved.hooks i,
      order.bytes32_zero]
  simp only [PolicyRecord.image, PolicySnapshot.image, PolicyRecord.wire,
    PolicyConfig.image_toLe order hreserved.config,
    PatternEntry.flatMap_image order hreserved.cgroups,
    PatternEntry.flatMap_image order hreserved.paths, hhooks]

end Requests

/-! ## The write handler -/

/-- The file is writable, the writer is privileged and the buffer can be copied. -/
structure WriteEnv.Admits (env : WriteEnv) : Prop where
  writable : env.securityfsPolicyWritable ≠ 0
  capable : env.capable = true
  copied : env.copyError = none

/-- What reaches `bpfima_policy_apply` is the request that was written. -/
theorem policyApplyWrite_image (P : Platform) {env : WriteEnv} (henv : env.Admits)
    {memory : RequestMemory} (h : memory.request.ReservedZero) (s : KernelState) :
    policyApplyWrite P env (memory.image .little) s =
      writeResult policyRequestSize (policyApply P env.apply (some memory.request) s) := by
  have hallowed : ¬ (env.securityfsPolicyWritable = 0 ∨ env.capable = false) := by
    simp [henv.writable, henv.capable]
  rw [policyApplyWrite, if_neg hallowed, memory.length_image, if_neg (not_not.mpr rfl),
    henv.copied, decodeRequest_image P.byteOrder h]

/-- A call either stops before the request is applied, or applies what it decoded. -/
theorem policyApplyWrite_state (P : Platform) (env : WriteEnv) (wire : Bytes) (s : KernelState) :
    (policyApplyWrite P env wire s).2 = s ∨
      (policyApplyWrite P env wire s).2 =
        (policyApply P env.apply (some (decodeRequest P.byteOrder wire).request) s).2 := by
  unfold policyApplyWrite
  split
  · exact .inl rfl
  · split
    · exact .inl rfl
    · split
      · exact .inl rfl
      · exact .inr rfl

/-- A request with zero reserved fields is read back as it was encoded, by the handler on a
host of the same byte order; its bytes are those of any other host; and the digest of a
normalised record is taken over the bytes 16 to 1395 of them. -/
theorem policy_wire_host_independent (memory : RequestMemory)
    (hreserved : memory.request.ReservedZero) :
    (∀ order : ByteOrder,
      decodeRequest order ((policyEncodeRequest order memory).image order) = memory) ∧
    (∀ (P : Platform) (env : WriteEnv) (s : KernelState), env.Admits →
      policyApplyWrite P env ((policyEncodeRequest P.byteOrder memory).image P.byteOrder) s =
        writeResult policyRequestSize (policyApply P env.apply (some memory.request) s)) ∧
    (policyEncodeRequest .little memory).image .little =
      (policyEncodeRequest .big memory).image .big ∧
    ∀ input, normalizeSnapshot input = .ok memory.request.record.snapshot →
      ∀ host order : ByteOrder, (memory.request.record.wire host).image host =
        (((policyEncodeRequest order memory).image order).drop 16).take 1380 := by
  refine ⟨fun order => ?_, fun P env s henv => ?_, ?_, fun input hnormal host order => ?_⟩
  · rw [image_policyEncodeRequest order hreserved]
    exact decodeRequest_image order hreserved
  · rw [image_policyEncodeRequest P.byteOrder hreserved]
    exact policyApplyWrite_image P henv hreserved s
  · rw [image_policyEncodeRequest .little hreserved, image_policyEncodeRequest .big hreserved]
  · rw [image_policyEncodeRequest order hreserved, memory.record_image]
    exact image_wire host hnormal

theorem policy_wire_host_independent_verboseRequest :
    normalizeSnapshot verboseRequest.record.snapshot = .ok verboseRequest.record.snapshot ∧
      (∀ order : ByteOrder,
        decodeRequest order
          ((policyEncodeRequest order ⟨verboseRequest, CString.zero 4⟩).image order) =
            ⟨verboseRequest, CString.zero 4⟩) ∧
      (policyEncodeRequest .little ⟨verboseRequest, CString.zero 4⟩).image .little =
        (policyEncodeRequest .big ⟨verboseRequest, CString.zero 4⟩).image .big ∧
      ∀ host order : ByteOrder, (verboseRequest.record.wire host).image host =
        (((policyEncodeRequest order ⟨verboseRequest, CString.zero 4⟩).image order).drop 16).take
          1380 := by
  have hreserved : verboseRequest.ReservedZero :=
    ⟨rfl, rfl, by decide +kernel, by decide +kernel, by decide +kernel⟩
  have hnormal : normalizeSnapshot verboseRequest.record.snapshot =
      .ok verboseRequest.record.snapshot := by decide +kernel
  obtain ⟨hdecoded, -, hsame, hhashed⟩ :=
    policy_wire_host_independent ⟨verboseRequest, CString.zero 4⟩ hreserved
  exact ⟨hnormal, hdecoded, hsame, hhashed _ hnormal⟩

end BpfIma
