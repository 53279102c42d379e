import BpfIma.Model.PolicyFiles
import BpfIma.Verification.Policy.Outcome

/-! # What a policy file says and what can be written to it

A policy file prints the configuration that the next edit starts from. So what was written is
read, and what was read can be written. -/

namespace BpfIma

open CString Errno Numerals

/-! ## The fields as text -/

namespace ScalarField

def get (config : PolicyConfig) : ScalarField → UInt32
  | .enabled => config.enabled.toUInt32
  | .filterFlags => config.filterFlags
  | .actionFlags => config.actionFlags
  | .minFileSize => config.minFileSize
  | .logLevel => config.logLevel

/-- The value as the files print it. -/
def numeral (config : PolicyConfig) : ScalarField → Bytes
  | .enabled => Text.decimal config.enabled.toNat
  | .filterFlags => hexadecimal config.filterFlags.toNat
  | .actionFlags => hexadecimal config.actionFlags.toNat
  | .minFileSize => Text.decimal config.minFileSize.toNat
  | .logLevel => Text.decimal config.logLevel.toNat

theorem set_get (config : PolicyConfig) (f : ScalarField) :
    f.set config (f.get config) = config := by
  cases f <;> simp [set, get]

theorem edit_get (snapshot : PolicySnapshot) (f : ScalarField) :
    f.edit snapshot (f.get snapshot.config) = snapshot := by
  rw [edit, set_get]

theorem kstrtou32_numeral (config : PolicyConfig) (f : ScalarField) :
    kstrtou32 (f.numeral config) = .ok (f.get config) := by
  cases f with
  | enabled => simpa [numeral, get] using kstrtou32_decimal config.enabled.toUInt32
  | filterFlags | actionFlags => exact kstrtou32_hexadecimal _
  | minFileSize | logLevel => exact kstrtou32_decimal _

/-- A numeral is short and has no NUL in it. -/
theorem numeral_spec (config : PolicyConfig) (f : ScalarField) :
    (f.numeral config).length ≤ 10 ∧ 0 ∉ f.numeral config := by
  have hdecimal (n : ℕ) (h : n < 2 ^ 32) : (Text.decimal n).length ≤ 10 ∧ 0 ∉ Text.decimal n :=
    ⟨length_digits_le (show 1 < 10 by decide) 9 (by omega),
      Text.notMem_decimal (.inl (by decide)) n⟩
  have hhexadecimal (n : ℕ) (h : n < 2 ^ 32) :
      (hexadecimal n).length ≤ 10 ∧ 0 ∉ hexadecimal n := by
    have hlength := length_digits_le (show 1 < 16 by decide) 7 (n := n) (by omega)
    refine ⟨by simp [hexadecimal, String.ascii]; omega, ?_⟩
    intro hzero
    rcases List.mem_append.mp hzero with hzero | hzero
    · exact absurd hzero (by decide)
    · exact absurd (le_of_mem_digits (by decide) (by decide) hzero) (by decide)
  cases f with
  | enabled => exact hdecimal _ (lt_trans config.enabled.toNat_lt (by decide))
  | filterFlags => exact hhexadecimal _ config.filterFlags.toNat_lt
  | actionFlags => exact hhexadecimal _ config.actionFlags.toNat_lt
  | minFileSize => exact hdecimal _ config.minFileSize.toNat_lt
  | logLevel => exact hdecimal _ config.logLevel.toNat_lt

theorem text_spec (f : ScalarField) : f.text.length ≤ 13 ∧ 0 ∉ f.text := by
  cases f <;> decide

theorem equals_notMem_text (f : ScalarField) : 0x3d ∉ f.text := by
  cases f <;> decide

end ScalarField

/-- Editing a field to the value it has is never refused for the value. -/
theorem PolicyState.WellFormed.editRefusal_get {state : PolicyState} (hwf : state.WellFormed)
    (id : Bytes) (f : ScalarField) :
    state.editRefusal id f (f.get (state.editBase id).config) =
      if candidateFor state id = none then some (-enospc) else none := by
  have hnormal := hwf.editBase_normal id
  have hsmall : ¬ f.Overlarge (f.get (state.editBase id).config) := by
    rintro ⟨rfl, hlarge⟩
    have hle := (normalizeSnapshot_self_iff.mp hnormal).1.config.1
    simp only [ScalarField.get, gt_iff_lt, UInt32.lt_iff_toNat_lt, UInt8.toNat_toUInt32] at hlarge
    exact absurd (UInt8.le_iff_toNat_le.mp hle) (not_le.mpr hlarge)
  have hpermits : ¬ f.Forbids (f.get (state.editBase id).config) := by
    intro hforbids
    have hrefused := f.normalizeSnapshot_edit hnormal hsmall
    rw [f.edit_get, hnormal, if_pos hforbids] at hrefused
    cases hrefused
  have hstrong :
      ¬ (id ≠ [] ∧ f.WeakerThan state.root.config (f.get (state.editBase id).config)) := by
    rintro ⟨hid, hweaker⟩
    have hextends := hwf.editBase_extends hid
    refine (f.extensionOf_edit_iff hextends hsmall).mp ?_ hweaker
    rw [f.edit_get]
    exact hextends
  rw [PolicyState.editRefusal, if_neg hsmall, if_neg hpermits, if_neg hstrong]

theorem validateNamespace_of_valid {id : Bytes} (h : validNamespace id = true) :
    validateNamespace id = 0 := by
  simp only [validNamespace, Bool.and_eq_true, decide_eq_true_eq] at h
  exact h.1.2.1

/-! ## The files -/

namespace PolicyFile

def namespaceId : PolicyFile → Option Bytes
  | .globalPolicy => none
  | .namespacePolicy id => some id

/-- The name of the record that the file is about. -/
def record (file : PolicyFile) : Bytes := file.namespaceId.getD []

def lines (config : PolicyConfig) (generation : UInt64) (metadata : PolicyNamespace) :
    PolicyFile → List Bytes
  | .globalPolicy => globalPolicyLines config generation
  | .namespacePolicy id => policyLines id config generation metadata

/-- The file of a namespace that a policy can be stored for, or the global one. -/
def Named (file : PolicyFile) : Prop := ∀ name ∈ file.namespaceId, validNamespace name = true

instance (file : PolicyFile) : Decidable file.Named :=
  inferInstanceAs (Decidable (∀ name ∈ file.namespaceId, validNamespace name = true))

/-- The configuration that the file prints. -/
def config (file : PolicyFile) (s : KernelState) : Except Ret PolicyConfig :=
  (policyReadLocked file.namespaceId s).map Prod.fst

/-- The file reads as the lines of a configuration. -/
def Shows (file : PolicyFile) (config : PolicyConfig) (s : KernelState) : Prop :=
  ∃ generation metadata, (file.read true s).1 = .ok (file.lines config generation metadata).flatten

end PolicyFile

theorem policyReadLocked_bound {s : KernelState} {m : ℕ} (hbound : s.policyMap = some m)
    (id : Option Bytes) :
    policyReadLocked id s =
      .ok (((s.maps m).active.editBase (id.getD [])).config, (s.maps m).active.generation) := by
  have hid : namespaceIndex (s.maps m).active id =
      namespaceIndex (s.maps m).active (some (id.getD [])) := rfl
  simp only [policyReadLocked, hbound, hid, PolicyState.editBase, value_store]
  cases hindex : namespaceIndex (s.maps m).active (some (id.getD [])) with
  | none => rfl
  | some index =>
      rcases namespaceIndex_some hindex with ⟨hempty, rfl⟩ | ⟨hne, hlive, -⟩
      · simp only [Option.getD_some] at hempty
        simp [hempty, mergeConfig]
      · simp only [Option.getD_some] at hne
        simp only [hlive.ne_zero, if_false, Option.map_some, if_neg hne]
        rfl

theorem policyNamespaceGetLocked_of_valid {id : Bytes} (h : validNamespace id = true)
    (s : KernelState) : ∃ i t, policyNamespaceGetLocked true id s = (.ok i, t) := by
  obtain ⟨hlength, -, -⟩ := validNamespace_spec h
  have hvalid : ¬ (validateNamespace id ≠ 0 ∨ namespaceSize ≤ id.length) := by
    rintro (hinvalid | hlong)
    · exact hinvalid (validateNamespace_of_valid h)
    · omega
  unfold policyNamespaceGetLocked
  rw [if_neg hvalid]
  split
  · exact ⟨_, _, rfl⟩
  · exact ⟨_, _, rfl⟩

namespace Editable

variable {P : Platform} {m : ℕ} {s : KernelState} {file : PolicyFile}

theorem config_eq (h : Editable m s) (file : PolicyFile) :
    file.config s = .ok ((s.maps m).active.editBase file.record).config := by
  rw [PolicyFile.config, policyReadLocked_bound h.bound]
  rfl

/-- Reading a file can at most add a namespace without audit data. -/
theorem read_state (file : PolicyFile) (alloc : Bool) (s : KernelState) :
    ∃ namespaces, (file.read alloc s).2 = { s with policyNamespaceList := namespaces } := by
  cases file with
  | globalPolicy => exact ⟨s.policyNamespaceList, rfl⟩
  | namespacePolicy id =>
      simp only [PolicyFile.read, policyShow]
      cases policyReadLocked (some id) s with
      | error ret => exact ⟨s.policyNamespaceList, rfl⟩
      | ok config =>
          obtain ⟨namespaces, hmetadata⟩ : ∃ namespaces,
              (policyNamespaceGetLocked alloc id s).2 =
                { s with policyNamespaceList := namespaces } := by
            unfold policyNamespaceGetLocked
            split
            · exact ⟨_, rfl⟩
            · split
              · exact ⟨_, rfl⟩
              · split <;> exact ⟨_, rfl⟩
          refine ⟨namespaces, ?_⟩
          rw [← hmetadata]
          rcases policyNamespaceGetLocked alloc id s with ⟨_ | _, t⟩ <;> rfl

theorem read (h : Editable m s) (file : PolicyFile) (alloc : Bool) :
    Editable m (file.read alloc s).2 := by
  obtain ⟨namespaces, hread⟩ := read_state file alloc s
  rw [hread]
  exact ⟨h.bound, h.published, h.unlatched, h.tfm⟩

/-- A file reads as the configuration that an edit of its record starts from. -/
theorem shows (h : Editable m s) (hfile : file.Named) :
    file.Shows ((s.maps m).active.editBase file.record).config s := by
  have hread := policyReadLocked_bound h.bound file.namespaceId
  cases file with
  | globalPolicy =>
      refine ⟨(s.maps m).active.generation, freshPolicyNamespace [], ?_⟩
      simp only [PolicyFile.read, globalPolicyShow, PolicyFile.namespaceId] at hread ⊢
      rw [hread]
      rfl
  | namespacePolicy id =>
      obtain ⟨i, t, hmetadata⟩ := policyNamespaceGetLocked_of_valid (hfile id rfl) s
      simp only [PolicyFile.namespaceId] at hread
      simp only [PolicyFile.Shows, PolicyFile.read, policyShow, hread, hmetadata]
      exact ⟨_, _, rfl⟩

end Editable

/-! ## Writes -/

/-- Nothing that a write asks for fails. -/
structure TextWriteEnv.Succeeds (env : TextWriteEnv) (s : CommitState) : Prop where
  writable : env.securityfsPolicyWritable ≠ 0
  bufAlloc : env.bufAlloc = true
  copyFault : env.copyFault = false
  copyAlloc : env.copyAlloc = true
  requestAlloc : env.requestAlloc = true
  apply : env.apply.Succeeds s

theorem NumeralError.ret_neg (e : NumeralError) : NumeralError.ret e < 0 := by
  cases e <;> decide

/-- The line that a policy file prints for a field is the one that edits it. -/
theorem writtenText_line {name value : Bytes} (hname : 0 ∉ name) (hvalue : 0 ∉ value) :
    writtenText (name ++ "=".ascii ++ value ++ [Text.lineFeed]) = name ++ "=".ascii ++ value := by
  rw [writtenText, List.getLast?_concat, if_pos rfl, List.dropLast_concat, upToNul_of_notMem]
  simp [hname, hvalue, String.ascii]

section Write

variable {P : Platform} {env : TextWriteEnv} {s : KernelState} {text name value : Bytes}

theorem PolicyFile.write_of_written (file : PolicyFile) (henv : env.Succeeds s.engine)
    (hlength : text.length ≤ 256) (htext : writtenText text = name ++ "=".ascii ++ value)
    (hname : 0x3d ∉ name) :
    file.write P env text s =
      match kstrtou32 value with
      | .error e => (NumeralError.ret e, s)
      | .ok number => textWriteResult text.length
          (policyUpdateField P true env.apply file.namespaceId (some name) number s) := by
  have hcopy : copyWritten env text = .ok (name ++ "=".ascii ++ value) := by
    rw [copyWritten, if_neg henv.writable, if_neg (not_lt.mpr hlength), henv.bufAlloc,
      henv.copyFault, htext]
    rfl
  have hcut : Text.cut 0x3d (name ++ "=".ascii ++ value) = some (name, value) := by
    rw [List.append_assoc]
    exact Text.cut_append hname value
  have hparse : ∀ id, textWriteResult text.length
      (parseAndUpdatePolicy P env (name ++ "=".ascii ++ value) id s) =
        match kstrtou32 value with
        | .error e => (NumeralError.ret e, s)
        | .ok number => textWriteResult text.length
            (policyUpdateField P true env.apply id (some name) number s) := by
    intro id
    simp only [parseAndUpdatePolicy, henv.copyAlloc, hcut, henv.requestAlloc]
    cases kstrtou32 value with
    | error e => simp [textWriteResult, NumeralError.ret_neg e]
    | ok number => rfl
  cases file with
  | globalPolicy =>
      simp only [PolicyFile.write, globalPolicyWrite, hcopy]
      exact hparse none
  | namespacePolicy id =>
      simp only [PolicyFile.write, policyUpdateWrite, hcopy]
      exact hparse (some id)

theorem PolicyFile.write_of_long (file : PolicyFile) (henv : env.Succeeds s.engine)
    (hlength : 256 < text.length) : file.write P env text s = (-einval, s) := by
  have hcopy : copyWritten env text = .error (-einval) := by
    rw [copyWritten, if_neg henv.writable, if_pos hlength]
  cases file <;> simp only [write, globalPolicyWrite, policyUpdateWrite, hcopy]

end Write

/-- An accepted edit of a namespace leaves what edits of other records start from. -/
theorem editBase_of_value {state next : PolicyState} {id other : Bytes} {new : PolicySnapshot}
    (hvalue : next.store.value = Function.update state.store.value id (some new)) (hid : id ≠ [])
    (hother : other ≠ id) : next.editBase other = state.editBase other := by
  rw [PolicyState.editBase, PolicyState.editBase, hvalue, Function.update_of_ne hother,
    root_of_value hvalue hid]

/-- A write by user space that the host does not fail. -/
def workingTextWrite : TextWriteEnv := ⟨1, true, false, true, true, workingApply⟩

theorem workingTextWrite_succeeds {s : CommitState} (hanchored : s.hardwareAnchored = true)
    (hpcr : s.tpmPcrIndex = 10) : workingTextWrite.Succeeds s :=
  ⟨by decide, rfl, rfl, rfl, rfl, workingApply_succeeds hanchored hpcr⟩

theorem PolicyFile.mem_lines {file : PolicyFile} (hfile : file.Named) {config : PolicyConfig}
    {generation : UInt64} {metadata : PolicyNamespace} {line : Bytes}
    (h : line ∈ file.lines config generation metadata) :
    (∃ f : ScalarField, line = f.text ++ "=".ascii ++ f.numeral config ++ [Text.lineFeed]) ∨
      ∃ name value, line = name ++ "=".ascii ++ value ++ [Text.lineFeed] ∧ 0 ∉ name ∧ 0 ∉ value ∧
        0x3d ∉ name ∧ ∀ f : ScalarField, f.text ≠ name := by
  have hdecimal (n : ℕ) : 0 ∉ Text.decimal n := Text.notMem_decimal (.inl (by decide)) n
  cases file with
  | globalPolicy =>
      simp only [lines, globalPolicyLines, fieldLine, List.mem_cons, List.not_mem_nil,
        or_false] at h
      rcases h with rfl | rfl | rfl | rfl | rfl | rfl | rfl
      · refine .inr ⟨_, _, rfl, by decide, hdecimal _, by decide, ?_⟩
        intro f
        cases f <;> decide
      · exact .inl ⟨.enabled, rfl⟩
      · exact .inl ⟨.filterFlags, rfl⟩
      · exact .inl ⟨.actionFlags, rfl⟩
      · exact .inl ⟨.minFileSize, rfl⟩
      · refine .inr ⟨_, _, rfl, by decide, hdecimal _, by decide, ?_⟩
        intro f
        cases f <;> decide
      · exact .inl ⟨.logLevel, rfl⟩
  | namespacePolicy id =>
      obtain ⟨-, -, hzero⟩ := validNamespace_spec (hfile id rfl)
      simp only [lines, policyLines, fieldLine, List.mem_cons, List.not_mem_nil, or_false] at h
      rcases h with rfl | rfl | rfl | rfl | rfl | rfl | rfl | rfl | rfl
      · refine .inr ⟨_, _, rfl, by decide, hzero, by decide, ?_⟩
        intro f
        cases f <;> decide
      · refine .inr ⟨_, _, rfl, by decide, hdecimal _, by decide, ?_⟩
        intro f
        cases f <;> decide
      · exact .inl ⟨.filterFlags, rfl⟩
      · exact .inl ⟨.actionFlags, rfl⟩
      · exact .inl ⟨.minFileSize, rfl⟩
      · exact .inl ⟨.logLevel, rfl⟩
      · exact .inl ⟨.enabled, rfl⟩
      · refine .inr ⟨_, _, rfl, by decide, zero_notMem_cstr _, by decide, ?_⟩
        intro f
        cases f <;> decide
      · refine .inr ⟨_, _, rfl, by decide, Text.notMem_hexEncode (by decide) _, by decide, ?_⟩
        intro f
        cases f <;> decide

/-- The line edits a field, in the form in which the files print it. -/
def EditsField (line : Bytes) : Prop := ∃ f : ScalarField, f.text ++ "=".ascii <+: line

theorem not_editsField {name value : Bytes} (hname : 0x3d ∉ name)
    (hfields : ∀ f : ScalarField, f.text ≠ name) :
    ¬ EditsField (name ++ "=".ascii ++ value ++ [Text.lineFeed]) := by
  rintro ⟨f, rest, hrest⟩
  have hleft : Text.cut 0x3d (f.text ++ "=".ascii ++ rest) = some (f.text, rest) := by
    rw [List.append_assoc]
    exact Text.cut_append f.equals_notMem_text rest
  have hright : Text.cut 0x3d (name ++ "=".ascii ++ value ++ [Text.lineFeed]) =
      some (name, value ++ [Text.lineFeed]) := by
    simp only [List.append_assoc]
    exact Text.cut_append hname _
  rw [← hrest, hleft] at hright
  exact hfields f (Prod.ext_iff.mp (Option.some.inj hright)).1

theorem editBase_congr {state next : PolicyState} (h : next.store.value = state.store.value)
    (id : Bytes) : next.editBase id = state.editBase id := by
  have hroot : next.root = state.root := by
    have heq := congrFun h []
    rw [value_store_root, value_store_root, Option.some_inj] at heq
    exact heq
  rw [PolicyState.editBase, PolicyState.editBase, h, hroot]

/-- Storing what an edit would start from changes no such snapshot. -/
theorem editBase_of_rebased {state next : PolicyState} (hwf : state.WellFormed) {id : Bytes}
    {f : ScalarField}
    (haccepted : state.editRefusal id f (f.get (state.editBase id).config) = none)
    (hvalue : next.store.value = Function.update state.store.value id
      (some (f.edit (state.editBase id) (f.get (state.editBase id).config)))) (other : Bytes) :
    next.editBase other = state.editBase other := by
  by_cases hother : other = id
  · rw [hother, (second_edit hwf haccepted hvalue).1, f.edit_get]
  · by_cases hid : id = []
    · refine editBase_congr ?_ other
      rw [hvalue, f.edit_get, hid, editBase_root]
      exact Function.update_eq_self_iff.mpr (value_store_root state).symm
    · exact editBase_of_value hvalue hid hother

/-- The outcomes of an edit that writes back the value a file shows. -/
theorem EditOutcome.rewritten {s t : KernelState} {m : ℕ} {id : Bytes} {f : ScalarField} {ret : Ret}
    (hs : Editable m s)
    (h : EditOutcome s m id f (f.get ((s.maps m).active.editBase id).config) ret t) :
    (∀ other, (t.maps m).active.editBase other = (s.maps m).active.editBase other) ∧
      (ret = 0 ∨ ret = -enospc ∧ (s.maps m).active.store.value id = none ∧
          (s.maps m).active.namespaceCount = 32 ∨
        ret = -eoverflow ∧ (s.maps m).generation = 0xffffffffffffffff) := by
  have hwf := hs.published.active_wellFormed
  cases h with
  | refused hrefusal =>
      rw [hwf.editRefusal_get] at hrefusal
      split at hrefusal
      · rename_i hroom
        exact ⟨fun _ => rfl, .inr (.inl ⟨(Option.some.inj hrefusal).symm,
          candidateFor_eq_none hroom⟩)⟩
      · cases hrefusal
  | same namespaces => exact ⟨fun _ => rfl, .inl rfl⟩
  | exhausted namespaces haccepted hchanged hmax => exact ⟨fun _ => rfl, .inr (.inr ⟨rfl, hmax⟩)⟩
  | published haccepted hmax hgeneration hvalue =>
      exact ⟨editBase_of_rebased hwf haccepted hvalue, .inl rfl⟩

namespace Editable

variable {P : Platform} {m : ℕ} {s : KernelState} {file : PolicyFile} {env : TextWriteEnv}

/-- Writing back the line of an editable field. -/
theorem write_back (h : Editable m s) (hfile : file.Named) (henv : env.Succeeds s.engine)
    (f : ScalarField) {line : Bytes}
    (hline : line = f.text ++ "=".ascii ++
      f.numeral ((s.maps m).active.editBase file.record).config ++ [Text.lineFeed]) :
    (∀ other : PolicyFile, other.config (file.write P env line s).2 = other.config s) ∧
      ((file.write P env line s).1 = line.length ∨
        (file.write P env line s).1 = -enospc ∧ (s.maps m).active.store.value file.record = none ∧
          (s.maps m).active.namespaceCount = 32 ∨
        (file.write P env line s).1 = -eoverflow ∧ (s.maps m).generation = 0xffffffffffffffff) := by
  obtain ⟨hshort, hnul⟩ := f.numeral_spec ((s.maps m).active.editBase file.record).config
  obtain ⟨hshort', hnul'⟩ := f.text_spec
  have hlength : line.length ≤ 256 := by
    rw [hline]
    simp [String.ascii]
    omega
  have hwrite := file.write_of_written (P := P) henv hlength
    (hline ▸ writtenText_line hnul' hnul) f.equals_notMem_text
  simp only [f.kstrtou32_numeral] at hwrite
  have houtcome := h.edit (P := P) file.namespaceId hfile henv.apply f
    (f.get ((s.maps m).active.editBase file.record).config)
  have hnext := h.step (P := P) file.namespaceId hfile henv.apply f
    (f.get ((s.maps m).active.editBase file.record).config)
  obtain ⟨hbase, hret⟩ := houtcome.rewritten h
  simp only [kernelStep, editOp] at hnext hbase hret
  rw [hwrite, textWriteResult]
  refine ⟨fun other => ?_, ?_⟩
  · rw [hnext.config_eq other, h.config_eq other, hbase]
  · rcases hret with hret | ⟨hret, hroom⟩ | ⟨hret, hmax⟩
    · exact .inl (by rw [hret]; rfl)
    · exact .inr (.inl ⟨by rw [hret]; rfl, hroom⟩)
    · exact .inr (.inr ⟨by rw [hret]; rfl, hmax⟩)

/-- Writing a line of anything else. -/
theorem write_unknown (h : Editable m s) (hfile : file.Named) (henv : env.Succeeds s.engine)
    {name value : Bytes} (hname : 0 ∉ name) (hvalue : 0 ∉ value) (hequals : 0x3d ∉ name)
    (hfields : ∀ f : ScalarField, f.text ≠ name) :
    ∃ ret, (ret = -einval ∨ ret = -erange) ∧
      file.write P env (name ++ "=".ascii ++ value ++ [Text.lineFeed]) s = (ret, s) := by
  by_cases hlength : (name ++ "=".ascii ++ value ++ [Text.lineFeed]).length ≤ 256
  · rw [file.write_of_written henv hlength (writtenText_line hname hvalue) hequals]
    cases kstrtou32 value with
    | error e =>
        refine ⟨_, ?_, rfl⟩
        cases e with
        | malformed => exact .inl rfl
        | range => exact .inr rfl
    | ok number =>
        refine ⟨-einval, .inl rfl, ?_⟩
        simp only [policyUpdateField_unknown h.bound hfile hfields]
        rfl
  · exact ⟨-einval, .inl rfl, file.write_of_long henv (not_le.mp hlength)⟩

end Editable

/-- Writing any line that a policy file shows back to it changes no configuration: a line of an
editable field is accepted, unless there is no room for a first record of the namespace or no
generation left, and any other line is refused. -/
theorem policy_file_get_put (P : Platform) (maps : ℕ → BpfMap) (tpmPcrIndex : ℤ)
    (ops : List KernelOp) (s : KernelState) (hs : s = kernelRun P maps tpmPcrIndex ops) (m : ℕ)
    (hbound : s.policyMap = some m) (hlatched : s.engine.commitError = 0) (file : PolicyFile)
    (hfile : file.Named) (env : TextWriteEnv) (henv : env.Succeeds s.engine) :
    ∃ config generation metadata,
      (file.read true s).1 = .ok (file.lines config generation metadata).flatten ∧
      ∀ line ∈ file.lines config generation metadata,
        (∀ other : PolicyFile,
          other.config (file.write P env line (file.read true s).2).2 = other.config s) ∧
        (EditsField line →
          (file.write P env line (file.read true s).2).1 = line.length ∨
          (file.write P env line (file.read true s).2).1 = -enospc ∧
            (s.maps m).active.store.value file.record = none ∧
            (s.maps m).active.namespaceCount = 32 ∨
          (file.write P env line (file.read true s).2).1 = -eoverflow ∧
            (s.maps m).generation = 0xffffffffffffffff) ∧
        (¬ EditsField line →
          ((file.write P env line (file.read true s).2).1 = -einval ∨
            (file.write P env line (file.read true s).2).1 = -erange) ∧
          (file.write P env line (file.read true s).2).2 = (file.read true s).2) := by
  have hedit : Editable m s := by
    subst hs
    exact .of_run hbound hlatched
  have hread := hedit.read file true
  obtain ⟨namespaces, hstate⟩ := Editable.read_state file true s
  obtain ⟨generation, metadata, hshows⟩ := hedit.shows hfile
  refine ⟨_, generation, metadata, hshows, fun line hline => ?_⟩
  -- The read may have created a namespace; the map and the engine are as before.
  have hmaps : ((file.read true s).2.maps m) = s.maps m := by rw [hstate]
  have hconfig (other : PolicyFile) : other.config (file.read true s).2 = other.config s := by
    rw [hread.config_eq other, hedit.config_eq other, hmaps]
  have henv' : env.Succeeds (file.read true s).2.engine := by
    rw [hstate]
    exact henv
  rcases PolicyFile.mem_lines hfile hline with ⟨f, hscalar⟩ | ⟨name, value, rfl, hname, hvalue,
    hequals, hfields⟩
  · have hline' : line = f.text ++ "=".ascii ++
        f.numeral (((file.read true s).2.maps m).active.editBase file.record).config ++
          [Text.lineFeed] := by rw [hmaps, hscalar]
    obtain ⟨hsame, hret⟩ := hread.write_back (P := P) hfile henv' f hline'
    rw [hmaps] at hret
    refine ⟨fun other => (hsame other).trans (hconfig other), fun _ => hret,
      fun hnot => absurd ⟨f, ?_⟩ hnot⟩
    rw [hscalar, List.append_assoc (f.text ++ "=".ascii)]
    exact List.prefix_append _ _
  · obtain ⟨ret, hret, hwrite⟩ := hread.write_unknown (P := P) hfile henv' hname hvalue hequals
      hfields
    rw [hwrite]
    refine ⟨hconfig, fun hedits => absurd hedits (not_editsField hequals hfields), fun _ => ?_⟩
    exact ⟨hret, rfl⟩

theorem policy_file_get_put_extendedManager :
    ∃ config generation metadata,
      (PolicyFile.globalPolicy.read true extendedManager).1 =
          .ok (PolicyFile.globalPolicy.lines config generation metadata).flatten ∧
        ∀ line ∈ PolicyFile.globalPolicy.lines config generation metadata, ∀ other : PolicyFile,
          other.config (PolicyFile.globalPolicy.write referencePlatform workingTextWrite line
            (PolicyFile.globalPolicy.read true extendedManager).2).2 =
            other.config extendedManager := by
  have hstate : extendedManager.policyMap = some 0 ∧ extendedManager.engine.commitError = 0 ∧
      extendedManager.engine.hardwareAnchored = true ∧
      extendedManager.engine.tpmPcrIndex = 10 := by decide +kernel
  obtain ⟨hbound, hlatched, hanchored, hpcr⟩ := hstate
  obtain ⟨config, generation, metadata, hread, hlines⟩ := policy_file_get_put referencePlatform
    (fun _ => unboundPolicyMap) 10
    [.policyBindMap workingBind, .policyApply workingApply (some verboseRequest)] extendedManager
    rfl 0 hbound hlatched .globalPolicy (by decide) workingTextWrite
    (workingTextWrite_succeeds hanchored hpcr)
  exact ⟨config, generation, metadata, hread, fun line hline => (hlines line hline).1⟩

end BpfIma
