import BpfIma.Model.Hooks
import BpfIma.Verification.Policy.Coverage

/-! # Attribute changes

What `build_attributes` writes, and which attribute changes the `inode_setattr` hook submits. -/

namespace BpfIma

open CString Errno

/-! ## The list of attributes -/

/-- The attributes that a change can set, as the list of a measurement shows them. -/
def Iattr.attributes (attr : Iattr) : List (UInt32 × Bytes) :=
  [(Attr.mode, "mode=".ascii ++ Text.decimal attr.iaMode.toNat),
    (Attr.uid, "uid=".ascii ++ Text.decimal attr.iaUid.toNat),
    (Attr.gid, "gid=".ascii ++ Text.decimal attr.iaGid.toNat),
    (Attr.size, "size=".ascii ++ Text.decimal attr.iaSize.toNat),
    (Attr.killPriv, "kill_priv=1".ascii),
    (Attr.killSuid, "kill_suid=1".ascii),
    (Attr.killSgid, "kill_sgid=1".ascii)]

/-- Those that are set. -/
def Iattr.selected (attr : Iattr) : List Bytes :=
  (attr.attributes.filter fun a => attr.iaValid &&& a.1 ≠ 0).map Prod.snd

/-- The complete list of a change, separated by commas. -/
def Iattr.list (attr : Iattr) : Bytes := List.intercalate ",".ascii attr.selected

/-! ## Appending -/

/-- The bytes are written one after the other from `position` on. -/
theorem appendLoop_of_fits {n : ℕ} (buf : Buffer n) {position : ℕ} {bytes : Bytes}
    (h : position + bytes.length ≤ n) :
    (appendLoop buf position bytes).1 = true ∧
      (appendLoop buf position bytes).2.toList.take (position + bytes.length) =
        buf.toList.take position ++ bytes := by
  induction bytes generalizing buf position with
  | nil => simp [appendLoop]
  | cons c cs ih =>
      rw [List.length_cons] at h
      have hposition : position < n := by omega
      have hfits : position + 1 + cs.length ≤ n := by omega
      obtain ⟨hrange, htake⟩ := ih (buf.set ⟨position, hposition⟩ c) hfits
      have hset : (buf.set ⟨position, hposition⟩ c).toList.take (position + 1) =
          buf.toList.take position ++ [c] := by
        have hlength : position < (buf.toList.set position c).length := by simpa using hposition
        rw [List.Vector.toList_set, List.take_succ_eq_append_getElem hlength,
          List.take_set_of_le le_rfl, List.getElem_set_self]
      rw [appendLoop, dif_pos hposition]
      refine ⟨hrange, ?_⟩
      rw [List.length_cons, Nat.add_comm cs.length, ← Nat.add_assoc, htake, hset, List.append_assoc,
        List.singleton_append]

/-- The offset and the buffer after `text` was appended to an empty one. -/
def Written {n : ℕ} (text : Bytes) (state : ℤ × Buffer n) : Prop :=
  if text.length < n then
    state.1 = text.length ∧ state.2.toList.take text.length = text
  else state.1 = -1

theorem bpfSnprintf_eq (n : ℕ) (fmt : Bytes) (val : UInt64) :
    ∃ needed formatted, bpfSnprintf n fmt val = (needed, formatted) ∧
      needed = (formatLlu fmt val).length + 1 ∧ formatted = snprintf n (formatLlu fmt val) :=
  ⟨_, _, rfl, rfl, rfl⟩

theorem appendAttr_of_exceeds {n : ℕ} (buf : Buffer n) {off : ℕ} {fmt : Bytes} {val : UInt64}
    (h : n ≤ off + (formatLlu fmt val).length) : appendAttr buf off fmt val = (-1, buf) := by
  obtain ⟨needed, formatted, hcall, hneeded, -⟩ := bpfSnprintf_eq 64 fmt val
  by_cases hoff : (off : ℤ) ≥ n
  · rw [appendAttr, if_pos (.inr hoff)]
  · simp only [appendAttr, hcall]
    rw [if_neg (by omega), if_pos (by omega)]

theorem appendAttr_of_fits {n : ℕ} (buf : Buffer n) {off : ℕ} {fmt : Bytes} {val : UInt64}
    (hn : n ≤ 64) (h : off + (formatLlu fmt val).length < n) :
    appendAttr buf off fmt val =
      (((off + (formatLlu fmt val).length : ℕ) : ℤ),
        (appendLoop buf off (formatLlu fmt val ++ [0])).2) := by
  obtain ⟨needed, formatted, hcall, hneeded, hformatted⟩ := bpfSnprintf_eq 64 fmt val
  have hcopied : formatted.toList.take needed.toNat = formatLlu fmt val ++ [0] := by
    have hnat : needed.toNat = (formatLlu fmt val).length + 1 := by omega
    have hlength : (formatLlu fmt val).length < 64 := by omega
    rw [hformatted, hnat, snprintf, toList_strscpy hlength, List.take_append]
    simp
  have hrange : (appendLoop buf off (formatLlu fmt val ++ [0])).1 = true := by
    refine (appendLoop_of_fits buf ?_).1
    rw [List.length_append, List.length_singleton]
    omega
  simp only [appendAttr, hcall]
  rw [if_neg (by omega), if_neg (by omega), Int.toNat_natCast, hcopied,
    if_neg (not_not.mpr hrange)]
  refine Prod.ext ?_ rfl
  change (off : ℤ) + needed - 1 = _
  omega

theorem Written.append {n : ℕ} {text : Bytes} {off : ℤ} {buf : Buffer n}
    (h : Written text (off, buf)) (hn : n ≤ 64) (fmt : Bytes) (val : UInt64) :
    Written (text ++ formatLlu fmt val) (appendAttr buf off fmt val) := by
  rw [Written] at h ⊢
  rw [List.length_append]
  by_cases htext : text.length < n
  · rw [if_pos htext] at h
    obtain ⟨rfl, htake⟩ := h
    by_cases hfits : text.length + (formatLlu fmt val).length < n
    · rw [if_pos hfits, appendAttr_of_fits buf hn hfits]
      refine ⟨rfl, ?_⟩
      have hlength : text.length + (formatLlu fmt val ++ [0]).length ≤ n := by
        rw [List.length_append, List.length_singleton]
        omega
      -- the terminator is written behind the text
      have hloop := congrArg (List.take (text.length + (formatLlu fmt val).length))
        (appendLoop_of_fits buf hlength).2
      rw [List.take_take, min_eq_left (by simp), htake, ← List.append_assoc,
        ← List.length_append, List.take_left] at hloop
      rw [← List.length_append]
      exact hloop
    · rw [if_neg hfits, appendAttr_of_exceeds buf (not_lt.mp hfits)]
  · rw [if_neg htext] at h
    obtain rfl : off = -1 := h
    rw [if_neg (by omega), appendAttr, if_pos (.inl (by decide))]

/-- The fold lemma: the attributes that are set are appended one after the other. -/
theorem Written.fold {n : ℕ} (hn : n ≤ 64) (valid : UInt32)
    (parts : List (UInt32 × Bytes × UInt64)) {text : Bytes} {state : ℤ × Buffer n}
    (h : Written text state) :
    Written (text ++ ((parts.filter fun p => valid &&& p.1 ≠ 0).map
        fun p => formatLlu p.2.1 p.2.2).flatten)
      (parts.foldl
        (fun (off, attrs) (flag, fmt, val) =>
          if valid &&& flag ≠ 0 then appendAttr attrs off fmt val else (off, attrs)) state) := by
  induction parts generalizing text state with
  | nil => simpa using h
  | cons p parts ih =>
      by_cases hset : valid &&& p.1 ≠ 0
      · have hnext := ih (h.append hn p.2.1 p.2.2)
        rw [List.append_assoc] at hnext
        simpa [hset] using hnext
      · have hclear : valid &&& p.1 = 0 := not_not.mp hset
        simpa [hclear] using ih h

/-! ## The whole list -/

theorem formatLlu_value {fmt : Bytes} (label : Bytes)
    (h : strstr fmt "%llu".ascii = some "%llu,".ascii)
    (hlabel : fmt.take (fmt.length - 5) = label) (val : UInt64) :
    formatLlu fmt val = label ++ Text.decimal val.toNat ++ ",".ascii := by
  have hrest : "%llu,".ascii.length = 5 ∧ "%llu,".ascii.drop "%llu".ascii.length = ",".ascii := by
    decide
  simp only [formatLlu, h, hrest, hlabel]

theorem formatLlu_literal {fmt : Bytes} (h : strstr fmt "%llu".ascii = none) (val : UInt64) :
    formatLlu fmt val = fmt := by
  simp only [formatLlu, h]

/-- What the formats of `build_attributes` print. -/
theorem formatLlu_parts (attr : Iattr) :
    attr.parts.map (fun p => (p.1, formatLlu p.2.1 p.2.2)) =
      attr.attributes.map fun a => (a.1, a.2 ++ ",".ascii) := by
  simp only [Iattr.parts, Iattr.attributes, List.map_cons, List.map_nil]
  rw [formatLlu_value "mode=".ascii (by decide) (by decide),
    formatLlu_value "uid=".ascii (by decide) (by decide),
    formatLlu_value "gid=".ascii (by decide) (by decide),
    formatLlu_value "size=".ascii (by decide) (by decide), formatLlu_literal (by decide),
    formatLlu_literal (by decide), formatLlu_literal (by decide), UInt16.toNat_toUInt64,
    UInt32.toNat_toUInt64, UInt32.toNat_toUInt64]
  rfl

theorem formatLlu_selected (attr : Iattr) :
    (attr.parts.filter fun p => attr.iaValid &&& p.1 ≠ 0).map
        (fun p => formatLlu p.2.1 p.2.2) = attr.selected.map (· ++ ",".ascii) := by
  have h := congrArg (fun l => (l.filter fun a => attr.iaValid &&& a.1 ≠ 0).map Prod.snd)
    (formatLlu_parts attr)
  simpa [List.filter_map, Function.comp_def, Iattr.selected] using h

/-- Texts that each end in a separator are separated, with one more at the end. -/
theorem flatten_map_concat {texts : List Bytes} (h : texts ≠ []) (sep : UInt8) :
    (texts.map (· ++ [sep])).flatten = List.intercalate [sep] texts ++ [sep] := by
  induction texts with
  | nil => exact absurd rfl h
  | cons text texts ih =>
      cases texts with
      | nil => simp
      | cons next texts =>
          have hrest := ih (List.cons_ne_nil next texts)
          rw [List.map_cons, List.flatten_cons, hrest, List.intercalate_cons_cons]
          simp

theorem terminateAttributes_of_comma {n : ℕ} {off : ℤ} {attrs : Buffer n} {text : Bytes}
    (hoff : off = text.length + 1) (hfits : text.length + 1 < n)
    (htake : attrs.toList.take (text.length + 1) = text ++ [44]) :
    (terminateAttributes off attrs).1 = text.length ∧
      (terminateAttributes off attrs).2.toList.take text.length = text := by
  have hrange : ¬ (off < 0 ∨ off ≥ n) := by omega
  have hcomma : attrs.toList[text.length]? = some 44 := by
    have h := congrArg (fun l : Bytes => l[text.length]?) htake
    simpa [List.getElem?_take] using h
  have hindex : off.toNat - 1 = text.length := by omega
  have hlast : (if off > 0 ∧ attrs.toList[off.toNat - 1]? = some 44 then off - 1 else off) =
      text.length := by
    rw [hindex, if_pos ⟨by omega, hcomma⟩]
    omega
  simp only [terminateAttributes, dif_neg hrange, hlast, List.Vector.toList_set,
    Int.toNat_natCast, true_and]
  rw [List.take_set_of_le le_rfl]
  have h := congrArg (List.take text.length) htake
  rwa [List.take_take, min_eq_left (Nat.le_succ _), List.take_left] at h

theorem buildAttributes_spec (attr : Iattr) (hset : attr.selected ≠ []) :
    if attr.list.length ≤ 62 then
      (buildAttributes (CString.zero 64) (some attr)).1 = attr.list.length ∧
        (buildAttributes (CString.zero 64) (some attr)).2.toList.take attr.list.length = attr.list
    else (buildAttributes (CString.zero 64) (some attr)).1 = -1 := by
  have hempty : Written [] ((0 : ℤ), CString.zero 64) := by simp [Written]
  have hwritten := hempty.fold le_rfl attr.iaValid attr.parts
  rw [formatLlu_selected, List.nil_append] at hwritten
  have htext : (attr.selected.map (· ++ ",".ascii)).flatten = attr.list ++ ",".ascii :=
    flatten_map_concat hset 44
  rw [htext] at hwritten
  have hlength : (attr.list ++ ",".ascii).length = attr.list.length + 1 := by
    rw [List.length_append]
    rfl
  generalize hstate : attr.parts.foldl _ ((0 : ℤ), CString.zero 64) = state at hwritten
  have hbuild : buildAttributes (CString.zero 64) (some attr) =
      terminateAttributes state.1 state.2 := by
    rw [← hstate]
    rfl
  rw [hbuild]
  obtain ⟨off, attrs⟩ := state
  rw [Written, hlength] at hwritten
  by_cases hfits : attr.list.length + 1 < 64
  · rw [if_pos hfits] at hwritten
    rw [if_pos (by omega)]
    exact terminateAttributes_of_comma (by simpa using hwritten.1) hfits hwritten.2
  · rw [if_neg hfits] at hwritten
    obtain rfl : off = -1 := hwritten
    rw [if_neg (by omega), terminateAttributes, dif_pos (.inl (show (-1 : ℤ) < 0 by decide))]

/-! ## The hook -/

/-- The attributes that a measurement shows. -/
def Attr.measured : List UInt32 :=
  [Attr.mode, Attr.uid, Attr.gid, Attr.size, Attr.killPriv, Attr.killSuid, Attr.killSgid]

theorem selected_ne_nil {attr : Iattr} (h : ∃ flag ∈ Attr.measured, attr.iaValid &&& flag ≠ 0) :
    attr.selected ≠ [] := by
  obtain ⟨flag, hflag, hset⟩ := h
  have hmeasured : Attr.measured = attr.attributes.map Prod.fst := rfl
  rw [hmeasured] at hflag
  obtain ⟨a, ha, rfl⟩ := List.mem_map.mp hflag
  rw [Iattr.selected, ne_eq, List.map_eq_nil_iff]
  exact List.ne_nil_of_mem (List.mem_filter.mpr ⟨ha, by simpa using hset⟩)

theorem attributes_ne_nil (attr : Iattr) : ∀ a ∈ attr.attributes, a.2 ≠ [] := by
  simp only [Iattr.attributes, List.forall_mem_cons, List.not_mem_nil, false_implies, implies_true,
    and_true]
  refine ⟨?_, ?_, ?_, ?_, by decide, by decide, by decide⟩
  all_goals exact List.append_ne_nil_of_left_ne_nil (by decide) _

theorem list_length_pos {attr : Iattr} (h : attr.selected ≠ []) : 0 < attr.list.length := by
  have htexts : ∀ text ∈ attr.selected, text ≠ [] := by
    intro text htext
    obtain ⟨a, ha, rfl⟩ := List.mem_map.mp htext
    exact attributes_ne_nil attr a (List.mem_filter.mp ha).1
  rw [Iattr.list, List.length_pos_iff]
  generalize attr.selected = texts at h htexts
  cases texts with
  | nil => exact absurd rfl h
  | cons text texts =>
      have hfirst := htexts text List.mem_cons_self
      cases texts with
      | nil => simpa using hfirst
      | cons next texts =>
          rw [List.intercalate_cons_cons]
          simp [hfirst]

/-- A submission fails, or hands on the data of its argument. -/
theorem measurementRequest_cases (env : SubmitEnv) {ctx : MeasurementCtx} {data : Bytes} {len : ℕ}
    (hdata : ctx.additionalData = some data) (hlen : ctx.additionalDataLen = len)
    (hle : len ≤ data.length) :
    measurementRequest env ctx = .error (-1) ∨
      ∃ request, measurementRequest env ctx = .ok request ∧
        request.additionalData.toList.take request.additionalDataLen.toNat = data.take len := by
  unfold measurementRequest
  split
  · exact .inl rfl
  · split
    · exact .inl rfl
    · rename_i hchecks
      split
      · exact .inl rfl
      · simp only
        split
        · exact .inl rfl
        · split
          · exact .inl rfl
          · split
            · exact .inl rfl
            · split
              · exact .inl rfl
              · refine .inr ⟨_, rfl, ?_⟩
                have hsmall : len < 256 := by
                  have hlt : ctx.additionalDataLen < (256 : ℕ) := by
                    simpa using (not_or.mp (not_or.mp hchecks).2).1
                  omega
                have hword : len.toUInt32.toNat = len := by
                  rw [Nat.toUInt32, UInt32.toNat_ofNat']
                  omega
                simp only [hdata, hlen, Int.toNat_natCast, hword, Option.getD_some,
                  List.Vector.toList_mk]
                rw [List.take_take, min_eq_left hsmall.le,
                  List.take_append_of_le_length (by simp [hle]),
                  List.take_take, min_self]

/-- The hook submits the request. -/
def Submits (env : SetattrEnv) (dentry : Option (Option Bytes)) (attr : Option Iattr)
    (previousRet : Ret) (s : KernelState) (request : MeasurementRequest) : Prop :=
  ∃ ctx, setattrMeasurement env dentry attr previousRet s = .ok ctx ∧
    measurementRequest env.submit ctx = .ok request

/-- An overflow of the list is taken for a change without attributes. -/
theorem setattrMeasurement_overflow {env : SetattrEnv} {name : Option Bytes} {attr : Iattr}
    {s : KernelState} (hpolicy : (policyForHook env.policy hookLsmInodeSetattr name 0 0 s).1 = 0)
    (hattributes : (buildAttributes (CString.zero 64) (some attr)).1 = -1) :
    setattrMeasurement env (some name) (some attr) 0 s = .error 0 := by
  simp [setattrMeasurement, hpolicy, hattributes]

/-- For every attribute change that the policy selects: the hook submits the complete list of the
changed attributes or fails, exactly if that list has at most 62 bytes. -/
theorem setattr_measured_iff (P : Platform) (env : SetattrEnv) (name : Option Bytes) (attr : Iattr)
    (s : KernelState) (hset : ∃ flag ∈ Attr.measured, attr.iaValid &&& flag ≠ 0)
    (hpolicy : (policyForHook env.policy hookLsmInodeSetattr name 0 0 s).1 = 0) :
    ((∃ request, Submits env (some name) (some attr) 0 s request ∧
        request.additionalData.toList.take request.additionalDataLen.toNat = attr.list) ∨
      (bpfInodeSetattr P env (some name) (some attr) 0 s).1 < 0) ↔ attr.list.length ≤ 62 := by
  have hattributes := buildAttributes_spec attr (selected_ne_nil hset)
  by_cases hfits : attr.list.length ≤ 62
  · simp only [hfits, iff_true]
    rw [if_pos hfits] at hattributes
    obtain ⟨hlen, hdata⟩ := hattributes
    have hpositive := list_length_pos (selected_ne_nil hset)
    have hle : attr.list.length ≤
        (buildAttributes (CString.zero 64) (some attr)).2.toList.length := by
      rw [List.Vector.toList_length]
      omega
    obtain ⟨ctx, hctx, hctxData, hctxLen⟩ : ∃ ctx,
        setattrMeasurement env (some name) (some attr) 0 s = .ok ctx ∧
        ctx.additionalData = some (buildAttributes (CString.zero 64) (some attr)).2.toList ∧
        ctx.additionalDataLen = attr.list.length := by
      have hreported : ¬ (buildAttributes (CString.zero 64) (some attr)).1 ≤ 0 := by
        rw [hlen]
        exact not_le.mpr (Int.natCast_pos.mpr hpositive)
      simp only [setattrMeasurement, hpolicy, ne_eq, not_true_eq_false, if_false, hreported]
      exact ⟨_, rfl, rfl, hlen⟩
    rcases measurementRequest_cases env.submit hctxData hctxLen hle with
      hfailed | ⟨request, hrequest, hrequestData⟩
    · refine .inr ?_
      simp only [bpfInodeSetattr, hctx, submitMeasurement, hfailed]
      decide
    · exact .inl ⟨request, ⟨ctx, hctx, hrequest⟩, hrequestData.trans hdata⟩
  · simp only [hfits, iff_false]
    rw [if_neg hfits] at hattributes
    have hskipped := setattrMeasurement_overflow hpolicy hattributes
    rintro (⟨request, ⟨ctx, hctx, -⟩, -⟩ | hret)
    · rw [hskipped] at hctx
      cases hctx
    · simp [bpfInodeSetattr, hskipped] at hret

/-- Nothing fails around the hook, in a task whose cgroup is `web`. -/
def workingSetattr : SetattrEnv where
  policy := ⟨true, some "web".ascii, false⟩
  namespaceScratch := true
  submit := ⟨true, true, false, false, false, false,
    ⟨0, true, ⟨true, true, 0, true⟩, ⟨true, true, true, workingCommit⟩⟩⟩

/-- A change of the owner that drops the privileges of the file. -/
def ownerChange (uid gid : UInt32) : Iattr where
  iaValid := Attr.uid ||| Attr.gid ||| Attr.killPriv ||| Attr.killSuid ||| Attr.killSgid
  iaMode := 0
  iaUid := uid
  iaGid := gid
  iaSize := 0

theorem setattr_measured_iff_owner :
    (∃ request, Submits workingSetattr (some (some "data".ascii)) (some (ownerChange 1000 1000)) 0
        extendedManager request ∧
      request.additionalData.toList.take request.additionalDataLen.toNat =
        (ownerChange 1000 1000).list) ∨
      (bpfInodeSetattr referencePlatform workingSetattr (some (some "data".ascii))
        (some (ownerChange 1000 1000)) 0 extendedManager).1 < 0 := by
  refine (setattr_measured_iff referencePlatform workingSetattr (some "data".ascii)
    (ownerChange 1000 1000) extendedManager ⟨Attr.uid, ?_, ?_⟩ ?_).mpr ?_
  all_goals decide +kernel

/-- The owner of a file becomes a user with ten digits: the list has 65 bytes, the hook returns
zero and submits nothing. -/
theorem setattr_unmeasured_owner :
    (policyForHook workingSetattr.policy hookLsmInodeSetattr (some "data".ascii) 0 0
        extendedManager).1 = 0 ∧
      (ownerChange 2000000000 2000000000).list =
        "uid=2000000000,gid=2000000000,kill_priv=1,kill_suid=1,kill_sgid=1".ascii ∧
      (∀ request, ¬ Submits workingSetattr (some (some "data".ascii))
        (some (ownerChange 2000000000 2000000000)) 0 extendedManager request) ∧
      (bpfInodeSetattr referencePlatform workingSetattr (some (some "data".ascii))
        (some (ownerChange 2000000000 2000000000)) 0 extendedManager).1 = 0 := by
  have hpolicy : (policyForHook workingSetattr.policy hookLsmInodeSetattr (some "data".ascii) 0 0
      extendedManager).1 = 0 := by decide +kernel
  have hoverflow : (buildAttributes (CString.zero 64)
      (some (ownerChange 2000000000 2000000000))).1 = -1 := by decide +kernel
  have hskipped := setattrMeasurement_overflow hpolicy hoverflow
  refine ⟨hpolicy, by decide +kernel, ?_, ?_⟩
  · rintro request ⟨ctx, hctx, -⟩
    rw [hskipped] at hctx
    cases hctx
  · rw [bpfInodeSetattr, hskipped]

end BpfIma
