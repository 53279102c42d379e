import BpfIma.Model.PolicyManager

/-! # The text of a policy event

What `publish_policy_locked` hashes and keeps names the generation, what was changed and the
digest of the new snapshot, so that no two events share a text. -/

namespace BpfIma

open CString Text

/-- How a text names the root or a namespace. -/
def eventTarget (id : Bytes) : Bytes := if id = [] then "[root]".ascii else id

/-- The byte between the fields of an event. -/
def fieldSeparator : UInt8 := 0x3a

theorem policyString_eq (generation : UInt64) (id : Bytes) (digest : Digest) :
    policyString generation id digest = "policy_v2".ascii ++ fieldSeparator ::
      (decimal generation.toNat ++ fieldSeparator ::
        (eventTarget id ++ fieldSeparator :: hexEncode digest.toList)) := by
  have hcolon : ":".ascii = [fieldSeparator] := by decide
  have htag : "policy_v2:".ascii = "policy_v2".ascii ++ [fieldSeparator] := by decide
  simp only [policyString, eventTarget, htag, hcolon, List.append_assoc, List.cons_append,
    List.nil_append]

/-! ## Length -/

theorem length_eventTarget_le {id : Bytes} (hid : id.length ≤ namespaceSize) :
    (eventTarget id).length ≤ namespaceSize := by
  unfold eventTarget
  split
  · decide
  · exact hid

/-- The text of an event is short enough to be kept whole. -/
theorem length_policyString_lt {id : Bytes} (hid : id.length ≤ namespaceSize) (generation : UInt64)
    (digest : Digest) : (policyString generation id digest).length < maxPolicyStringSize := by
  have hdigits : (decimal generation.toNat).length ≤ 20 := by
    rw [decimal, List.length_map, Nat.length_toDigits_le_iff (by decide) (by decide)]
    have := generation.toNat_lt
    omega
  have htarget := length_eventTarget_le hid
  have htag : "policy_v2".ascii.length = 9 := by decide
  have hdigest : merkleHashSize = 32 := rfl
  have hsize : namespaceSize = 128 := rfl
  have hmax : maxPolicyStringSize = 512 := rfl
  simp only [policyString_eq, List.length_append, List.length_cons, length_hexEncode,
    List.Vector.toList_length, htag]
  omega

/-! ## Characters -/

theorem zero_notMem_policyString {id : Bytes} (hid : (0 : UInt8) ∉ id) (generation : UInt64)
    (digest : Digest) : (0 : UInt8) ∉ policyString generation id digest := by
  have htarget : (0 : UInt8) ∉ eventTarget id := by
    unfold eventTarget
    split
    · decide
    · exact hid
  simp only [policyString_eq, List.mem_append, List.mem_cons, not_or]
  exact ⟨by decide, by decide, notMem_decimal (by decide) _, by decide, htarget, by decide,
    notMem_hexEncode (by decide) _⟩

theorem cstr_snprintf_policyString {id : Bytes} (hlength : id.length ≤ namespaceSize)
    (hid : (0 : UInt8) ∉ id) (generation : UInt64) (digest : Digest) :
    cstr (snprintf maxPolicyStringSize (policyString generation id digest)) =
      policyString generation id digest :=
  cstr_strscpy (length_policyString_lt hlength generation digest)
    (zero_notMem_policyString hid generation digest)

/-- Neither a space nor a control character. -/
def Graphic (c : UInt8) : Prop := 0x20 < c ∧ c ≠ 127

instance (c : UInt8) : Decidable (Graphic c) := inferInstanceAs (Decidable (_ ∧ _))

theorem graphic_of_range {c : UInt8} (hlow : 48 ≤ c.toNat) (hhigh : c.toNat ≤ 102) : Graphic c := by
  refine ⟨UInt8.lt_iff_toNat_lt.mpr (lt_of_lt_of_le (by decide) hlow), ?_⟩
  rintro rfl
  exact absurd hhigh (by decide)

/-- What an event can name: the root, or a namespace that `valid_namespace` accepts. -/
def EventSubject (id : Bytes) : Prop := id = [] ∨ validNamespace id = true

instance (id : Bytes) : Decidable (EventSubject id) := inferInstanceAs (Decidable (_ ∨ _))

theorem validNamespace_spec {id : Bytes} (h : validNamespace id = true) :
    id.length < namespaceSize ∧ id ≠ [] ∧ 0 ∉ id := by
  simp only [validNamespace, Bool.and_eq_true, decide_eq_true_eq] at h
  obtain ⟨⟨hlength, hvalidate, -⟩, hall⟩ := h
  refine ⟨hlength, ?_, ?_⟩
  · rintro rfl
    exact absurd hvalidate (by decide)
  · intro hz
    simpa using List.all_eq_true.mp hall 0 hz

theorem EventSubject.length_le {id : Bytes} (h : EventSubject id) : id.length ≤ namespaceSize := by
  rcases h with rfl | hvalid
  · simp
  · exact (validNamespace_spec hvalid).1.le

theorem EventSubject.zero_notMem {id : Bytes} (h : EventSubject id) : (0 : UInt8) ∉ id := by
  rcases h with rfl | hvalid
  · simp
  · exact (validNamespace_spec hvalid).2.2

/-- The name of a subject is graphic and holds no separator. -/
theorem EventSubject.mem_eventTarget {id : Bytes} (h : EventSubject id) {c : UInt8}
    (hc : c ∈ eventTarget id) : Graphic c ∧ c ≠ fieldSeparator := by
  rcases h with rfl | hvalid
  · have hroot : ("[root]".ascii.all fun c => decide (Graphic c ∧ c ≠ fieldSeparator)) = true := by
      decide
    exact of_decide_eq_true (List.all_eq_true.mp hroot c hc)
  · rw [eventTarget, if_neg (validNamespace_spec hvalid).2.1] at hc
    simp only [validNamespace, Bool.and_eq_true] at hvalid
    have hallowed := List.all_eq_true.mp hvalid.2 c hc
    simp only [Bool.not_eq_true', Bool.or_eq_false_iff, decide_eq_false_iff_not, UInt8.not_le,
      beq_eq_false_iff_ne] at hallowed
    exact ⟨⟨hallowed.1.1, hallowed.2⟩, hallowed.1.2⟩

theorem EventSubject.eventTarget_inj {id id' : Bytes} (h : EventSubject id) (h' : EventSubject id')
    (heq : eventTarget id = eventTarget id') : id = id' := by
  -- no valid name is the one that stands for the root
  have hroot : ∀ {name : Bytes}, EventSubject name → eventTarget name = "[root]".ascii →
      name = [] := by
    intro name hname htarget
    rcases hname with rfl | hvalid
    · rfl
    · simp only [validNamespace, Bool.and_eq_true, decide_eq_true_eq] at hvalid
      by_contra hne
      rw [eventTarget, if_neg hne] at htarget
      exact hvalid.1.2.2 htarget
  by_cases hid : id = []
  · have htarget : eventTarget id' = "[root]".ascii := by
      rw [← heq, hid]
      rfl
    rw [hid, hroot h' htarget]
  · have hid' : id' ≠ [] := by
      intro hid'
      refine hid (hroot h ?_)
      rw [heq, hid']
      rfl
    rwa [eventTarget, eventTarget, if_neg hid, if_neg hid'] at heq

/-! ## Events are told apart -/

/-- The fields of an event. -/
theorem splitN_policyString {id : Bytes} (hid : EventSubject id) (generation : UInt64)
    (digest : Digest) :
    splitN fieldSeparator 4 (policyString generation id digest) =
      ["policy_v2".ascii, decimal generation.toNat, eventTarget id, hexEncode digest.toList] := by
  have htarget : fieldSeparator ∉ eventTarget id := fun hc => (hid.mem_eventTarget hc).2 rfl
  rw [policyString_eq, splitN_append (by decide), splitN_append (notMem_decimal (by decide) _),
    splitN_append htarget]
  rfl

theorem graphic_of_mem_policyString {id : Bytes} (hid : EventSubject id) {generation : UInt64}
    {digest : Digest} {c : UInt8} (hc : c ∈ policyString generation id digest) : Graphic c := by
  simp only [policyString_eq, List.mem_append, List.mem_cons] at hc
  have htag : ("policy_v2".ascii.all fun c => decide (Graphic c)) = true := by decide
  have hseparator : Graphic fieldSeparator := by decide
  rcases hc with hc | rfl | hc | rfl | hc | rfl | hc
  · exact of_decide_eq_true (List.all_eq_true.mp htag c hc)
  · exact hseparator
  · have hdigit : ¬ (c.toNat < 48 ∨ 57 < c.toNat) := fun h => notMem_decimal h _ hc
    exact graphic_of_range (by omega) (by omega)
  · exact hseparator
  · exact (hid.mem_eventTarget hc).1
  · exact hseparator
  · obtain ⟨hlow, hhigh⟩ := mem_hexEncode hc
    exact graphic_of_range hlow hhigh

/-- Policy event preimages are unambiguous: the text fits its buffer, is graphic, and tells
generation, target and digest. -/
theorem policyString_unambiguous (generation generation' : UInt64) (id id' : Bytes)
    (digest digest' : Digest) (hid : EventSubject id) (hid' : EventSubject id') :
    cstr (snprintf maxPolicyStringSize (policyString generation id digest)) =
        policyString generation id digest ∧
      (∀ c ∈ policyString generation id digest, Graphic c) ∧
      (cstr (snprintf maxPolicyStringSize (policyString generation id digest)) =
          cstr (snprintf maxPolicyStringSize (policyString generation' id' digest')) →
        generation = generation' ∧ id = id' ∧ digest = digest') := by
  have hkept := cstr_snprintf_policyString hid.length_le hid.zero_notMem generation digest
  have hkept' := cstr_snprintf_policyString hid'.length_le hid'.zero_notMem generation' digest'
  refine ⟨hkept, fun c hc => graphic_of_mem_policyString hid hc, fun heq => ?_⟩
  rw [hkept, hkept'] at heq
  have hfields := congrArg (splitN fieldSeparator 4) heq
  rw [splitN_policyString hid, splitN_policyString hid'] at hfields
  simp only [List.cons.injEq, true_and, and_true] at hfields
  obtain ⟨hgeneration, htarget, hdigest⟩ := hfields
  refine ⟨?_, hid.eventTarget_inj hid' htarget, ?_⟩
  · have hnat := congrArg parseDecimal hgeneration
    rw [parseDecimal_decimal, parseDecimal_decimal] at hnat
    exact UInt64.toNat_inj.mp hnat
  · have hbytes := congrArg hexDecode hdigest
    rw [hexDecode_hexEncode, hexDecode_hexEncode] at hbytes
    exact List.Vector.toList_injective (Except.ok.inj hbytes)

theorem policyString_unambiguous_root_web :
    EventSubject [] ∧ EventSubject "web".ascii ∧
      cstr (snprintf maxPolicyStringSize (policyString 1 [] zeroDigest)) ≠
        cstr (snprintf maxPolicyStringSize (policyString 1 "web".ascii zeroDigest)) := by
  have hroot : EventSubject [] := by decide
  have hweb : EventSubject "web".ascii := by decide
  refine ⟨hroot, hweb, fun heq => ?_⟩
  obtain ⟨-, -, hsame⟩ :=
    policyString_unambiguous 1 1 [] "web".ascii zeroDigest zeroDigest hroot hweb
  exact absurd (hsame heq).2.1 (by decide)

end BpfIma
