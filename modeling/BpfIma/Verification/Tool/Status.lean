import BpfIma.Model.PolicyAuthority

/-! # The id in the status

The tool reads the id of the bound map in the text that the module prints, in pieces of at most 255
bytes. It finds that id, whatever the other fields show. -/

namespace BpfIma

open CString

variable {line rest : Bytes}

/-- One call reads the line, or as much of it as there is room for. -/
theorem fgets_line (hline : Text.lineFeed ∉ line) (rest : Bytes) :
    Text.fgets 256 (line ++ Text.lineFeed :: rest) =
      if line.length < 255 then line ++ [Text.lineFeed] else line.take 255 := by
  unfold Text.fgets
  split_ifs with hshort
  · have htake : (line ++ Text.lineFeed :: rest).take 255 =
        line ++ Text.lineFeed :: rest.take (254 - line.length) := by
      rw [List.take_append, List.take_of_length_le (by omega),
        show 255 - line.length = 254 - line.length + 1 by omega, List.take_succ_cons]
    simp only [Nat.add_one_sub_one, htake, Text.cut_append hline]
  · have htake : (line ++ Text.lineFeed :: rest).take 255 = line.take 255 :=
      List.take_append_of_le_length (by omega)
    have hnone : Text.lineFeed ∉ line.take 255 := fun hmem => hline (List.mem_of_mem_take hmem)
    simp only [Nat.reduceSub, htake, Text.cut_eq_none hnone]

theorem drop_line (line rest : Bytes) :
    (line ++ Text.lineFeed :: rest).drop (line ++ [Text.lineFeed]).length = rest := by
  rw [List.append_cons line Text.lineFeed rest, List.drop_left]

theorem mapIdLabel_eq : mapIdLabel = 0x70 :: "olicy_map_id=".ascii := by decide

/-- A line that does not show the id is passed over. -/
theorem boundId_pass {fuel : ℕ} {text piece : Bytes} (htext : text ≠ [])
    (hpiece : Text.fgets 256 text = piece) (hlabel : mapIdLabel.isPrefixOf piece = false) :
    boundId (fuel + 1) text = boundId fuel (text.drop piece.length) := by
  have hnone : Numerals.sscanfU mapIdLabel piece = none := by
    rw [Numerals.sscanfU, hlabel]
    rfl
  rw [boundId, if_neg htext, hpiece]
  simp only [hnone]

/-- The rest of a long line is passed over as well, since no piece of it starts with the label. -/
theorem boundId_rest (hline : Text.lineFeed ∉ line) (hlabel : (0x70 : UInt8) ∉ line) {fuel : ℕ}
    (hfuel : line.length + 1 + rest.length ≤ fuel) :
    ∃ left, rest.length ≤ left ∧
      boundId fuel (line ++ Text.lineFeed :: rest) = boundId left rest := by
  induction fuel generalizing line with
  | zero => omega
  | succ fuel ih =>
      have htext : line ++ Text.lineFeed :: rest ≠ [] := by simp
      have hstart (piece : Bytes) (hpiece : (0x70 : UInt8) ∉ piece) :
          mapIdLabel.isPrefixOf piece = false := by
        rw [mapIdLabel_eq]
        cases piece with
        | nil => rfl
        | cons c piece =>
            have hc : c ≠ 0x70 := fun heq => hpiece (heq ▸ List.mem_cons_self)
            rw [List.isPrefixOf_cons_cons, beq_eq_false_iff_ne.mpr hc.symm, Bool.false_and]
      by_cases hshort : line.length < 255
      · have hpiece := (fgets_line hline rest).trans (if_pos hshort)
        have hmiss : (0x70 : UInt8) ∉ line ++ [Text.lineFeed] := by
          rw [List.mem_append, not_or]
          exact ⟨hlabel, by decide⟩
        refine ⟨fuel, by omega, ?_⟩
        rw [boundId_pass htext hpiece (hstart _ hmiss), drop_line]
      · have hpiece := (fgets_line hline rest).trans (if_neg hshort)
        have hmiss : (0x70 : UInt8) ∉ line.take 255 :=
          fun hmem => hlabel (List.mem_of_mem_take hmem)
        have hleft : (line ++ Text.lineFeed :: rest).drop (line.take 255).length =
            line.drop 255 ++ Text.lineFeed :: rest := by
          rw [List.length_take, min_eq_left (by omega), List.drop_append_of_le_length (by omega)]
        rw [boundId_pass htext hpiece (hstart _ hmiss), hleft]
        refine ih (fun hmem => hline (List.mem_of_mem_drop hmem))
          (fun hmem => hlabel (List.mem_of_mem_drop hmem)) ?_
        rw [List.length_drop]
        omega

/-- A field of the status with another label. -/
theorem boundId_field {head value : Bytes} (hhead : head.length ≤ 255)
    (hline : Text.lineFeed ∉ head ++ value) (hlabel : (0x70 : UInt8) ∉ value)
    (hother : ∀ tail, mapIdLabel.isPrefixOf (head ++ tail) = false) {fuel : ℕ}
    (hfuel : (head ++ value).length + 1 + rest.length ≤ fuel) :
    ∃ left, rest.length ≤ left ∧
      boundId fuel (head ++ value ++ Text.lineFeed :: rest) = boundId left rest := by
  obtain ⟨fuel, rfl⟩ : ∃ n, fuel = n + 1 := ⟨fuel - 1, by omega⟩
  have htext : head ++ value ++ Text.lineFeed :: rest ≠ [] := by simp
  by_cases hshort : (head ++ value).length < 255
  · have hpiece := (fgets_line hline rest).trans (if_pos hshort)
    refine ⟨fuel, by omega, ?_⟩
    rw [boundId_pass htext hpiece (by rw [List.append_assoc]; exact hother _), drop_line]
  · have hpiece := (fgets_line hline rest).trans (if_neg hshort)
    have hcut : (head ++ value).take 255 = head ++ value.take (255 - head.length) := by
      rw [List.take_append, List.take_of_length_le hhead]
    rw [List.length_append] at hshort hfuel
    have hleft : (head ++ value ++ Text.lineFeed :: rest).drop ((head ++ value).take 255).length =
        value.drop (255 - head.length) ++ Text.lineFeed :: rest := by
      rw [List.length_take, List.length_append, min_eq_left (by omega), List.append_assoc,
        List.drop_append, List.drop_of_length_le hhead, List.nil_append,
        List.drop_append_of_le_length (by omega)]
    rw [boundId_pass htext hpiece (by rw [hcut]; exact hother _), hleft]
    refine boundId_rest (fun hmem => hline (List.mem_append_right _ (List.mem_of_mem_drop hmem)))
      (fun hmem => hlabel (List.mem_of_mem_drop hmem)) ?_
    rw [List.length_drop]
    omega

theorem notMem_formatInt {c : UInt8} (hdigit : c.toNat < 48 ∨ 57 < c.toNat) (hsign : c ≠ 0x2d)
    (n : ℤ) : c ∉ formatInt n := by
  unfold formatInt
  split
  · rw [List.mem_append, not_or]
    exact ⟨fun hmem => hsign (List.mem_singleton.mp hmem), Text.notMem_decimal hdigit _⟩
  · exact Text.notMem_decimal hdigit _

/-- A text that differs from the label where both have a byte. -/
theorem isPrefixOf_eq_false {label head : Bytes}
    (h : (label.zip head).any (fun p => p.1 != p.2) = true) (tail : Bytes) :
    label.isPrefixOf (head ++ tail) = false := by
  induction label generalizing head with
  | nil => cases h
  | cons a label ih =>
      cases head with
      | nil => cases h
      | cons b head =>
          rw [List.cons_append, List.isPrefixOf_cons_cons]
          rw [List.zip_cons_cons, List.any_cons, Bool.or_eq_true] at h
          rcases h with hne | hrest
          · rw [beq_eq_false_iff_ne.mpr (bne_iff_ne.mp hne), Bool.false_and]
          · rw [ih hrest, Bool.and_false]

/-- A field that does not show the id, as its label and its value. -/
structure OtherField (field : Bytes × Bytes) : Prop where
  short : field.1.length ≤ 255
  line : Text.lineFeed ∉ field.1 ++ field.2
  value : (0x70 : UInt8) ∉ field.2
  label : (mapIdLabel.zip field.1).any (fun p => p.1 != p.2) = true

theorem boundId_fields {fields : List (Bytes × Bytes)} (h : ∀ field ∈ fields, OtherField field)
    {fuel : ℕ}
    (hfuel : ((fields.flatMap fun f => f.1 ++ f.2 ++ [Text.lineFeed]) ++ rest).length ≤ fuel) :
    ∃ left, rest.length ≤ left ∧
      boundId fuel ((fields.flatMap fun f => f.1 ++ f.2 ++ [Text.lineFeed]) ++ rest) =
        boundId left rest := by
  induction fields generalizing fuel with
  | nil => exact ⟨fuel, hfuel, rfl⟩
  | cons field fields ih =>
      have hfield := h field List.mem_cons_self
      have hsplit : ((field :: fields).flatMap fun f => f.1 ++ f.2 ++ [Text.lineFeed]) ++ rest =
          field.1 ++ field.2 ++ Text.lineFeed ::
            ((fields.flatMap fun f => f.1 ++ f.2 ++ [Text.lineFeed]) ++ rest) := by
        simp only [List.flatMap_cons, List.append_assoc, List.cons_append, List.nil_append]
      rw [hsplit] at hfuel ⊢
      rw [List.length_append, List.length_cons] at hfuel
      obtain ⟨left, hleft, hpassed⟩ := @boundId_field
        ((fields.flatMap fun f => f.1 ++ f.2 ++ [Text.lineFeed]) ++ rest) field.1 field.2
        hfield.short hfield.line hfield.value (isPrefixOf_eq_false hfield.label) fuel (by omega)
      obtain ⟨last, hlast, hrest⟩ := ih (fun f hf => h f (List.mem_cons_of_mem _ hf)) hleft
      exact ⟨last, hlast, hpassed.trans hrest⟩

theorem boundId_label (id : UInt32) {fuel : ℕ}
    (hfuel : (mapIdLabel ++ (Text.decimal id.toNat ++ [Text.lineFeed])).length ≤ fuel) :
    boundId fuel (mapIdLabel ++ (Text.decimal id.toNat ++ [Text.lineFeed])) = id := by
  have hlabel : mapIdLabel.length = 14 ∧ Text.lineFeed ∉ mapIdLabel := by decide
  have hdigits : (Text.decimal id.toNat).length ≤ 10 :=
    Numerals.length_digits_le (show 1 < 10 by decide) 9 (id.toNat_lt.trans (by decide))
  have hline : Text.lineFeed ∉ mapIdLabel ++ Text.decimal id.toNat := by
    rw [List.mem_append, not_or]
    exact ⟨hlabel.2, Text.notMem_decimal (by decide) _⟩
  have hpiece : Text.fgets 256 (mapIdLabel ++ (Text.decimal id.toNat ++ [Text.lineFeed])) =
      mapIdLabel ++ (Text.decimal id.toNat ++ [Text.lineFeed]) := by
    have hread := fgets_line hline []
    rw [if_pos (by rw [List.length_append]; omega)] at hread
    rwa [List.append_assoc] at hread
  obtain ⟨fuel, rfl⟩ : ∃ n, fuel = n + 1 := by
    rw [List.length_append] at hfuel
    exact ⟨fuel - 1, by omega⟩
  rw [boundId, if_neg (by simp), hpiece]
  simp only [Numerals.sscanfU_decimal mapIdLabel id (show Numerals.isDigit Text.lineFeed = false by
    decide) []]

/-- The tool finds the id of the bound map, or zero. -/
theorem boundId_statusShow (ids : ℕ → UInt32) (chip available : Bool) (s : KernelState) :
    boundId (statusShow ids chip available s).1.length (statusShow ids chip available s).1 =
      policyMapId ids s := by
  have hnumber {label : Bytes} (hlabel : label.length ≤ 255 ∧ Text.lineFeed ∉ label ∧
      (mapIdLabel.zip label).any (fun p => p.1 != p.2) = true) (n : ℤ) :
      OtherField (label, formatInt n) := by
    refine ⟨hlabel.1, ?_, notMem_formatInt (by decide) (by decide) n, hlabel.2.2⟩
    rw [List.mem_append, not_or]
    exact ⟨hlabel.2.1, notMem_formatInt (by decide) (by decide) n⟩
  have hword {text : Bytes} (htext : text.length ≤ 255 ∧ Text.lineFeed ∉ text ∧
      (mapIdLabel.zip text).any (fun p => p.1 != p.2) = true) : OtherField (text, []) :=
    ⟨htext.1, by rw [List.append_nil]; exact htext.2.1, List.not_mem_nil, htext.2.2⟩
  -- All fields of `status_show` but the last.
  let fields : List (Bytes × Bytes) :=
    [("module".ascii ++ "=".ascii ++ "bpfima".ascii, []),
      ("pcr_index".ascii ++ "=".ascii, formatInt s.engine.tpmPcrIndex),
      ("tpm_available".ascii ++ "=".ascii ++ (if chip then "yes".ascii else "no".ascii), []),
      ("digest_algorithm".ascii ++ "=".ascii ++ "sha256".ascii, []),
      ("commit_error".ascii ++ "=".ascii, formatInt (commitCheckLocked available s.engine).1),
      ("policy_generation".ascii ++ "=".ascii, formatInt ((policyGeneration s).toNat : ℤ))]
  have hfields : ∀ field ∈ fields, OtherField field := by
    simp only [fields, List.forall_mem_cons, List.not_mem_nil, false_implies, implies_true,
      and_true]
    refine ⟨hword (by decide), hnumber (by decide) _, ?_, hword (by decide), hnumber (by decide) _,
      hnumber (by decide) _⟩
    cases chip with
    | true => exact hword (by decide)
    | false => exact hword (by decide)
  have hlabel : mapIdLabel = "policy_map_id".ascii ++ "=".ascii := by decide
  have htext : (statusShow ids chip available s).1 =
      (fields.flatMap fun f => f.1 ++ f.2 ++ [Text.lineFeed]) ++
        (mapIdLabel ++ (Text.decimal (policyMapId ids s).toNat ++ [Text.lineFeed])) := by
    have hgeneration : formatInt ((policyGeneration s).toNat : ℤ) =
        Text.decimal (policyGeneration s).toNat := rfl
    simp only [statusShow, fieldLine, fields, hgeneration, hlabel, List.flatMap_cons,
      List.flatMap_nil, List.append_nil, List.nil_append, List.append_assoc]
  obtain ⟨left, hleft, hpassed⟩ := boundId_fields hfields (le_refl _)
  rw [htext, hpassed]
  exact boundId_label _ hleft

end BpfIma
