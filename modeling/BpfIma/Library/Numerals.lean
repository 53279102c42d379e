import BpfIma.Library.Text

/-! # Numerals

What the `%u` and `%x` conversions print, and the kernel's `kstrtou32` with automatic base,
which reads both back. -/

namespace Numerals

open CString

/-- The digits of `n` in a base, most significant first. -/
def digits (base n : ℕ) : Bytes := (Nat.toDigits base n).map fun c => UInt8.ofNat c.toNat

/-- `0x%x`. -/
def hexadecimal (n : ℕ) : Bytes := "0x".ascii ++ digits 16 n

def digitValue (base : ℕ) (c : UInt8) : Option ℕ := (Text.fromHexChar c).filter (· < base)

/-- `_parse_integer`: the digits a text starts with, over the number read so far, and the
text behind them. -/
def parseInteger (base : ℕ) : ℕ → Bytes → ℕ × Bytes
  | number, [] => (number, [])
  | number, c :: cs =>
      match digitValue base c with
      | none => (number, c :: cs)
      | some digit => parseInteger base (number * base + digit) cs

/-- `_parse_integer_fixup_radix` for base zero. -/
def fixupRadix (s : Bytes) : ℕ × Bytes :=
  if s[0]? = some 0x30 then
    if s[1]?.map toLower = some 0x78 ∧ (s[2]?.bind Text.fromHexChar).isSome then (16, s.drop 2)
    else (8, s)
  else (10, s)

inductive NumeralError where
  | malformed
  | range
deriving DecidableEq, Repr

def kstrtoull (s : Bytes) : Except NumeralError ℕ :=
  let s := if s[0]? = some 0x2b then s.drop 1 else s
  let (base, s) := fixupRadix s
  let (number, rest) := parseInteger base 0 s
  if 2 ^ 64 ≤ number then .error .range
  else if rest = s then .error .malformed
  else if (if rest[0]? = some 0x0a then rest.drop 1 else rest) ≠ [] then .error .malformed
  else .ok number

def kstrtou32 (s : Bytes) : Except NumeralError UInt32 :=
  match kstrtoull s with
  | .error e => .error e
  | .ok number => if 2 ^ 32 ≤ number then .error .range else .ok (UInt32.ofNat number)

/-- `isspace` in the C locale. -/
def isSpace (c : UInt8) : Bool := c == 0x20 || 9 ≤ c && c ≤ 13

def isDigit (c : UInt8) : Bool := 0x30 ≤ c && c ≤ 0x39

/-- The number that `sscanf` stores for a `%u` behind the literal text `label`: as `strtoul` reads
it, cut to 32 bits; `none` if it stores nothing. -/
def sscanfU (label s : Bytes) : Option UInt32 :=
  if label.isPrefixOf s then
    let s := (s.drop label.length).dropWhile isSpace
    let negative := s[0]? = some 0x2d
    let s := if negative ∨ s[0]? = some 0x2b then s.drop 1 else s
    let digits := s.takeWhile isDigit
    let number := Text.parseDecimal digits
    if digits = [] then none
    else if 2 ^ 64 ≤ number then some (UInt32.ofNat (2 ^ 64 - 1))
    else some (UInt32.ofNat (if negative then 2 ^ 64 - number else number))
  else none

/-! ## Digits -/

theorem fromHexChar_digitChar :
    ∀ n < 16, Text.fromHexChar (UInt8.ofNat n.digitChar.toNat) = some n := by decide

theorem digits_of_lt {base n : ℕ} (h : n < base) :
    digits base n = [UInt8.ofNat n.digitChar.toNat] := by
  rw [digits, Nat.toDigits_of_lt_base h, List.map_singleton]

theorem digits_of_le {base n : ℕ} (hbase : 1 < base) (h : base ≤ n) :
    digits base n = digits base (n / base) ++ digits base (n % base) := by
  rw [digits_of_lt (Nat.mod_lt n (by omega)), digits, Nat.toDigits_of_base_le hbase h,
    List.map_append, List.map_singleton, digits]

/-- A number starts with a digit, which is a zero for zero only. -/
theorem digits_eq_cons {base : ℕ} (hbase : 1 < base) (hle : base ≤ 16) (n : ℕ) :
    ∃ d < base, ∃ rest, digits base n = UInt8.ofNat d.digitChar.toNat :: rest ∧
      (d = 0 → n = 0) := by
  induction n using Nat.strong_induction_on with
  | _ n ih =>
      by_cases h : n < base
      · exact ⟨n, h, [], digits_of_lt h, id⟩
      · obtain ⟨d, hd, rest, heq, hzero⟩ := ih (n / base) (Nat.div_lt_self (by omega) hbase)
        refine ⟨d, hd, rest ++ digits base (n % base), ?_, fun h0 => ?_⟩
        · rw [digits_of_le hbase (not_lt.mp h), heq, List.cons_append]
        · have hpos : 0 < n / base := Nat.div_pos (not_lt.mp h) (by omega)
          have := hzero h0
          omega

theorem digits_ne_nil {base : ℕ} (hbase : 1 < base) (hle : base ≤ 16) (n : ℕ) :
    digits base n ≠ [] := by
  obtain ⟨d, -, rest, heq, -⟩ := digits_eq_cons hbase hle n
  simp [heq]

theorem le_of_mem_digits {base : ℕ} (hbase : 1 < base) (hle : base ≤ 16) {n : ℕ} {c : UInt8}
    (h : c ∈ digits base n) : 48 ≤ c.toNat := by
  have hdigit : ∀ d < 16, 48 ≤ (UInt8.ofNat d.digitChar.toNat).toNat := by decide
  induction n using Nat.strong_induction_on with
  | _ n ih =>
      by_cases hn : n < base
      · rw [digits_of_lt hn, List.mem_singleton] at h
        rw [h]
        exact hdigit n (by omega)
      · rw [digits_of_le hbase (not_lt.mp hn), List.mem_append] at h
        rcases h with h | h
        · exact ih _ (Nat.div_lt_self (by omega) hbase) h
        · exact ih _ (lt_of_lt_of_le (Nat.mod_lt n (by omega)) (not_lt.mp hn)) h

theorem length_digits_le {base : ℕ} (hbase : 1 < base) (k : ℕ) {n : ℕ} (h : n < base ^ (k + 1)) :
    (digits base n).length ≤ k + 1 := by
  induction k generalizing n with
  | zero =>
      rw [digits_of_lt (by simpa using h)]
      simp
  | succ k ih =>
      by_cases hn : n < base
      · rw [digits_of_lt hn]
        simp
      · have hdiv : n / base < base ^ (k + 1) := Nat.div_lt_of_lt_mul (by rwa [← Nat.pow_succ'])
        rw [digits_of_le hbase (not_lt.mp hn), List.length_append,
          digits_of_lt (Nat.mod_lt n (by omega)), List.length_singleton]
        exact Nat.succ_le_succ (ih hdiv)

theorem length_decimal_le (k : ℕ) {n : ℕ} (h : n < 10 ^ (k + 1)) :
    (Text.decimal n).length ≤ k + 1 :=
  length_digits_le (show 1 < 10 by decide) k h

/-- Reading a number back, whatever stands behind it. -/
theorem parseInteger_digits {base : ℕ} (hbase : 1 < base) (hle : base ≤ 16) (n : ℕ)
    (rest : Bytes) : parseInteger base 0 (digits base n ++ rest) = parseInteger base n rest := by
  have hone : ∀ number d, d < base → ∀ rest, parseInteger base number (digits base d ++ rest) =
      parseInteger base (number * base + d) rest := by
    intro number d hd rest
    rw [digits_of_lt hd, List.singleton_append, parseInteger]
    simp [digitValue, fromHexChar_digitChar d (by omega), Option.filter, hd]
  induction n using Nat.strong_induction_on generalizing rest with
  | _ n ih =>
      by_cases h : n < base
      · rw [hone 0 n h, Nat.zero_mul, Nat.zero_add]
      · rw [digits_of_le hbase (not_lt.mp h), List.append_assoc,
          ih _ (Nat.div_lt_self (by omega) hbase), hone _ _ (Nat.mod_lt n (by omega)),
          Nat.div_add_mod']

/-! ## Reading back -/

/-- What may stand behind a number. -/
def IsTail (tail : Bytes) : Prop := tail = [] ∨ tail = [0x0a]

theorem fixupRadix_decimal (n : ℕ) {tail : Bytes} (htail : IsTail tail) :
    ∃ base, 1 < base ∧ base ≤ 16 ∧
      fixupRadix (Text.decimal n ++ tail) = (base, digits base n ++ tail) := by
  obtain ⟨d, hd, rest, heq, hzero⟩ := digits_eq_cons (show 1 < 10 by decide) (by decide) n
  by_cases hn : n = 0
  · refine ⟨8, by decide, by decide, ?_⟩
    subst hn
    rcases htail with rfl | rfl <;> decide
  · have hne : ∀ d < 10, d ≠ 0 → UInt8.ofNat d.digitChar.toNat ≠ 0x30 := by decide
    refine ⟨10, by decide, by decide, ?_⟩
    change fixupRadix (digits 10 n ++ tail) = _
    rw [fixupRadix, heq, if_neg]
    simpa using hne d hd fun h => hn (hzero h)

theorem fixupRadix_hexadecimal (n : ℕ) : fixupRadix (hexadecimal n) = (16, digits 16 n) := by
  obtain ⟨d, hd, rest, heq, -⟩ := digits_eq_cons (show 1 < 16 by decide) (by decide) n
  have hdigit := fromHexChar_digitChar d hd
  rw [hexadecimal, heq]
  simp [fixupRadix, String.ascii, hdigit, toLower]

theorem kstrtou32_of_fixupRadix {s tail : Bytes} {base : ℕ} {n : UInt32} (hbase : 1 < base)
    (hle : base ≤ 16) (hplus : s[0]? ≠ some 0x2b) (htail : IsTail tail)
    (hfix : fixupRadix s = (base, digits base n.toNat ++ tail)) : kstrtou32 s = .ok n := by
  have hlt := n.toNat_lt
  have hfeed : digitValue base 0x0a = none := by
    rw [digitValue]
    rfl
  have hparse : parseInteger base 0 (digits base n.toNat ++ tail) = (n.toNat, tail) := by
    rw [parseInteger_digits hbase hle]
    rcases htail with rfl | rfl
    · rfl
    · simp [parseInteger, hfeed]
  have hread : kstrtoull s = .ok n.toNat := by
    have hprogress : tail ≠ digits base n.toNat ++ tail := by
      intro heq
      exact digits_ne_nil hbase hle _ (List.self_eq_append_left.mp heq)
    simp only [kstrtoull, if_neg hplus, hfix, hparse]
    rw [if_neg (by omega), if_neg hprogress]
    rcases htail with rfl | rfl <;> simp
  rw [kstrtou32, hread]
  simp only
  rw [if_neg (by omega), UInt32.ofNat_toNat]

theorem kstrtou32_decimal_append (n : UInt32) {tail : Bytes} (htail : IsTail tail) :
    kstrtou32 (Text.decimal n.toNat ++ tail) = .ok n := by
  obtain ⟨base, hbase, hle, hfix⟩ := fixupRadix_decimal n.toNat htail
  refine kstrtou32_of_fixupRadix hbase hle (fun h => ?_) htail hfix
  rcases List.mem_append.mp (List.mem_of_getElem? h) with hdigit | hfeed
  · exact Text.notMem_decimal (by decide) n.toNat hdigit
  · rcases htail with rfl | rfl <;> simp at hfeed

@[simp] theorem kstrtou32_decimal (n : UInt32) : kstrtou32 (Text.decimal n.toNat) = .ok n := by
  have hnothing : IsTail [] := .inl rfl
  simpa using kstrtou32_decimal_append n hnothing

@[simp] theorem kstrtou32_hexadecimal (n : UInt32) : kstrtou32 (hexadecimal n.toNat) = .ok n := by
  have hfix : fixupRadix (hexadecimal n.toNat) = (16, digits 16 n.toNat ++ []) := by
    rw [fixupRadix_hexadecimal, List.append_nil]
  exact kstrtou32_of_fixupRadix (by decide) (by decide) (by simp [hexadecimal, String.ascii])
    (.inl rfl) hfix

/-! ## Scanning -/

theorem isDigit_of_mem_decimal {c : UInt8} {n : ℕ} (h : c ∈ Text.decimal n) : isDigit c = true := by
  have hrange : ¬ (c.toNat < 48 ∨ 57 < c.toNat) := fun hout => Text.notMem_decimal hout n h
  simp only [isDigit, Bool.and_eq_true, decide_eq_true_eq, UInt8.le_iff_toNat_le]
  exact ⟨not_lt.mp fun hlow => hrange (.inl hlow), not_lt.mp fun hhigh => hrange (.inr hhigh)⟩

/-- A digit is neither a space nor a sign. -/
theorem plain_of_isDigit {c : UInt8} (h : isDigit c = true) :
    isSpace c = false ∧ c ≠ 0x2d ∧ c ≠ 0x2b := by
  have hrange : 48 ≤ c.toNat ∧ c.toNat ≤ 57 := by
    simpa [isDigit, UInt8.le_iff_toNat_le] using h
  refine ⟨?_, ?_, ?_⟩
  · simp only [isSpace, Bool.or_eq_false_iff, beq_eq_false_iff_ne, Bool.and_eq_false_iff,
      decide_eq_false_iff_not, UInt8.le_iff_toNat_le]
    refine ⟨?_, .inr fun hle => ?_⟩
    · rintro rfl
      exact absurd hrange (by decide)
    · have hthirteen : (13 : UInt8).toNat = 13 := rfl
      omega
  · rintro rfl
    exact absurd hrange (by decide)
  · rintro rfl
    exact absurd hrange (by decide)

/-- A number that was printed is read back, up to what ends its line. -/
theorem sscanfU_decimal (label : Bytes) (n : UInt32) {c : UInt8} (hc : isDigit c = false)
    (rest : Bytes) : sscanfU label (label ++ (Text.decimal n.toNat ++ c :: rest)) = some n := by
  have hlt := n.toNat_lt
  obtain ⟨d, digits, hdigits⟩ := List.exists_cons_of_ne_nil
    (digits_ne_nil (show 1 < 10 by decide) (by decide) n.toNat)
  have hnumber : Text.decimal n.toNat = d :: digits := hdigits
  have hd : isDigit d = true := by
    have hmem : d ∈ Text.decimal n.toNat := by
      rw [hnumber]
      exact List.mem_cons_self
    exact isDigit_of_mem_decimal hmem
  have hplain := plain_of_isDigit hd
  have htake : (Text.decimal n.toNat ++ c :: rest).takeWhile isDigit = Text.decimal n.toNat := by
    rw [List.takeWhile_append_of_pos fun b hb => isDigit_of_mem_decimal hb,
      List.takeWhile_cons_of_neg (by simp [hc]), List.append_nil]
  have hskip : (Text.decimal n.toNat ++ c :: rest).dropWhile isSpace =
      Text.decimal n.toNat ++ c :: rest := by
    rw [hnumber, List.cons_append, List.dropWhile_cons_of_neg (by simp [hplain.1])]
  have hfirst : (Text.decimal n.toNat ++ c :: rest)[0]? = some d := by
    rw [hnumber]
    rfl
  have hnonempty : Text.decimal n.toNat ≠ [] := hnumber ▸ List.cons_ne_nil d digits
  have hlabel : label.isPrefixOf (label ++ (Text.decimal n.toNat ++ c :: rest)) = true :=
    List.isPrefixOf_iff_prefix.mpr (List.prefix_append _ _)
  simp only [sscanfU, hlabel, if_true, List.drop_left, hskip, hfirst, Option.some.injEq, hplain.2.1,
    hplain.2.2, or_self, if_false, htake, hnonempty, Text.parseDecimal_decimal]
  rw [if_neg (by omega), UInt32.ofNat_toNat]

end Numerals
