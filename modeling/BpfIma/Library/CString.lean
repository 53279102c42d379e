import Mathlib.Data.Vector.Basic
import Mathlib.Data.List.DropRight

/-! # Byte strings and NUL-terminated buffers

Fixed-size C arrays are vectors of bytes; the string they hold is the part before
the first NUL. The string functions are those of the C library, on the bytes
before the terminator. -/

abbrev Bytes := List UInt8

/-- `char a[n]`. -/
abbrev Buffer (n : ℕ) := List.Vector UInt8 n

/-- The bytes of an ASCII literal. -/
def String.ascii (s : String) : Bytes := s.toList.map fun c => UInt8.ofNat c.toNat

namespace CString

variable {n : ℕ}

/-- `memset(b, 0, n)`. -/
def zero (n : ℕ) : Buffer n := List.Vector.replicate n 0

/-- The string held by a buffer. -/
def cstr (b : Buffer n) : Bytes := b.toList.takeWhile (· != 0)

/-- `memchr(b, '\0', n) != NULL`. -/
def terminated (b : Buffer n) : Bool := b.toList.contains 0

/-- The bytes of `src` with the terminator, as far as they fit, over the start of `dst`. -/
def overwrite (dst : Bytes) (src : Bytes) : Bytes := src ++ dst.drop src.length

/-- `strscpy(dst, src, n)`: at most `n - 1` bytes of `src`, and a terminator. -/
def strscpy (dst : Buffer n) (src : Bytes) : Buffer n :=
  ⟨(overwrite dst.toList (src.take (n - 1) ++ [0])).take n, by
    simp [overwrite]
    omega⟩

/-- `snprintf(b, n, ...)` into a zeroed buffer, for the formatted text `s`. -/
def snprintf (n : ℕ) (s : Bytes) : Buffer n := strscpy (zero n) s

/-- `strncmp(s, t, k) == 0`. -/
def strncmp (s t : Bytes) (k : ℕ) : Bool := s.take k == t.take k

/-- The string at the start of bytes that are followed by a terminator. -/
def upToNul (bytes : Bytes) : Bytes := bytes.takeWhile (· != 0)

/-- The string that `snprintf(b, size, "%s", s)` leaves in `b`. -/
def fitted (size : ℕ) (s : Bytes) : Bytes := s.take (size - 1)

/-- `tolower` in the C locale. -/
def toLower (c : UInt8) : UInt8 := if 65 ≤ c ∧ c ≤ 90 then c + 32 else c

/-- `strcasecmp(s, t) == 0`. -/
def strcasecmp (s t : Bytes) : Bool := s.map toLower == t.map toLower

/-- `strstr(s, t)`: the rest of `s` from the first occurrence of `t`. -/
def strstr : Bytes → Bytes → Option Bytes
  | [], t => if t = [] then some [] else none
  | c :: cs, t => if t.isPrefixOf (c :: cs) then some (c :: cs) else strstr cs t

/-! ## Strings in buffers -/

theorem zero_notMem_cstr (b : Buffer n) : (0 : UInt8) ∉ cstr b := by
  intro h
  simpa using List.mem_takeWhile_imp h

theorem toList_zero (n : ℕ) : (zero n).toList = List.replicate n 0 := rfl

theorem cstr_isPrefix (b : Buffer n) : cstr b <+: b.toList := List.takeWhile_prefix _

theorem length_cstr_le (b : Buffer n) : (cstr b).length ≤ n := by
  simpa using (cstr_isPrefix b).length_le

theorem takeWhile_append_zero {s : Bytes} (hs : (0 : UInt8) ∉ s) (rest : Bytes) :
    (s ++ 0 :: rest).takeWhile (· != 0) = s := by
  induction s with
  | nil => simp
  | cons c s ih =>
      have hc : c ≠ 0 := fun h => hs (by simp [h])
      simp [hc, ih (fun h => hs (by simp [h]))]

theorem length_cstr_lt {b : Buffer n} (h : terminated b = true) : (cstr b).length < n := by
  have hmem : (0 : UInt8) ∈ b.toList := by simpa [terminated] using h
  rcases lt_or_eq_of_le (length_cstr_le b) with hlt | heq
  · exact hlt
  · have hall : cstr b = b.toList :=
      (cstr_isPrefix b).eq_of_length (by rw [heq, List.Vector.toList_length])
    exact absurd (hall ▸ hmem) (zero_notMem_cstr b)

theorem toList_strscpy {dst : Buffer n} {src : Bytes} (h : src.length < n) :
    (strscpy dst src).toList = src ++ 0 :: dst.toList.drop (src.length + 1) := by
  have htake : src.take (n - 1) = src := List.take_of_length_le (by omega)
  simp only [strscpy, overwrite, htake, List.Vector.toList_mk]
  rw [List.take_of_length_le]
  · simp
  · simp
    omega

theorem cstr_strscpy {dst : Buffer n} {src : Bytes} (hlen : src.length < n)
    (hz : (0 : UInt8) ∉ src) : cstr (strscpy dst src) = src := by
  rw [cstr, toList_strscpy hlen, takeWhile_append_zero hz]

/-- In general the copy keeps what fits. -/
theorem cstr_strscpy_take {dst : Buffer n} {src : Bytes} (hn : 0 < n)
    (hz : (0 : UInt8) ∉ src) : cstr (strscpy dst src) = src.take (n - 1) := by
  have hsame : strscpy dst src = strscpy dst (src.take (n - 1)) := by
    apply List.Vector.eq
    simp [strscpy, List.take_take]
  rw [hsame]
  apply cstr_strscpy
  · rw [List.length_take]
    omega
  · exact fun h => hz (List.mem_of_mem_take h)

theorem terminated_strscpy {dst : Buffer n} {src : Bytes} (hlen : src.length < n) :
    terminated (strscpy dst src) = true := by
  simp [terminated, toList_strscpy hlen]

@[simp] theorem cstr_zero (n : ℕ) : cstr (zero n) = [] := by
  cases n with
  | zero => rfl
  | succ n => simp [cstr, toList_zero, List.replicate_succ]

theorem cstr_eq_nil_iff (b : Buffer (n + 1)) : cstr b = [] ↔ b.get 0 = 0 := by
  rcases b with ⟨_ | ⟨c, cs⟩, h⟩
  · simp at h
  · by_cases hc : c = 0 <;> simp [cstr, List.Vector.get, List.Vector.toList, hc]

/-- A buffer is clean when its string is padded with zeros. -/
def Clean (b : Buffer n) : Prop :=
  b.toList = cstr b ++ List.replicate (n - (cstr b).length) 0

instance (b : Buffer n) : Decidable (Clean b) := inferInstanceAs (Decidable (_ = _))

theorem clean_zero (n : ℕ) : Clean (zero n) := by
  simp [Clean, toList_zero]

/-- A clean buffer is given by its string. -/
theorem Clean.ext {a b : Buffer n} (ha : Clean a) (hb : Clean b) (h : cstr a = cstr b) : a = b := by
  apply List.Vector.eq
  rw [ha, hb, h]

theorem clean_strscpy {src : Bytes} (hlen : src.length < n) (hz : (0 : UInt8) ∉ src) :
    Clean (strscpy (zero n) src) := by
  have hsplit : n - src.length = (n - (src.length + 1)) + 1 := by omega
  rw [Clean, cstr_strscpy hlen hz, toList_strscpy hlen, toList_zero, List.drop_replicate, hsplit,
    List.replicate_succ]

/-! ## Strings of known size -/

theorem upToNul_of_notMem {s : Bytes} (h : (0 : UInt8) ∉ s) : upToNul s = s := by
  rw [upToNul, List.takeWhile_eq_self_iff]
  intro c hc
  simpa using fun hzero : c = 0 => h (hzero ▸ hc)

theorem zero_notMem_fitted (size : ℕ) (bytes : Bytes) :
    (0 : UInt8) ∉ fitted size (upToNul bytes) := by
  intro h
  simpa using List.mem_takeWhile_imp (List.mem_of_mem_take h)

/-- A string survives the copy if it has room with its terminator. -/
theorem fitted_upToNul_eq_self_iff {size : ℕ} (hsize : 0 < size) {s : Bytes} :
    fitted size (upToNul s) = s ↔ s.length < size ∧ (0 : UInt8) ∉ s := by
  constructor
  · intro h
    rw [← h]
    refine ⟨?_, zero_notMem_fitted size s⟩
    rw [fitted, List.length_take]
    omega
  · rintro ⟨hlength, hzero⟩
    rw [upToNul_of_notMem hzero, fitted, List.take_of_length_le (Nat.le_sub_one_of_lt hlength)]

/-! ## Checked writes -/

/-- A write of bytes at an offset; `none` if it leaves the buffer. -/
def store (b : Buffer n) (offset : ℕ) (bytes : Bytes) : Option (Buffer n) :=
  if h : offset + bytes.length ≤ n then
    some ⟨b.toList.take offset ++ bytes ++ b.toList.drop (offset + bytes.length), by simp; omega⟩
  else none

/-- A write right after `text`, which stays inside, leaves it alone. -/
theorem exists_store {b : Buffer n} {text bytes : Bytes} (htext : text <+: b.toList)
    (h : text.length + bytes.length ≤ n) :
    ∃ out, store b text.length bytes = some out ∧ text ++ bytes <+: out.toList := by
  refine ⟨_, dif_pos h, ?_⟩
  rw [List.Vector.toList_mk, ← List.prefix_iff_eq_take.mp htext]
  exact List.prefix_append _ _

/-! ## Comparisons -/

theorem strncmp_length_iff (s t : Bytes) : strncmp s t t.length = true ↔ t <+: s := by
  rw [strncmp, beq_iff_eq, List.take_length, List.prefix_iff_eq_take]
  exact eq_comm

theorem strstr_isSome (s t : Bytes) : (strstr s t).isSome = true ↔ t <:+: s := by
  induction s with
  | nil =>
      by_cases h : t = [] <;> simp [strstr, h]
  | cons c cs ih =>
      by_cases h : t.isPrefixOf (c :: cs) = true
      · simp only [strstr, h, if_true, Option.isSome_some, true_iff]
        exact (List.isPrefixOf_iff_prefix.mp h).isInfix
      · have hp : ¬ t <+: c :: cs := fun hp => h (List.isPrefixOf_iff_prefix.mpr hp)
        simpa [strstr, h, List.infix_cons_iff, hp] using ih

/-- `len >= k && strcmp(s + len - k, t) == 0`, with `k` the length of `t`. -/
theorem drop_eq_iff_suffix (s t : Bytes) :
    (t.length ≤ s.length ∧ s.drop (s.length - t.length) = t) ↔ t <:+ s := by
  constructor
  · rintro ⟨_, h⟩
    rw [← h]
    exact List.drop_suffix _ _
  · intro h
    exact ⟨h.length_le, (List.suffix_iff_eq_drop.mp h).symm⟩

end CString
