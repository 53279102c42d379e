import Mathlib.Data.List.DropRight
import Mathlib.Data.Vector.Basic
import BpfIma.Library.CString

/-! # Line-oriented text

Cutting at separators, reading lines, and hexadecimal digests, on byte strings. -/

namespace Text

/-! ## Separators -/

/-- `strings.Cut`: what stands before and after the first separator. -/
def cut (sep : UInt8) : Bytes → Option (Bytes × Bytes)
  | [] => none
  | c :: cs => if c = sep then some ([], cs) else (cut sep cs).map fun p => (c :: p.1, p.2)

/-- `strings.SplitN`: at most `n` fields, the last one unsplit. -/
def splitN (sep : UInt8) : ℕ → Bytes → List Bytes
  | 0, _ => []
  | 1, s => [s]
  | n + 2, s =>
      match cut sep s with
      | none => [s]
      | some (field, rest) => field :: splitN sep (n + 1) rest

/-- `strings.Split`: all fields. -/
def split (sep : UInt8) : Bytes → List Bytes
  | [] => [[]]
  | c :: cs =>
      if c = sep then [] :: split sep cs
      else
        match split sep cs with
        | [] => [[c]]
        | field :: fields => (c :: field) :: fields

theorem cut_append {sep : UInt8} {a : Bytes} (h : sep ∉ a) (b : Bytes) :
    cut sep (a ++ sep :: b) = some (a, b) := by
  induction a with
  | nil => simp [cut]
  | cons c a ih =>
      have hc : c ≠ sep := fun hc => h (by simp [hc])
      simp [cut, hc, ih (fun hm => h (by simp [hm]))]

theorem cut_eq_none {sep : UInt8} {s : Bytes} (h : sep ∉ s) : cut sep s = none := by
  induction s with
  | nil => rfl
  | cons c s ih =>
      have hc : c ≠ sep := fun hc => h (by simp [hc])
      simp [cut, hc, ih (fun hm => h (by simp [hm]))]

/-- A text either lacks the separator or is cut at its first occurrence. -/
theorem cut_cases (sep : UInt8) (s : Bytes) :
    sep ∉ s ∨ ∃ a b, sep ∉ a ∧ s = a ++ sep :: b := by
  induction s with
  | nil => simp
  | cons c s ih =>
      by_cases hc : c = sep
      · exact .inr ⟨[], s, by simp, by simp [hc]⟩
      · rcases ih with h | ⟨a, b, ha, rfl⟩
        · exact .inl (by simp [h, Ne.symm hc])
        · exact .inr ⟨c :: a, b, by simp [ha, Ne.symm hc], rfl⟩

theorem splitN_append {sep : UInt8} {a : Bytes} (h : sep ∉ a) (n : ℕ) (b : Bytes) :
    splitN sep (n + 2) (a ++ sep :: b) = a :: splitN sep (n + 1) b := by
  simp [splitN, cut_append h]

theorem splitN_of_notMem {sep : UInt8} {s : Bytes} (h : sep ∉ s) (n : ℕ) :
    splitN sep (n + 1) s = [s] := by
  cases n with
  | zero => rfl
  | succ n => simp [splitN, cut_eq_none h]

theorem splitN_succ_eq_cons (sep : UInt8) (n : ℕ) (s : Bytes) :
    ∃ field rest, splitN sep (n + 1) s = field :: rest := by
  cases n with
  | zero => exact ⟨s, [], rfl⟩
  | succ n =>
      rcases cut_cases sep s with hnone | ⟨a, b, ha, rfl⟩
      · exact ⟨s, [], splitN_of_notMem hnone _⟩
      · exact ⟨a, _, splitN_append ha n b⟩

/-- Only the last of the fields, and only if there are `n`, can hold separators. -/
theorem notMem_splitN {sep : UInt8} {n i : ℕ} {s field : Bytes}
    (h : (splitN sep n s)[i]? = some field) (hi : i + 1 < n) : sep ∉ field := by
  induction n generalizing i s with
  | zero => omega
  | succ n ih =>
      obtain ⟨n, rfl⟩ := Nat.exists_eq_succ_of_ne_zero (show n ≠ 0 by omega)
      rcases cut_cases sep s with hnone | ⟨a, b, ha, rfl⟩
      · rw [splitN_of_notMem hnone] at h
        obtain ⟨rfl, rfl⟩ : i = 0 ∧ s = field := by simpa [List.getElem?_singleton] using h
        exact hnone
      · rw [splitN_append ha] at h
        cases i with
        | zero =>
            obtain rfl : a = field := by simpa using h
            exact ha
        | succ i => exact ih (by simpa using h) (by omega)

theorem split_append {sep : UInt8} {a : Bytes} (h : sep ∉ a) (b : Bytes) :
    split sep (a ++ sep :: b) = a :: split sep b := by
  induction a with
  | nil => simp [split]
  | cons c a ih =>
      have hc : c ≠ sep := fun hc => h (by simp [hc])
      simp [split, hc, ih (fun hm => h (by simp [hm]))]

theorem split_of_notMem {sep : UInt8} {s : Bytes} (h : sep ∉ s) : split sep s = [s] := by
  induction s with
  | nil => rfl
  | cons c s ih =>
      have hc : c ≠ sep := fun hc => h (by simp [hc])
      simp [split, hc, ih (fun hm => h (by simp [hm]))]

/-! ## Lines -/

def lineFeed : UInt8 := 10

def carriageReturn : UInt8 := 13

/-- The successive results of reading up to and including the next line feed; a
last line without one is returned as it is. -/
def chunks : Bytes → List Bytes
  | [] => []
  | c :: cs =>
      if c = lineFeed then [c] :: chunks cs
      else
        match chunks cs with
        | [] => [[c]]
        | line :: lines => (c :: line) :: lines

/-- A file read in text mode, behind a carriage return or not: `\r\n` and a lone `\r` are read as
line feeds. -/
def universalNewlines (behindReturn : Bool) : Bytes → Bytes
  | [] => []
  | c :: cs =>
      if c = carriageReturn then lineFeed :: universalNewlines true cs
      else if behindReturn ∧ c = lineFeed then universalNewlines false cs
      else c :: universalNewlines false cs

/-- What one `fgets` into a buffer of `size` bytes reads of the rest of a file. -/
def fgets (size : ℕ) (text : Bytes) : Bytes :=
  match cut lineFeed (text.take (size - 1)) with
  | some (line, _) => line ++ [lineFeed]
  | none => text.take (size - 1)

/-- `strings.TrimRight(line, "\r\n")`. -/
def trimRight (line : Bytes) : Bytes :=
  line.rdropWhile fun c => c == carriageReturn || c == lineFeed

theorem chunks_line {line : Bytes} (h : lineFeed ∉ line) (rest : Bytes) :
    chunks (line ++ lineFeed :: rest) = (line ++ [lineFeed]) :: chunks rest := by
  induction line with
  | nil => simp [chunks]
  | cons c line ih =>
      have hc : c ≠ lineFeed := fun hc => h (by simp [hc])
      simp [chunks, hc, ih (fun hm => h (by simp [hm]))]

theorem chunks_flatMap {α : Type*} (f : α → Bytes) (xs : List α) (h : ∀ x ∈ xs, lineFeed ∉ f x) :
    chunks (xs.flatMap fun x => f x ++ [lineFeed]) = xs.map fun x => f x ++ [lineFeed] := by
  induction xs with
  | nil => rfl
  | cons x xs ih =>
      have hx := chunks_line (h x (by simp)) (xs.flatMap fun x => f x ++ [lineFeed])
      simp only [List.flatMap_cons, List.map_cons, List.append_assoc, List.singleton_append] at hx ⊢
      rw [hx, ih (fun y hy => h y (by simp [hy]))]

theorem length_chunks_append (line rest : Bytes) :
    (chunks (line ++ lineFeed :: rest)).length =
      line.count lineFeed + 1 + (chunks rest).length := by
  induction line with
  | nil =>
      simp only [List.nil_append, chunks, if_true, List.length_cons, List.count_nil]
      omega
  | cons c line ih =>
      by_cases hc : c = lineFeed
      · simp only [List.cons_append, chunks, hc, if_true, List.length_cons, ih,
          List.count_cons_self]
        omega
      · have hne : chunks (line ++ lineFeed :: rest) ≠ [] := by
          rw [← List.length_pos_iff, ih]
          omega
        obtain ⟨first, others, hchunks⟩ := List.exists_cons_of_ne_nil hne
        rw [hchunks] at ih
        simp only [List.cons_append, chunks, hc, if_false, hchunks, List.length_cons,
          List.count_cons_of_ne hc] at ih ⊢
        exact ih

/-- Each terminated text is one line exactly if none of them holds a line feed. -/
theorem length_chunks_flatMap {α : Type*} (f : α → Bytes) (xs : List α) :
    xs.length ≤ (chunks (xs.flatMap fun x => f x ++ [lineFeed])).length ∧
      ((chunks (xs.flatMap fun x => f x ++ [lineFeed])).length = xs.length →
        ∀ x ∈ xs, lineFeed ∉ f x) := by
  induction xs with
  | nil => simp
  | cons x xs ih =>
      obtain ⟨hle, hall⟩ := ih
      have hlength := length_chunks_append (f x) (xs.flatMap fun x => f x ++ [lineFeed])
      rw [List.flatMap_cons, List.append_assoc, List.singleton_append, hlength, List.length_cons]
      refine ⟨by omega, fun heq y hy => ?_⟩
      rcases List.mem_cons.mp hy with rfl | hy
      · exact List.count_eq_zero.mp (by omega)
      · exact hall (by omega) y hy

theorem trimRight_concat (line : Bytes) (c : UInt8) :
    trimRight (line ++ [c]) =
      if c = carriageReturn ∨ c = lineFeed then trimRight line else line ++ [c] := by
  simp only [trimRight, List.rdropWhile_concat, Bool.or_eq_true, beq_iff_eq]

theorem trimRight_concat_lineFeed (line : Bytes) :
    trimRight (line ++ [lineFeed]) = trimRight line := by
  rw [trimRight_concat, if_pos (.inr rfl)]

/-- Trimming stops at the first byte, from the right, that is no terminator. -/
theorem universalNewlines_eq_self {s : Bytes} (h : carriageReturn ∉ s) :
    universalNewlines false s = s := by
  induction s with
  | nil => rfl
  | cons c cs ih =>
      obtain ⟨hc, hcs⟩ := not_or.mp (mt List.mem_cons.mpr h)
      rw [universalNewlines, if_neg (Ne.symm hc), if_neg (fun hlf => Bool.noConfusion hlf.1),
        ih hcs]

theorem trimRight_append {c : UInt8} (hcr : c ≠ carriageReturn) (hlf : c ≠ lineFeed)
    (front back : Bytes) :
    trimRight (front ++ c :: back) = front ++ c :: trimRight back := by
  induction back using List.reverseRecOn with
  | nil => rw [trimRight_concat, if_neg (not_or.mpr ⟨hcr, hlf⟩)]; rfl
  | append_singleton back last ih =>
      have hassoc : front ++ c :: (back ++ [last]) = (front ++ c :: back) ++ [last] := by simp
      rw [hassoc, trimRight_concat, trimRight_concat]
      split
      · exact ih
      · exact hassoc.symm

theorem trimRight_eq_self_iff {s : Bytes} :
    trimRight s = s ↔ s.getLast? ≠ some carriageReturn ∧ s.getLast? ≠ some lineFeed := by
  rw [trimRight, List.rdropWhile_eq_self_iff]
  rcases List.eq_nil_or_concat s with rfl | ⟨init, last, rfl⟩
  · simp
  · simp

theorem trimRight_line {line : Bytes} (hcr : carriageReturn ∉ line) (hlf : lineFeed ∉ line) :
    trimRight (line ++ [lineFeed]) = line := by
  rw [trimRight_concat_lineFeed, trimRight_eq_self_iff]
  exact ⟨fun h => hcr (List.mem_of_getLast? h), fun h => hlf (List.mem_of_getLast? h)⟩

/-! ## Hexadecimal -/

/-- The lower-case hexadecimal digit of a value below sixteen. -/
def hexDigit (n : ℕ) : UInt8 := if n < 10 then UInt8.ofNat (48 + n) else UInt8.ofNat (87 + n)

/-- `%02x`. -/
def hexByte (b : UInt8) : Bytes := [hexDigit (b.toNat / 16), hexDigit (b.toNat % 16)]

def hexEncode (bytes : Bytes) : Bytes := bytes.flatMap hexByte

/-- The value of a hexadecimal digit of either case. -/
def fromHexChar (c : UInt8) : Option ℕ :=
  if 48 ≤ c.toNat ∧ c.toNat ≤ 57 then some (c.toNat - 48)
  else if 97 ≤ c.toNat ∧ c.toNat ≤ 102 then some (c.toNat - 87)
  else if 65 ≤ c.toNat ∧ c.toNat ≤ 70 then some (c.toNat - 55)
  else none

inductive HexError where
  | invalidByte (c : UInt8)
  | length
deriving DecidableEq, Repr

/-- `hex.DecodeString`: digits in pairs; a bad last digit is reported before an odd length. -/
def hexDecode : Bytes → Except HexError Bytes
  | [] => .ok []
  | [c] => if (fromHexChar c).isSome then .error .length else .error (.invalidByte c)
  | c :: d :: rest =>
      match fromHexChar c, fromHexChar d with
      | none, _ => .error (.invalidByte c)
      | some _, none => .error (.invalidByte d)
      | some hi, some lo =>
          match hexDecode rest with
          | .error e => .error e
          | .ok bytes => .ok (UInt8.ofNat (16 * hi + lo) :: bytes)

theorem fromHexChar_hexDigit : ∀ n < 16, fromHexChar (hexDigit n) = some n := by decide

theorem hexDecode_hexByte_append (b : UInt8) (rest : Bytes) :
    hexDecode (hexByte b ++ rest) = (hexDecode rest).map (b :: ·) := by
  have hb := b.toNat_lt
  have hi : b.toNat / 16 < 16 := by omega
  have hlo : b.toNat % 16 < 16 := by omega
  have hbyte : UInt8.ofNat (16 * (b.toNat / 16) + b.toNat % 16) = b := by
    rw [Nat.div_add_mod]
    exact UInt8.ofNat_toNat
  simp only [hexByte, List.cons_append, List.nil_append, hexDecode, fromHexChar_hexDigit _ hi,
    fromHexChar_hexDigit _ hlo, hbyte]
  cases hexDecode rest <;> rfl

/-- Decoding reads an encoding back. -/
@[simp] theorem hexDecode_hexEncode (bytes : Bytes) : hexDecode (hexEncode bytes) = .ok bytes := by
  induction bytes with
  | nil => rfl
  | cons b bytes ih =>
      change hexDecode (hexByte b ++ hexEncode bytes) = _
      rw [hexDecode_hexByte_append, ih]
      rfl

@[simp] theorem length_hexEncode (bytes : Bytes) : (hexEncode bytes).length = 2 * bytes.length := by
  induction bytes with
  | nil => rfl
  | cons b bytes ih =>
      change (hexByte b ++ hexEncode bytes).length = _
      rw [List.length_append, ih, List.length_cons]
      simp only [hexByte, List.length_cons, List.length_nil]
      omega

/-- An even number of digits decodes. -/
theorem exists_hexDecode : ∀ {s : Bytes}, (∀ c ∈ s, (fromHexChar c).isSome = true) →
    s.length % 2 = 0 → ∃ bytes, hexDecode s = .ok bytes ∧ 2 * bytes.length = s.length
  | [], _, _ => ⟨[], rfl, rfl⟩
  | [_], _, heven => absurd heven (by simp)
  | c :: d :: rest, hdigits, heven => by
      obtain ⟨hi, hc⟩ := Option.isSome_iff_exists.mp (hdigits c (by simp))
      obtain ⟨lo, hd⟩ := Option.isSome_iff_exists.mp (hdigits d (by simp))
      obtain ⟨bytes, hbytes, hlength⟩ := exists_hexDecode (s := rest)
        (fun e he => hdigits e (by simp [he])) (by simp only [List.length_cons] at heven; omega)
      refine ⟨UInt8.ofNat (16 * hi + lo) :: bytes, by simp only [hexDecode, hc, hd, hbytes], ?_⟩
      simp only [List.length_cons]
      omega

theorem hexDigit_range : ∀ n < 16, 48 ≤ (hexDigit n).toNat ∧ (hexDigit n).toNat ≤ 102 := by
  decide

/-- An encoding has only digits and letters. -/
theorem mem_hexEncode {c : UInt8} {bytes : Bytes} (h : c ∈ hexEncode bytes) :
    48 ≤ c.toNat ∧ c.toNat ≤ 102 := by
  obtain ⟨b, _, hc⟩ := List.mem_flatMap.mp h
  have hb := b.toNat_lt
  rcases List.mem_cons.mp hc with rfl | hc
  · exact hexDigit_range _ (by omega)
  · rw [List.mem_singleton.mp hc]
    exact hexDigit_range _ (by omega)

/-- The digits of an encoding. -/
theorem eq_hexDigit_of_mem {c : UInt8} {bytes : Bytes} (h : c ∈ hexEncode bytes) :
    ∃ n < 16, c = hexDigit n := by
  obtain ⟨b, -, hc⟩ := List.mem_flatMap.mp h
  have hb := b.toNat_lt
  rcases List.mem_cons.mp hc with rfl | hc
  · exact ⟨_, by omega, rfl⟩
  · exact ⟨_, by omega, List.mem_singleton.mp hc⟩

theorem notMem_hexEncode {c : UInt8} (h : c.toNat < 48) (bytes : Bytes) : c ∉ hexEncode bytes := by
  intro hm
  have := (mem_hexEncode hm).1
  omega

/-! ## Decimal -/

/-- `%u`, `%llu`. -/
def decimal (n : ℕ) : Bytes := (Nat.toDigits 10 n).map fun c => UInt8.ofNat c.toNat

/-- The number that a string of decimal digits denotes. -/
def parseDecimal (s : Bytes) : ℕ := Nat.ofDigitChars 10 (s.map fun c => Char.ofNat c.toNat) 0

theorem toNat_of_mem_toDigits {n : ℕ} {d : Char} (h : d ∈ Nat.toDigits 10 n) :
    48 ≤ d.toNat ∧ d.toNat ≤ 57 := by
  have hdigit := Nat.isDigit_of_mem_toDigits (by decide) (by decide) h
  simpa [Char.isDigit, UInt32.le_iff_toNat_le] using hdigit

/-- A number has only digits. -/
theorem notMem_decimal {c : UInt8} (h : c.toNat < 48 ∨ 57 < c.toNat) (n : ℕ) : c ∉ decimal n := by
  intro hm
  obtain ⟨d, hd, rfl⟩ := List.mem_map.mp hm
  have hrange := toNat_of_mem_toDigits hd
  rw [UInt8.toNat_ofNat'] at h
  omega

/-- Reading a number back. -/
@[simp] theorem parseDecimal_decimal (n : ℕ) : parseDecimal (decimal n) = n := by
  have hdigits : (decimal n).map (fun c => Char.ofNat c.toNat) = Nat.toDigits 10 n := by
    rw [decimal, List.map_map]
    refine (List.map_congr_left fun d hd => ?_).trans (List.map_id _)
    have hrange := toNat_of_mem_toDigits hd
    rw [Function.comp_apply, UInt8.toNat_ofNat', Nat.mod_eq_of_lt (by omega)]
    exact Char.ofNat_toNat d
  rw [parseDecimal, hdigits, Nat.ofDigitChars_ten_toDigits]

end Text
