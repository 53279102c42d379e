import Mathlib.Data.Vector.Mem
import BpfIma.Library.CString

/-! # Fixed memory layouts

The value of a fixed layout is read from the front of the memory, and a record by reading
its fields one after the other. -/

namespace Layout

variable {α β : Type}

/-- Takes the bytes of a value from the front of the memory; the memory ends in zeros. -/
abbrev Reader (α : Type) := StateM Bytes α

/-- In any memory that starts with `image`, the reader takes `image` and finds `a`. -/
def Reads (reader : Reader α) (image : Bytes) (a : α) : Prop :=
  ∀ rest, reader.run (image ++ rest) = (a, rest)

/-! ## Records -/

theorem Reads.bind {reader : Reader α} {next : α → Reader β} {image rest : Bytes} {a : α} {b : β}
    (h : Reads reader image a) (hnext : Reads (next a) rest b) :
    Reads (reader >>= next) (image ++ rest) b := by
  intro tail
  rw [List.append_assoc, StateT.run_bind, h]
  exact hnext tail

theorem Reads.map {reader : Reader α} {image : Bytes} {a : α} (h : Reads reader image a)
    (f : α → β) : Reads (reader >>= fun a => pure (f a)) image (f a) := by
  intro tail
  rw [StateT.run_bind, h]
  rfl

theorem Reads.run {reader : Reader α} {image : Bytes} {a : α} (h : Reads reader image a) :
    (reader.run image).1 = a := by
  rw [← image.append_nil, h]

/-! ## Arrays -/

def byte : Reader UInt8 := fun memory => (memory.headD 0, memory.tail)

def array (reader : Reader α) : (n : ℕ) → Reader (List.Vector α n)
  | 0 => pure .nil
  | n + 1 => do
      let first ← reader
      let others ← array reader n
      return first ::ᵥ others

def bytes (n : ℕ) : Reader (Buffer n) := array byte n

theorem reads_byte (b : UInt8) : Reads byte [b] b := fun _ => rfl

theorem reads_array {reader : Reader α} {image : α → Bytes} (h : ∀ a, Reads reader (image a) a)
    {n : ℕ} (v : List.Vector α n) : Reads (array reader n) (v.toList.flatMap image) v := by
  induction v using List.Vector.inductionOn with
  | nil => exact fun _ => rfl
  | cons ih =>
      rw [List.Vector.toList_cons, List.flatMap_cons]
      exact (h _).bind (ih.map _)

theorem reads_bytes {n : ℕ} (b : Buffer n) : Reads (bytes n) b.toList b := by
  have h := reads_array reads_byte b
  rwa [List.flatMap_singleton'] at h

theorem length_array {image : α → Bytes} {size : ℕ} (h : ∀ a, (image a).length = size)
    {n : ℕ} (v : List.Vector α n) : (v.toList.flatMap image).length = n * size := by
  simp [List.length_flatMap, h]

/-- Two layouts that agree on the elements of an array agree on the array. -/
theorem array_congr {image image' : α → Bytes} {n : ℕ} {v : List.Vector α n}
    (h : ∀ i, image (v.get i) = image' (v.get i)) :
    v.toList.flatMap image = v.toList.flatMap image' := by
  refine List.flatMap_congr fun a ha => ?_
  obtain ⟨i, rfl⟩ := (List.Vector.mem_iff_get a v).mp ha
  exact h i

/-! ## Integers -/

/-- The number whose base-256 digits are the bytes, the lowest first. -/
def littleEndian : Bytes → ℕ
  | [] => 0
  | b :: rest => b.toNat + 256 * littleEndian rest

theorem littleEndian_bytes16 (v : UInt16) :
    littleEndian [v.toUInt8, (v >>> 8).toUInt8] = v.toNat := by
  have hlt := v.toNat_lt
  simp only [littleEndian, UInt16.toNat_toUInt8, UInt16.toNat_shiftRight, UInt16.reduceToNat,
    Nat.reduceMod, Nat.shiftRight_eq_div_pow]
  omega

theorem littleEndian_bytes32 (v : UInt32) :
    littleEndian [v.toUInt8, (v >>> 8).toUInt8, (v >>> 16).toUInt8, (v >>> 24).toUInt8] =
      v.toNat := by
  have hlt := v.toNat_lt
  simp only [littleEndian, UInt32.toNat_toUInt8, UInt32.toNat_shiftRight, UInt32.reduceToNat,
    Nat.reduceMod, Nat.shiftRight_eq_div_pow]
  omega

theorem littleEndian_bytes64 (v : UInt64) :
    littleEndian [v.toUInt8, (v >>> 8).toUInt8, (v >>> 16).toUInt8, (v >>> 24).toUInt8,
      (v >>> 32).toUInt8, (v >>> 40).toUInt8, (v >>> 48).toUInt8, (v >>> 56).toUInt8] =
      v.toNat := by
  have hlt := v.toNat_lt
  simp only [littleEndian, UInt64.toNat_toUInt8, UInt64.toNat_shiftRight, UInt64.reduceToNat,
    Nat.reduceMod, Nat.shiftRight_eq_div_pow]
  omega

end Layout
