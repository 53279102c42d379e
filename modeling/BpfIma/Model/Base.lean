import BpfIma.Library.CString
import BpfIma.Library.HashChain
import BpfIma.Library.Sha256

/-! # Return codes, digests and the platform -/

namespace BpfIma

/-- What a kernel function returns: zero, a positive value or a negated errno. -/
abbrev Ret := ℤ

/-- The code of an `ERR_PTR`. -/
abbrev ErrPtr := { ret : Ret // ret < 0 }

namespace Errno

abbrev eperm : Ret := 1
abbrev enoent : Ret := 2
abbrev eio : Ret := 5
abbrev enxio : Ret := 6
abbrev e2big : Ret := 7
abbrev ebadf : Ret := 9
abbrev eagain : Ret := 11
abbrev ewouldblock : Ret := 11
abbrev enomem : Ret := 12
abbrev efault : Ret := 14
abbrev ebusy : Ret := 16
abbrev eexist : Ret := 17
abbrev enodev : Ret := 19
abbrev einval : Ret := 22
abbrev enospc : Ret := 28
abbrev erange : Ret := 34
abbrev eoverflow : Ret := 75
abbrev eopnotsupp : Ret := 95
abbrev estale : Ret := 116

end Errno

/-- `MERKLE_HASH_SIZE`, `SHA256_DIGEST_SIZE`. -/
abbrev merkleHashSize : ℕ := 32

/-- `u8 digest[MERKLE_HASH_SIZE]`. -/
abbrev Digest := Buffer merkleHashSize

def zeroDigest : Digest := CString.zero merkleHashSize

/-- Go's `crypto.Hash`, as far as measurement lists tell its values apart. -/
inductive CryptoHash where
  | sha1
  | sha256
  | sha384
  | sha512
  | other (id size : ℕ)
deriving DecidableEq, Repr

def CryptoHash.size : CryptoHash → ℕ
  | .sha1 => 20
  | .sha256 => 32
  | .sha384 => 48
  | .sha512 => 64
  | .other _ size => size

/-- The hash functions of the kernel's and of Go's crypto library. -/
structure HashSuite where
  sum : CryptoHash → Bytes → Bytes
  length_sum : ∀ algo message, (sum algo message).length = algo.size

inductive ByteOrder where
  | little
  | big
deriving DecidableEq, Repr

/-- What the module is compiled for and linked against. -/
structure Platform extends HashSuite where
  byteOrder : ByteOrder

namespace HashSuite

variable (S : HashSuite)

def sha256 (message : Bytes) : Digest := ⟨S.sum .sha256 message, S.length_sum .sha256 message⟩

/-- The value `bpfima_extend_hash` computes: `SHA256(old_hash || new_data)`. -/
def extendHash (oldHash newData : Digest) : Digest := S.sha256 (oldHash.toList ++ newData.toList)

/-- A digest register after extending it with each of the values, from zero. -/
def foldDigests (values : List Digest) : Digest := values.foldl S.extendHash zeroDigest

/-- The contents such a register goes through. -/
def digestContents : Digest → List Digest → List Digest
  | _, [] => []
  | acc, v :: vs => S.extendHash acc v :: digestContents (S.extendHash acc v) vs

@[simp] theorem toList_sha256 (message : Bytes) :
    (S.sha256 message).toList = S.sum .sha256 message :=
  rfl

@[simp] theorem foldDigests_nil : S.foldDigests [] = zeroDigest := rfl

theorem foldDigests_concat (values : List Digest) (v : Digest) :
    S.foldDigests (values ++ [v]) = S.extendHash (S.foldDigests values) v := by
  simp [foldDigests]

theorem digestContents_append (acc : Digest) (vs ws : List Digest) :
    S.digestContents acc (vs ++ ws) =
      S.digestContents acc vs ++ S.digestContents (vs.foldl S.extendHash acc) ws := by
  induction vs generalizing acc with
  | nil => rfl
  | cons v vs ih => simp [digestContents, ih]

@[simp] theorem length_digestContents (acc : Digest) (values : List Digest) :
    (S.digestContents acc values).length = values.length := by
  induction values generalizing acc with
  | nil => rfl
  | cons v vs ih => simp [digestContents, ih]

theorem map_toList_digestContents (acc : Digest) (values : List Digest) :
    (S.digestContents acc values).map List.Vector.toList =
      HashChain.contents (S.sum .sha256) acc.toList (values.map List.Vector.toList) := by
  induction values generalizing acc with
  | nil => rfl
  | cons v vs ih => exact congrArg _ (ih _)

theorem mem_digestContents {acc w : Digest} {values : List Digest}
    (h : w ∈ S.digestContents acc values) :
    ∃ front, front ≠ [] ∧ front <+: values ∧ w = front.foldl S.extendHash acc := by
  induction values generalizing acc with
  | nil => simp [digestContents] at h
  | cons v vs ih =>
      rcases List.mem_cons.mp h with rfl | h
      · exact ⟨[v], by simp, ⟨vs, rfl⟩, rfl⟩
      · obtain ⟨front, -, hprefix, rfl⟩ := ih h
        exact ⟨v :: front, by simp, by simpa using hprefix, rfl⟩

theorem toList_foldl_extendHash (z : Digest) (values : List Digest) :
    (values.foldl S.extendHash z).toList =
      HashChain.chain (S.sum .sha256) z.toList (values.map List.Vector.toList) := by
  induction values generalizing z with
  | nil => rfl
  | cons v vs ih => exact ih _

theorem toList_foldDigests (values : List Digest) :
    (S.foldDigests values).toList =
      HashChain.chain (S.sum .sha256) zeroDigest.toList (values.map List.Vector.toList) :=
  S.toList_foldl_extendHash zeroDigest values

end HashSuite

/-- A little-endian host with the real SHA-256. The other algorithms are constant. -/
def referencePlatform : Platform where
  sum algo message :=
    match algo with
    | .sha256 => Sha256.sha256 message
    | _ => List.replicate algo.size 0
  length_sum algo message := by cases algo <;> simp [CryptoHash.size]
  byteOrder := .little

end BpfIma
