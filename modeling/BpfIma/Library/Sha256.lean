import Mathlib.Data.List.Basic
import BpfIma.Library.CString

/-! # SHA-256

The hash function itself, on natural numbers below `2 ^ 32`. Everything is
structurally recursive, so that digests of small messages evaluate in the kernel. -/

namespace Sha256

def roundConstants : List ℕ :=
  [0x428a2f98, 0x71374491, 0xb5c0fbcf, 0xe9b5dba5, 0x3956c25b, 0x59f111f1, 0x923f82a4, 0xab1c5ed5,
    0xd807aa98, 0x12835b01, 0x243185be, 0x550c7dc3, 0x72be5d74, 0x80deb1fe, 0x9bdc06a7, 0xc19bf174,
    0xe49b69c1, 0xefbe4786, 0x0fc19dc6, 0x240ca1cc, 0x2de92c6f, 0x4a7484aa, 0x5cb0a9dc, 0x76f988da,
    0x983e5152, 0xa831c66d, 0xb00327c8, 0xbf597fc7, 0xc6e00bf3, 0xd5a79147, 0x06ca6351, 0x14292967,
    0x27b70a85, 0x2e1b2138, 0x4d2c6dfc, 0x53380d13, 0x650a7354, 0x766a0abb, 0x81c2c92e, 0x92722c85,
    0xa2bfe8a1, 0xa81a664b, 0xc24b8b70, 0xc76c51a3, 0xd192e819, 0xd6990624, 0xf40e3585, 0x106aa070,
    0x19a4c116, 0x1e376c08, 0x2748774c, 0x34b0bcb5, 0x391c0cb3, 0x4ed8aa4a, 0x5b9cca4f, 0x682e6ff3,
    0x748f82ee, 0x78a5636f, 0x84c87814, 0x8cc70208, 0x90befffa, 0xa4506ceb, 0xbef9a3f7, 0xc67178f2]

def add (x y : ℕ) : ℕ := (x + y) % 2 ^ 32

def rotr (x k : ℕ) : ℕ := (x >>> k) ||| ((x <<< (32 - k)) % 2 ^ 32)

def bigSigma0 (x : ℕ) : ℕ := rotr x 2 ^^^ rotr x 13 ^^^ rotr x 22

def bigSigma1 (x : ℕ) : ℕ := rotr x 6 ^^^ rotr x 11 ^^^ rotr x 25

def smallSigma0 (x : ℕ) : ℕ := rotr x 7 ^^^ rotr x 18 ^^^ (x >>> 3)

def smallSigma1 (x : ℕ) : ℕ := rotr x 17 ^^^ rotr x 19 ^^^ (x >>> 10)

def ch (x y z : ℕ) : ℕ := (x &&& y) ^^^ ((0xffffffff ^^^ x) &&& z)

def maj (x y z : ℕ) : ℕ := (x &&& y) ^^^ (x &&& z) ^^^ (y &&& z)

/-- The eight working variables, also the chaining value. -/
structure Words where
  a : ℕ
  b : ℕ
  c : ℕ
  d : ℕ
  e : ℕ
  f : ℕ
  g : ℕ
  h : ℕ

def initial : Words :=
  ⟨0x6a09e667, 0xbb67ae85, 0x3c6ef372, 0xa54ff53a, 0x510e527f, 0x9b05688c, 0x1f83d9ab, 0x5be0cd19⟩

/-- One round for each constant. The schedule is a window of the next sixteen
words: each round takes its word from the front and appends the word sixteen
places later. -/
def rounds : List ℕ → List ℕ → Words → Words
  | k :: ks, w :: window, s =>
      let t1 := add (add (add s.h (bigSigma1 s.e)) (add (ch s.e s.f s.g) k)) w
      let t2 := add (bigSigma0 s.a) (maj s.a s.b s.c)
      let next := add (add (smallSigma1 (window.getD 13 0)) (window.getD 8 0))
        (add (smallSigma0 (window.getD 0 0)) w)
      rounds ks (window ++ [next]) ⟨add t1 t2, s.a, s.b, s.c, add s.d t1, s.e, s.f, s.g⟩
  | _, _, s => s

def compress (s : Words) (block : List ℕ) : Words :=
  let r := rounds roundConstants block s
  ⟨add s.a r.a, add s.b r.b, add s.c r.c, add s.d r.d,
    add s.e r.e, add s.f r.f, add s.g r.g, add s.h r.h⟩

def blocks : ℕ → List ℕ → Words → Words
  | 0, _, s => s
  | n + 1, words, s => blocks n (words.drop 16) (compress s (words.take 16))

/-- The `k` low bytes of `x`, most significant first. -/
def bigEndian (k x : ℕ) : Bytes :=
  (List.range k).map fun i => UInt8.ofNat (x >>> (8 * (k - 1 - i)))

def words : Bytes → List ℕ
  | a :: b :: c :: d :: rest =>
      (a.toNat <<< 24 + b.toNat <<< 16 + c.toNat <<< 8 + d.toNat) :: words rest
  | _ => []

def pad (message : Bytes) : Bytes :=
  message ++ 0x80 :: List.replicate ((119 - message.length % 64) % 64) 0 ++
    bigEndian 8 (8 * message.length)

def sha256 (message : Bytes) : Bytes :=
  let padded := pad message
  let s := blocks (padded.length / 64) (words padded) initial
  [s.a, s.b, s.c, s.d, s.e, s.f, s.g, s.h].flatMap (bigEndian 4)

@[simp] theorem length_sha256 (message : Bytes) : (sha256 message).length = 32 := by
  simp [sha256, bigEndian]

example : sha256 "abc".ascii =
    [0xba, 0x78, 0x16, 0xbf, 0x8f, 0x01, 0xcf, 0xea, 0x41, 0x41, 0x40, 0xde, 0x5d, 0xae, 0x22, 0x23,
      0xb0, 0x03, 0x61, 0xa3, 0x96, 0x17, 0x7a, 0x9c, 0xb4, 0x10, 0xff, 0x61, 0xf2, 0x00, 0x15,
      0xad] := by
  decide +kernel

end Sha256
