import Mathlib.Data.List.DropRight
import BpfIma.Library.Text
import BpfIma.Model.Base

/-! # The PCR simulator

`scripts/merkle_pcr_sim.py`: it reads the root history and computes what the root and the PCR
should be. Reading the PCR with `tpm2_pcrread` is left to the caller. -/

namespace BpfIma.Simulator

open CString

/-- The characters below 128 that `str.strip` drops. -/
def isSpace (c : UInt8) : Bool := (9 ≤ c && c ≤ 13) || (28 ≤ c && c ≤ 32)

def strip (s : Bytes) : Bytes := (s.dropWhile isSpace).rdropWhile isSpace

/-- `bytes.fromhex`, on digits without blanks between them. -/
def fromHex (s : Bytes) : Option Bytes :=
  match Text.hexDecode s with
  | .error _ => none
  | .ok bytes => some bytes

/-- `parse_hex_line`; whatever is no digit is dropped. -/
def parseHexLine (s : Bytes) : Option Bytes :=
  let s := (strip s).map toLower
  let s := if s.take 2 = "0x".ascii then s.drop 2 else s
  let s := s.filter fun c => c ∈ "0123456789abcdef".ascii
  fromHex (if s.length % 2 ≠ 0 then "0".ascii ++ s else s)

/-- How a run of the script ends early: with its message about a line of the history or about a
missing PCR, or with an exception of Python's. -/
inductive Failure where
  | entryLength (length : ℕ)
  | pcrNotProvided
  | valueError
deriving DecidableEq, Repr

/-- The loop of `read_history` over the lines of the file. -/
def readHistoryLines : List Bytes → Except Failure (List Bytes)
  | [] => .ok []
  | line :: lines =>
      if strip line = [] then readHistoryLines lines
      else
        match parseHexLine (strip line) with
        | none => .error .valueError
        | some b =>
            if b.length ≠ merkleHashSize then .error (.entryLength b.length)
            else
              match readHistoryLines lines with
              | .error e => .error e
              | .ok entries => .ok (b :: entries)

/-- `read_history`, which opens the file in text mode. -/
def readHistory (file : Bytes) : Except Failure (List Bytes) :=
  readHistoryLines (Text.chunks (Text.universalNewlines false file))

section Compute

variable (S : HashSuite)

def computeMerkleRoot (history : List Bytes) : Bytes :=
  history.foldl (fun root leaf => S.sum .sha256 (root ++ leaf)) zeroDigest.toList

/-- The loop of `compute_simulated_pcr`, over `root` and `pcr`. -/
def computeSimulatedPcr (history : List Bytes) : Bytes :=
  (history.foldl
    (fun (registers : Bytes × Bytes) leaf =>
      let root := S.sum .sha256 (registers.1 ++ leaf)
      (root, S.sum .sha256 (registers.2 ++ root)))
    (zeroDigest.toList, zeroDigest.toList)).2

/-- What `main` prints, and the code it exits with. -/
structure Report where
  merkleRoot : Bytes
  simulatedPcr : Bytes
  providedPcr : Bytes
  code : ℕ
deriving DecidableEq

/-- `main` with `--history` and `--pcr`, the latter empty if it is not given. -/
def main (historyFile pcr : Bytes) : Except Failure Report :=
  match readHistory historyFile with
  | .error e => .error e
  | .ok history =>
      if pcr = [] then .error .pcrNotProvided
      else
        match fromHex ((strip pcr).filter fun c => (Text.fromHexChar c).isSome) with
        | none => .error .valueError
        | some pcr =>
            let merkleRoot := computeMerkleRoot S history
            let simulatedPcr := computeSimulatedPcr S history
            .ok ⟨merkleRoot, simulatedPcr, pcr,
              if simulatedPcr = pcr then 0 else if merkleRoot = pcr then 0 else 1⟩

end Compute

end BpfIma.Simulator
