import LedgerBridge.Bytes

/-! The 256-bit Keccak sponge with its first padding rule, whose domain byte is 1. Lanes are numbers
below 2^64, which keeps closed digests computable in the kernel. -/
namespace LedgerBridge.Keccak

/-- Five rows of five lanes. -/
abbrev State := List (List Nat)

def rotate (lane count : Nat) : Nat := (lane <<< count) % UInt64.size ||| lane >>> (64 - count)

/-- How far each lane turns. -/
def rotations : List (List Nat) := [
  [0, 1, 62, 28, 27],
  [36, 44, 6, 55, 20],
  [3, 10, 43, 25, 39],
  [41, 45, 15, 21, 8],
  [18, 2, 61, 56, 14]]

def roundConstants : List Nat := [
  0x0000000000000001, 0x0000000000008082, 0x800000000000808a, 0x8000000080008000,
  0x000000000000808b, 0x0000000080000001, 0x8000000080008081, 0x8000000000008009,
  0x000000000000008a, 0x0000000000000088, 0x0000000080008009, 0x000000008000000a,
  0x000000008000808b, 0x800000000000008b, 0x8000000000008089, 0x8000000000008003,
  0x8000000000008002, 0x8000000000000080, 0x000000000000800a, 0x800000008000000a,
  0x8000000080008081, 0x8000000000008080, 0x0000000080000001, 0x8000000080008008]

def addRow (a b : List Nat) : List Nat := List.zipWith (· ^^^ ·) a b

/-- The row seen from one column to the right. -/
def shiftRow : List Nat → List Nat
  | [] => []
  | lane :: rest => rest ++ [lane]

/-- Adds to each lane the parities of two neighbouring columns. -/
def theta (s : State) : State :=
  let parity := s.foldl addRow [0, 0, 0, 0, 0]
  let next := shiftRow parity
  let previous := shiftRow (shiftRow (shiftRow next))
  s.map (addRow (addRow previous (next.map (rotate · 1))))

def rho (s : State) : State := List.zipWith (List.zipWith rotate) s rotations

/-- Moves each lane to its new place. -/
def pi (s : State) : State :=
  (List.range 5).map fun y => (List.range 5).map fun x => (s.getD x []).getD ((x + 3 * y) % 5) 0

/-- The nonlinear step within each row. -/
def chi (s : State) : State :=
  s.map fun row =>
    let next := shiftRow row
    addRow row (List.zipWith (fun a b => (a ^^^ (UInt64.size - 1)) &&& b) next (shiftRow next))

def iota (constant : Nat) : State → State
  | (lane :: row) :: rest => ((lane ^^^ constant) :: row) :: rest
  | s => s

def round (s : State) (constant : Nat) : State := iota constant (chi (pi (rho (theta s))))

def permute (s : State) : State := roundConstants.foldl round s

/-- Bytes taken in between two permutations. -/
def rate : Nat := 136

/-- The first `count` words of eight bytes, least significant byte first. -/
def words : (count : Nat) → Bytes → List Nat
  | 0, _ => []
  | count + 1, data => Bytes.ofLittleEndian (data.take 8) :: words count (data.drop 8)

/-- Adds one block to the front lanes of the state. -/
def mix (s : State) (block : Bytes) : State :=
  let lanes := words 25 block
  List.zipWith addRow s ((List.range 5).map fun y => (lanes.drop (5 * y)).take 5)

def absorb (s : State) : (blocks : Nat) → Bytes → State
  | 0, _ => s
  | blocks + 1, data => absorb (permute (mix s (data.take rate))) blocks (data.drop rate)

/-- Fills the last block: a first byte 1, zeros, and a set top bit in the last byte. -/
def padding (length : Nat) : Bytes :=
  match rate - length % rate with
  | 0 | 1 => [0x81]
  | free + 2 => 0x01 :: List.replicate free 0 ++ [0x80]

/-- The first four lanes. -/
def digest (s : State) : Bytes :=
  (List.range 4).flatMap fun x => Bytes.littleEndian 8 ((s.headD []).getD x 0)

@[simp] theorem length_digest (s : State) : (digest s).length = 32 := by
  simp [digest, List.range, List.range.loop]

end LedgerBridge.Keccak

namespace LedgerBridge

def keccak256 (data : Bytes) : Bytes :=
  Keccak.digest (Keccak.absorb (List.replicate 5 (List.replicate 5 0))
    (data.length / Keccak.rate + 1) (data ++ Keccak.padding data.length))

@[simp] theorem length_keccak256 (data : Bytes) : (keccak256 data).length = 32 :=
  Keccak.length_digest _

end LedgerBridge
