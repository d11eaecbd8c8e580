import LedgerBridge.Bytes

/-! The 256-bit member of the second Secure Hash family. Words are numbers below 2^32, which keeps
closed digests computable in the kernel. -/
namespace LedgerBridge.Sha256

structure State where
  a : Nat
  b : Nat
  c : Nat
  d : Nat
  e : Nat
  f : Nat
  g : Nat
  h : Nat

def start : State := ⟨
  0x6a09e667, 0xbb67ae85, 0x3c6ef372, 0xa54ff53a, 0x510e527f, 0x9b05688c, 0x1f83d9ab, 0x5be0cd19⟩

def roundConstants : List Nat := [
  0x428a2f98, 0x71374491, 0xb5c0fbcf, 0xe9b5dba5, 0x3956c25b, 0x59f111f1, 0x923f82a4, 0xab1c5ed5,
  0xd807aa98, 0x12835b01, 0x243185be, 0x550c7dc3, 0x72be5d74, 0x80deb1fe, 0x9bdc06a7, 0xc19bf174,
  0xe49b69c1, 0xefbe4786, 0x0fc19dc6, 0x240ca1cc, 0x2de92c6f, 0x4a7484aa, 0x5cb0a9dc, 0x76f988da,
  0x983e5152, 0xa831c66d, 0xb00327c8, 0xbf597fc7, 0xc6e00bf3, 0xd5a79147, 0x06ca6351, 0x14292967,
  0x27b70a85, 0x2e1b2138, 0x4d2c6dfc, 0x53380d13, 0x650a7354, 0x766a0abb, 0x81c2c92e, 0x92722c85,
  0xa2bfe8a1, 0xa81a664b, 0xc24b8b70, 0xc76c51a3, 0xd192e819, 0xd6990624, 0xf40e3585, 0x106aa070,
  0x19a4c116, 0x1e376c08, 0x2748774c, 0x34b0bcb5, 0x391c0cb3, 0x4ed8aa4a, 0x5b9cca4f, 0x682e6ff3,
  0x748f82ee, 0x78a5636f, 0x84c87814, 0x8cc70208, 0x90befffa, 0xa4506ceb, 0xbef9a3f7, 0xc67178f2]

def add (words : List Nat) : Nat := words.foldl (· + ·) 0 % UInt32.size

def rotate (word count : Nat) : Nat := word >>> count ||| (word <<< (32 - count)) % UInt32.size

/-- The words of a block, most significant byte first. -/
def blockWords : (count : Nat) → Bytes → List Nat
  | 0, _ => []
  | count + 1, block => Bytes.ofBigEndian (block.take 4) :: blockWords count (block.drop 4)

/-- Adds `count` words to a schedule whose words are listed latest first. -/
def schedule : (count : Nat) → List Nat → List Nat
  | 0, words => words
  | count + 1, words =>
    let near := words.getD 1 0
    let far := words.getD 14 0
    let next := add [rotate near 17 ^^^ rotate near 19 ^^^ near >>> 10, words.getD 6 0,
      rotate far 7 ^^^ rotate far 18 ^^^ far >>> 3, words.getD 15 0]
    schedule count (next :: words)

def round (s : State) (constant word : Nat) : State :=
  let choice := (s.e &&& s.f) ^^^ ((s.e ^^^ (UInt32.size - 1)) &&& s.g)
  let majority := (s.a &&& s.b) ^^^ (s.a &&& s.c) ^^^ (s.b &&& s.c)
  let t := add [s.h, rotate s.e 6 ^^^ rotate s.e 11 ^^^ rotate s.e 25, choice, constant, word]
  let a := add [t, rotate s.a 2 ^^^ rotate s.a 13 ^^^ rotate s.a 22, majority]
  ⟨a, s.a, s.b, s.c, add [s.d, t], s.e, s.f, s.g⟩

def compress (s : State) (block : Bytes) : State :=
  let words := (schedule 48 (blockWords 16 block).reverse).reverse
  let t := (roundConstants.zip words).foldl (fun s step => round s step.1 step.2) s
  ⟨add [s.a, t.a], add [s.b, t.b], add [s.c, t.c], add [s.d, t.d],
    add [s.e, t.e], add [s.f, t.f], add [s.g, t.g], add [s.h, t.h]⟩

def absorb (s : State) : (blocks : Nat) → Bytes → State
  | 0, _ => s
  | blocks + 1, data => absorb (compress s (data.take 64)) blocks (data.drop 64)

/-- Fills the last block: a set top bit, zeros, and the length in bits. -/
def padding (length : Nat) : Bytes :=
  0x80 :: List.replicate ((119 - length % 64) % 64) 0 ++ Bytes.bigEndian 8 (8 * length)

def digest (s : State) : Bytes :=
  [s.a, s.b, s.c, s.d, s.e, s.f, s.g, s.h].flatMap fun word => Bytes.bigEndian 4 word

@[simp] theorem length_digest (s : State) : (digest s).length = 32 := by simp [digest]

end LedgerBridge.Sha256

namespace LedgerBridge

def sha256 (data : Bytes) : Bytes :=
  Sha256.digest (Sha256.absorb Sha256.start ((data.length + 8) / 64 + 1)
    (data ++ Sha256.padding data.length))

@[simp] theorem length_sha256 (data : Bytes) : (sha256 data).length = 32 := Sha256.length_digest _

end LedgerBridge
