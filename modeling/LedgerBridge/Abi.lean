import LedgerBridge.Primitives
import LedgerBridge.Text.Characters
import LedgerBridge.Text.Utf8

/-! The contract interface: its values, their form as bytes, and how that form is read. -/
namespace LedgerBridge

/-! Values that cross the contract interface, the kinds of their places, and the hashes that name
methods and events. -/

abbrev Word := BitVec 256

def Word.ofAmount (a : Amount) : Word := a.setWidth 256

namespace Abi

inductive Kind
  | address
  | uint256
  | uint8
  | bool
  | text
  deriving DecidableEq, Repr

inductive Value
  | address (a : Address)
  | uint (n : Word)
  | bool (b : Bool)
  | text (s : String)
  deriving DecidableEq, Repr

def Value.ofAmount (a : Amount) : Value := uint (Word.ofAmount a)

/-- A value as it is shown where a value of another kind was due. -/
def Value.shown : Value → String
  | address a => "Address([" ++ ", ".intercalate (a.bytes.map fun b => toString b.toNat) ++ "])"
  | uint n => s!"Uint({n.toNat})"
  | bool b => s!"Bool({b})"
  | text s => s!"String({Text.quoted s})"

/-- Methods are called by the first four bytes of the hash of their signature. -/
def selector (signature : String) : Bytes := (keccak256 (Bytes.ofString signature)).take 4

@[simp] theorem length_selector (signature : String) : (selector signature).length = 4 := by
  simp [selector]

def eventTopic (signature : String) : Bytes := keccak256 (Bytes.ofString signature)

/-- An address filled up to a word from the left. -/
def addressTopic (a : Address) : Bytes := List.replicate 12 0 ++ a.bytes

def textTopic (s : String) : Bytes := keccak256 (Bytes.ofString s)

end Abi

end LedgerBridge

namespace LedgerBridge.Abi

/-! Lists of values as bytes: one word for each in the head, and for a text a word that says where in
the tail its length and bytes are. -/

def wordSize : Nat := 32

def word (n : Nat) : Bytes := Bytes.bigEndian wordSize n

/-- Zeros that fill `n` bytes up to whole words. -/
def padding (n : Nat) : Bytes := List.replicate ((wordSize - n % wordSize) % wordSize) 0

def tail : Value → Bytes
  | .text s =>
    let bs := Bytes.ofString s
    word bs.length ++ bs ++ padding bs.length
  | _ => []

/-- The head word of a value whose tail begins at `offset`. -/
def head (offset : Nat) : Value → Bytes
  | .address a => addressTopic a
  | .uint n => word n.toNat
  | .bool b => word (if b then 1 else 0)
  | .text _ => word offset

def heads (offset : Nat) : List Value → Bytes
  | [] => []
  | v :: rest => head offset v ++ heads (offset + (tail v).length) rest

def encode (values : List Value) : Bytes :=
  heads (wordSize * values.length) values ++ values.flatMap tail

/-- A call of the method with that signature. -/
def encodeCall (signature : String) (arguments : List Value) : Bytes :=
  selector signature ++ encode arguments

/-! Reading values of given kinds. Only whole head words count, so short data give fewer values than
there are kinds; what is left over is not looked at. -/

inductive Fault
  | dirtyAddress
  | numberRange
  | uint8Range (n : Nat)
  | boolRange (n : Nat)
  | textOffset
  | textLength
  | textBytes (fault : Utf8.Fault)
  deriving DecidableEq, Repr

/-- What is wrong with the value at `index`. -/
structure DecodeError where
  index : Nat
  fault : Fault
  deriving DecidableEq, Repr

def Fault.reason : Fault → String
  | dirtyAddress => "non-zero high bytes"
  | numberRange => "offset or length out of range"
  | uint8Range n => s!"{n} overflows uint8"
  | boolRange n => s!"{n} is not a bool"
  | textOffset => "string offset out of bounds"
  | textLength => "string length out of bounds"
  | textBytes fault => s!"string is not utf-8: {fault.message}"

/-- An offset or length, which a machine word must hold. -/
def readSize (word : Bytes) : Except Fault Nat :=
  let n := Bytes.ofBigEndian word
  if n < UInt64.size then .ok n else .error .numberRange

/-- The text whose length stands at `offset`. -/
def readText (data : Bytes) (offset : Nat) : Except Fault String := do
  let start := offset + wordSize
  if data.length < start then .error .textOffset
  let n ← readSize ((data.drop offset).take wordSize)
  if data.length < start + n then .error .textLength
  (Utf8.read ((data.drop start).take n)).mapError .textBytes

def readValue (data word : Bytes) : Kind → Except Fault Value
  | .address =>
    match Address.ofBytes? (word.drop 12) with
    | some a => if (word.take 12).all (· = 0) then .ok (.address a) else .error .dirtyAddress
    | none => .error .dirtyAddress
  | .uint256 => .ok (.uint (.ofNat 256 (Bytes.ofBigEndian word)))
  | .uint8 =>
    let n := Bytes.ofBigEndian word
    if n < 256 then .ok (.uint (.ofNat 256 n)) else .error (.uint8Range n)
  | .bool =>
    match Bytes.ofBigEndian word with
    | 0 => .ok (.bool false)
    | 1 => .ok (.bool true)
    | n => .error (.boolRange n)
  | .text => do
    return .text (← readText data (← readSize word))

/-- Values from `index` on, whose head words begin at `rest`. -/
def decodeFrom (data : Bytes) (index : Nat) (rest : Bytes) :
    List Kind → Except DecodeError (List Value)
  | [] => .ok []
  | kind :: kinds =>
    if rest.length < wordSize then .ok []
    else do
      let v ← (readValue data (rest.take wordSize) kind).mapError fun fault => ⟨index, fault⟩
      return v :: (← decodeFrom data (index + 1) (rest.drop wordSize) kinds)

def decode (kinds : List Kind) (data : Bytes) : Except DecodeError (List Value) :=
  decodeFrom data 0 data kinds

end LedgerBridge.Abi
