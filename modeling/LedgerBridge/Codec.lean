import LedgerBridge.Primitives
import LedgerBridge.Text.Utf8

/-! The binary form of stored records: fixed-width integers with the low byte first, texts and lists
after their length in four bytes, one byte for a truth value, a choice or an optional part, and
fields in order without padding. -/
namespace LedgerBridge

inductive Codec.Fault
  | cutShort
  | leftOver
  | badTag (byte : UInt8)
  | badBool (byte : UInt8)
  | badOption (byte : UInt8)
  | badText (fault : Utf8.Fault)
  deriving DecidableEq, Repr

def Codec.Fault.message : Codec.Fault → String
  | cutShort => "Unexpected length of input"
  | leftOver => "Not all bytes read"
  | badTag byte => s!"Unexpected variant tag: {byte.toNat}"
  | badBool byte => s!"Invalid bool representation: {byte.toNat}"
  | badOption byte =>
    s!"Invalid Option representation: {byte.toNat}. The first byte must be 0 or 1"
  | badText fault => fault.message

/-- A way to write values, and to read one from the front of a byte string. -/
structure Codec (α : Type) where
  encode : α → Bytes
  decode : Bytes → Except Codec.Fault (α × Bytes)
  /-- Whether no text or list in the value is too long for its length to be written. -/
  writable : α → Bool := fun _ => true

namespace Codec

/-- Reads a value that takes up all of the bytes. -/
def decodeAll (c : Codec α) (bs : Bytes) : Except Fault α :=
  match c.decode bs with
  | .error fault => .error fault
  | .ok (a, []) => .ok a
  | .ok (_, _ :: _) => .error .leftOver

def split (n : Nat) (bs : Bytes) : Except Fault (Bytes × Bytes) :=
  if bs.length < n then .error .cutShort else .ok (bs.take n, bs.drop n)

/-- Values in one-to-one correspondence with values of another codec. -/
def map (c : Codec α) (read : α → β) (write : β → α) : Codec β where
  encode b := c.encode (write b)
  decode bs := do
    let (a, rest) ← c.decode bs
    return (read a, rest)
  writable b := c.writable (write b)

def u8 : Codec UInt8 where
  encode b := [b]
  decode
    | [] => .error .cutShort
    | b :: rest => .ok (b, rest)

def u64 : Codec UInt64 where
  encode n := Bytes.littleEndian 8 n.toNat
  decode bs := do
    let (digits, rest) ← split 8 bs
    return (.ofNat (Bytes.ofLittleEndian digits), rest)

def amount : Codec Amount where
  encode a := Bytes.littleEndian 16 a.toNat
  decode bs := do
    let (digits, rest) ← split 16 bs
    return (.ofNat 128 (Bytes.ofLittleEndian digits), rest)

@[simp] theorem writable_amount (a : Amount) : amount.writable a := rfl

def address : Codec Address where
  encode a := a.bytes
  decode bs :=
    if h : bs.length < 20 then .error .cutShort
    else .ok (⟨bs.take 20, by simp; omega⟩, bs.drop 20)

def bool : Codec Bool where
  encode b := [if b then 1 else 0]
  decode
    | [] => .error .cutShort
    | b :: rest =>
      if b = 0 then .ok (false, rest) else if b = 1 then .ok (true, rest) else .error (.badBool b)

def option (c : Codec α) : Codec (Option α) where
  encode
    | none => [0]
    | some a => 1 :: c.encode a
  decode
    | [] => .error .cutShort
    | b :: rest =>
      if b = 0 then .ok (none, rest)
      else if b = 1 then do
        let (a, rest) ← c.decode rest
        return (some a, rest)
      else .error (.badOption b)
  writable o := o.all c.writable

def pair (c : Codec α) (d : Codec β) : Codec (α × β) where
  encode p := c.encode p.1 ++ d.encode p.2
  decode bs := do
    let (a, rest) ← c.decode bs
    let (b, rest) ← d.decode rest
    return ((a, b), rest)
  writable p := c.writable p.1 && d.writable p.2

/-- A value of one of two kinds, told apart by the first byte. -/
def either (c : Codec α) (d : Codec β) : Codec (α ⊕ β) where
  encode
    | .inl a => 0 :: c.encode a
    | .inr b => 1 :: d.encode b
  decode
    | [] => .error .cutShort
    | tag :: rest =>
      if tag = 0 then do
        let (a, rest) ← c.decode rest
        return (.inl a, rest)
      else if tag = 1 then do
        let (b, rest) ← d.decode rest
        return (.inr b, rest)
      else .error (.badTag tag)
  writable
    | .inl a => c.writable a
    | .inr b => d.writable b

def lengthBytes (n : Nat) : Bytes := Bytes.littleEndian 4 n

def decodeLength (bs : Bytes) : Except Fault (Nat × Bytes) := do
  let (digits, rest) ← split 4 bs
  return (Bytes.ofLittleEndian digits, rest)

def string : Codec String where
  encode s := lengthBytes (Bytes.ofString s).length ++ Bytes.ofString s
  decode bs := do
    let (n, rest) ← decodeLength bs
    let (content, rest) ← split n rest
    match Utf8.read content with
    | .ok s => return (s, rest)
    | .error fault => .error (.badText fault)
  writable s := (Bytes.ofString s).length < Bytes.capacity 4

def decodeItems (c : Codec α) : (count : Nat) → Bytes → Except Fault (List α × Bytes)
  | 0, bs => .ok ([], bs)
  | count + 1, bs => do
    let (a, rest) ← c.decode bs
    let (items, rest) ← decodeItems c count rest
    return (a :: items, rest)

def list (c : Codec α) : Codec (List α) where
  encode items := lengthBytes items.length ++ items.flatMap c.encode
  decode bs := do
    let (n, rest) ← decodeLength bs
    decodeItems c n rest
  writable items := items.length < Bytes.capacity 4 && items.all c.writable

end Codec

end LedgerBridge
