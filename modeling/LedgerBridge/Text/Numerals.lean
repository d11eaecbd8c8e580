import LedgerBridge.Bytes
import LedgerBridge.Text.Characters

/-! Numbers and bytes as text. -/
namespace LedgerBridge.Decimal

/-! Decimal numbers as text. Written without sign or leading zeros; read with an optional plus sign
and any number of leading zeros. -/

def write (n : Nat) : List Char := Nat.toDigits 10 n

/-- The value of a nonempty row of digits. -/
def readDigits (cs : List Char) : Option Nat :=
  if cs ≠ [] ∧ cs.all Char.isDigit then some (Nat.ofDigitChars 10 cs 0) else none

theorem isDigit_of_mem_write {n : Nat} {c : Char} (h : c ∈ write n) : c.isDigit :=
  Nat.isDigit_of_mem_toDigits (by decide) (by decide) h

@[simp] theorem readDigits_write (n : Nat) : readDigits (write n) = some n := by
  have h : (write n).all Char.isDigit = true :=
    List.all_eq_true.mpr fun _ => isDigit_of_mem_write
  rw [readDigits, if_pos ⟨Nat.toDigits_ne_nil, h⟩, write, Nat.ofDigitChars_ten_toDigits]

/-- A number below a limit. -/
def read (limit : Nat) (s : String) : Option Nat :=
  let digits := match s.toList with
    | '+' :: rest => rest
    | cs => cs
  (readDigits digits).bind fun n => if n < limit then some n else none

end LedgerBridge.Decimal

namespace LedgerBridge.Hex

/-! Bytes as pairs of hexadecimal digits. Written in one case, read in either. -/

def lower (n : Nat) : Char := Nat.digitChar n

def upper (n : Nat) : Char := (Nat.digitChar n).toUpper

def encodeWith (digit : Nat → Char) (bs : Bytes) : List Char :=
  bs.flatMap fun b => [digit (b.toNat / 16), digit (b.toNat % 16)]

def encode (bs : Bytes) : String := .ofList (encodeWith lower bs)

def encodeUpper (bs : Bytes) : String := .ofList (encodeWith upper bs)

/-- With the mark of a hexadecimal number in front. -/
def encodeMarked (bs : Bytes) : String := .ofList ('0' :: 'x' :: encodeWith lower bs)

inductive Fault
  | oddLength
  | badDigit (byte : UInt8) (position : Nat)
  deriving DecidableEq, Repr

def Fault.message : Fault → String
  | .oddLength => "Odd number of digits"
  | .badDigit byte position =>
    s!"Invalid character {Text.quotedChar (Char.ofNat byte.toNat)} at position {position}"

/-- The value of a digit given by its code. -/
def digitOf? (code : Nat) : Option Nat :=
  if 48 ≤ code ∧ code ≤ 57 then some (code - 48)
  else if 97 ≤ code ∧ code ≤ 102 then some (code - 87)
  else if 65 ≤ code ∧ code ≤ 70 then some (code - 55)
  else none

def digit? (b : UInt8) : Option Nat := digitOf? b.toNat

def digitValue? (c : Char) : Option Nat := digitOf? c.toNat

def decodeFrom (position : Nat) : Bytes → Except Fault Bytes
  | [] => .ok []
  | [_] => .error .oddLength
  | hi :: lo :: rest =>
    match digit? hi, digit? lo with
    | none, _ => .error (.badDigit hi position)
    | _, none => .error (.badDigit lo (position + 1))
    | some h, some l => (decodeFrom (position + 2) rest).map (UInt8.ofNat (16 * h + l) :: ·)

/-- The length is looked at before any digit. -/
def decode (s : String) : Except Fault Bytes :=
  let digits := Bytes.ofString s
  if digits.length % 2 = 1 then .error .oddLength else decodeFrom 0 digits

end LedgerBridge.Hex
