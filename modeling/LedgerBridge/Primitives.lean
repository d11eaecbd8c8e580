import LedgerBridge.Hash.Keccak
import LedgerBridge.Text.Numerals

/-! What the ledger and the contracts share: amounts, addresses, denominations and coins, and what can
be wrong with them as they are written. -/
namespace LedgerBridge

/-! Amounts of one denomination: unsigned words of 128 bits whose sums are checked. -/

abbrev Amount := BitVec 128

namespace Amount

/-- How many amounts there are. -/
def size : Nat := 0x100000000000000000000000000000000

def ofNat? (n : Nat) : Option Amount := if h : n < size then some (.ofNatLT n h) else none

theorem ofNat?_eq_some_iff {n : Nat} {a : Amount} : ofNat? n = some a ↔ a.toNat = n := by
  unfold ofNat?
  split
  · simp only [Option.some.injEq]
    exact ⟨fun h => h ▸ BitVec.toNat_ofNatLT _ _, fun h => BitVec.eq_of_toNat_eq h.symm⟩
  · simp only [reduceCtorEq, false_iff]
    rintro rfl
    exact ‹¬ _› a.isLt

/-- The sum, if it is an amount. -/
def plus? (a b : Amount) : Option Amount := ofNat? (a.toNat + b.toNat)

/-- The difference, or zero if there is less than nothing left. -/
def minus (a b : Amount) : Amount :=
  .ofNatLT (a.toNat - b.toNat) (Nat.lt_of_le_of_lt (Nat.sub_le _ _) a.isLt)

@[simp] theorem toNat_minus (a b : Amount) : (a.minus b).toNat = a.toNat - b.toNat := by
  simp [minus]

/-- The difference, if there is at least `b` to take from. -/
def minus? (a b : Amount) : Option Amount := if b ≤ a then some (a.minus b) else none

def text (a : Amount) : String := toString a.toNat

end Amount

/-! What can be wrong with a written address, a denomination, or the description of a token. -/

inductive FormatError
  | addressDigits (text : String) (fault : Hex.Fault)
  | addressLength (text : String) (length : Nat)
  | denomLength (denom : String)
  | denomStart (denom : String)
  | denomChar (denom : String) (char : Char)
  | symbolLength (length : Nat)
  | symbolChar (char : Char)
  | nameLength (length : Nat)
  | nameChar (char : Char)
  | decimals (places : UInt8)
  deriving DecidableEq, Repr

namespace FormatError

def reason : FormatError → String
  | addressDigits text fault => s!"{text}: {fault.message}"
  | addressLength text length => s!"{text}: expected 20 bytes, got {length}"
  | denomLength _ => "length must be between 3 and 128"
  | denomStart _ => "must start with a letter"
  | denomChar _ char => s!"invalid character '{char}'"
  | symbolLength length => s!"symbol must be 1-12 characters, got {length}"
  | symbolChar char => s!"symbol must be alphanumeric, found '{char}'"
  | nameLength length => s!"name must be 1-64 characters, got {length}"
  | nameChar char => s!"name must be printable ASCII, found '{char}'"
  | decimals places => s!"decimals must be <= 18, got {places.toNat}"

def message (e : FormatError) : String :=
  match e with
  | addressDigits .. | addressLength .. => s!"invalid address: {e.reason}"
  | denomLength denom | denomStart denom | denomChar denom _ => s!"invalid denom {denom}: {e.reason}"
  | symbolLength _ | symbolChar _ | nameLength _ | nameChar _ | decimals _ =>
    s!"invalid token definition: {e.reason}"

end FormatError

/-! Account addresses of twenty bytes, shared by the ledger and the contracts. -/

structure Address where
  bytes : Bytes
  length_eq : bytes.length = 20
  deriving DecidableEq, Repr

namespace Address

@[ext] theorem ext {a b : Address} (h : a.bytes = b.bytes) : a = b := by
  cases a; cases b; cases h; rfl

def zero : Address := ⟨List.replicate 20 0, by simp⟩

instance : Inhabited Address := ⟨zero⟩

def ofBytes? (bs : Bytes) : Option Address :=
  if h : bs.length = 20 then some ⟨bs, h⟩ else none

@[simp] theorem ofBytes?_bytes (a : Address) : ofBytes? a.bytes = some a := dif_pos a.length_eq

theorem bytes_of_ofBytes? {bs : Bytes} {a : Address} (h : ofBytes? bs = some a) : a.bytes = bs := by
  unfold ofBytes? at h
  split at h
  · cases h; rfl
  · cases h

def text (a : Address) : String := Hex.encodeMarked a.bytes

/-- The mark `0x` may stand in front once. -/
def unmarked (s : String) : String :=
  match s.toList with
  | '0' :: 'x' :: digits => .ofList digits
  | _ => s

def parse (s : String) : Except FormatError Address :=
  match Hex.decode (unmarked s) with
  | .error fault => .error (.addressDigits s fault)
  | .ok bs =>
    match ofBytes? bs with
    | some a => .ok a
    | none => .error (.addressLength s bs.length)

/-- The address a name stands for: the last twenty bytes of its hash. -/
def ofName (name : String) : Address :=
  ⟨(keccak256 (Bytes.ofString name)).drop 12, by simp⟩

/-- The account that a named module keeps its funds in. -/
def ofModule (name : String) : Address := ofName s!"module/{name}"

/-- Where the token contract of a denomination answers. -/
def ofToken (denom : String) : Address := ofName s!"erc20/{denom}"

end Address

/-! Denominations, and amounts of one of them. -/

namespace Denom

def isMark (c : Char) : Bool := c = '/' || c = ':' || c = '.' || c = '_' || c = '-'

/-- A letter, then letters, digits and marks: 3 to 128 bytes in all. -/
def check (denom : String) : Except FormatError Unit :=
  if denom.utf8ByteSize < 3 ∨ 128 < denom.utf8ByteSize then .error (.denomLength denom)
  else
    match denom.toList with
    | [] => .error (.denomStart denom)
    | first :: rest =>
      if !first.isAlpha then .error (.denomStart denom)
      else
        match rest.find? fun c => !(c.isAlphanum || isMark c) with
        | some c => .error (.denomChar denom c)
        | none => .ok ()

/-- Vouchers stand for tokens of another chain. -/
def isVoucher (denom : String) : Bool := "ibc/".toList.isPrefixOf denom.toList

end Denom

structure Coin where
  denom : String
  amount : Amount
  deriving DecidableEq, Repr, Inhabited

namespace Coin

def text (c : Coin) : String := c.amount.text ++ c.denom

def check (c : Coin) : Except FormatError Unit := Denom.check c.denom

def isPositive (c : Coin) : Bool := 0 < c.amount

end Coin

end LedgerBridge
