import LedgerBridge.Codec
import LedgerBridge.Document
import LedgerBridge.Primitives

/-! The denominations that are tokens: at which address, how they are shown, and their forms as bytes and
as documents. -/
namespace LedgerBridge

/-! A denomination and the contract address at which it is a token. -/

structure TokenPair where
  address : Address
  denom : String
  enabled : Bool
  /-- May mint and burn; without an owner nobody may. -/
  owner : Option Address
  deriving DecidableEq, Repr

namespace TokenPair

/-- An enabled pair at the address that belongs to the denomination. -/
def ofDenom (denom : String) (owner : Option Address) : TokenPair :=
  ⟨Address.ofToken denom, denom, true, owner⟩

def check (p : TokenPair) : Except FormatError Unit := Denom.check p.denom

end TokenPair

/-! How a denomination is shown: name, symbol and decimal places. -/

structure Metadata where
  base : String
  name : String
  symbol : String
  decimals : UInt8
  deriving DecidableEq, Repr

namespace Metadata

def isPrintable (c : Char) : Bool := 0x20 ≤ c.toNat && c.toNat ≤ 0x7E

/-- 1 to 12 letters and digits. -/
def checkSymbol (symbol : String) : Except FormatError Unit :=
  if symbol.utf8ByteSize = 0 ∨ 12 < symbol.utf8ByteSize then
    .error (.symbolLength symbol.utf8ByteSize)
  else
    match symbol.toList.find? (!·.isAlphanum) with
    | some c => .error (.symbolChar c)
    | none => .ok ()

/-- 1 to 64 printable ASCII characters. -/
def checkName (name : String) : Except FormatError Unit :=
  if name.utf8ByteSize = 0 ∨ 64 < name.utf8ByteSize then .error (.nameLength name.utf8ByteSize)
  else
    match name.toList.find? (!isPrintable ·) with
    | some c => .error (.nameChar c)
    | none => .ok ()

def check (m : Metadata) : Except FormatError Unit := do
  Denom.check m.base
  checkName m.name
  checkSymbol m.symbol
  if 18 < m.decimals then .error (.decimals m.decimals) else .ok ()

end Metadata

/-! The binary form of coins, token pairs and metadata. -/

open Codec

def Coin.codec : Codec Coin :=
  (pair .string .amount).map (fun (denom, amount) => ⟨denom, amount⟩) fun c => (c.denom, c.amount)

def TokenPair.codec : Codec TokenPair :=
  (pair .address (pair .string (pair .bool (option .address)))).map
    (fun (address, denom, enabled, owner) => ⟨address, denom, enabled, owner⟩)
    fun p => (p.address, p.denom, p.enabled, p.owner)

def Metadata.codec : Codec Metadata :=
  (pair .string (pair .string (pair .string .u8))).map
    (fun (base, name, symbol, decimals) => ⟨base, name, symbol, decimals⟩)
    fun m => (m.base, m.name, m.symbol, m.decimals)

end LedgerBridge

namespace LedgerBridge

/-! Coins, token pairs and metadata as documents. -/

namespace Document

/-- An address in hexadecimal digits. -/
def address? (d : Document) : Option Address := do
  (Address.parse (← d.text?)).toOption

/-- An amount written as a number. -/
def amount? (d : Document) : Option Amount := do
  Amount.ofNat? (← d.natural? Amount.size)

/-- An amount written as a text. -/
def amountText? (d : Document) : Option Amount := do
  Amount.ofNat? (← Decimal.read Amount.size (← d.text?))

def ofAddress (a : Address) : Document := .text a.text

def ofOption (write : α → Document) : Option α → Document
  | none => .null
  | some a => write a

end Document

open Document

namespace Coin

def toDocument (c : Coin) : Document :=
  .record [("denom", .text c.denom), ("amount", .natural c.amount.toNat)]

def ofDocument? (layout : Layout) (d : Document) : Option Coin := do
  let [some denom, some amount] ← d.fields? layout ["denom", "amount"] | none
  return ⟨← denom.text?, ← amount.amount?⟩

end Coin

namespace TokenPair

def toDocument (p : TokenPair) : Document :=
  .record [("erc20_address", ofAddress p.address), ("denom", .text p.denom),
    ("enabled", .bool p.enabled), ("owner", ofOption ofAddress p.owner)]

def ofDocument? (layout : Layout) (d : Document) : Option TokenPair := do
  let [some address, some denom, some enabled, owner] ←
    d.fields? layout ["erc20_address", "denom", "enabled", "owner"] | none
  return ⟨← address.address?, ← denom.text?, ← enabled.bool?,
    ← orElse owner none (optional? address?)⟩

end TokenPair

namespace Metadata

def toDocument (m : Metadata) : Document :=
  .record [("base", .text m.base), ("name", .text m.name), ("symbol", .text m.symbol),
    ("decimals", .natural m.decimals.toNat)]

def ofDocument? (layout : Layout) (d : Document) : Option Metadata := do
  let [some base, some name, some symbol, some decimals] ←
    d.fields? layout ["base", "name", "symbol", "decimals"] | none
  return ⟨← base.text?, ← name.text?, ← symbol.text?, .ofNat (← decimals.natural? UInt8.size)⟩

end Metadata

end LedgerBridge
