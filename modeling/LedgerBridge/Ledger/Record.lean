import LedgerBridge.Codec
import LedgerBridge.Metered
import LedgerBridge.Primitives

/-! What all parts of the ledger share: its errors, its keys, and how records are read and written. -/
namespace LedgerBridge

/-! Why the ledger turns an operation down. -/

inductive StorageActivity
  | write
  | read
  | serialization
  | deserialization
  | batch
  deriving DecidableEq, Repr

def StorageActivity.text : StorageActivity → String
  | write => "Write"
  | read => "Read"
  | serialization => "Serialization"
  | deserialization => "Deserialization"
  | batch => "Batch"

inductive LedgerError
  | insufficientFunds (available required : Amount) (denom : String)
  | invalidCoins (reason : String)
  | invalidAddress (reason : String)
  | invalidMessage (reason : String)
  | noAuthorization
  | limitExceeded (requested limit : Amount)
  | unauthorized (reason : String)
  | channelNotFound (port channel : String)
  | balanceOverflow
  | storage (activity : StorageActivity) (reason : String)
  deriving DecidableEq, Repr

namespace LedgerError

def message : LedgerError → String
  | insufficientFunds available required denom =>
    s!"insufficient funds: {available.text}{denom} is smaller than {required.text}{denom}"
  | invalidCoins reason => s!"invalid coins: {reason}"
  | invalidAddress reason => s!"invalid address: {reason}"
  | invalidMessage reason => s!"invalid message: {reason}"
  | noAuthorization => "authorization not found"
  | limitExceeded requested limit =>
    s!"requested amount is more than spend limit: {requested.text} > {limit.text}"
  | unauthorized reason => s!"unauthorized: {reason}"
  | channelNotFound port channel => s!"channel not found: port {port}, channel {channel}"
  | balanceOverflow => "balance overflow"
  | storage activity reason => s!"storage error: {activity.text} error: {reason}"

/-- Bad coins are any ill-formed part but an address. -/
def ofFormat (e : FormatError) : LedgerError :=
  match e with
  | .addressDigits .. | .addressLength .. => invalidAddress e.reason
  | _ => invalidCoins e.message

end LedgerError

/-! Under which key each record of the ledger is stored, and which keys a listing goes through. -/

inductive Key
  | balance (owner : Address) (denom : String)
  | supply (denom : String)
  | metadata (denom : String)
  | grant (granter grantee : Address) (messageType : String)
  | pair (denom : String)
  | pairAddress (address : Address)
  | stakingParams
  | channel (port channel : String)
  | sequence (port channel : String)
  | packet (port channel : String) (sequence : UInt64)
  deriving DecidableEq, Repr

/-- Records that are listed together. -/
inductive Key.Area
  | balances (owner : Address)
  | pairs
  | packets (port channel : String)
  deriving DecidableEq, Repr

namespace Key

def slash : Bytes := [0x2F]

/-- The keys of an area begin with these bytes. -/
def Area.start : Area → Bytes
  | balances owner => Bytes.ofString "bank/bal/" ++ owner.bytes ++ slash
  | pairs => Bytes.ofString "erc20/pair/"
  | packets p c =>
    Bytes.ofString "transfer/packet/" ++ Bytes.ofString p ++ slash ++ Bytes.ofString c ++ slash

def bytes : Key → Bytes
  | balance owner denom => (Area.balances owner).start ++ Bytes.ofString denom
  | supply denom => Bytes.ofString "bank/supply/" ++ Bytes.ofString denom
  | metadata denom => Bytes.ofString "bank/meta/" ++ Bytes.ofString denom
  | grant granter grantee messageType =>
    Bytes.ofString "authz/" ++ granter.bytes ++ grantee.bytes ++ Bytes.ofString messageType
  | pair denom => Area.pairs.start ++ Bytes.ofString denom
  | pairAddress address => Bytes.ofString "erc20/addr/" ++ address.bytes
  | stakingParams => Bytes.ofString "staking/params"
  | channel p c =>
    Bytes.ofString "transfer/channel/" ++ Bytes.ofString p ++ slash ++ Bytes.ofString c
  | sequence p c => Bytes.ofString "transfer/seq/" ++ Bytes.ofString p ++ slash ++ Bytes.ofString c
  | packet p c n => (Area.packets p c).start ++ Bytes.bigEndian 8 n.toNat

end Key

/-! Records in the store, each in its binary form under its key. -/

abbrev Ledger := Metered LedgerError

namespace Ledger

/-- The value that stored bytes hold. -/
def decode (c : Codec α) (bs : Bytes) : Except LedgerError α :=
  (c.decodeAll bs).mapError fun fault => .storage .deserialization fault.message

def read? (c : Codec α) (key : Key) : Ledger (Option α) := do
  match ← Metered.get key.bytes with
  | none => return none
  | some bs => return some (← decode c bs)

def write (c : Codec α) (key : Key) (a : α) : Ledger Unit :=
  if c.writable a then Metered.set key.bytes (c.encode a)
  else .fail (.storage .serialization "invalid data")

def contains (key : Key) : Ledger Bool := Metered.has key.bytes

def erase (key : Key) : Ledger Unit := Metered.erase key.bytes

/-- The records of an area, in the order of their keys. -/
def readAll (c : Codec α) (area : Key.Area) : Ledger (List α) := do
  let entries ← Metered.scan area.start
  entries.mapM fun entry => decode c entry.2

/-- Checks how something is written, before anything is done. -/
def require (check : Except FormatError Unit) : Except LedgerError Unit :=
  check.mapError LedgerError.ofFormat

end Ledger

end LedgerBridge
