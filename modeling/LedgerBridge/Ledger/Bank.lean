import LedgerBridge.Ledger.Record
import LedgerBridge.Primitives
import LedgerBridge.Token

/-! The bank, and the two small keepers beside it: the registry of tokens and the staking parameters. -/
namespace LedgerBridge.Ledger

/-! Balances and supplies. A balance of zero is not stored. Coins are created in and destroyed from
the accounts of modules; all else moves them. -/

def balance (owner : Address) (denom : String) : Ledger Amount := do
  return (← read? .amount (.balance owner denom)).getD 0

def supply (denom : String) : Ledger Amount := do
  return (← read? .amount (.supply denom)).getD 0

def setBalance (owner : Address) (denom : String) (amount : Amount) : Ledger Unit :=
  if amount = 0 then erase (.balance owner denom) else write .amount (.balance owner denom) amount

def setSupply (denom : String) (amount : Amount) : Ledger Unit :=
  write .amount (.supply denom) amount

/-- A sum of amounts, which must be an amount. -/
def sum (a b : Amount) : Except LedgerError Amount :=
  match a.plus? b with
  | some c => .ok c
  | none => .error .balanceOverflow

/-- Credits an account with coins that were not there before. -/
def endow (owner : Address) (coin : Coin) : Ledger Unit := do
  require coin.check
  let balance ← balance owner coin.denom
  let supply ← supply coin.denom
  let newBalance ← sum balance coin.amount
  let newSupply ← sum supply coin.amount
  setBalance owner coin.denom newBalance
  setSupply coin.denom newSupply

def metadata? (denom : String) : Ledger (Option Metadata) := read? Metadata.codec (.metadata denom)

def setMetadata (m : Metadata) : Ledger Unit := do
  require m.check
  write Metadata.codec (.metadata m.base) m

/-- All that an account holds, by denomination. -/
def balances (owner : Address) : Ledger (List Coin) := do
  let start := (Key.Area.balances owner).start
  let entries ← Metered.scan start
  entries.mapM fun (key, value) => do
    return (⟨Utf8.readLossy (key.drop start.length), ← decode .amount value⟩ : Coin)

/-- What an account has of a denomination, which must be enough for the coin. -/
def funds (owner : Address) (coin : Coin) : Ledger Amount := do
  let available ← balance owner coin.denom
  if available < coin.amount then .fail (.insufficientFunds available coin.amount coin.denom)
  else return available

def debit (owner : Address) (coin : Coin) : Ledger Unit := do
  let available ← funds owner coin
  setBalance owner coin.denom (available.minus coin.amount)

def credit (owner : Address) (coin : Coin) : Ledger Unit := do
  let current ← balance owner coin.denom
  setBalance owner coin.denom (← sum current coin.amount)

def checkCoins (coins : List Coin) : Except LedgerError Unit := coins.forM (require ·.check)

/-- Moves coins. Each must be covered by what the sender has at the start. -/
def send (sender recipient : Address) (coins : List Coin) : Ledger Unit := do
  checkCoins coins
  coins.forM fun coin => discard (funds sender coin)
  coins.forM fun coin => do
    debit sender coin
    credit recipient coin

def mint (module : String) (coins : List Coin) : Ledger Unit := do
  checkCoins coins
  coins.forM fun coin => do
    let supply ← supply coin.denom
    let newSupply ← sum supply coin.amount
    credit (.ofModule module) coin
    setSupply coin.denom newSupply

def burn (module : String) (coins : List Coin) : Ledger Unit := do
  checkCoins coins
  coins.forM fun coin => do
    debit (.ofModule module) coin
    let supply ← supply coin.denom
    setSupply coin.denom (supply.minus coin.amount)

def sendFromModule (module : String) (recipient : Address) (coins : List Coin) : Ledger Unit :=
  send (.ofModule module) recipient coins

def sendToModule (sender : Address) (module : String) (coins : List Coin) : Ledger Unit :=
  send sender (.ofModule module) coins

/-! The registry that binds denominations to contract addresses, one to one. The binding is stored
under the denomination; under the address stands the denomination. -/

def pairOf? (denom : String) : Ledger (Option TokenPair) := read? TokenPair.codec (.pair denom)

def pairAt? (address : Address) : Ledger (Option TokenPair) := do
  match ← Metered.get (Key.pairAddress address).bytes with
  | some denom => pairOf? (Utf8.readLossy denom)
  | none => return none

def pairs : Ledger (List TokenPair) := readAll TokenPair.codec .pairs

def registerPair (p : TokenPair) : Ledger Unit := do
  require p.check
  if ← contains (.pair p.denom) then
    Metered.fail (.invalidMessage s!"token pair for denom {p.denom} already registered")
  if ← contains (.pairAddress p.address) then
    Metered.fail (.invalidMessage s!"token pair for address {p.address.text} already registered")
  write TokenPair.codec (.pair p.denom) p
  Metered.set (Key.pairAddress p.address).bytes (Bytes.ofString p.denom)

/-! The denomination that is staked. -/

def defaultBondDenom : String := "abridge"

def bondDenom : Ledger String := do
  return (← read? .string .stakingParams).getD defaultBondDenom

def setBondDenom (denom : String) : Ledger Unit := do
  require (Denom.check denom)
  write .string .stakingParams denom

end LedgerBridge.Ledger
