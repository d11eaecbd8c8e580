import LedgerBridge.Ledger.Authorization
import LedgerBridge.Ledger.Bank
import LedgerBridge.Node.Config
import LedgerBridge.Node.Host
import LedgerBridge.Vm

/-! The state and the contracts that a chain starts with. -/
namespace LedgerBridge

/-- What a genesis grant permits. -/
def GenesisGrant.authorization (g : GenesisGrant) (o : OutpostConfig) : Authorization :=
  let limits : Limits := [⟨g.denom, g.spendLimit⟩]
  match g.kind with
  | .send => .send limits
  | .transfer => .transfer [⟨o.port, o.channel, limits, []⟩]

namespace Config

def block (c : Config) : Block := ⟨c.chain.blockHeight, c.chain.blockTime⟩

abbrev Setup := Metered NodeError

def ofLedger (x : Ledger α) : Setup α := x.mapError NodeError.ledger

def registerPair (p : PairConfig) : Setup Unit := do
  ofLedger (Ledger.registerPair p.pair)
  ofLedger (Ledger.setMetadata p.metadata)

def grant (c : Config) (g : GenesisGrant) : Setup Unit := do
  if g.expiration.any (· ≤ c.chain.blockTime) then
    Metered.fail (.genesis
      s!"grant from {g.granter.text} to {g.grantee.text} expires before genesis")
  ofLedger (Ledger.saveGrant c.chain.blockTime g.granter g.grantee
    ⟨g.authorization c.outpost, g.expiration⟩)

def genesis? (c : Config) : Setup Unit := do
  ofLedger (Ledger.setBondDenom c.chain.bondDenom)
  c.pairs.forM registerPair
  ofLedger (Ledger.openChannel c.outpost.port c.outpost.channel
    ⟨c.outpost.port, c.genesis.counterpartyChannel⟩)
  c.genesis.balances.forM fun e => ofLedger (Ledger.endow e.address ⟨e.denom, e.amount⟩)
  c.genesis.grants.forM c.grant

/-- The store that a chain starts from. -/
def initialStore (c : Config) : Except NodeError Store :=
  let (result, s) := c.genesis?.perform ∅
  result.map fun _ => s

def tokenContract (c : Config) (p : PairConfig) : Except Refusal TokenContract :=
  TokenContract.new? p.pair p.metadata c.chain.evmDenom c.approvalLifetime

/-- A token contract for each pair, and the outpost. -/
def precompiles (c : Config) : Except NodeError PrecompileSet := do
  let set ← (c.pairs.foldlM (fun set p => do
    PrecompileSet.add? set (.token (← c.tokenContract p))) ∅).mapError NodeError.precompile
  (PrecompileSet.add? set (.outpost ⟨c.outpost, c.chain.evmDenom⟩)).mapError NodeError.precompile

end Config

namespace PrecompileSet

/-- The address that a name given by a user stands for. -/
def addressOf (name : String) : Except NodeError Address :=
  if name = "outpost" then .ok Outpost.address
  else if "erc20:".toList.isPrefixOf name.toList then
    .ok (.ofToken (.ofList (name.toList.drop 6)))
  else (Address.parse name).mapError fun e => .config s!"unknown precompile '{name}': {e.message}"

def resolve (set : PrecompileSet) (name : String) : Except NodeError Precompile := do
  let address ← addressOf name
  match set.at? address with
  | some p => return p
  | none => .error (.config s!"no precompile registered for '{name}' at {address.text}")

end PrecompileSet

end LedgerBridge
