import LedgerBridge.Json.Writer
import LedgerBridge.Node.Config
import LedgerBridge.Token
import LedgerBridge.Toml.Reader

/-! Configurations as documents and as text. -/
namespace LedgerBridge

/-! Configurations as documents. What is not given has its standard value; what is unknown is
skipped. -/

open Document

namespace ChainConfig

def toDocument (c : ChainConfig) : Document :=
  .record [("chain_id", .text c.chainId), ("evm_denom", .text c.evmDenom),
    ("bond_denom", .text c.bondDenom), ("block_height", .ofU64 c.blockHeight),
    ("block_time", .ofU64 c.blockTime)]

def ofDocument? (layout : Layout) (d : Document) : Option ChainConfig := do
  let [chainId, evmDenom, bondDenom, blockHeight, blockTime] ← d.fields? layout
    ["chain_id", "evm_denom", "bond_denom", "block_height", "block_time"] | none
  return {
    chainId := ← orElse chainId standard.chainId text?
    evmDenom := ← orElse evmDenom standard.evmDenom text?
    bondDenom := ← orElse bondDenom standard.bondDenom text?
    blockHeight := ← orElse blockHeight standard.blockHeight u64?
    blockTime := ← orElse blockTime standard.blockTime u64? }

end ChainConfig

namespace PairConfig

def toDocument (p : PairConfig) : Document :=
  .record ([("denom", .text p.denom), ("name", .text p.name), ("symbol", .text p.symbol),
    ("decimals", .natural p.decimals.toNat)] ++ optionalMember "owner" ofAddress p.owner ++
    [("enabled", .bool p.enabled)])

def ofDocument? (layout : Layout) (d : Document) : Option PairConfig := do
  let [some denom, some name, some symbol, some decimals, owner, enabled] ← d.fields? layout
    ["denom", "name", "symbol", "decimals", "owner", "enabled"] | none
  return {
    denom := ← denom.text?
    name := ← name.text?
    symbol := ← symbol.text?
    decimals := .ofNat (← decimals.natural? UInt8.size)
    owner := ← orElse owner none (optional? address?)
    enabled := ← orElse enabled true bool? }

end PairConfig

namespace Endowment

def toDocument (e : Endowment) : Document :=
  .record [("address", ofAddress e.address), ("denom", .text e.denom),
    ("amount", .text e.amount.text)]

def ofDocument? (layout : Layout) (d : Document) : Option Endowment := do
  let [some address, some denom, some amount] ← d.fields? layout
    ["address", "denom", "amount"] | none
  return ⟨← address.address?, ← denom.text?, ← amount.amountText?⟩

end Endowment

namespace GrantKind

def text : GrantKind → String
  | send => "send"
  | transfer => "transfer"

def ofDocument? (layout : Layout) (d : Document) : Option GrantKind := do
  let name ← d.choice? layout
  [send, transfer].find? fun kind => kind.text = name

end GrantKind

namespace GenesisGrant

def toDocument (g : GenesisGrant) : Document :=
  .record ([("kind", .text g.kind.text), ("granter", ofAddress g.granter),
    ("grantee", ofAddress g.grantee), ("denom", .text g.denom),
    ("spend_limit", .text g.spendLimit.text)] ++ optionalMember "expiration" ofU64 g.expiration)

def ofDocument? (layout : Layout) (d : Document) : Option GenesisGrant := do
  let [some kind, some granter, some grantee, some denom, some spendLimit, expiration] ←
    d.fields? layout
      ["kind", "granter", "grantee", "denom", "spend_limit", "expiration"] | none
  return {
    kind := ← GrantKind.ofDocument? layout kind
    granter := ← granter.address?
    grantee := ← grantee.address?
    denom := ← denom.text?
    spendLimit := ← spendLimit.amountText?
    expiration := ← orElse expiration none (optional? u64?) }

end GenesisGrant

namespace GenesisConfig

def toDocument (g : GenesisConfig) : Document :=
  .record [("counterparty_channel", .text g.counterpartyChannel),
    ("balances", .list (g.balances.map Endowment.toDocument)),
    ("grants", .list (g.grants.map GenesisGrant.toDocument))]

def ofDocument? (layout : Layout) (d : Document) : Option GenesisConfig := do
  let [counterpartyChannel, balances, grants] ← d.fields? layout
    ["counterparty_channel", "balances", "grants"] | none
  return {
    counterpartyChannel := ← orElse counterpartyChannel standard.counterpartyChannel text?
    balances := ← orElse balances [] fun d => do (← d.list?).mapM (Endowment.ofDocument? layout)
    grants := ← orElse grants [] fun d => do (← d.list?).mapM (GenesisGrant.ofDocument? layout) }

end GenesisConfig

namespace Config

def toDocument (c : Config) : Document :=
  .record [("chain", c.chain.toDocument), ("outpost", c.outpost.toDocument),
    ("erc20", .record [("approval_expiration", .ofU64 c.approvalLifetime)]),
    ("token_pairs", .list (c.pairs.map PairConfig.toDocument)),
    ("genesis", c.genesis.toDocument), ("logging", .record [("level", .text c.logLevel)])]

def approvalLifetime? (layout : Layout) (d : Document) : Option UInt64 := do
  let [lifetime] ← d.fields? layout ["approval_expiration"] | none
  orElse lifetime standard.approvalLifetime u64?

def logLevel? (layout : Layout) (d : Document) : Option String := do
  let [level] ← d.fields? layout ["level"] | none
  orElse level standard.logLevel text?

def ofDocument? (layout : Layout) (d : Document) : Option Config := do
  let [chain, outpost, token, pairs, genesis, logging] ← d.fields? layout
    ["chain", "outpost", "erc20", "token_pairs", "genesis", "logging"] | none
  return {
    chain := ← orElse chain standard.chain (ChainConfig.ofDocument? layout)
    outpost := ← orElse outpost standard.outpost (OutpostConfig.ofDocument? layout)
    approvalLifetime := ← orElse token standard.approvalLifetime (approvalLifetime? layout)
    pairs := ← orElse pairs [] fun d => do (← d.list?).mapM (PairConfig.ofDocument? layout)
    genesis := ← orElse genesis standard.genesis (GenesisConfig.ofDocument? layout)
    logLevel := ← orElse logging standard.logLevel (logLevel? layout) }

end Config

end LedgerBridge

namespace LedgerBridge.Config

/-! Configurations as text: a table for each part, a table in double brackets for each item of a list,
and for an empty list a value before all tables. -/

/-- A value that is no table. -/
def valueText : Document → Option String
  | .bool b => some (toString b)
  | .natural n => some (toString n)
  | .text s => some (.ofList (Json.writeText s))
  | .list [] => some "[]"
  | _ => none

def valueLines (members : List (String × Document)) : String :=
  .join (members.filterMap fun (key, d) => (valueText d).map fun v => s!"{key} = {v}\n")

/-- A table and the rows that it holds. -/
def tableText (name : String) (members : List (String × Document)) : String :=
  s!"\n[{name}]\n" ++ valueLines members ++ .join (members.map fun (key, d) =>
    match d with
    | .list items => .join (items.map (rowText s!"{name}.{key}"))
    | _ => "")
where
  rowText (name : String) : Document → String
    | .record members => s!"\n[[{name}]]\n" ++ valueLines members
    | _ => ""

def partText (name : String) : Document → String
  | .record members => tableText name members
  | .list items => .join (items.map (tableText.rowText name))
  | _ => ""

def text (c : Config) : String :=
  match c.toDocument with
  | .record members =>
    let whole := valueLines members ++ .join (members.map fun (name, d) => partText name d)
    .ofList (whole.toList.dropWhile (· = '\n'))
  | _ => ""

def ofToml? (s : String) : Option Config := do
  ofDocument? Toml.layout (← Toml.parse s)

end LedgerBridge.Config
