import LedgerBridge.Outpost.Basic
import LedgerBridge.Token
import LedgerBridge.TokenContract.Basic

/-! The configuration of a node: its chain, its contracts and the state that it starts from. -/
namespace LedgerBridge

structure ChainConfig where
  chainId : String
  /-- The native denomination of the virtual machine. -/
  evmDenom : String
  /-- The denomination that is staked. -/
  bondDenom : String
  blockHeight : UInt64
  blockTime : UInt64
  deriving DecidableEq, Repr

/-- A denomination that has a token contract. -/
structure PairConfig where
  denom : String
  name : String
  symbol : String
  decimals : UInt8
  owner : Option Address
  enabled : Bool
  deriving DecidableEq, Repr

namespace PairConfig

def pair (p : PairConfig) : TokenPair :=
  { TokenPair.ofDenom p.denom p.owner with enabled := p.enabled }

def metadata (p : PairConfig) : Metadata := ⟨p.denom, p.name, p.symbol, p.decimals⟩

end PairConfig

/-- Funds that an account starts with. -/
structure Endowment where
  address : Address
  denom : String
  amount : Amount
  deriving DecidableEq, Repr

inductive GrantKind
  | send
  | transfer
  deriving DecidableEq, Repr

/-- A grant that is in force from the start. Transfers are granted over the outpost's channel. -/
structure GenesisGrant where
  kind : GrantKind
  granter : Address
  grantee : Address
  denom : String
  spendLimit : Amount
  expiration : Option UInt64
  deriving DecidableEq, Repr

structure GenesisConfig where
  counterpartyChannel : String
  balances : List Endowment
  grants : List GenesisGrant
  deriving DecidableEq, Repr

structure Config where
  chain : ChainConfig
  outpost : OutpostConfig
  approvalLifetime : UInt64
  pairs : List PairConfig
  genesis : GenesisConfig
  logLevel : String
  deriving DecidableEq, Repr

def ChainConfig.standard : ChainConfig where
  chainId := "strata-dev-1"
  evmDenom := "abridge"
  bondDenom := "abridge"
  blockHeight := 1
  blockTime := 1700000000

def GenesisConfig.standard : GenesisConfig := ⟨"channel-0", [], []⟩

namespace Config

/-- What stands for all that a configuration does not say. -/
def standard : Config where
  chain := .standard
  outpost := .standard
  approvalLifetime := TokenContract.defaultApprovalLifetime
  pairs := []
  genesis := .standard
  logLevel := "info"

/-- The account that holds the funds of a development chain. -/
def developer : Address :=
  ⟨[0x3C, 0x44, 0xCD, 0xDD, 0xB6, 0xA9, 0x00, 0xFA, 0x2B, 0x58, 0x5D, 0xD2, 0x99, 0xE0, 0x3D, 0x12,
    0xFA, 0x42, 0x93, 0xBC], rfl⟩

/-- A chain for development: the native denomination and the voucher of the other chain's own have
contracts, and one account has funds. -/
def development : Config :=
  let c := standard
  { c with
    outpost := { c.outpost with swapContract := "osmo1xcsswapcontract" }
    pairs := [
      ⟨c.chain.evmDenom, "Strata", "STRATA", 18, none, true⟩,
      ⟨Denom.voucher c.outpost.port c.outpost.channel c.outpost.counterDenom, "Osmosis", "OSMO", 6,
        none, true⟩]
    genesis := { c.genesis with balances := [⟨developer, c.chain.evmDenom, 1000000000000000000000⟩] } }

end Config

end LedgerBridge
