import LedgerBridge.Precompile.Call
import LedgerBridge.Precompile.Method
import LedgerBridge.Token

/-! The token contract of a denomination: its configuration, its methods and the events it logs. -/
namespace LedgerBridge

structure TokenContract where
  pair : TokenPair
  /-- Shown if the ledger has no metadata. -/
  metadata : Metadata
  /-- The native denomination of the virtual machine. -/
  evmDenom : String
  /-- How long a new approval lasts. -/
  approvalLifetime : UInt64
  deriving DecidableEq, Repr

namespace TokenContract

/-- One year. -/
def defaultApprovalLifetime : UInt64 := 365 * 24 * 60 * 60

def new? (pair : TokenPair) (metadata : Metadata) (evmDenom : String)
    (approvalLifetime : UInt64) : Except Refusal TokenContract := do
  pair.check.mapError Refusal.ofFormat
  return ⟨pair, metadata, evmDenom, approvalLifetime⟩

def denom (t : TokenContract) : String := t.pair.denom

def journal (t : TokenContract) : Journal := .new t.evmDenom

inductive Operation
  | transfer
  | transferFrom
  | approve
  | increaseAllowance
  | decreaseAllowance
  | mint
  | burn
  | name
  | symbol
  | decimals
  | totalSupply
  | balanceOf
  | allowance
  deriving DecidableEq, Repr

def methods : List (Method Operation) := [
  ⟨.transfer, "transfer(address,uint256)", [.address, .uint256], .transaction, 3000000⟩,
  ⟨.transferFrom, "transferFrom(address,address,uint256)", [.address, .address, .uint256],
    .transaction, 3000000⟩,
  ⟨.approve, "approve(address,uint256)", [.address, .uint256], .transaction, 30956⟩,
  ⟨.increaseAllowance, "increaseAllowance(address,uint256)", [.address, .uint256], .transaction,
    34605⟩,
  ⟨.decreaseAllowance, "decreaseAllowance(address,uint256)", [.address, .uint256], .transaction,
    34519⟩,
  ⟨.mint, "mint(address,uint256)", [.address, .uint256], .transaction, 3000000⟩,
  ⟨.burn, "burn(uint256)", [.uint256], .transaction, 3000000⟩,
  ⟨.name, "name()", [], .query, 3421⟩,
  ⟨.symbol, "symbol()", [], .query, 3464⟩,
  ⟨.decimals, "decimals()", [], .query, 427⟩,
  ⟨.totalSupply, "totalSupply()", [], .query, 2477⟩,
  ⟨.balanceOf, "balanceOf(address)", [.address], .query, 2851⟩,
  ⟨.allowance, "allowance(address,address)", [.address, .address], .query, 3246⟩]

def table : MethodTable Operation := .ofMethods methods

/-- Mints into and burns from this module's account. -/
def moduleName : String := "erc20"

def transferLog (contract sender recipient : Address) (amount : Amount) : Log where
  address := contract
  topics := [Abi.eventTopic "Transfer(address,address,uint256)", Abi.addressTopic sender,
    Abi.addressTopic recipient]
  data := Abi.encode [.ofAmount amount]

def approvalLog (contract owner spender : Address) (value : Word) : Log where
  address := contract
  topics := [Abi.eventTopic "Approval(address,address,uint256)", Abi.addressTopic owner,
    Abi.addressTopic spender]
  data := Abi.encode [.uint value]

end TokenContract

end LedgerBridge
