import LedgerBridge.Main
import LedgerBridge.Node.FileTree
import LedgerBridge.Proofs.Authority
import LedgerBridge.Proofs.Branches
import LedgerBridge.Proofs.Budgets
import LedgerBridge.Proofs.Spending
import LedgerBridge.Proofs.Supplies
import LedgerBridge.Proofs.VmMirror
import LedgerBridge.Proofs.RecordForms
import LedgerBridge.Proofs.CallData
import LedgerBridge.Proofs.JsonDocuments
import LedgerBridge.Proofs.Memos
import LedgerBridge.Proofs.ChannelKeys
import LedgerBridge.Proofs.PacketLogs
import LedgerBridge.Proofs.Dispatches
import LedgerBridge.Proofs.ChannelHistories
import LedgerBridge.Proofs.Contexts
import LedgerBridge.Proofs.Independence
import LedgerBridge.Proofs.TransferLogs
import LedgerBridge.Proofs.Escrows
import LedgerBridge.Proofs.Scopes
import LedgerBridge.Proofs.QueryAnswers
import LedgerBridge.Proofs.EarlyRefusals
import LedgerBridge.Proofs.GrantHistories
import LedgerBridge.Proofs.GrantForms
import LedgerBridge.Proofs.BulkSends
import LedgerBridge.Proofs.PaidCalls
import LedgerBridge.Proofs.StoredRecords
import LedgerBridge.Proofs.DelegatedTransfers
import LedgerBridge.Proofs.AllowanceChanges
import LedgerBridge.Proofs.Swaps
import LedgerBridge.Proofs.SpendLimits
import LedgerBridge.Proofs.Registries
import LedgerBridge.Proofs.GenesisLists
import LedgerBridge.Proofs.GenesisStates
import LedgerBridge.Proofs.GenesisGrants
import LedgerBridge.Proofs.PrecompileSets
import LedgerBridge.Proofs.ChannelLimits
import LedgerBridge.Proofs.VmUpdates
import LedgerBridge.Proofs.CheckedReading
import LedgerBridge.Proofs.ArgumentForms
import LedgerBridge.Proofs.RegistryHistories
import LedgerBridge.Proofs.Attempts
import LedgerBridge.Proofs.Holdings
import LedgerBridge.Proofs.Journals
import LedgerBridge.Proofs.OwnTransfers
import LedgerBridge.Proofs.Names
import LedgerBridge.Proofs.JsonRecords
import LedgerBridge.Proofs.KeySpaces
import LedgerBridge.Proofs.MethodTables
