import LedgerBridge.Ledger.Record
import LedgerBridge.Text.Characters
import LedgerBridge.Token

/-! Messages that move funds: between accounts of this ledger, or out of it over a channel. -/
namespace LedgerBridge

namespace Identifier

def isMark (c : Char) : Bool :=
  c = '.' || c = '_' || c = '+' || c = '-' || c = '#' || c = '[' || c = ']' || c = '<' || c = '>'

/-- Ports and channels are named by 2 to 64 letters, digits and marks. -/
def check (kind id : String) : Except LedgerError Unit :=
  if id.utf8ByteSize < 2 ∨ 64 < id.utf8ByteSize then
    .error (.invalidMessage
      s!"invalid {kind} identifier {Text.quoted id}: length must be between 2 and 64")
  else
    match id.toList.find? fun c => !(c.isAlphanum || isMark c) with
    | some c =>
      .error (.invalidMessage
        s!"invalid {kind} identifier {Text.quoted id}: invalid character '{c}'")
    | none => .ok ()

end Identifier

/-- A block height on the other chain. -/
structure Height where
  revision : UInt64
  height : UInt64
  deriving DecidableEq, Repr, Inhabited

def Height.isZero (h : Height) : Bool := h.revision = 0 && h.height = 0

def Height.codec : Codec Height :=
  (Codec.u64.pair .u64).map (fun (revision, height) => ⟨revision, height⟩) fun h =>
    (h.revision, h.height)

structure SendMessage where
  sender : Address
  recipient : Address
  coins : List Coin
  deriving DecidableEq, Repr

structure TransferMessage where
  port : String
  channel : String
  token : Coin
  sender : Address
  /-- An account on the other chain, in the form used there. -/
  receiver : String
  timeoutHeight : Height
  timeoutTime : UInt64
  memo : String
  deriving DecidableEq, Repr

/-- A coin that is worth sending. -/
def Coin.checkPositive (c : Coin) : Except LedgerError Unit := do
  c.check.mapError .ofFormat
  if c.isPositive then .ok () else .error (.invalidCoins s!"{c.text}: amount must be positive")

namespace SendMessage

def codec : Codec SendMessage :=
  (Codec.address.pair (.pair .address (.list Coin.codec))).map
    (fun (sender, recipient, coins) => ⟨sender, recipient, coins⟩)
    fun m => (m.sender, m.recipient, m.coins)

def check (m : SendMessage) : Except LedgerError Unit := do
  if m.sender = .zero then .error (.invalidAddress "invalid from address: empty address")
  if m.recipient = .zero then .error (.invalidAddress "invalid to address: empty address")
  if m.coins = [] then .error (.invalidCoins "empty coins")
  m.coins.forM Coin.checkPositive

end SendMessage

namespace TransferMessage

def memoLimit : Nat := 32768

def codec : Codec TransferMessage :=
  (Codec.string.pair (.pair .string (.pair Coin.codec (.pair .address (.pair .string
    (.pair Height.codec (.pair .u64 .string))))))).map
    (fun (port, channel, token, sender, receiver, timeoutHeight, timeoutTime, memo) =>
      ⟨port, channel, token, sender, receiver, timeoutHeight, timeoutTime, memo⟩)
    fun m => (m.port, m.channel, m.token, m.sender, m.receiver, m.timeoutHeight, m.timeoutTime,
      m.memo)

def check (m : TransferMessage) : Except LedgerError Unit := do
  Identifier.check "port" m.port
  Identifier.check "channel" m.channel
  m.token.checkPositive
  if m.sender = .zero then .error (.invalidAddress "missing sender address")
  if Text.isBlank m.receiver then .error (.invalidAddress "missing recipient address")
  if memoLimit < m.memo.utf8ByteSize then
    .error (.invalidMessage
      s!"memo must not exceed {memoLimit} bytes, got {m.memo.utf8ByteSize}")
  if m.timeoutHeight.isZero && m.timeoutTime = 0 then
    .error (.invalidMessage
      "packet timeout height and packet timeout timestamp cannot both be 0")

end TransferMessage

inductive Message
  | send (m : SendMessage)
  | transfer (m : TransferMessage)
  deriving DecidableEq, Repr

namespace Message

/-- The type under which sends are delegated. -/
def sendType : String := "/cosmos.bank.v1beta1.MsgSend"

def transferType : String := "/ibc.applications.transfer.v1.MsgTransfer"

def type : Message → String
  | send _ => sendType
  | transfer _ => transferType

/-- The account whose funds move. -/
def signer : Message → Address
  | send m => m.sender
  | transfer m => m.sender

def check : Message → Except LedgerError Unit
  | send m => m.check
  | transfer m => m.check

def text (m : Message) : String := s!"{m.type} from {m.signer.text}"

end Message

end LedgerBridge
