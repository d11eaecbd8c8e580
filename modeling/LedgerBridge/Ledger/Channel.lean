import LedgerBridge.Hash.Sha256
import LedgerBridge.Ledger.Bank
import LedgerBridge.Ledger.Message
import LedgerBridge.Ledger.Record
import LedgerBridge.Token

/-! Channels to other chains, the packets queued on them, and the funds that leave with a packet. -/
namespace LedgerBridge

/-- The name here of a denomination that came in over a channel. -/
def Denom.voucher (port channel base : String) : String :=
  "ibc/" ++ Hex.encodeUpper (sha256 (Bytes.ofString s!"{port}/{channel}/{base}"))

/-- The account that holds what left over a channel. -/
def Address.escrow (port channel : String) : Address :=
  ⟨(sha256 (Bytes.ofString "ics20-1" ++ 0 :: Bytes.ofString s!"{port}/{channel}")).take 20,
    by simp⟩

/-- Where funds go that leave over a channel. Vouchers have no such place: they are destroyed. -/
def Denom.exit? (port channel denom : String) : Option Address :=
  if Denom.isVoucher denom then none else some (.escrow port channel)

/-- The far end of an open channel. -/
structure ChannelEnd where
  port : String
  channel : String
  deriving DecidableEq, Repr

/-- What was sent over a channel. -/
structure Packet where
  sequence : UInt64
  port : String
  channel : String
  denom : String
  amount : Amount
  sender : String
  receiver : String
  memo : String
  timeoutHeight : Height
  timeoutTime : UInt64
  deriving DecidableEq, Repr

namespace ChannelEnd

def codec : Codec ChannelEnd :=
  (Codec.string.pair .string).map (fun (port, channel) => ⟨port, channel⟩) fun e =>
    (e.port, e.channel)

def toDocument (e : ChannelEnd) : Document :=
  .record [("counterparty_port", .text e.port), ("counterparty_channel", .text e.channel)]

def ofDocument? (layout : Document.Layout) (d : Document) : Option ChannelEnd := do
  let [some port, some channel] ←
    d.fields? layout ["counterparty_port", "counterparty_channel"] | none
  return ⟨← port.text?, ← channel.text?⟩

end ChannelEnd

namespace Document

def u64? (d : Document) : Option UInt64 := (d.natural? UInt64.size).map .ofNat

def ofU64 (n : UInt64) : Document := .natural n.toNat

end Document

namespace Height

def toDocument (h : Height) : Document :=
  .record [("revision_number", .ofU64 h.revision), ("revision_height", .ofU64 h.height)]

def ofDocument? (layout : Document.Layout) (d : Document) : Option Height := do
  let [some revision, some height] ←
    d.fields? layout ["revision_number", "revision_height"] | none
  return ⟨← revision.u64?, ← height.u64?⟩

end Height

namespace Packet

def codec : Codec Packet :=
  (Codec.u64.pair (.pair .string (.pair .string (.pair .string (.pair .amount (.pair .string
    (.pair .string (.pair .string (.pair Height.codec .u64))))))))).map
    (fun (sequence, port, channel, denom, amount, sender, receiver, memo, timeoutHeight,
        timeoutTime) =>
      ⟨sequence, port, channel, denom, amount, sender, receiver, memo, timeoutHeight, timeoutTime⟩)
    fun p => (p.sequence, p.port, p.channel, p.denom, p.amount, p.sender, p.receiver, p.memo,
      p.timeoutHeight, p.timeoutTime)

def toDocument (p : Packet) : Document :=
  .record [("sequence", .ofU64 p.sequence), ("source_port", .text p.port),
    ("source_channel", .text p.channel), ("denom", .text p.denom),
    ("amount", .text p.amount.text), ("sender", .text p.sender),
    ("receiver", .text p.receiver), ("memo", .text p.memo),
    ("timeout_height", p.timeoutHeight.toDocument), ("timeout_timestamp", .ofU64 p.timeoutTime)]

def ofDocument? (layout : Document.Layout) (d : Document) : Option Packet := do
  let [some sequence, some port, some channel, some denom, some amount, some sender,
      some receiver, some memo, some timeoutHeight, some timeoutTime] ←
    d.fields? layout ["sequence", "source_port", "source_channel", "denom", "amount", "sender",
      "receiver", "memo", "timeout_height", "timeout_timestamp"] | none
  return {
    sequence := ← sequence.u64?
    port := ← port.text?
    channel := ← channel.text?
    denom := ← denom.text?
    amount := ← amount.amountText?
    sender := ← sender.text?
    receiver := ← receiver.text?
    memo := ← memo.text?
    timeoutHeight := ← Height.ofDocument? layout timeoutHeight
    timeoutTime := ← timeoutTime.u64? }

end Packet

namespace Ledger

def openChannel (port channel : String) (far : ChannelEnd) : Ledger Unit := do
  Identifier.check "port" port
  Identifier.check "channel" channel
  write ChannelEnd.codec (.channel port channel) far

def channel? (port channel : String) : Ledger (Option ChannelEnd) :=
  read? ChannelEnd.codec (.channel port channel)

/-- The number of the packet that comes next; the first is 1. -/
def nextSequence (port channel : String) : Ledger UInt64 := do
  return (← read? .u64 (.sequence port channel)).getD 1

def packet? (port channel : String) (sequence : UInt64) : Ledger (Option Packet) :=
  read? Packet.codec (.packet port channel sequence)

def packets (port channel : String) : Ledger (List Packet) :=
  readAll Packet.codec (.packets port channel)

end Ledger

/-! Sending funds over a channel: they are locked in the channel's account or, as vouchers, destroyed,
and a packet that tells of them is queued. -/

/-- The packet that tells of a transfer. -/
def TransferMessage.packet (m : TransferMessage) (sequence : UInt64) : Packet where
  sequence := sequence
  port := m.port
  channel := m.channel
  denom := m.token.denom
  amount := m.token.amount
  sender := m.sender.text
  receiver := m.receiver
  memo := m.memo
  timeoutHeight := m.timeoutHeight
  timeoutTime := m.timeoutTime

namespace Ledger

def transferModule : String := "transfer"

/-- Takes the coin from the sender. -/
def release (m : TransferMessage) : Ledger Unit :=
  match Denom.exit? m.port m.channel m.token.denom with
  | some escrow => send m.sender escrow [m.token]
  | none => do
    sendToModule m.sender transferModule [m.token]
    burn transferModule [m.token]

/-- The number of the packet that was queued. -/
def transfer (m : TransferMessage) : Ledger UInt64 := do
  m.check
  if (← channel? m.port m.channel).isNone then
    Metered.fail (.channelNotFound m.port m.channel)
  release m
  let sequence ← nextSequence m.port m.channel
  write Packet.codec (.packet m.port m.channel sequence) (m.packet sequence)
  write .u64 (.sequence m.port m.channel) (sequence + 1)
  return sequence

end Ledger

end LedgerBridge
