import LedgerBridge.Ledger.Channel
import LedgerBridge.Proofs.Codecs

/-! The records that the ledger stores or exchanges. Bytes are read as a record only if they are what
is written for it: none are left over, no text in them is ill-formed, and no two strings of bytes are
the same record. -/
namespace LedgerBridge

def TokenPair.Fits (p : TokenPair) : Prop := Text.Fits p.denom

def Metadata.Fits (m : Metadata) : Prop :=
  Text.Fits m.base ∧ Text.Fits m.name ∧ Text.Fits m.symbol

def ChannelEnd.Fits (e : ChannelEnd) : Prop := Text.Fits e.port ∧ Text.Fits e.channel

def Packet.Fits (p : Packet) : Prop :=
  Text.Fits p.port ∧ Text.Fits p.channel ∧ Text.Fits p.denom ∧ Text.Fits p.sender ∧
    Text.Fits p.receiver ∧ Text.Fits p.memo

def SendMessage.Fits (m : SendMessage) : Prop := FitsAll Coin.Fits m.coins

def TransferMessage.Fits (m : TransferMessage) : Prop :=
  Text.Fits m.port ∧ Text.Fits m.channel ∧ m.token.Fits ∧ Text.Fits m.receiver ∧ Text.Fits m.memo

open Codec

theorem TokenPair.lawful_codec : TokenPair.codec.Lawful TokenPair.Fits :=
  ((lawful_address.pair (lawful_string.pair (lawful_bool.pair lawful_address.option))).map
    (fun _ => rfl) fun _ => rfl).congr fun p => by simp [Fits, Text.Fits]

theorem Metadata.lawful_codec : Metadata.codec.Lawful Metadata.Fits :=
  ((lawful_string.pair (lawful_string.pair (lawful_string.pair lawful_u8))).map
    (fun _ => rfl) fun _ => rfl).congr fun m => by simp [Fits, Text.Fits]

theorem ChannelEnd.lawful_codec : ChannelEnd.codec.Lawful ChannelEnd.Fits :=
  (lawful_string.pair lawful_string).map (fun _ => rfl) fun _ => rfl

theorem Height.lawful_codec : Height.codec.Lawful fun _ => True :=
  ((lawful_u64.pair lawful_u64).map (fun _ => rfl) fun _ => rfl).congr fun _ => and_self_iff

theorem Packet.lawful_codec : Packet.codec.Lawful Packet.Fits :=
  ((lawful_u64.pair (lawful_string.pair (lawful_string.pair (lawful_string.pair (lawful_amount.pair
    (lawful_string.pair (lawful_string.pair (lawful_string.pair (Height.lawful_codec.pair
      lawful_u64))))))))).map (fun _ => rfl) fun _ => rfl).congr fun p => by simp [Fits, Text.Fits]

theorem SendMessage.lawful_codec : SendMessage.codec.Lawful SendMessage.Fits :=
  ((lawful_address.pair (lawful_address.pair Coin.lawful_codec.list)).map
    (fun _ => rfl) fun _ => rfl).congr fun m => by simp [Fits, FitsAll]

theorem TransferMessage.lawful_codec : TransferMessage.codec.Lawful TransferMessage.Fits :=
  ((lawful_string.pair (lawful_string.pair (Coin.lawful_codec.pair (lawful_address.pair
    (lawful_string.pair (Height.lawful_codec.pair (lawful_u64.pair lawful_string))))))).map
      (fun _ => rfl) fun _ => rfl).congr fun m => by simp [Fits, Text.Fits]

/-- The forms that a record may have. -/
inductive RecordForm
  | number
  | amount
  | coin
  | tokenPair
  | metadata
  | stakingParams
  | channelEnd
  | packet
  | grant
  | sendMessage
  | transferMessage
  deriving DecidableEq

namespace RecordForm

def Value : RecordForm → Type
  | number => UInt64
  | amount => Amount
  | coin => Coin
  | tokenPair => TokenPair
  | metadata => Metadata
  | stakingParams => String
  | channelEnd => ChannelEnd
  | packet => Packet
  | grant => Grant
  | sendMessage => SendMessage
  | transferMessage => TransferMessage

def codec : (form : RecordForm) → Codec form.Value
  | number => .u64
  | amount => .amount
  | coin => Coin.codec
  | tokenPair => TokenPair.codec
  | metadata => Metadata.codec
  | stakingParams => .string
  | channelEnd => ChannelEnd.codec
  | packet => Packet.codec
  | grant => Grant.codec
  | sendMessage => SendMessage.codec
  | transferMessage => TransferMessage.codec

/-- All texts and lists in the record have lengths of four bytes. -/
def Fits : (form : RecordForm) → form.Value → Prop
  | number, _ => True
  | amount, _ => True
  | coin, c => Coin.Fits c
  | tokenPair, p => TokenPair.Fits p
  | metadata, m => Metadata.Fits m
  | stakingParams, denom => Text.Fits denom
  | channelEnd, e => ChannelEnd.Fits e
  | packet, p => Packet.Fits p
  | grant, g => g.authorization.Fits
  | sendMessage, m => SendMessage.Fits m
  | transferMessage, m => TransferMessage.Fits m

theorem lawful_codec (form : RecordForm) : form.codec.Lawful form.Fits :=
  match form with
  | number => lawful_u64
  | amount => lawful_amount
  | coin => Coin.lawful_codec
  | tokenPair => TokenPair.lawful_codec
  | metadata => Metadata.lawful_codec
  | stakingParams => lawful_string
  | channelEnd => ChannelEnd.lawful_codec
  | packet => Packet.lawful_codec
  | grant => Grant.lawful_codec
  | sendMessage => SendMessage.lawful_codec
  | transferMessage => TransferMessage.lawful_codec

/-- What the ledger reads as a record is what it writes for one whose texts and lists are not too long,
and for no other. So a record is read back as it was; no bytes may follow it, and ill-formed bytes are no
text in it. -/
theorem decode_eq_ok_iff_encode (form : RecordForm) :
    (∀ bs a, Ledger.decode form.codec bs = .ok a ↔ form.Fits a ∧ form.codec.encode a = bs) ∧
    (∀ a extra, form.Fits a → extra ≠ [] →
      Ledger.decode form.codec (form.codec.encode a ++ extra) =
        .error (.storage .deserialization Fault.leftOver.message)) ∧
    ∀ content rest, content.length < Bytes.capacity 4 → Utf8.text? content = none →
      string.decode (lengthBytes content.length ++ content ++ rest) =
        .error (.badText (Utf8.fault content)) := by
  have law := form.lawful_codec
  refine ⟨fun bs a => ?_, fun a extra fit more => ?_, fun content rest bound illFormed => ?_⟩
  · rw [Ledger.decode, mapError_eq_ok]
    exact law.decodeAll_eq_ok_iff
  · rw [Ledger.decode, law.decodeAll_encode_append fit more]
    rfl
  · exact string_decode_of_text?_eq_none bound illFormed rest

/-- A grant with lists in lists, and the same with a byte too many. -/
theorem decode_encode_of_grant :
    let g : Grant := ⟨.transfer [⟨"transfer", "channel-0", [⟨"abridge", 5⟩, ⟨"ubridge", 7⟩],
      ["", "osmo1router"]⟩], some 1700000000⟩
    g.authorization.Fits ∧ Ledger.decode Grant.codec (Grant.codec.encode g) = .ok g ∧
      Ledger.decode Grant.codec (Grant.codec.encode g ++ [0]) =
        .error (.storage .deserialization "Not all bytes read") := by
  intro g
  have fit : g.authorization.Fits := (Grant.lawful_codec.writable_iff g).mp (by decide)
  obtain ⟨exact, trailing, -⟩ := decode_eq_ok_iff_encode .grant
  exact ⟨fit, (exact _ g).mpr ⟨fit, rfl⟩, trailing g [0] fit (by decide)⟩

end RecordForm

end LedgerBridge
