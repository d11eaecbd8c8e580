import LedgerBridge.Ledger.Channel
import LedgerBridge.Proofs.Memos
import LedgerBridge.Proofs.Numerals

/-! Records as lines of JSON. Each part of a record has one form that it is written in, and the record is
read back from its line whatever its texts hold. -/
namespace LedgerBridge

theorem Amount.toList_text (a : Amount) : a.text.toList = Decimal.write a.toNat := by
  simp [text, Decimal.write]

/-- An amount is read from its digits, with zeros in front and perhaps a sign. -/
theorem Amount.read_eq_some_iff {s : String} {a : Amount} :
    (Decimal.read size s).bind ofNat? = some a ↔ Decimal.Spells s.toList a.toNat := by
  simp only [Option.bind_eq_some_iff, Decimal.read_eq_some_iff, ofNat?_eq_some_iff]
  constructor
  · rintro ⟨n, ⟨-, spells⟩, rfl⟩
    exact spells
  · intro spells
    exact ⟨a.toNat, ⟨a.isLt, spells⟩, rfl⟩

theorem Amount.read_text (a : Amount) : (Decimal.read size a.text).bind ofNat? = some a :=
  read_eq_some_iff.mpr ⟨0, .inl a.toList_text⟩

namespace Document

theorem address?_ofAddress (a : Address) : (ofAddress a).address? = some a := by
  simp [address?, ofAddress, text?, Address.parse_text]

theorem optional?_ofOption (owner : Option Address) :
    optional? address? (ofOption ofAddress owner) = some owner := by
  cases owner with
  | none => rfl
  | some a =>
    change (address? (ofAddress a)).map some = some (some a)
    rw [address?_ofAddress, Option.map_some]

theorem amount?_natural (a : Amount) : (natural a.toNat).amount? = some a := by
  have bound : a.toNat < Amount.size := a.isLt
  simp [amount?, natural?, bound, Amount.ofNat?_eq_some_iff]

theorem amountText?_text (a : Amount) : (text a.text).amountText? = some a := a.read_text

theorem natural?_toNat (n : UInt8) : (natural n.toNat).natural? UInt8.size = some n.toNat := by
  simp [natural?, UInt8.toNat_lt_size]

end Document

open Document

variable (layout : Layout)

theorem Coin.ofDocument?_toDocument (c : Coin) : ofDocument? layout c.toDocument = some c := by
  simp [toDocument, ofDocument?, fields?, member?, text?, amount?_natural]

theorem TokenPair.ofDocument?_toDocument (p : TokenPair) :
    ofDocument? layout p.toDocument = some p := by
  simp [toDocument, ofDocument?, fields?, member?, text?, bool?, orElse, address?_ofAddress,
    optional?_ofOption]

theorem Metadata.ofDocument?_toDocument (m : Metadata) :
    ofDocument? layout m.toDocument = some m := by
  simp [toDocument, ofDocument?, fields?, member?, text?, natural?_toNat]

theorem Height.ofDocument?_toDocument (h : Height) : ofDocument? layout h.toDocument = some h := by
  simp [toDocument, ofDocument?, fields?, member?, u64?_ofU64]

theorem ChannelEnd.ofDocument?_toDocument (e : ChannelEnd) :
    ofDocument? layout e.toDocument = some e := by
  simp [toDocument, ofDocument?, fields?, member?, text?]

theorem Packet.ofDocument?_toDocument (p : Packet) : ofDocument? layout p.toDocument = some p := by
  simp [toDocument, ofDocument?, fields?, member?, text?, u64?_ofU64, amountText?_text,
    Height.ofDocument?_toDocument]

namespace Json

/-- Each value is read from the line that it is written as. -/
def Carries (toDocument : α → Document) (ofDocument? : Layout → Document → Option α) : Prop :=
  ∀ a, (parse (write (toDocument a))).bind (ofDocument? Json.layout) = some a

theorem carries {toDocument : α → Document} {ofDocument? : Layout → Document → Option α}
    (h : ∀ layout a, ofDocument? layout (toDocument a) = some a) : Carries toDocument ofDocument? := by
  intro a
  rw [parse_write, Option.bind_some, h]

/-- What stands in a line under some names. -/
def inLine (d : Document) (names : List String) : Option (List (Option Document)) :=
  (parse (write d)).bind (fields? Json.layout names)

theorem inLine_eq (d : Document) (names : List String) :
    inLine d names = d.fields? Json.layout names := by
  rw [inLine, parse_write, Option.bind_some]

/-- Records are carried by lines of JSON, with the amount of a coin as a number, that of a packet as a
text, addresses in hexadecimal digits and a missing owner as null. An address is read from its forty
digits in either case, with or without the mark, and from no other text; an amount is read from its
decimal digits, to which at most zeros in front and a sign are put. -/
theorem lines_carry_records :
    (Carries Coin.toDocument Coin.ofDocument? ∧ Carries TokenPair.toDocument TokenPair.ofDocument? ∧
      Carries Metadata.toDocument Metadata.ofDocument? ∧ Carries Height.toDocument Height.ofDocument? ∧
      Carries ChannelEnd.toDocument ChannelEnd.ofDocument? ∧
      Carries Packet.toDocument Packet.ofDocument?) ∧
    ((∀ c : Coin, inLine c.toDocument ["amount"] = some [some (.natural c.amount.toNat)]) ∧
      (∀ p : Packet, inLine p.toDocument ["amount"] = some [some (.text p.amount.text)]) ∧
      ∀ p : TokenPair, inLine p.toDocument ["erc20_address", "owner"] =
        some [some (.text p.address.text), some (p.owner.elim .null fun owner => .text owner.text)]) ∧
    ((∀ a : Address, Address.parse a.text = .ok a) ∧
      (∀ s, (∃ a, Address.parse s = .ok a) ↔
        ∃ digits, Address.Shows digits s ∧ digits.length = 40 ∧ ∀ c ∈ digits, Hex.IsDigit c) ∧
      ∀ s a, Address.parse s = .ok a ↔ ∃ digits, Address.Shows digits s ∧
        digits.map Char.toLower = Hex.encodeWith Hex.lower a.bytes) ∧
    (∀ a : Amount, (Decimal.read Amount.size a.text).bind Amount.ofNat? = some a) ∧
    ∀ s a, (Decimal.read Amount.size s).bind Amount.ofNat? = some a ↔
      Decimal.Spells s.toList a.toNat := by
  refine ⟨?records, ⟨fun c => ?_, fun p => ?_, fun p => ?_⟩, ?addresses, Amount.read_text,
    fun _ _ => Amount.read_eq_some_iff⟩
  case records =>
    exact ⟨carries Coin.ofDocument?_toDocument, carries TokenPair.ofDocument?_toDocument,
      carries Metadata.ofDocument?_toDocument, carries Height.ofDocument?_toDocument,
      carries ChannelEnd.ofDocument?_toDocument, carries Packet.ofDocument?_toDocument⟩
  case addresses =>
    exact ⟨Address.parse_text, fun _ => Address.exists_parse_iff, fun _ _ => Address.parse_eq_ok_iff⟩
  · rw [inLine_eq]
    rfl
  · rw [inLine_eq]
    rfl
  · rw [inLine_eq]
    obtain ⟨address, denom, enabled, owner⟩ := p
    cases owner <;> rfl

end Json

end LedgerBridge
