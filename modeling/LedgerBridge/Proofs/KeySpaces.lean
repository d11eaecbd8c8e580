import LedgerBridge.Ledger.Channel
import LedgerBridge.Proofs.ChannelKeys
import LedgerBridge.Proofs.Contents

/-! What the bytes of a key tell. As long as ports and channels are named as they should be, a key
is known from its bytes, and what an area of the store lists is told from all else by how its keys
begin. The texts that the account of a channel and the name of a voucher are hashed from tell their
parts in the same way. -/
namespace LedgerBridge

/-- The names of a port and a channel are such as pass. -/
structure Identifier.Name (port channel : String) : Prop where
  port : check "port" port = .ok ()
  channel : check "channel" channel = .ok ()

theorem Identifier.Name.isPlain {port channel : String} (named : Name port channel) :
    IsPlain port ∧ IsPlain channel :=
  ⟨isPlain_of_check named.port, isPlain_of_check named.channel⟩

theorem Bytes.ofString_append (s t : String) : ofString (s ++ t) = ofString s ++ ofString t := by
  simp [ofString_eq_flatMap]

namespace Key

/-- The ports and channels in a key are named as they should be. -/
def WellNamed : Key → Prop
  | .channel p c | .sequence p c | .packet p c _ => Identifier.Name p c
  | _ => True

def Area.WellNamed : Area → Prop
  | .packets p c => Identifier.Name p c
  | _ => True

/-- The area that a key is listed in. -/
def area? : Key → Option Area
  | .balance owner _ => some (.balances owner)
  | .pair _ => some .pairs
  | .packet p c _ => some (.packets p c)
  | _ => none

variable {key other : Key} {area : Area} {port channel : String} {n n' : UInt64}

theorem WellNamed.isPlain (h : key.WellNamed) : key.IsPlain := by
  cases key with
  | channel | sequence | packet => exact Identifier.Name.isPlain h
  | balance | supply | metadata | grant | pair | pairAddress | stakingParams => trivial

theorem bytes_inj (named : other.WellNamed) : key.bytes = other.bytes ↔ key = other :=
  ⟨eq_of_bytes_eq named.isPlain, congrArg bytes⟩

/-- The kind of the records that are listed together. -/
def Area.kind : Area → Kind
  | balances _ => .balance
  | pairs => .pair
  | packets .. => .packet

theorem Area.head_isPrefix (area : Area) : area.kind.head <+: area.start := by
  cases area <;> simp [Area.kind, Kind.head, Area.start]

theorem start_isPrefix_of_area? (h : key.area? = some area) : area.start <+: key.bytes := by
  cases key <;> cases h <;> exact List.prefix_append ..

/-- An area begins no key but those that are listed in it. -/
theorem start_isPrefix_iff (areaNamed : area.WellNamed) (named : key.WellNamed) :
    area.start <+: key.bytes ↔ key.area? = some area := by
  refine ⟨fun begins => ?_, start_isPrefix_of_area?⟩
  have kind := kind_eq_of_head_isPrefix (area.head_isPrefix.trans begins)
  cases area <;> cases key <;> simp only [Area.kind, Key.kind, reduceCtorEq] at kind
  case balances.balance owner other denom =>
    rw [balances_isPrefix_iff.mp begins]
    rfl
  case pairs.pair => rfl
  case packets.packet p c p' c' n =>
    obtain ⟨plainPort, plainChannel⟩ := Identifier.Name.isPlain areaNamed
    obtain ⟨plainPort', plainChannel'⟩ := Identifier.Name.isPlain named
    obtain ⟨rfl, rfl⟩ :=
      eq_of_start_isPrefix plainPort plainChannel plainPort' plainChannel' begins
    rfl

/-- Packets are in the order of their numbers, and only so. -/
theorem bytes_packet_lt_iff :
    (packet port channel n).bytes < (packet port channel n').bytes ↔ n < n' := by
  constructor
  · intro less
    by_contra le
    rcases UInt64.le_iff_lt_or_eq.mp (UInt64.not_lt.mp le) with greater | rfl
    · exact Bytes.lt_irrefl _ (Bytes.lt_trans less (bytes_packet_lt greater))
    · exact Bytes.lt_irrefl _ less
  · exact bytes_packet_lt

/-- A listing of an area goes through the entries that are stored under its own keys. -/
theorem mem_scan_start_iff {s : Store} {value : Bytes} (areaNamed : area.WellNamed)
    (named : key.WellNamed) :
    (key.bytes, value) ∈ s.scan area.start ↔
      s.get? key.bytes = some value ∧ key.area? = some area := by
  rw [Store.scan_eq, ByteMap.mem_toList_iff, ByteMap.get?_under, Store.get?_view,
    ← start_isPrefix_iff areaNamed named]
  by_cases begins : area.start <+: key.bytes <;> simp [begins]

end Key

/-- What the account of a channel is hashed from. -/
def Address.escrowSource (port channel : String) : Bytes :=
  Bytes.ofString "ics20-1" ++ 0 :: Bytes.ofString s!"{port}/{channel}"

/-- What the name of a voucher is hashed from. -/
def Denom.voucherSource (port channel base : String) : Bytes :=
  Bytes.ofString s!"{port}/{channel}/{base}"

section Sources

variable {port channel port' channel' base base' : String}

theorem Key.ofString_path (port channel : String) :
    Bytes.ofString s!"{port}/{channel}" = path port channel := by
  have slash : Bytes.ofString "/" = [0x2F] := rfl
  simp [path, Bytes.ofString_append, slash, toString]

theorem Address.escrow_eq (port channel : String) :
    (escrow port channel).bytes = (sha256 (escrowSource port channel)).take 20 := rfl

theorem Denom.voucher_eq (port channel base : String) :
    voucher port channel base =
      "ibc/" ++ Hex.encodeUpper (sha256 (voucherSource port channel base)) := rfl

theorem Address.escrowSource_inj (named : Identifier.Name port' channel') :
    escrowSource port channel = escrowSource port' channel' ↔
      port = port' ∧ channel = channel' := by
  rw [escrowSource, escrowSource, Key.ofString_path, Key.ofString_path,
    List.append_cancel_left_eq, List.cons_inj_right,
    Key.path_inj named.isPlain.1 named.isPlain.2]

theorem Denom.voucherSource_eq (port channel base : String) :
    voucherSource port channel base =
      Bytes.ofString port ++ 0x2F :: (Bytes.ofString channel ++ 0x2F :: Bytes.ofString base) := by
  have slash : Bytes.ofString "/" = [0x2F] := rfl
  simp [voucherSource, Bytes.ofString_append, slash, toString]

/-- A denomination may have slashes of its own: it stands behind two names that have none. -/
theorem Denom.voucherSource_inj (named : Identifier.Name port channel)
    (named' : Identifier.Name port' channel') :
    voucherSource port channel base = voucherSource port' channel' base' ↔
      port = port' ∧ channel = channel' ∧ base = base' := by
  constructor
  · intro same
    rw [voucherSource_eq, voucherSource_eq] at same
    obtain ⟨plainPort, plainChannel⟩ := named.isPlain
    obtain ⟨plainPort', plainChannel'⟩ := named'.isPlain
    obtain ⟨ports, others⟩ := Bytes.eq_of_append_slash (Bytes.slash_notMem_ofString plainPort)
      (Bytes.slash_notMem_ofString plainPort') same
    obtain ⟨channels, bases⟩ := Bytes.eq_of_append_slash
      (Bytes.slash_notMem_ofString plainChannel) (Bytes.slash_notMem_ofString plainChannel') others
    exact ⟨Bytes.ofString_injective ports, Bytes.ofString_injective channels,
      Bytes.ofString_injective bases⟩
  · rintro ⟨rfl, rfl, rfl⟩
    rfl

end Sources

/-- No two records are stored under one key, a listing goes through its own records only, packets in
the order of their numbers, and no two channels have one account or one voucher hashed from the same
bytes. -/
theorem records_apart :
    (∀ key other : Key, other.WellNamed → (key.bytes = other.bytes ↔ key = other)) ∧
    (∀ (area : Key.Area) (key : Key), area.WellNamed → key.WellNamed →
      (area.start <+: key.bytes ↔ key.area? = some area) ∧
      ∀ (s : Store) (value : Bytes), (key.bytes, value) ∈ s.scan area.start ↔
        s.get? key.bytes = some value ∧ key.area? = some area) ∧
    (∀ (p c : String) (n n' : UInt64),
      (Key.packet p c n).bytes < (Key.packet p c n').bytes ↔ n < n') ∧
    (∀ p c p' c' : String, Identifier.Name p' c' →
      (Address.escrowSource p c = Address.escrowSource p' c' ↔ p = p' ∧ c = c')) ∧
    (∀ p c base p' c' base' : String, Identifier.Name p c → Identifier.Name p' c' →
      (Denom.voucherSource p c base = Denom.voucherSource p' c' base' ↔
        p = p' ∧ c = c' ∧ base = base')) ∧
    (∀ p c : String, (Address.escrow p c).bytes = (sha256 (Address.escrowSource p c)).take 20) ∧
    ∀ p c base : String,
      Denom.voucher p c base = "ibc/" ++ Hex.encodeUpper (sha256 (Denom.voucherSource p c base)) :=
  ⟨fun _ _ named => Key.bytes_inj named,
    fun _ _ areaNamed named => ⟨Key.start_isPrefix_iff areaNamed named,
      fun _ _ => Key.mem_scan_start_iff areaNamed named⟩,
    fun _ _ _ _ => Key.bytes_packet_lt_iff,
    fun _ _ _ _ named => Address.escrowSource_inj named,
    fun _ _ _ _ _ _ named named' => Denom.voucherSource_inj named named',
    Address.escrow_eq, Denom.voucher_eq⟩

theorem records_apart_transfer :
    Identifier.Name "transfer" "channel-0" ∧ Identifier.Name "transfer" "channel-01" ∧
    (Key.channel "transfer" "channel-0").bytes ≠ (Key.channel "transfer" "channel-01").bytes ∧
    ¬ (Key.Area.packets "transfer" "channel-0").start <+:
      (Key.packet "transfer" "channel-01" 47).bytes ∧
    Address.escrowSource "transfer" "channel-0" ≠ Address.escrowSource "transfer" "channel-01" ∧
    Denom.voucherSource "transfer" "channel-0" "01/ugas" ≠
      Denom.voucherSource "transfer" "channel-01" "ugas" := by
  have short : Identifier.Name "transfer" "channel-0" := ⟨by decide +kernel, by decide +kernel⟩
  have long : Identifier.Name "transfer" "channel-01" := ⟨by decide +kernel, by decide +kernel⟩
  obtain ⟨keys, areas, -, escrows, vouchers, -⟩ := records_apart
  refine ⟨short, long, ?_, ?_, ?_, ?_⟩
  · rw [Ne, keys _ (.channel "transfer" "channel-01") long]
    decide
  · have listed := areas (.packets "transfer" "channel-0") (.packet "transfer" "channel-01" 47)
    rw [(listed short long).1]
    decide
  · rw [Ne, escrows _ _ _ _ long]
    decide
  · rw [Ne, vouchers _ _ _ _ _ _ short long]
    decide

end LedgerBridge
