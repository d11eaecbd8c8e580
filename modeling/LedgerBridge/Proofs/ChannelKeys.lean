import LedgerBridge.Ledger.Message
import LedgerBridge.Proofs.Keys
import LedgerBridge.Proofs.Results
import Mathlib.Data.List.Basic
import Mathlib.Tactic.SplitIfs

/-! The keys of what leaves over channels. The name of a channel has no slash, so the slashes in a key
stand where the names end and no channel's keys are among those of another; behind the names the
packets of a channel are in the order of their numbers. -/
namespace LedgerBridge

/-- The name ends where a slash stands behind it. -/
def Identifier.IsPlain (name : String) : Prop := '/' ∉ name.toList

/-- The names of ports and channels have no slash. -/
theorem Identifier.isPlain_of_check {kind name : String} (h : check kind name = .ok ()) :
    IsPlain name := by
  intro slash
  simp only [check] at h
  split at h
  · cases h
  · split at h
    · cases h
    · rename_i found
      have allowed := List.find?_eq_none.mp found '/' slash
      revert allowed
      decide

/-- A message is checked for the names of its port and channel. -/
theorem TransferMessage.isPlain_of_check {m : TransferMessage} (h : m.check = .ok ()) :
    Identifier.IsPlain m.port ∧ Identifier.IsPlain m.channel := by
  simp only [check, bind_eq_ok] at h
  obtain ⟨_, port, _, channel, -⟩ := h
  exact ⟨Identifier.isPlain_of_check port, Identifier.isPlain_of_check channel⟩

namespace Bytes

theorem ofString_eq_flatMap (s : String) : ofString s = s.toList.flatMap String.utf8EncodeChar := by
  have encoded : s.toByteArray = (s.toList.flatMap String.utf8EncodeChar).toByteArray :=
    String.utf8Encode_toList.symm
  rw [ofString, String.toUTF8_eq_toByteArray, encoded]
  simp

/-- Only the slash itself is encoded with the byte of a slash. -/
theorem eq_slash_of_mem_utf8EncodeChar {c : Char} (h : 0x2F ∈ String.utf8EncodeChar c) : c = '/' := by
  have value : c.val.toNat = 0x2F := by
    simp only [String.utf8EncodeChar] at h
    split_ifs at h <;>
      simp only [List.mem_cons, List.not_mem_nil, or_false, ← UInt8.toNat_inj,
        UInt8.toNat_ofNat', UInt8.reduceToNat] at h <;>
      omega
  exact Char.ext (UInt32.toNat_inj.mp value)

theorem slash_notMem_ofString {s : String} (h : Identifier.IsPlain s) : 0x2F ∉ ofString s := by
  rw [ofString_eq_flatMap, List.mem_flatMap]
  rintro ⟨c, mem, slash⟩
  exact h (eq_slash_of_mem_utf8EncodeChar slash ▸ mem)

/-- What stands in front of the first slash is known from the whole. -/
theorem eq_of_append_slash {a b x y : Bytes} (plain : 0x2F ∉ a) (plain' : 0x2F ∉ b)
    (h : a ++ 0x2F :: x = b ++ 0x2F :: y) : a = b ∧ x = y := by
  induction a generalizing b with
  | nil =>
    cases b with
    | nil => exact ⟨rfl, (List.cons.inj h).2⟩
    | cons d b =>
      have first := (List.cons.inj h).1
      exact absurd (first ▸ List.mem_cons_self) plain'
  | cons c a ih =>
    cases b with
    | nil =>
      have first := (List.cons.inj h).1
      exact absurd (first ▸ List.mem_cons_self) plain
    | cons d b =>
      obtain ⟨rfl, rest⟩ := List.cons.inj h
      obtain ⟨rfl, others⟩ := ih (fun mem => plain (List.mem_cons_of_mem _ mem))
        (fun mem => plain' (List.mem_cons_of_mem _ mem)) rest
      exact ⟨rfl, others⟩

theorem bigEndian_succ (width n : Nat) :
    bigEndian (width + 1) n = bigEndian width (n / 256) ++ [UInt8.ofNat n] := by
  simp [bigEndian, littleEndian]

theorem append_lt_append {a b x y : Bytes} (width : a.length = b.length) (h : a < b) :
    a ++ x < b ++ y := by
  induction a generalizing b with
  | nil =>
    cases List.length_eq_zero_iff.mp width.symm
    exact absurd h (lt_irrefl [])
  | cons c a ih =>
    cases b with
    | nil => cases width
    | cons d b =>
      simp only [List.cons_append, List.cons_lt_cons_iff] at h ⊢
      exact h.imp_right fun ⟨same, less⟩ => ⟨same, ih (Nat.succ.inj width) less⟩

/-- Numbers are in the order of their bytes. -/
theorem bigEndian_lt {width m n : Nat} (less : m < n) (fits : n < capacity width) :
    bigEndian width m < bigEndian width n := by
  induction width generalizing m n with
  | zero =>
    simp only [capacity] at fits
    omega
  | succ width ih =>
    simp only [capacity] at fits
    rw [bigEndian_succ, bigEndian_succ]
    -- The last byte decides only where all others are the same.
    by_cases higher : m / 256 < n / 256
    · exact append_lt_append (by simp) (ih higher (by omega))
    · have same : m / 256 = n / 256 := by omega
      rw [same]
      have last : UInt8.ofNat m < UInt8.ofNat n := by
        rw [UInt8.lt_iff_toNat_lt, UInt8.toNat_ofNat', UInt8.toNat_ofNat']
        omega
      exact List.append_left_lt (List.cons_lt_cons_iff.mpr (.inl last))

end Bytes

namespace Key

variable {port channel port' channel' : String} {n n' : UInt64}

/-- The bytes of a port and a channel, up to which two keys are the same. -/
def path (port channel : String) : Bytes :=
  Bytes.ofString port ++ 0x2F :: Bytes.ofString channel

/-- Names without slashes are read from their path. -/
theorem path_inj (plainPort : Identifier.IsPlain port') (plainChannel : Identifier.IsPlain channel') :
    path port channel = path port' channel' ↔ port = port' ∧ channel = channel' := by
  constructor
  · intro same
    obtain ⟨ports, -, channels⟩ := (List.append_cons_inj_of_notMem
      (Bytes.slash_notMem_ofString plainPort) (Bytes.slash_notMem_ofString plainChannel)).mp same.symm
    exact ⟨(Bytes.ofString_injective ports).symm, (Bytes.ofString_injective channels).symm⟩
  · rintro ⟨rfl, rfl⟩
    rfl

theorem bytes_channel (port channel : String) :
    (Key.channel port channel).bytes = Kind.channel.head ++ path port channel := by
  simp [bytes, path, slash, Kind.head]

theorem bytes_sequence (port channel : String) :
    (sequence port channel).bytes = Kind.sequence.head ++ path port channel := by
  simp [bytes, path, slash, Kind.head]

theorem start_packets (port channel : String) :
    (Area.packets port channel).start = Kind.packet.head ++ (path port channel ++ slash) := by
  simp [Area.start, path, slash, Kind.head]

theorem bytes_channel_inj (plainPort : Identifier.IsPlain port')
    (plainChannel : Identifier.IsPlain channel') :
    (Key.channel port channel).bytes = (Key.channel port' channel').bytes ↔
      port = port' ∧ channel = channel' := by
  rw [bytes_channel, bytes_channel, List.append_cancel_left_eq, path_inj plainPort plainChannel]

theorem bytes_sequence_inj (plainPort : Identifier.IsPlain port')
    (plainChannel : Identifier.IsPlain channel') :
    (sequence port channel).bytes = (sequence port' channel').bytes ↔
      port = port' ∧ channel = channel' := by
  rw [bytes_sequence, bytes_sequence, List.append_cancel_left_eq, path_inj plainPort plainChannel]

theorem bytes_packet_inj (plainPort : Identifier.IsPlain port')
    (plainChannel : Identifier.IsPlain channel') :
    (packet port channel n).bytes = (packet port' channel' n').bytes ↔
      (port = port' ∧ channel = channel') ∧ n = n' := by
  constructor
  · intro same
    obtain ⟨starts, numbers⟩ := List.append_inj' same (by simp)
    rw [start_packets, start_packets, List.append_cancel_left_eq, List.append_cancel_right_eq,
      path_inj plainPort plainChannel] at starts
    have values := congrArg Bytes.ofBigEndian numbers
    rw [Bytes.ofBigEndian_bigEndian n.toNat_lt, Bytes.ofBigEndian_bigEndian n'.toNat_lt] at values
    exact ⟨starts, UInt64.toNat_inj.mp values⟩
  · rintro ⟨⟨rfl, rfl⟩, rfl⟩
    rfl

/-- The ports and channels in a key are named without slashes. -/
def IsPlain : Key → Prop
  | .channel port channel | .sequence port channel | .packet port channel _ =>
    Identifier.IsPlain port ∧ Identifier.IsPlain channel
  | _ => True

/-- No two keys are written alike, as long as one of them is plain. -/
theorem eq_of_bytes_eq {key other : Key} (plain : other.IsPlain) (same : key.bytes = other.bytes) :
    key = other := by
  have kind := kind_eq_of_bytes_eq same
  cases other <;> cases key <;> simp only [Key.kind, reduceCtorEq] at kind
  case balance.balance =>
    obtain ⟨rfl, rfl⟩ := bytes_balance_inj.mp same
    rfl
  case supply.supply => rw [bytes_supply_inj.mp same]
  case metadata.metadata => rw [bytes_metadata_inj.mp same]
  case grant.grant =>
    obtain ⟨rfl, rfl, rfl⟩ := bytes_grant_inj.mp same
    rfl
  case pair.pair => rw [bytes_pair_inj.mp same]
  case pairAddress.pairAddress => rw [bytes_pairAddress_inj.mp same]
  case stakingParams.stakingParams => rfl
  case channel.channel =>
    obtain ⟨rfl, rfl⟩ := (bytes_channel_inj plain.1 plain.2).mp same
    rfl
  case sequence.sequence =>
    obtain ⟨rfl, rfl⟩ := (bytes_sequence_inj plain.1 plain.2).mp same
    rfl
  case packet.packet =>
    obtain ⟨⟨rfl, rfl⟩, rfl⟩ := (bytes_packet_inj plain.1 plain.2).mp same
    rfl

/-- A listing goes through the packets of one channel. -/
theorem eq_of_start_isPrefix (plainPort : Identifier.IsPlain port)
    (plainChannel : Identifier.IsPlain channel) (plainPort' : Identifier.IsPlain port')
    (plainChannel' : Identifier.IsPlain channel')
    (h : (Area.packets port channel).start <+: (packet port' channel' n).bytes) :
    port = port' ∧ channel = channel' := by
  obtain ⟨rest, same⟩ := h
  simp only [bytes, start_packets, path, slash, List.append_assoc, List.cons_append,
    List.append_cancel_left_eq, List.nil_append] at same
  obtain ⟨ports, others⟩ := Bytes.eq_of_append_slash (Bytes.slash_notMem_ofString plainPort)
    (Bytes.slash_notMem_ofString plainPort') same
  obtain ⟨channels, -⟩ := Bytes.eq_of_append_slash (Bytes.slash_notMem_ofString plainChannel)
    (Bytes.slash_notMem_ofString plainChannel') others
  exact ⟨Bytes.ofString_injective ports, Bytes.ofString_injective channels⟩

theorem start_isPrefix (port channel : String) (n : UInt64) :
    (Area.packets port channel).start <+: (packet port channel n).bytes := List.prefix_append ..

theorem kind_eq_of_start_isPrefix {key : Key}
    (h : (Area.packets port channel).start <+: key.bytes) : key.kind = .packet := by
  rw [start_packets] at h
  exact (kind_eq_of_head_isPrefix ((List.prefix_append ..).trans h)).symm

/-- The packets of a channel are in the order of their numbers. -/
theorem bytes_packet_lt (less : n < n') :
    (packet port channel n).bytes < (packet port channel n').bytes :=
  List.append_left_lt (Bytes.bigEndian_lt (UInt64.lt_iff_toNat_lt.mp less) n'.toNat_lt)

end Key

end LedgerBridge
