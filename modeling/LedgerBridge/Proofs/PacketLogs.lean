import LedgerBridge.Proofs.ChannelKeys
import LedgerBridge.Proofs.Operations
import LedgerBridge.Proofs.RecordForms

/-! The packets of a channel as a log. A map holds a log if the packets that it has under the keys of the
channel are those of the log, numbered from 1 on, and the number that comes next is counted. Changes
under other keys leave the log alone, and queries tell it as it is. -/
namespace LedgerBridge

open Metered

/-- The key belongs neither to the counter of a channel nor to its packets. -/
structure Key.IsApart (port channel : String) (key : Key) : Prop where
  sequence : key.bytes ≠ (Key.sequence port channel).bytes
  packet : ∀ n, key.bytes ≠ (Key.packet port channel n).bytes
  listed : Identifier.IsPlain port → Identifier.IsPlain channel →
    ¬ (Key.Area.packets port channel).start <+: key.bytes

namespace Key

variable {port channel port' channel' : String}

theorem IsLocal.isApart {key : Key} (h : key.IsLocal) : key.IsApart port channel where
  sequence := bytes_ne_of_kind_ne h.1
  packet _ := bytes_ne_of_kind_ne h.2
  listed _ _ within := h.2 (kind_eq_of_start_isPrefix within)

/-- The records of another channel. -/
theorem isApart_sequence (plainPort : Identifier.IsPlain port')
    (plainChannel : Identifier.IsPlain channel') (other : ¬ (port' = port ∧ channel' = channel)) :
    (sequence port' channel').IsApart port channel where
  sequence same := by
    obtain ⟨rfl, rfl⟩ := (bytes_sequence_inj plainPort plainChannel).mp same.symm
    exact other ⟨rfl, rfl⟩
  packet _ := bytes_ne_of_kind_ne (by simp)
  listed _ _ within := by
    have kind := kind_eq_of_start_isPrefix within
    cases kind

theorem isApart_packet (plainPort : Identifier.IsPlain port')
    (plainChannel : Identifier.IsPlain channel') (other : ¬ (port' = port ∧ channel' = channel))
    (n : UInt64) : (packet port' channel' n).IsApart port channel where
  sequence := bytes_ne_of_kind_ne (by simp)
  packet _ same := by
    obtain ⟨⟨rfl, rfl⟩, -⟩ := (bytes_packet_inj plainPort plainChannel).mp same.symm
    exact other ⟨rfl, rfl⟩
  listed plain plain' within := by
    obtain ⟨rfl, rfl⟩ := eq_of_start_isPrefix plain plain' plainPort plainChannel within
    exact other ⟨rfl, rfl⟩

end Key

namespace Contents

/-- A channel's packets are these, and the number of the next one is counted. -/
structure Logs (v : Contents) (port channel : String) (ps : List Packet) : Prop where
  numbered : ps.map (·.sequence.toNat) = List.range' 1 ps.length
  fits : ∀ p ∈ ps, p.Fits
  counter : v.get? (Key.sequence port channel).bytes =
    if ps = [] then none else some (Codec.u64.encode (.ofNat ps.length + 1))
  packet : ∀ n bs, v.get? (Key.packet port channel n).bytes = some bs ↔
    ∃ p ∈ ps, p.sequence = n ∧ Packet.codec.encode p = bs
  listed : Identifier.IsPlain port → Identifier.IsPlain channel → ∀ key bs, v.get? key = some bs →
    (Key.Area.packets port channel).start <+: key → ∃ n, key = (Key.packet port channel n).bytes

variable {v : Contents} {port channel : String} {ps : List Packet}

theorem logs_empty (port channel : String) : Logs ∅ port channel [] where
  numbered := rfl
  fits := nofun
  counter := rfl
  packet := by simp
  listed _ _ := nofun

theorem Logs.put (h : v.Logs port channel ps) {key : Key} (apart : key.IsApart port channel)
    (change : Option Bytes) : Logs (Changes.put v key.bytes change) port channel ps where
  numbered := h.numbered
  fits := h.fits
  counter := by rw [Changes.get?_put, if_neg apart.sequence, h.counter]
  packet n bs := by rw [Changes.get?_put, if_neg (apart.packet n), h.packet]
  listed plain plain' other bs found within := by
    rw [Changes.get?_put] at found
    split at found
    · rename_i same
      exact absurd (same ▸ within) (apart.listed plain plain')
    · exact h.listed plain plain' other bs found within

theorem Logs.queue_other {m : TransferMessage} (h : v.Logs port channel ps)
    (plainPort : Identifier.IsPlain m.port) (plainChannel : Identifier.IsPlain m.channel)
    (other : ¬ (m.port = port ∧ m.channel = channel)) (n : UInt64) :
    (v.queue m n).Logs port channel ps :=
  (h.put (Key.isApart_packet plainPort plainChannel other n) _).put
    (Key.isApart_sequence plainPort plainChannel other) _

/-- As long as there are numbers, counting on does not start over. -/
theorem toNat_ofNat_add_one {count : Nat} (few : count + 1 < UInt64.size) :
    (UInt64.ofNat count + 1).toNat = count + 1 := by
  have sum : UInt64.ofNat (count + 1) = UInt64.ofNat count + 1 := UInt64.ofNat_add _ _
  rw [← sum, UInt64.toNat_ofNat_of_lt' few]

/-- The packets of a log have the numbers from 1 on. -/
theorem Logs.sequence_le (h : v.Logs port channel ps) {p : Packet} (mem : p ∈ ps) :
    1 ≤ p.sequence.toNat ∧ p.sequence.toNat ≤ ps.length := by
  have listed := List.mem_map_of_mem (f := fun p : Packet => p.sequence.toNat) mem
  rw [h.numbered, List.mem_range'_1] at listed
  omega

theorem Logs.queue_same {m : TransferMessage} (h : v.Logs m.port m.channel ps)
    (plainPort : Identifier.IsPlain m.port) (plainChannel : Identifier.IsPlain m.channel)
    (few : ps.length + 1 < UInt64.size) {n : UInt64} (next : n = .ofNat ps.length + 1)
    (fits : (m.packet n).Fits) :
    (v.queue m n).Logs m.port m.channel (ps ++ [m.packet n]) := by
  have number : n.toNat = 1 + ps.length := by rw [next, toNat_ofNat_add_one few, Nat.add_comm]
  have fresh (p : Packet) (mem : p ∈ ps) : p.sequence ≠ n := by
    rintro rfl
    have last := (h.sequence_le mem).2
    omega
  have counter (k : UInt64) :
      (Key.sequence m.port m.channel).bytes ≠ (Key.packet m.port m.channel k).bytes :=
    Key.bytes_ne_of_kind_ne (by simp)
  refine ⟨?numbered, ?fits, ?counter, ?packet, ?listed⟩
  case numbered =>
    have last : (m.packet n).sequence.toNat = 1 + ps.length := number
    simp [h.numbered, List.range'_1_concat, last]
  case fits => exact List.forall_mem_append.mpr ⟨h.fits, List.forall_mem_singleton.mpr fits⟩
  case counter => simp [queue, next]
  case packet =>
    intro k bs
    rw [queue, Changes.get?_put, if_neg (counter k), Changes.get?_put]
    simp only [Key.bytes_packet_inj plainPort plainChannel, true_and, List.mem_append,
      List.mem_singleton, or_and_right, exists_or, exists_eq_left]
    have own : (m.packet n).sequence = n := rfl
    split
    · -- No earlier packet had this number, so nothing of the log is written over.
      rename_i same
      subst same
      have none : ¬ ∃ p ∈ ps, p.sequence = n ∧ Packet.codec.encode p = bs := by
        rintro ⟨p, mem, same, -⟩
        exact fresh p mem same
      simp [none, own]
    · rename_i others
      simp [h.packet, own, others]
  case listed =>
    intro plain plain' key bs found within
    rw [queue, Changes.get?_put, Changes.get?_put] at found
    split at found
    · rename_i same
      subst same
      have kind := Key.kind_eq_of_start_isPrefix within
      cases kind
    · split at found
      · rename_i same
        exact ⟨n, same.symm⟩
      · exact h.listed plain plain' key bs found within

/-! Queries. -/

theorem Logs.sequence_of_getElem? (h : v.Logs port channel ps) {i : Nat} {p : Packet}
    (found : ps[i]? = some p) : p.sequence.toNat = i + 1 := by
  have number := congrArg (fun l : List Nat => l[i]?) h.numbered
  have within : i < ps.length := (List.getElem?_eq_some_iff.mp found).1
  simp only [List.getElem?_map, found, Option.map_some, List.getElem?_range' within] at number
  simpa [Nat.add_comm] using number

theorem Logs.mem_iff_getElem? (h : v.Logs port channel ps) {p : Packet} {n : UInt64} :
    p ∈ ps ∧ p.sequence = n ↔ n ≠ 0 ∧ ps[n.toNat - 1]? = some p := by
  constructor
  · rintro ⟨mem, rfl⟩
    obtain ⟨i, found⟩ := List.mem_iff_getElem?.mp mem
    have number := h.sequence_of_getElem? found
    refine ⟨?_, by rwa [number, Nat.add_sub_cancel]⟩
    rintro zero
    simp [zero] at number
  · rintro ⟨positive, found⟩
    have number := h.sequence_of_getElem? found
    have nonzero : n.toNat ≠ 0 := fun zero => positive (UInt64.toNat_inj.mp zero)
    exact ⟨List.mem_of_getElem? found, UInt64.toNat_inj.mp (by omega)⟩

/-- The bytes of the log's packet of that number. -/
theorem Logs.get?_packet (h : v.Logs port channel ps) (n : UInt64) :
    v.get? (Key.packet port channel n).bytes =
      (if n = 0 then none else ps[n.toNat - 1]?).map Packet.codec.encode := by
  ext1 bs
  simp only [h.packet, ← and_assoc, h.mem_iff_getElem?]
  by_cases zero : n = 0 <;> simp [zero]

theorem Logs.decodeAll_encode (h : v.Logs port channel ps) {p : Packet} (mem : p ∈ ps) :
    Packet.codec.decodeAll (Packet.codec.encode p) = .ok p :=
  Packet.lawful_codec.decodeAll_encode (h.fits p mem)

theorem Logs.gives_nextSequence (h : v.Logs port channel ps) :
    (Ledger.nextSequence port channel).Gives v (.ofNat ps.length + 1) v := by
  have decoded (n : UInt64) : Codec.u64.decodeAll (Codec.u64.encode n) = .ok n :=
    Codec.lawful_u64.decodeAll_encode trivial
  simp only [Ledger.nextSequence, gives_bind, Ledger.gives_read?, gives_pure, Readable, record?,
    h.counter]
  by_cases empty : ps = [] <;> simp [empty, decoded]

theorem Logs.gives_packet? (h : v.Logs port channel ps) (n : UInt64) :
    (Ledger.packet? port channel n).Gives v (if n = 0 then none else ps[n.toNat - 1]?) v := by
  simp only [Ledger.packet?, Ledger.gives_read?, Readable, record?, h.get?_packet]
  by_cases zero : n = 0
  · simp [zero]
  · simp only [if_neg zero]
    cases found : ps[n.toNat - 1]? with
    | none => simp
    | some p => simp [h.decodeAll_encode (List.mem_of_getElem? found)]

theorem Logs.gives_packets (h : v.Logs port channel ps) (plainPort : Identifier.IsPlain port)
    (plainChannel : Identifier.IsPlain channel) :
    (Ledger.packets port channel).Gives v ps v := by
  have sorted : ps.Pairwise fun p q =>
      (Key.packet port channel p.sequence).bytes < (Key.packet port channel q.sequence).bytes := by
    have numbers : (ps.map (·.sequence.toNat)).Pairwise (· < ·) := by
      rw [h.numbered]
      exact List.pairwise_lt_range'
    exact (List.pairwise_map.mp numbers).imp fun less =>
      Key.bytes_packet_lt (UInt64.lt_iff_toNat_lt.mpr less)
  apply Ledger.gives_readAll sorted
  · intro key bs
    constructor
    · rintro ⟨within, found⟩
      obtain ⟨n, rfl⟩ := h.listed plainPort plainChannel key bs found within
      obtain ⟨p, mem, rfl, written⟩ := (h.packet n bs).mp found
      exact ⟨p, mem, rfl, written⟩
    · rintro ⟨p, mem, rfl, written⟩
      exact ⟨Key.start_isPrefix .., (h.packet _ bs).mpr ⟨p, mem, rfl, written⟩⟩
  · intro p mem
    exact h.decodeAll_encode mem

end Contents

end LedgerBridge
