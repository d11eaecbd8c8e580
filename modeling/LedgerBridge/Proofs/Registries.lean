import LedgerBridge.Ledger.Bank
import LedgerBridge.Proofs.Departures
import LedgerBridge.Proofs.Queries

/-! The registry as a list of pairs. A map registers some pairs if each stands under its denomination,
the denomination stands under its address, and nothing else stands under keys of the registry. A pair is
added exactly if it shares neither with those that are there, and what is looked up by denomination, by
address or as a whole is in the one list. -/
namespace LedgerBridge

/-- No name comes twice if that of the last item is new. -/
theorem nodup_map_concat (name : α → κ) (items : List α) (a : α) :
    ((items ++ [a]).map name).Nodup ↔ name a ∉ items.map name ∧ (items.map name).Nodup := by
  rw [List.map_append, List.map_singleton, List.nodup_append_comm, List.singleton_append,
    List.nodup_cons]

section Names

variable [DecidableEq κ] {name : α → κ} {items : List α}

/-- The one item of a name is found by it. -/
theorem find?_eq_some_of_nodup {a : α} (single : (items.map name).Nodup) (member : a ∈ items) :
    items.find? (name · = name a) = some a := by
  apply find?_eq_some_of_unique member (by simp)
  intro b other same
  exact List.inj_on_of_nodup_map single other member (of_decide_eq_true same)

theorem find?_eq_some_iff_of_nodup {a : α} {n : κ} (single : (items.map name).Nodup) :
    items.find? (name · = n) = some a ↔ a ∈ items ∧ name a = n := by
  constructor
  · intro found
    exact ⟨List.mem_of_find?_eq_some found, by simpa using List.find?_some found⟩
  · rintro ⟨member, rfl⟩
    exact find?_eq_some_of_nodup single member

theorem find?_reverse_of_nodup (single : (items.map name).Nodup) (n : κ) :
    items.reverse.find? (name · = n) = items.find? (name · = n) := by
  cases found : items.find? (name · = n) with
  | none =>
    rw [List.find?_eq_none] at found ⊢
    exact fun a member => found a (List.mem_reverse.mp member)
  | some a =>
    obtain rfl : name a = n := by simpa using List.find?_some found
    apply find?_eq_some_of_nodup
    · rw [List.map_reverse]
      exact List.nodup_reverse.mpr single
    · exact List.mem_reverse.mpr (List.mem_of_find?_eq_some found)

end Names

namespace Contents

open Metered

/-- Under the key for a name stands what is written for the last item of that name, and nothing if there
is none. -/
def Tabulates [DecidableEq κ] (v : Contents) (key : κ → Key) (name : α → κ) (write : α → Bytes)
    (items : List α) : Prop :=
  ∀ n, v.get? (key n).bytes = (items.reverse.find? (name · = n)).map write

section Tables

variable [DecidableEq κ] {v w : Contents} {key : κ → Key} {name : α → κ} {write : α → Bytes}
  {items : List α}

theorem tabulates_empty : Tabulates ∅ key name write [] := fun _ => rfl

theorem Tabulates.put_aside (h : v.Tabulates key name write items) {other : Key}
    (aside : ∀ n, other.kind ≠ (key n).kind) (change : Option Bytes) :
    Tabulates (Changes.put v other.bytes change) key name write items := by
  intro n
  rw [Changes.get?_put, if_neg (Key.bytes_ne_of_kind_ne (aside n)), h n]

theorem Tabulates.of_changedWithin {area : Key → Prop} (h : v.Tabulates key name write items)
    (change : v.ChangedWithin area w) (aside : ∀ other, area other → ∀ n, other.kind ≠ (key n).kind) :
    w.Tabulates key name write items := by
  intro n
  rw [change.get?_eq fun other inside => Key.bytes_ne_of_kind_ne (aside other inside n), h n]

theorem Tabulates.put_next (h : v.Tabulates key name write items)
    (apart : ∀ {m n}, (key m).bytes = (key n).bytes → m = n) (a : α) :
    Tabulates (Changes.put v (key (name a)).bytes (some (write a))) key name write
      (items ++ [a]) := by
  intro n
  rw [Changes.get?_put, List.reverse_append, List.reverse_singleton, List.singleton_append,
    List.find?_cons]
  by_cases same : name a = n
  · subst same
    simp
  · rw [if_neg fun equal => same (apart equal), h n]
    simp [same]

theorem Tabulates.contains_eq_false (h : v.Tabulates key name write items) {n : κ} :
    v.contains (key n).bytes = false ↔ n ∉ items.map name := by
  rw [ByteMap.contains, h n]
  simp

/-- Where no name comes twice, the order does not matter. -/
theorem Tabulates.get?_of_nodup (h : v.Tabulates key name write items)
    (single : (items.map name).Nodup) (n : κ) :
    v.get? (key n).bytes = (items.find? (name · = n)).map write := by
  rw [h n, find?_reverse_of_nodup single]

end Tables

/-- The pairs of the registry, each under its denomination and found by its address. -/
structure Registers (v : Contents) (ps : List TokenPair) : Prop where
  fits : ∀ p ∈ ps, p.Fits
  denoms : (ps.map (·.denom)).Nodup
  addresses : (ps.map (·.address)).Nodup
  pair : v.Tabulates .pair TokenPair.denom TokenPair.codec.encode ps
  address : v.Tabulates .pairAddress TokenPair.address (fun p => Bytes.ofString p.denom) ps
  listed : ∀ key bs, v.get? key = some bs → Key.Area.pairs.start <+: key →
    ∃ denom, key = (Key.pair denom).bytes

/-- The map with one more pair. -/
def register (v : Contents) (p : TokenPair) : Contents :=
  Changes.put (Changes.put v (Key.pair p.denom).bytes (some (TokenPair.codec.encode p)))
    (Key.pairAddress p.address).bytes (some (Bytes.ofString p.denom))

/-- Nothing stands under a key of the registry. -/
def WithoutPairs (v : Contents) : Prop :=
  ∀ key bs, v.get? key = some bs →
    ¬ Bytes.ofString "erc20/pair/" <+: key ∧ ¬ Bytes.ofString "erc20/addr/" <+: key

variable {v w : Contents} {ps : List TokenPair} {p : TokenPair} {key : Key}

theorem WithoutPairs.registers (h : v.WithoutPairs) : v.Registers [] where
  fits := nofun
  denoms := .nil
  addresses := .nil
  pair denom := by
    rw [List.reverse_nil, List.find?_nil, Option.map_none, Option.eq_none_iff_forall_ne_some]
    exact fun bs found => (h _ bs found).1 (Key.head_isPrefix (.pair denom))
  address address := by
    rw [List.reverse_nil, List.find?_nil, Option.map_none, Option.eq_none_iff_forall_ne_some]
    exact fun bs found => (h _ bs found).2 (Key.head_isPrefix (.pairAddress address))
  listed key bs found within := absurd within (h key bs found).1

theorem registers_empty : Registers ∅ [] := WithoutPairs.registers fun _ _ => nofun

/-- A listing goes through keys of pairs only. -/
theorem kind_eq_of_pairs_isPrefix (h : Key.Area.pairs.start <+: key.bytes) : key.kind = .pair := by
  have head : Key.Kind.pair.head <+: key.bytes := h
  exact (Key.kind_eq_of_head_isPrefix head).symm

theorem Registers.put_aside (h : v.Registers ps) (pair : key.kind ≠ .pair)
    (address : key.kind ≠ .pairAddress) (change : Option Bytes) :
    Registers (Changes.put v key.bytes change) ps where
  fits := h.fits
  denoms := h.denoms
  addresses := h.addresses
  pair := h.pair.put_aside (fun _ => pair) change
  address := h.address.put_aside (fun _ => address) change
  listed other bs found within := by
    rw [Changes.get?_put] at found
    split at found
    · rename_i same
      exact absurd (kind_eq_of_pairs_isPrefix (same ▸ within)) pair
    · exact h.listed other bs found within

theorem Registers.of_changedWithin {area : Key → Prop} (h : v.Registers ps)
    (change : v.ChangedWithin area w)
    (aside : ∀ key, area key → key.kind ≠ .pair ∧ key.kind ≠ .pairAddress) : w.Registers ps := by
  refine change.keeps (fun u key change inside _ (registers : u.Registers ps) => ?_) h
  obtain ⟨pair, address⟩ := aside key inside
  exact registers.put_aside pair address change

theorem Registers.register (h : v.Registers ps) (fits : p.Fits)
    (denom : p.denom ∉ ps.map (·.denom)) (address : p.address ∉ ps.map (·.address)) :
    (v.register p).Registers (ps ++ [p]) where
  fits := List.forall_mem_append.mpr ⟨h.fits, List.forall_mem_singleton.mpr fits⟩
  denoms := (nodup_map_concat _ ps p).mpr ⟨denom, h.denoms⟩
  addresses := (nodup_map_concat _ ps p).mpr ⟨address, h.addresses⟩
  pair := (h.pair.put_next Key.bytes_pair_inj.mp p).put_aside (by simp) _
  address := (h.address.put_aside (by simp) _).put_next Key.bytes_pairAddress_inj.mp p
  listed other bs found within := by
    rw [Contents.register, Changes.get?_put, Changes.get?_put] at found
    split at found
    · rename_i same
      have inside : Key.Area.pairs.start <+: (Key.pairAddress p.address).bytes := same ▸ within
      cases kind_eq_of_pairs_isPrefix inside
    · split at found
      · rename_i same
        exact ⟨p.denom, same.symm⟩
      · exact h.listed other bs found within

/-- A pair is registered exactly if nothing has its denomination or its address yet. -/
theorem Registers.gives_registerPair (h : v.Registers ps) {done : Unit} :
    (Ledger.registerPair p).Gives v done w ↔
      Denom.check p.denom = .ok () ∧ p.denom ∉ ps.map (·.denom) ∧
        p.address ∉ ps.map (·.address) ∧ v.register p = w := by
  have written (checked : Denom.check p.denom = .ok ()) : TokenPair.codec.writable p = true :=
    (TokenPair.lawful_codec.writable_iff p).mpr (Denom.fits_of_check checked)
  rw [← h.pair.contains_eq_false, ← h.address.contains_eq_false]
  simp only [Ledger.registerPair, gives_bind, gives_liftM, Ledger.require, TokenPair.check,
    mapError_eq_ok, Ledger.contains, gives_has, and_assoc, exists_and_left, exists_eq_left']
  cases denom : v.contains (Key.pair p.denom).bytes with
  | true => simp [gives_bind]
  | false =>
    simp only [Bool.false_eq_true, if_false, gives_bind, gives_has, and_assoc, exists_and_left,
      exists_eq_left']
    cases address : v.contains (Key.pairAddress p.address).bytes with
    | true => simp [gives_bind]
    | false =>
      simp only [Bool.false_eq_true, if_false, gives_bind, Ledger.gives_write, gives_set]
      constructor
      · rintro ⟨_, checked, _, _, ⟨-, rfl⟩, rfl⟩
        exact ⟨checked, trivial, trivial, rfl⟩
      · rintro ⟨checked, -, -, rfl⟩
        exact ⟨(), checked, (), _, ⟨written checked, rfl⟩, rfl⟩

/-! Queries. -/

theorem Registers.decodeAll_encode (h : v.Registers ps) (member : p ∈ ps) :
    TokenPair.codec.decodeAll (TokenPair.codec.encode p) = .ok p :=
  TokenPair.lawful_codec.decodeAll_encode (h.fits p member)

theorem Registers.gives_pairOf? (h : v.Registers ps) (denom : String) :
    (Ledger.pairOf? denom).Gives v (ps.find? (·.denom = denom)) v := by
  simp only [Ledger.pairOf?, Ledger.gives_read?, Readable, record?,
    h.pair.get?_of_nodup h.denoms denom]
  cases found : ps.find? (·.denom = denom) with
  | none => simp
  | some p => simp [h.decodeAll_encode (List.mem_of_find?_eq_some found)]

theorem Registers.gives_pairAt? (h : v.Registers ps) (address : Address) :
    (Ledger.pairAt? address).Gives v (ps.find? (·.address = address)) v := by
  simp only [Ledger.pairAt?, gives_bind, gives_get,
    h.address.get?_of_nodup h.addresses address, and_assoc, exists_and_left, exists_eq_left']
  cases found : ps.find? (·.address = address) with
  | none => simp
  | some p =>
    have bound := h.gives_pairOf? p.denom
    rw [find?_eq_some_of_nodup h.denoms (List.mem_of_find?_eq_some found)] at bound
    simpa using bound

/-- The pairs are listed in the order of their denominations. -/
theorem Registers.gives_pairs (h : v.Registers ps) :
    ∃ listing, listing.Perm ps ∧
      (listing.Pairwise fun p q => Bytes.ofString p.denom < Bytes.ofString q.denom) ∧
      Ledger.pairs.Gives v listing v := by
  let listing := ps.mergeSort fun p q => Bytes.ofString p.denom ≤ Bytes.ofString q.denom
  have same : listing.Perm ps := List.mergeSort_perm _ _
  have sorted : listing.Pairwise fun p q => Bytes.ofString p.denom < Bytes.ofString q.denom := by
    have ordered : listing.Pairwise fun p q =>
        decide (Bytes.ofString p.denom ≤ Bytes.ofString q.denom) = true := by
      apply List.pairwise_mergeSort
      · intro p q r first second
        exact decide_eq_true (List.le_trans (of_decide_eq_true first) (of_decide_eq_true second))
      · intro p q
        simpa using List.le_total (Bytes.ofString p.denom) (Bytes.ofString q.denom)
    have apart : listing.Pairwise fun p q => p.denom ≠ q.denom :=
      same.symm.pairwise (List.pairwise_map.mp h.denoms) Ne.symm
    refine (ordered.and apart).imp fun {p q} ⟨le, different⟩ => ?_
    rcases Bytes.lt_or_eq_or_lt (Bytes.ofString p.denom) (Bytes.ofString q.denom) with
      less | equal | greater
    · exact less
    · exact absurd (Bytes.ofString_injective equal) different
    · exact absurd greater (List.not_lt.mpr (of_decide_eq_true le))
  refine ⟨listing, same, sorted, ?_⟩
  have keys : listing.Pairwise fun p q => (Key.pair p.denom).bytes < (Key.pair q.denom).bytes :=
    sorted.imp List.append_left_lt
  apply Ledger.gives_readAll keys
  · intro key bs
    constructor
    · rintro ⟨within, found⟩
      obtain ⟨denom, rfl⟩ := h.listed key bs found within
      rw [h.pair.get?_of_nodup h.denoms denom, Option.map_eq_some_iff] at found
      obtain ⟨p, found, written⟩ := found
      obtain rfl : p.denom = denom := by simpa using List.find?_some found
      exact ⟨p, same.mem_iff.mpr (List.mem_of_find?_eq_some found), rfl, written⟩
    · rintro ⟨p, member, rfl, written⟩
      refine ⟨List.prefix_append .., ?_⟩
      rw [h.pair.get?_of_nodup h.denoms,
        find?_eq_some_of_nodup h.denoms (same.mem_iff.mp member), ← written]
      rfl
  · intro p member
    exact h.decodeAll_encode (same.mem_iff.mp member)

end Contents

end LedgerBridge
