import LedgerBridge.Primitives
import LedgerBridge.Proofs.ChannelKeys
import LedgerBridge.Proofs.Results
import LedgerBridge.Text.Numerals
import Mathlib.Data.List.Induction

/-! The texts that numbers, bytes and addresses are read from. -/
namespace LedgerBridge.Decimal

/-! The texts that a number is read from: the one it is written as, with any number of zeros in front
and a plus sign in front of these. -/

theorem digitChar_of_isDigit {c : Char} (h : c.isDigit) :
    c.toNat - '0'.toNat < 10 ∧ Nat.digitChar (c.toNat - '0'.toNat) = c := by
  have bounds : 48 ≤ c.toNat ∧ c.toNat ≤ 57 := by
    simpa [Char.isDigit, UInt32.le_iff_toNat_le] using h
  have small : c.toNat - '0'.toNat < 10 := by
    simp only [Char.reduceToNat]
    omega
  refine ⟨small, Char.toNat_inj.mp ?_⟩
  rw [Nat.toNat_digitChar_of_lt_ten small]
  simp only [Char.reduceToNat]
  omega

theorem write_of_digit {d : Nat} (h : d < 10) : write d = [Nat.digitChar d] :=
  Nat.toDigits_of_lt_base h

/-- A row of digits is the written form of its value behind some zeros. -/
theorem eq_zeros_append_write {cs : List Char} (some : cs ≠ []) (digits : ∀ c ∈ cs, c.isDigit) :
    ∃ zeros, cs = List.replicate zeros '0' ++ write (Nat.ofDigitChars 10 cs 0) := by
  induction cs using List.reverseRecOn with
  | nil => exact absurd rfl some
  | append_singleton ds c ih =>
    obtain ⟨before, last⟩ := List.forall_mem_append.mp digits
    obtain ⟨small, digit⟩ := digitChar_of_isDigit (last c (List.mem_singleton_self c))
    rw [Nat.ofDigitChars_append, Nat.ofDigitChars_cons, Nat.ofDigitChars_nil]
    by_cases first : ds = []
    · subst first
      refine ⟨0, ?_⟩
      rw [Nat.ofDigitChars_nil, Nat.mul_zero, Nat.zero_add, write_of_digit small, digit]
      rfl
    · obtain ⟨zeros, eq⟩ := ih first before
      generalize Nat.ofDigitChars 10 ds 0 = n at eq ⊢
      -- Only behind zeros does a digit not go on with the number in front of it.
      rcases Nat.eq_zero_or_pos n with rfl | pos
      · refine ⟨zeros + 1, ?_⟩
        rw [Nat.mul_zero, Nat.zero_add, write_of_digit small, digit, eq, write_of_digit (by decide),
          List.replicate_succ']
        rfl
      · refine ⟨zeros, ?_⟩
        have longer : write n ++ write (c.toNat - '0'.toNat) = write (10 * n + (c.toNat - '0'.toNat)) :=
          Nat.toDigits_append_toDigits (by decide) pos small
        rw [← longer, write_of_digit small, digit, ← List.append_assoc, ← eq]

theorem isDigit_of_mem_zeros_append_write {zeros n : Nat} {c : Char}
    (h : c ∈ List.replicate zeros '0' ++ write n) : c.isDigit := by
  rcases List.mem_append.mp h with zero | digit
  · rw [List.eq_of_mem_replicate zero]
    rfl
  · exact isDigit_of_mem_write digit

theorem readDigits_eq_some_iff {cs : List Char} {n : Nat} :
    readDigits cs = some n ↔ ∃ zeros, cs = List.replicate zeros '0' ++ write n := by
  constructor
  · intro h
    unfold readDigits at h
    split at h
    · rename_i row
      obtain ⟨zeros, eq⟩ := eq_zeros_append_write row.1 (List.all_eq_true.mp row.2)
      cases h
      exact ⟨zeros, eq⟩
    · cases h
  · rintro ⟨zeros, rfl⟩
    have digits : (List.replicate zeros '0' ++ write n).all Char.isDigit :=
      List.all_eq_true.mpr fun _ => isDigit_of_mem_zeros_append_write
    have some : List.replicate zeros '0' ++ write n ≠ [] :=
      List.append_ne_nil_of_right_ne_nil _ Nat.toDigits_ne_nil
    rw [readDigits, if_pos ⟨some, digits⟩, Nat.ofDigitChars_append, Nat.ofDigitChars_replicate_zero,
      Nat.mul_zero, write, Nat.ofDigitChars_ten_toDigits]

/-- A number with zeros in front, and perhaps a sign in front of these. -/
def Spells (cs : List Char) (n : Nat) : Prop :=
  ∃ zeros, cs = List.replicate zeros '0' ++ write n ∨
    cs = '+' :: (List.replicate zeros '0' ++ write n)

/-- Only a sign in front of digits is skipped. -/
theorem spells_iff {cs : List Char} {n : Nat} :
    Spells cs n ↔ readDigits (match cs with | '+' :: rest => rest | cs => cs) = some n := by
  rw [readDigits_eq_some_iff, Spells, exists_or]
  split
  · rename_i rest
    have digits (zeros : Nat) : '+' :: rest ≠ List.replicate zeros '0' ++ write n := by
      intro same
      have digit := isDigit_of_mem_zeros_append_write (same ▸ List.mem_cons_self)
      cases digit
    simp [digits]
  · rename_i signless
    have unsigned (zeros : Nat) : cs ≠ '+' :: (List.replicate zeros '0' ++ write n) := signless _
    simp [unsigned]

theorem read_eq_some_iff {limit n : Nat} {s : String} :
    read limit s = some n ↔ n < limit ∧ Spells s.toList n := by
  rw [spells_iff]
  change (readDigits (match s.toList with | '+' :: rest => rest | cs => cs)).bind
    (fun m => if m < limit then some m else none) = some n ↔ _
  cases readDigits (match s.toList with | '+' :: rest => rest | cs => cs) with
  | none => simp
  | some m =>
    simp only [Option.bind_some, Option.ite_none_right_eq_some, Option.some.injEq]
    exact and_congr_left fun same => by rw [same]

end LedgerBridge.Decimal

namespace LedgerBridge

/-! The texts that bytes and addresses are read from. Digits of either case are read, one byte of the
text at a time. What is written has small letters; it is what every text that is read becomes when its
letters are made small. -/

namespace Hex

/-- A digit of either case. -/
def IsDigit (c : Char) : Prop :=
  '0' ≤ c ∧ c ≤ '9' ∨ 'a' ≤ c ∧ c ≤ 'f' ∨ 'A' ≤ c ∧ c ≤ 'F'

instance : DecidablePred IsDigit := fun _ => instDecidableOr

/-! A digit is one byte of a text. -/

theorem exists_char_of_digit? {b : UInt8} {n : Nat} (h : digit? b = some n) :
    ∃ c, String.utf8EncodeChar c = [b] ∧ n < 16 ∧ c.toLower = lower n := by
  have all : ∀ k < 256, ∀ n ∈ digit? (UInt8.ofNat k),
      String.utf8EncodeChar (Char.ofNat k) = [UInt8.ofNat k] ∧ n < 16 ∧
        (Char.ofNat k).toLower = lower n := by
    decide +kernel
  have this := all b.toNat b.toNat_lt
  rw [UInt8.ofNat_toNat] at this
  exact ⟨_, this n h⟩

/-- Only characters of one byte become digits when they are made small. -/
theorem val_le_of_toLower {c : Char} {n : Nat} (h : n < 16) (small : c.toLower = lower n) :
    c.val ≤ 127 := by
  unfold Char.toLower at small
  split at small
  · rename_i capital
    exact UInt32.le_trans capital.2 (by decide)
  · rw [small]
    exact (by decide : ∀ n < 16, (lower n).val ≤ 127) n h

theorem exists_byte_of_toLower {c : Char} {n : Nat} (h : n < 16) (small : c.toLower = lower n) :
    ∃ b, String.utf8EncodeChar c = [b] ∧ digit? b = some n := by
  have all : ∀ k < 128, ∀ n < 16, (Char.ofNat k).toLower = lower n →
      digit? (UInt8.ofNat k) = some n := by
    decide +kernel
  have short := val_le_of_toLower h small
  refine ⟨c.val.toUInt8,
    String.utf8EncodeChar_eq_singleton (Char.utf8Size_eq_one_iff.mpr short), ?_⟩
  have value : c.toNat < 128 := Nat.lt_succ_of_le (UInt32.le_iff_toNat_le.mp short)
  exact all c.toNat value n h (by rw [Char.ofNat_toNat, small])

/-! Bytes are two digits each. -/

theorem encodeWith_cons (digit : Nat → Char) (b : UInt8) (bs : Bytes) :
    encodeWith digit (b :: bs) =
      digit (b.toNat / 16) :: digit (b.toNat % 16) :: encodeWith digit bs := rfl

theorem encodeWith_cons_ofNat {digit : Nat → Char} {high low : Nat} (boundHigh : high < 16)
    (boundLow : low < 16) (bs : Bytes) :
    encodeWith digit (UInt8.ofNat (16 * high + low) :: bs) =
      digit high :: digit low :: encodeWith digit bs := by
  have value : (UInt8.ofNat (16 * high + low)).toNat = 16 * high + low := by
    rw [UInt8.toNat_ofNat']
    omega
  have quotient : (16 * high + low) / 16 = high := by omega
  have remainder : (16 * high + low) % 16 = low := by omega
  rw [encodeWith_cons, value, quotient, remainder]

theorem length_encodeWith (digit : Nat → Char) (bs : Bytes) :
    (encodeWith digit bs).length = 2 * bs.length := by
  simp [encodeWith, List.length_flatMap, Nat.mul_comm]

theorem exists_digits_of_decodeFrom {position : Nat} {raw bs : Bytes}
    (h : decodeFrom position raw = .ok bs) :
    ∃ digits : List Char, digits.flatMap String.utf8EncodeChar = raw ∧
      digits.map Char.toLower = encodeWith lower bs := by
  fun_induction decodeFrom position raw generalizing bs with
  | case1 =>
    cases h
    exact ⟨[], rfl, rfl⟩
  | case2 | case3 | case4 => cases h
  | case5 position hi lo rest high low readLow readHigh ih =>
    cases others : decodeFrom (position + 2) rest with
    | error fault =>
      rw [others] at h
      cases h
    | ok bs' =>
      rw [others] at h
      cases h
      obtain ⟨c, encodedHigh, boundHigh, smallHigh⟩ := exists_char_of_digit? readHigh
      obtain ⟨d, encodedLow, boundLow, smallLow⟩ := exists_char_of_digit? readLow
      obtain ⟨digits, encoded, small⟩ := ih others
      refine ⟨c :: d :: digits, by simp [encodedHigh, encodedLow, encoded], ?_⟩
      rw [encodeWith_cons_ofNat boundHigh boundLow, List.map_cons, List.map_cons, smallHigh,
        smallLow, small]

theorem decodeFrom_of_toLower {digits : List Char} {bs : Bytes} (position : Nat)
    (h : digits.map Char.toLower = encodeWith lower bs) :
    decodeFrom position (digits.flatMap String.utf8EncodeChar) = .ok bs ∧
      (digits.flatMap String.utf8EncodeChar).length % 2 = 0 := by
  induction bs generalizing digits position with
  | nil =>
    cases List.map_eq_nil_iff.mp h
    exact ⟨rfl, rfl⟩
  | cons b bs ih =>
    have bound := b.toNat_lt
    obtain ⟨c, digits, rfl, smallHigh, h⟩ := List.map_eq_cons_iff.mp h
    obtain ⟨d, digits, rfl, smallLow, h⟩ := List.map_eq_cons_iff.mp h
    obtain ⟨hi, encodedHigh, readHigh⟩ := exists_byte_of_toLower (by omega) smallHigh
    obtain ⟨lo, encodedLow, readLow⟩ := exists_byte_of_toLower (by omega) smallLow
    obtain ⟨reads, even⟩ := ih (position + 2) h
    have value : UInt8.ofNat (16 * (b.toNat / 16) + b.toNat % 16) = b := by
      rw [Nat.div_add_mod, UInt8.ofNat_toNat]
    have bytes : (c :: d :: digits).flatMap String.utf8EncodeChar =
        hi :: lo :: digits.flatMap String.utf8EncodeChar := by
      simp [encodedHigh, encodedLow]
    rw [bytes, List.length_cons, List.length_cons, decodeFrom, readHigh, readLow]
    exact ⟨by simp [reads, value], by omega⟩

theorem isDigit_iff {c : Char} : IsDigit c ↔ ∃ n < 16, c.toLower = lower n := by
  have all : ∀ k < 128, IsDigit (Char.ofNat k) ↔ ∃ n < 16, (Char.ofNat k).toLower = lower n := by
    decide +kernel
  have short (h : c.val ≤ 127) : IsDigit c ↔ ∃ n < 16, c.toLower = lower n := by
    have value : c.toNat < 128 := Nat.lt_succ_of_le (UInt32.le_iff_toNat_le.mp h)
    have this := all c.toNat value
    rwa [Char.ofNat_toNat] at this
  constructor
  · intro digit
    refine (short ?_).mp digit
    rcases digit with ⟨-, h⟩ | ⟨-, h⟩ | ⟨-, h⟩ <;> exact UInt32.le_trans h (by decide)
  · rintro ⟨n, h, small⟩
    exact (short (val_le_of_toLower h small)).mpr ⟨n, h, small⟩

theorem isDigit_of_mem {digits : List Char} {bs : Bytes} {c : Char}
    (h : digits.map Char.toLower = encodeWith lower bs) (mem : c ∈ digits) : IsDigit c := by
  have small : c.toLower ∈ encodeWith lower bs := h ▸ List.mem_map_of_mem mem
  obtain ⟨b, -, digit⟩ := List.mem_flatMap.mp small
  have bound := b.toNat_lt
  simp only [List.mem_cons, List.not_mem_nil, or_false] at digit
  rcases digit with high | low
  · exact isDigit_iff.mpr ⟨_, by omega, high⟩
  · exact isDigit_iff.mpr ⟨_, by omega, low⟩

/-- Any digits are those of some bytes, as long as there are two for each. -/
theorem exists_bytes {n : Nat} {digits : List Char} (length : digits.length = 2 * n)
    (all : ∀ c ∈ digits, IsDigit c) :
    ∃ bs : Bytes, bs.length = n ∧ digits.map Char.toLower = encodeWith lower bs := by
  induction n generalizing digits with
  | zero =>
    cases List.length_eq_zero_iff.mp length
    exact ⟨[], rfl, rfl⟩
  | succ n ih =>
    obtain ⟨c, d, digits, rfl⟩ : ∃ c d rest, digits = c :: d :: rest := by
      match digits, length with
      | c :: d :: rest, _ => exact ⟨c, d, rest, rfl⟩
    simp only [List.forall_mem_cons] at all
    obtain ⟨first, second, others⟩ := all
    obtain ⟨high, boundHigh, smallHigh⟩ := isDigit_iff.mp first
    obtain ⟨low, boundLow, smallLow⟩ := isDigit_iff.mp second
    obtain ⟨bs, size, small⟩ := ih (by simpa [Nat.mul_succ] using length) others
    refine ⟨UInt8.ofNat (16 * high + low) :: bs, by rw [List.length_cons, size], ?_⟩
    rw [List.map_cons, List.map_cons, smallHigh, smallLow, small,
      encodeWith_cons_ofNat boundHigh boundLow]

/-- Bytes are read from the texts that have their digits, in letters of either case. -/
theorem decode_eq_ok_iff {s : String} {bs : Bytes} :
    decode s = .ok bs ↔ s.toList.map Char.toLower = encodeWith lower bs := by
  constructor
  · intro h
    simp only [decode] at h
    split at h
    · cases h
    · obtain ⟨digits, encoded, small⟩ := exists_digits_of_decodeFrom h
      have same : Bytes.ofString (.ofList digits) = Bytes.ofString s := by
        rw [Bytes.ofString_eq_flatMap, String.toList_ofList, encoded]
      rw [← Bytes.ofString_injective same, String.toList_ofList, small]
  · intro h
    obtain ⟨reads, even⟩ := decodeFrom_of_toLower 0 h
    rw [decode, Bytes.ofString_eq_flatMap]
    simp only [even, reads, Nat.zero_ne_one, if_false]

theorem toLower_lower {n : Nat} (h : n < 16) : (lower n).toLower = lower n :=
  (by decide : ∀ n < 16, (lower n).toLower = lower n) n h

theorem map_toLower_encodeWith (bs : Bytes) :
    (encodeWith lower bs).map Char.toLower = encodeWith lower bs := by
  induction bs with
  | nil => rfl
  | cons b bs ih =>
    have bound := b.toNat_lt
    rw [encodeWith_cons, List.map_cons, List.map_cons, ih, toLower_lower (by omega),
      toLower_lower (by omega)]

end Hex

namespace Address

open Hex

variable {s : String} {a : Address} {digits : List Char}

/-- The text has these digits, with or without the mark in front. -/
def Shows (digits : List Char) (s : String) : Prop :=
  s = .ofList digits ∨ s = .ofList ('0' :: 'x' :: digits)

theorem unmarked_eq_iff (plain : 'x' ∉ digits) : unmarked s = .ofList digits ↔ Shows digits s := by
  constructor
  · intro h
    unfold unmarked at h
    split at h
    · rename_i rest chars
      have same : rest = digits := String.ofList_injective h
      exact .inr (by rw [← same, ← chars, String.ofList_toList])
    · exact .inl h
  · rintro (rfl | rfl)
    · unfold unmarked
      split
      · rename_i rest chars
        rw [String.toList_ofList] at chars
        exact absurd (by simp [chars]) plain
      · rfl
    · simp [unmarked]

theorem parse_eq_ok_iff_decode : parse s = .ok a ↔ decode (unmarked s) = .ok a.bytes := by
  constructor
  · intro h
    unfold parse at h
    split at h
    · cases h
    · rename_i bs read
      split at h
      · rename_i a' sized
        cases h
        rw [read, bytes_of_ofBytes? sized]
      · cases h
  · intro h
    simp [parse, h]

/-- An address is read from its forty digits, in letters of either case and with the mark or without. -/
theorem parse_eq_ok_iff :
    parse s = .ok a ↔ ∃ digits, Shows digits s ∧ digits.map Char.toLower = encodeWith lower a.bytes := by
  have plain {digits : List Char} (h : digits.map Char.toLower = encodeWith lower a.bytes) :
      'x' ∉ digits := fun mem => absurd (isDigit_of_mem h mem) (by decide)
  rw [parse_eq_ok_iff_decode, decode_eq_ok_iff]
  constructor
  · intro h
    exact ⟨_, (unmarked_eq_iff (plain h)).mp String.ofList_toList.symm, h⟩
  · rintro ⟨digits, shows, h⟩
    rw [(unmarked_eq_iff (plain h)).mpr shows, String.toList_ofList, h]

theorem exists_parse_iff :
    (∃ a, parse s = .ok a) ↔
      ∃ digits, Shows digits s ∧ digits.length = 40 ∧ ∀ c ∈ digits, Hex.IsDigit c := by
  constructor
  · rintro ⟨a, read⟩
    obtain ⟨digits, shows, small⟩ := parse_eq_ok_iff.mp read
    refine ⟨digits, shows, ?_, fun c => isDigit_of_mem small⟩
    rw [← List.length_map Char.toLower, small, length_encodeWith, a.length_eq]
  · rintro ⟨digits, shows, length, all⟩
    obtain ⟨bs, size, small⟩ := exists_bytes (n := 20) length all
    exact ⟨⟨bs, size⟩, parse_eq_ok_iff.mpr ⟨digits, shows, small⟩⟩

/-- An address is read from its text. -/
theorem parse_text (a : Address) : parse a.text = .ok a :=
  parse_eq_ok_iff.mpr ⟨encodeWith lower a.bytes, .inr rfl, map_toLower_encodeWith a.bytes⟩

end Address

end LedgerBridge
