import LedgerBridge.Ledger.Channel
import LedgerBridge.Proofs.Numerals
import Mathlib.Data.String.Basic

/-! The texts that pass for names. Every kind of name has an alphabet and bounds on its length. A check
measures a text in bytes and looks at its characters one by one; over an alphabet of ASCII characters
there are as many of these as of those, so what passes is what is spelled right. -/
namespace LedgerBridge

namespace Text

def IsLetter (c : Char) : Prop := 'a' ≤ c ∧ c ≤ 'z' ∨ 'A' ≤ c ∧ c ≤ 'Z'

def IsDigit (c : Char) : Prop := '0' ≤ c ∧ c ≤ '9'

def IsAlphanumeric (c : Char) : Prop := IsLetter c ∨ IsDigit c

/-- From `least` to `most` characters, all of one alphabet. -/
structure Over (alphabet : Char → Prop) (least most : Nat) (s : String) : Prop where
  least_le : least ≤ s.length
  le_most : s.length ≤ most
  mem : ∀ c ∈ s.toList, alphabet c

variable {alphabet : Char → Prop} {c : Char} {s : String}

theorem isAlpha_iff : c.isAlpha ↔ IsLetter c := by
  have cases : c.isAlpha =
      (decide ('A' ≤ c ∧ c ≤ 'Z') || (decide ('a' ≤ c) && decide (c ≤ 'z'))) := rfl
  simp [cases, IsLetter, or_comm]

theorem isAlphanum_iff : c.isAlphanum ↔ IsAlphanumeric c := by
  simp [Char.isAlphanum, isAlpha_iff, Char.isDigit, IsAlphanumeric, IsDigit, Char.le_def]

/-- The alphabet has characters of one byte only. -/
def IsAscii (alphabet : Char → Prop) : Prop := ∀ c, alphabet c → c.val ≤ 127

theorem isAscii_isAlphanumeric : IsAscii IsAlphanumeric := by
  rintro c ((⟨-, h⟩ | ⟨-, h⟩) | ⟨-, h⟩) <;> exact UInt32.le_trans h (by decide)

/-- Marks are put to an alphabet. -/
theorem IsAscii.or_mem (ascii : IsAscii alphabet) {marks : List Char}
    (small : ∀ c ∈ marks, c.val ≤ 127) : IsAscii fun c => alphabet c ∨ c ∈ marks :=
  fun c => Or.rec (ascii c) (small c)

theorem utf8ByteSize_eq_length (ascii : ∀ c ∈ s.toList, c.val ≤ 127) :
    s.utf8ByteSize = s.length := by
  have each (cs : List Char) (ascii : ∀ c ∈ cs, c.val ≤ 127) : String.utf8Len cs = cs.length := by
    induction cs with
    | nil => rfl
    | cons c cs ih =>
      obtain ⟨first, others⟩ := List.forall_mem_cons.mp ascii
      rw [String.utf8Len_cons, ih others, Char.utf8Size_eq_one_iff.mpr first, List.length_cons]
  rw [← String.utf8Len_toList, each s.toList ascii, String.length_toList]

/-- Bytes may be counted instead of characters. -/
theorem over_iff (ascii : IsAscii alphabet) {least most : Nat} :
    Over alphabet least most s ↔
      ¬ (s.utf8ByteSize < least ∨ most < s.utf8ByteSize) ∧ ∀ c ∈ s.toList, alphabet c := by
  have size (mem : ∀ c ∈ s.toList, alphabet c) : s.utf8ByteSize = s.length :=
    utf8ByteSize_eq_length fun c member => ascii c (mem c member)
  constructor
  · rintro ⟨least_le, le_most, mem⟩
    exact ⟨by rw [size mem]; omega, mem⟩
  · rintro ⟨sized, mem⟩
    rw [size mem] at sized
    exact ⟨by omega, by omega, mem⟩

theorem guarded_eq_ok_iff {wrong : Prop} [Decidable wrong] {e : ε} {check : Except ε Unit} :
    (if wrong then .error e else check) = .ok () ↔ ¬ wrong ∧ check = .ok () := by
  by_cases h : wrong <;> simp [h]

/-- A search for a character that is not allowed. -/
theorem searched_eq_ok_iff {bad : Char → ε} {test : Char → Bool} {cs : List Char} :
    (match cs.find? (!test ·) with
      | some c => .error (bad c)
      | none => .ok () : Except ε Unit) = .ok () ↔ ∀ c ∈ cs, test c := by
  have allowed : cs.find? (!test ·) = none ↔ ∀ c ∈ cs, test c := by simp
  rw [← allowed]
  cases cs.find? (!test ·) <;> simp

end Text

open Text

namespace Denom

/-- What a denomination is made of. -/
def Allowed (c : Char) : Prop := IsAlphanumeric c ∨ c ∈ ['/', ':', '.', '_', '-']

/-- How a denomination is spelled. -/
structure WellSpelled (denom : String) : Prop where
  whole : Over Allowed 3 128 denom
  first : ∀ c ∈ denom.toList.head?, IsLetter c

theorem isAscii_allowed : IsAscii Allowed := isAscii_isAlphanumeric.or_mem (by simp)

theorem isAllowed_iff {c : Char} : (c.isAlphanum || isMark c) ↔ Allowed c := by
  simp [Allowed, isAlphanum_iff, isMark, or_assoc]

theorem wellSpelled_iff {denom : String} {first : Char} {rest : List Char}
    (chars : denom.toList = first :: rest) :
    WellSpelled denom ↔ ¬ (denom.utf8ByteSize < 3 ∨ 128 < denom.utf8ByteSize) ∧
      IsLetter first ∧ ∀ c ∈ rest, Allowed c := by
  have whole : Over Allowed 3 128 denom ↔ _ := over_iff isAscii_allowed
  rw [chars, List.forall_mem_cons] at whole
  constructor
  · intro h
    obtain ⟨sized, -, others⟩ := whole.mp h.whole
    exact ⟨sized, h.first first (by simp [chars]), others⟩
  · rintro ⟨sized, letter, others⟩
    exact ⟨whole.mpr ⟨sized, .inl (.inl letter), others⟩, by simpa [chars] using letter⟩

theorem check_eq_ok_iff {denom : String} : check denom = .ok () ↔ WellSpelled denom := by
  rw [check, guarded_eq_ok_iff]
  cases chars : denom.toList with
  | nil =>
    -- Nothing is too short.
    have empty (h : WellSpelled denom) : False := by
      have least := h.whole.least_le
      rw [← String.length_toList, chars] at least
      cases least
    exact ⟨fun h => (by cases h.2), fun h => (empty h).elim⟩
  | cons first rest =>
    rw [wellSpelled_iff chars, guarded_eq_ok_iff]
    refine and_congr_right fun _ => and_congr (by simp [isAlpha_iff]) ?_
    exact searched_eq_ok_iff.trans (by simp only [isAllowed_iff])

end Denom

namespace Identifier

/-- What the name of a port or channel is made of. -/
def Allowed (c : Char) : Prop :=
  IsAlphanumeric c ∨ c ∈ ['.', '_', '+', '-', '#', '[', ']', '<', '>']

theorem isAscii_allowed : IsAscii Allowed := isAscii_isAlphanumeric.or_mem (by simp)

theorem isAllowed_iff {c : Char} : (c.isAlphanum || isMark c) ↔ Allowed c := by
  simp [Allowed, isAlphanum_iff, isMark, or_assoc]

theorem check_eq_ok_iff {kind id : String} : check kind id = .ok () ↔ Over Allowed 2 64 id := by
  rw [over_iff isAscii_allowed, check, guarded_eq_ok_iff]
  exact and_congr_right fun _ => searched_eq_ok_iff.trans (by simp only [isAllowed_iff])

end Identifier

namespace Metadata

def IsPrintable (c : Char) : Prop := ' ' ≤ c ∧ c ≤ '~'

theorem checkSymbol_eq_ok_iff {symbol : String} :
    checkSymbol symbol = .ok () ↔ Over IsAlphanumeric 1 12 symbol := by
  rw [over_iff isAscii_isAlphanumeric, checkSymbol, guarded_eq_ok_iff, Nat.lt_one_iff]
  exact and_congr_right fun _ => searched_eq_ok_iff.trans (by simp only [isAlphanum_iff])

theorem checkName_eq_ok_iff {name : String} :
    checkName name = .ok () ↔ Over IsPrintable 1 64 name := by
  have ascii : IsAscii IsPrintable := fun c h => UInt32.le_trans h.2 (by decide)
  have test (c : Char) : isPrintable c ↔ IsPrintable c := by
    simp [isPrintable, IsPrintable, Char.le_def, UInt32.le_iff_toNat_le]
  rw [over_iff ascii, checkName, guarded_eq_ok_iff, Nat.lt_one_iff]
  exact and_congr_right fun _ => searched_eq_ok_iff.trans (by simp only [test])

end Metadata

namespace Hex

theorem isAlphanumeric_upper {n : Nat} (h : n < 16) : IsAlphanumeric (upper n) :=
  isAlphanum_iff.mp ((by decide : ∀ n < 16, (upper n).isAlphanum) n h)

theorem over_encodeUpper (bs : Bytes) :
    Over IsAlphanumeric (2 * bs.length) (2 * bs.length) (encodeUpper bs) := by
  have length : (encodeUpper bs).length = 2 * bs.length := by
    rw [encodeUpper, String.length_ofList, length_encodeWith]
  refine ⟨Nat.le_of_eq length.symm, Nat.le_of_eq length, fun c member => ?_⟩
  simp only [encodeUpper, encodeWith, String.toList_ofList, List.mem_flatMap, List.mem_cons,
    List.not_mem_nil, or_false] at member
  obtain ⟨b, -, rfl | rfl⟩ := member
  · exact isAlphanumeric_upper (by have := b.toNat_lt; omega)
  · exact isAlphanumeric_upper (by omega)

end Hex

namespace Denom

variable (port channel base : String)

theorem isVoucher_voucher : isVoucher (voucher port channel base) := by
  simp [isVoucher, voucher]

/-- Vouchers are denominations themselves. -/
theorem wellSpelled_voucher : WellSpelled (voucher port channel base) := by
  have digits := Hex.over_encodeUpper (sha256 (Bytes.ofString s!"{port}/{channel}/{base}"))
  rw [length_sha256] at digits
  have length : (voucher port channel base).length = 68 := by
    rw [voucher, String.length_append, Nat.le_antisymm digits.le_most digits.least_le]
    rfl
  have mark : ∀ c ∈ "ibc/".toList, c.isAlphanum || isMark c := List.all_eq_true.mp (by decide)
  refine ⟨⟨by omega, by omega, fun c member => ?_⟩, ?_⟩
  · rw [voucher, String.toList_append, List.mem_append] at member
    rcases member with start | digit
    · exact isAllowed_iff.mp (mark c start)
    · exact .inl (digits.mem c digit)
  · simp [voucher, IsLetter, Char.le_def]

end Denom

/-- A text passes for a denomination, for the name of a port or channel, or for the symbol or name of a
token if and only if it is spelled as these are. The denomination of a voucher passes, whatever port,
channel and base it is made of, and no transfer of it has a place where the funds go. -/
theorem checks_exactly :
    (∀ s, Denom.check s = .ok () ↔ Denom.WellSpelled s) ∧
    (∀ kind s, Identifier.check kind s = .ok () ↔ Over Identifier.Allowed 2 64 s) ∧
    (∀ s, Metadata.checkSymbol s = .ok () ↔ Over IsAlphanumeric 1 12 s) ∧
    (∀ s, Metadata.checkName s = .ok () ↔ Over Metadata.IsPrintable 1 64 s) ∧
    ∀ port channel base, Denom.check (Denom.voucher port channel base) = .ok () ∧
      ∀ port' channel', Denom.exit? port' channel' (Denom.voucher port channel base) = none := by
  refine ⟨fun s => Denom.check_eq_ok_iff, fun kind s => Identifier.check_eq_ok_iff,
    fun s => Metadata.checkSymbol_eq_ok_iff, fun s => Metadata.checkName_eq_ok_iff,
    fun port channel base => ⟨?_, fun port' channel' => ?_⟩⟩
  · exact Denom.check_eq_ok_iff.mpr (Denom.wellSpelled_voucher port channel base)
  · rw [Denom.exit?, if_pos (Denom.isVoucher_voucher port channel base)]

/-- Two characters are measured as four bytes, which is long enough; the second is not allowed. -/
example : Denom.check "a€" = .error (.denomChar "a€" '€') := by decide

end LedgerBridge
