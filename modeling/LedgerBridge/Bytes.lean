/-! Byte strings in lexicographic order, and integers written in a fixed number of bytes. -/
namespace LedgerBridge

abbrev Bytes := List UInt8

namespace Bytes

instance : Std.Irrefl (· < · : UInt8 → UInt8 → Prop) := ⟨UInt8.lt_irrefl⟩
instance : Std.Asymm (· < · : UInt8 → UInt8 → Prop) := ⟨fun _ _ => UInt8.lt_asymm⟩
instance : Std.Trichotomous (· < · : UInt8 → UInt8 → Prop) :=
  ⟨fun _ _ h₁ h₂ => UInt8.le_antisymm (UInt8.not_lt.mp h₂) (UInt8.not_lt.mp h₁)⟩
instance : Trans (· < · : UInt8 → UInt8 → Prop) (· < ·) (· < ·) := ⟨UInt8.lt_trans⟩

theorem lt_trans {a b c : Bytes} (h₁ : a < b) (h₂ : b < c) : a < c := List.lt_trans h₁ h₂

theorem lt_irrefl (a : Bytes) : ¬ a < a := List.lt_irrefl a

theorem lt_or_eq_or_lt (a b : Bytes) : a < b ∨ a = b ∨ b < a := by
  by_cases h₁ : a < b
  · exact .inl h₁
  · by_cases h₂ : b < a
    · exact .inr (.inr h₂)
    · exact .inr (.inl (List.le_antisymm (List.not_lt.mp h₂) (List.not_lt.mp h₁)))

/-- What comes between a start and a byte string that begins with it begins with it too. -/
theorem isPrefix_of_between {start a b : Bytes} (low : ¬ a < start) (high : a < b)
    (h : start <+: b) : start <+: a := by
  induction start generalizing a b with
  | nil => exact List.nil_prefix
  | cons x xs ih =>
    obtain ⟨rest, rfl⟩ := h
    cases a with
    | nil => exact absurd (List.nil_lt_cons x xs) low
    | cons y ys =>
      simp only [List.cons_append, List.cons_lt_cons_iff, not_or, not_and] at low high
      rcases high with less | ⟨rfl, less⟩
      · exact absurd less low.1
      · exact List.cons_prefix_cons.mpr ⟨rfl, ih (low.2 rfl) less (List.prefix_append ..)⟩

theorem not_isPrefix_of_lt {start a : Bytes} (h : a < start) : ¬ start <+: a := by
  rintro ⟨rest, rfl⟩
  exact List.not_lt.mpr List.le_append_left h

/-- The UTF-8 bytes of a text. -/
def ofString (s : String) : Bytes := s.toUTF8.data.toList

theorem ofString_injective {s t : String} (h : ofString s = ofString t) : s = t := by
  simp only [ofString, String.toUTF8_eq_toByteArray] at h
  exact String.toByteArray_inj.mp (ByteArray.ext (Array.toList_inj.mp h))

/-- A text is read behind fixed bytes. -/
theorem append_ofString_inj {start : Bytes} {s t : String} :
    start ++ ofString s = start ++ ofString t ↔ s = t := by
  constructor
  · exact fun same => ofString_injective (List.append_cancel_left same)
  · rintro rfl
    rfl

/-- The low `width` bytes of `n`, least significant first. -/
def littleEndian : (width n : Nat) → Bytes
  | 0, _ => []
  | width + 1, n => UInt8.ofNat n :: littleEndian width (n / 256)

def ofLittleEndian : Bytes → Nat
  | [] => 0
  | b :: rest => b.toNat + 256 * ofLittleEndian rest

@[simp] theorem length_littleEndian (width n : Nat) : (littleEndian width n).length = width := by
  induction width generalizing n with
  | zero => rfl
  | succ width ih => simp [littleEndian, ih]

/-- How many numbers have `width` bytes. -/
def capacity : (width : Nat) → Nat
  | 0 => 1
  | width + 1 => 256 * capacity width

theorem ofLittleEndian_lt (bs : Bytes) : ofLittleEndian bs < capacity bs.length := by
  induction bs with
  | nil => decide
  | cons b rest ih =>
    have hb := b.toNat_lt
    simp only [ofLittleEndian, List.length_cons, capacity]
    omega

theorem ofLittleEndian_littleEndian {width n : Nat} (h : n < capacity width) :
    ofLittleEndian (littleEndian width n) = n := by
  induction width generalizing n with
  | zero =>
    have hn : n = 0 := Nat.lt_one_iff.mp h
    simp [littleEndian, ofLittleEndian, hn]
  | succ width ih =>
    have hd : n / 256 < capacity width := by
      rw [capacity] at h
      omega
    simp only [littleEndian, ofLittleEndian, ih hd, UInt8.toNat_ofNat']
    omega

@[simp] theorem littleEndian_ofLittleEndian (bs : Bytes) :
    littleEndian bs.length (ofLittleEndian bs) = bs := by
  induction bs with
  | nil => rfl
  | cons b rest ih =>
    have hb := b.toNat_lt
    have hd : (b.toNat + 256 * ofLittleEndian rest) / 256 = ofLittleEndian rest := by omega
    simp only [List.length_cons, ofLittleEndian, littleEndian, hd, ih, List.cons.injEq, and_true]
    apply UInt8.toNat_inj.mp
    simp only [UInt8.toNat_ofNat']
    omega

/-- The low `width` bytes of `n`, most significant first. -/
def bigEndian (width n : Nat) : Bytes := (littleEndian width n).reverse

def ofBigEndian (bs : Bytes) : Nat := ofLittleEndian bs.reverse

@[simp] theorem length_bigEndian (width n : Nat) : (bigEndian width n).length = width := by
  simp [bigEndian]

theorem ofBigEndian_lt (bs : Bytes) : ofBigEndian bs < capacity bs.length := by
  simpa [ofBigEndian] using ofLittleEndian_lt bs.reverse

theorem ofBigEndian_bigEndian {width n : Nat} (h : n < capacity width) :
    ofBigEndian (bigEndian width n) = n := by
  simp [ofBigEndian, bigEndian, ofLittleEndian_littleEndian h]

@[simp] theorem bigEndian_ofBigEndian (bs : Bytes) : bigEndian bs.length (ofBigEndian bs) = bs := by
  have h := littleEndian_ofLittleEndian bs.reverse
  rw [List.length_reverse] at h
  simp [bigEndian, ofBigEndian, h]

end Bytes

end LedgerBridge
