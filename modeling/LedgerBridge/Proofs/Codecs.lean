import LedgerBridge.Ledger.Authorization
import LedgerBridge.Proofs.Results

/-! The binary form of a value is read back as that value, and there is no other form that is. The one
limit is that the length of texts and lists has four bytes. -/
namespace LedgerBridge

namespace Codec

/-- Reading and writing undo each other on the values that fit. Only those are written or read. -/
structure Lawful (c : Codec α) (fits : α → Prop) : Prop where
  writable_iff : ∀ a, c.writable a ↔ fits a
  decode_encode : ∀ a rest, fits a → c.decode (c.encode a ++ rest) = .ok (a, rest)
  encode_of_decode : ∀ bs a rest, c.decode bs = .ok (a, rest) → fits a ∧ bs = c.encode a ++ rest

theorem split_eq_ok {n : Nat} {bs front rest : Bytes} :
    split n bs = .ok (front, rest) ↔ front.length = n ∧ bs = front ++ rest := by
  simp only [split]
  split
  · rename_i short
    simp only [reduceCtorEq, false_iff, not_and]
    rintro rfl rfl
    simp only [List.length_append] at short
    omega
  · rename_i enough
    simp only [Except.ok.injEq, Prod.mk.injEq]
    constructor
    · rintro ⟨rfl, rfl⟩
      simp only [List.length_take, List.take_append_drop, and_true]
      omega
    · rintro ⟨rfl, rfl⟩
      simp

/-- Numbers that are written in a fixed count of bytes. -/
theorem lawful_digits {fits : α → Prop} (width : Nat) (value : α → Nat) (make : Nat → α)
    (writable : α → Bool) (writable_iff : ∀ a, writable a ↔ fits a)
    (bound : ∀ a, fits a → value a < Bytes.capacity width)
    (make_value : ∀ a, fits a → make (value a) = a)
    (value_make : ∀ n < Bytes.capacity width, fits (make n) ∧ value (make n) = n) :
    Lawful ⟨fun a => Bytes.littleEndian width (value a), fun bs => do
      let (digits, rest) ← split width bs
      return (make (Bytes.ofLittleEndian digits), rest), writable⟩ fits where
  writable_iff := writable_iff
  decode_encode a rest h := by
    have whole : split width (Bytes.littleEndian width (value a) ++ rest) =
        .ok (Bytes.littleEndian width (value a), rest) := split_eq_ok.mpr (by simp)
    simp [whole, Bytes.ofLittleEndian_littleEndian (bound a h), make_value a h]
  encode_of_decode bs a rest h := by
    simp only [bind_eq_ok, pure_eq_ok, Prod.mk.injEq, Prod.exists] at h
    obtain ⟨digits, after, cut, rfl, rfl⟩ := h
    obtain ⟨rfl, rfl⟩ := split_eq_ok.mp cut
    obtain ⟨fit, value⟩ := value_make _ (Bytes.ofLittleEndian_lt digits)
    exact ⟨fit, by simp only [value, Bytes.littleEndian_ofLittleEndian]⟩

theorem lawful_u64 : u64.Lawful fun _ => True :=
  lawful_digits 8 UInt64.toNat UInt64.ofNat (fun _ => true) (fun _ => by simp)
    (fun n _ => n.toNat_lt) (fun _ _ => UInt64.ofNat_toNat)
    fun _ bound => ⟨trivial, UInt64.toNat_ofNat_of_lt bound⟩

theorem lawful_amount : amount.Lawful fun _ => True :=
  lawful_digits 16 BitVec.toNat (BitVec.ofNat 128) (fun _ => true) (fun _ => by simp)
    (fun n _ => n.isLt)
    (fun n _ => BitVec.ofNat_toNat _ _ ▸ BitVec.setWidth_eq n)
    fun _ bound => ⟨trivial, Nat.mod_eq_of_lt bound⟩

theorem lawful_u8 : u8.Lawful fun _ => True where
  writable_iff _ := by simp [u8]
  decode_encode _ _ _ := rfl
  encode_of_decode bs b rest h := by
    cases bs with
    | nil => cases h
    | cons first others =>
      cases h
      exact ⟨trivial, rfl⟩

theorem lawful_bool : bool.Lawful fun _ => True where
  writable_iff _ := by simp [bool]
  decode_encode b _ _ := by cases b <;> rfl
  encode_of_decode bs b rest h := by
    simp only [bool] at h
    split at h
    · cases h
    · rename_i tag after
      split at h
      · rename_i zero
        cases h
        exact ⟨trivial, by simp [zero, bool]⟩
      · split at h
        · rename_i one
          cases h
          exact ⟨trivial, by simp [one, bool]⟩
        · cases h

theorem lawful_address : address.Lawful fun _ => True where
  writable_iff _ := by simp [address]
  decode_encode a rest _ := by
    have enough : ¬ (a.bytes ++ rest).length < 20 := by simp [a.length_eq]
    simp only [address, dif_neg enough, Except.ok.injEq, Prod.mk.injEq]
    constructor
    · exact Address.ext (List.take_left' a.length_eq)
    · exact List.drop_left' a.length_eq
  encode_of_decode bs a rest h := by
    simp only [address] at h
    split at h
    · cases h
    · cases h
      exact ⟨trivial, (List.take_append_drop 20 bs).symm⟩

theorem lawful_length :
    Lawful ⟨lengthBytes, decodeLength, (· < Bytes.capacity 4)⟩ (· < Bytes.capacity 4) :=
  lawful_digits 4 id id (· < Bytes.capacity 4) (fun _ => decide_eq_true_iff) (fun _ h => h)
    (fun _ _ => rfl) fun _ bound => ⟨bound, rfl⟩

variable {c : Codec α} {d : Codec β} {fits : α → Prop} {fits' : β → Prop}

theorem Lawful.map (law : c.Lawful fits) {read : α → β} {write : β → α}
    (read_write : ∀ b, read (write b) = b) (write_read : ∀ a, write (read a) = a) :
    (c.map read write).Lawful fun b => fits (write b) where
  writable_iff b := law.writable_iff (write b)
  decode_encode b rest h := by
    simp [Codec.map, law.decode_encode (write b) rest h, read_write]
  encode_of_decode bs b rest h := by
    simp only [Codec.map, bind_eq_ok, pure_eq_ok, Prod.mk.injEq, Prod.exists] at h
    obtain ⟨a, after, got, rfl, rfl⟩ := h
    simpa only [Codec.map, write_read] using law.encode_of_decode bs a after got

theorem Lawful.pair (law : c.Lawful fits) (law' : d.Lawful fits') :
    (c.pair d).Lawful fun p => fits p.1 ∧ fits' p.2 where
  writable_iff p := by simp [Codec.pair, law.writable_iff, law'.writable_iff]
  decode_encode p rest h := by
    simp [Codec.pair, law.decode_encode _ _ h.1, law'.decode_encode _ _ h.2]
  encode_of_decode bs p rest h := by
    simp only [Codec.pair, bind_eq_ok, pure_eq_ok, Prod.mk.injEq, Prod.exists] at h
    obtain ⟨a, middle, first, b, after, second, rfl, rfl⟩ := h
    obtain ⟨fit, rfl⟩ := law.encode_of_decode _ _ _ first
    obtain ⟨fit', rfl⟩ := law'.encode_of_decode _ _ _ second
    exact ⟨⟨fit, fit'⟩, by simp [Codec.pair]⟩

theorem Lawful.option (law : c.Lawful fits) :
    (Codec.option c).Lawful fun o => ∀ a, o = some a → fits a where
  writable_iff o := by cases o <;> simp [Codec.option, law.writable_iff]
  decode_encode o rest h := by
    cases o with
    | none => simp [Codec.option]
    | some a => simp [Codec.option, law.decode_encode a rest (h a rfl)]
  encode_of_decode bs o rest h := by
    simp only [Codec.option] at h
    split at h
    · cases h
    · rename_i tag after
      split at h
      · rename_i absent
        cases h
        exact ⟨nofun, by simp [absent, Codec.option]⟩
      · split at h
        · rename_i present
          simp only [bind_eq_ok, pure_eq_ok, Prod.mk.injEq, Prod.exists] at h
          obtain ⟨a, after, got, rfl, rfl⟩ := h
          obtain ⟨fit, rfl⟩ := law.encode_of_decode _ _ _ got
          exact ⟨fun _ same => Option.some.inj same ▸ fit, by simp [present, Codec.option]⟩
        · cases h

theorem Lawful.either (law : c.Lawful fits) (law' : d.Lawful fits') :
    (Codec.either c d).Lawful (Sum.elim fits fits') where
  writable_iff
    | .inl a => law.writable_iff a
    | .inr b => law'.writable_iff b
  decode_encode x rest h := by
    cases x with
    | inl a => simp [Codec.either, law.decode_encode a rest h]
    | inr b => simp [Codec.either, law'.decode_encode b rest h]
  encode_of_decode bs x rest h := by
    simp only [Codec.either] at h
    split at h
    · cases h
    · rename_i tag after
      split at h
      · rename_i first
        simp only [bind_eq_ok, pure_eq_ok, Prod.mk.injEq, Prod.exists] at h
        obtain ⟨a, after, got, rfl, rfl⟩ := h
        obtain ⟨fit, rfl⟩ := law.encode_of_decode _ _ _ got
        exact ⟨fit, by simp [first, Codec.either]⟩
      · split at h
        · rename_i second
          simp only [bind_eq_ok, pure_eq_ok, Prod.mk.injEq, Prod.exists] at h
          obtain ⟨b, after, got, rfl, rfl⟩ := h
          obtain ⟨fit, rfl⟩ := law'.encode_of_decode _ _ _ got
          exact ⟨fit, by simp [second, Codec.either]⟩
        · cases h

theorem lawful_string :
    string.Lawful fun s => (Bytes.ofString s).length < Bytes.capacity 4 where
  writable_iff _ := decide_eq_true_iff
  decode_encode s rest h := by
    have length := lawful_length.decode_encode _ (Bytes.ofString s ++ rest) h
    have content : split (Bytes.ofString s).length (Bytes.ofString s ++ rest) =
        .ok (Bytes.ofString s, rest) := split_eq_ok.mpr ⟨rfl, rfl⟩
    simp only at length
    simp [string, length, content]
  encode_of_decode bs s rest h := by
    simp only [string, bind_eq_ok, Prod.exists] at h
    obtain ⟨n, after, counted, content, last, cut, h⟩ := h
    obtain ⟨bound, rfl⟩ := lawful_length.encode_of_decode _ _ _ counted
    obtain ⟨rfl, rfl⟩ := split_eq_ok.mp cut
    split at h
    · rename_i s' valid
      cases h
      cases Utf8.read_eq_ok_iff.mp valid
      exact ⟨bound, by simp [string]⟩
    · cases h

theorem decodeItems_encode (law : c.Lawful fits) (items : List α) (rest : Bytes)
    (h : ∀ a ∈ items, fits a) :
    decodeItems c items.length (items.flatMap c.encode ++ rest) = .ok (items, rest) := by
  induction items with
  | nil => rfl
  | cons a items ih =>
    have head := law.decode_encode a (items.flatMap c.encode ++ rest) (h a List.mem_cons_self)
    have tail := ih fun b member => h b (List.mem_cons_of_mem _ member)
    simp [decodeItems, head, tail]

theorem encode_of_decodeItems (law : c.Lawful fits) (count : Nat) (bs : Bytes) (items : List α)
    (rest : Bytes) (h : decodeItems c count bs = .ok (items, rest)) :
    items.length = count ∧ (∀ a ∈ items, fits a) ∧ bs = items.flatMap c.encode ++ rest := by
  induction count generalizing bs items with
  | zero => cases h; simp
  | succ count ih =>
    simp only [decodeItems, bind_eq_ok, pure_eq_ok, Prod.mk.injEq, Prod.exists] at h
    obtain ⟨a, middle, first, others, after, more, rfl, rfl⟩ := h
    obtain ⟨fit, rfl⟩ := law.encode_of_decode _ _ _ first
    obtain ⟨length, fits, rfl⟩ := ih _ _ more
    exact ⟨congrArg (· + 1) length, List.forall_mem_cons.mpr ⟨fit, fits⟩, by simp⟩

theorem Lawful.list (law : c.Lawful fits) :
    (Codec.list c).Lawful fun items =>
      items.length < Bytes.capacity 4 ∧ ∀ a ∈ items, fits a where
  writable_iff items := by simp [Codec.list, law.writable_iff]
  decode_encode items rest h := by
    have length := lawful_length.decode_encode _ (items.flatMap c.encode ++ rest) h.1
    simp only at length
    simp [Codec.list, length, decodeItems_encode law items rest h.2]
  encode_of_decode bs items rest h := by
    simp only [Codec.list, bind_eq_ok, Prod.exists] at h
    obtain ⟨n, after, counted, h⟩ := h
    obtain ⟨bound, rfl⟩ := lawful_length.encode_of_decode _ _ _ counted
    obtain ⟨rfl, fits, rfl⟩ := encode_of_decodeItems law _ _ _ _ h
    exact ⟨⟨bound, fits⟩, by simp [Codec.list]⟩

/-- A value that takes up all of the bytes. -/
theorem Lawful.decodeAll_encode (law : c.Lawful fits) {a : α} (h : fits a) :
    c.decodeAll (c.encode a) = .ok a := by
  have whole := law.decode_encode a [] h
  rw [List.append_nil] at whole
  simp [decodeAll, whole]

/-- Nothing is read to the end but what is written for a value that fits. -/
theorem Lawful.decodeAll_eq_ok_iff (law : c.Lawful fits) {bs : Bytes} {a : α} :
    c.decodeAll bs = .ok a ↔ fits a ∧ c.encode a = bs := by
  constructor
  · intro h
    simp only [decodeAll] at h
    split at h
    · cases h
    · rename_i got
      cases h
      obtain ⟨fit, whole⟩ := law.encode_of_decode _ _ _ got
      rw [List.append_nil] at whole
      exact ⟨fit, whole.symm⟩
    · cases h
  · rintro ⟨fit, rfl⟩
    exact law.decodeAll_encode fit

theorem Lawful.fits_of_decodeAll (law : c.Lawful fits) {bs : Bytes} {a : α}
    (h : c.decodeAll bs = .ok a) : fits a := (law.decodeAll_eq_ok_iff.mp h).1

/-- What follows a value is not read over. -/
theorem Lawful.decodeAll_encode_append (law : c.Lawful fits) {a : α} (h : fits a) {extra : Bytes}
    (more : extra ≠ []) : c.decodeAll (c.encode a ++ extra) = .error .leftOver := by
  obtain ⟨b, rest, rfl⟩ := List.exists_cons_of_ne_nil more
  simp [decodeAll, law.decode_encode a (b :: rest) h]

/-- Ill-formed text is refused, wherever it stands. -/
theorem string_decode_of_text?_eq_none {content : Bytes} (bound : content.length < Bytes.capacity 4)
    (illFormed : Utf8.text? content = none) (rest : Bytes) :
    string.decode (lengthBytes content.length ++ content ++ rest) =
      .error (.badText (Utf8.fault content)) := by
  have length := lawful_length.decode_encode _ (content ++ rest) bound
  have cut : split content.length (content ++ rest) = .ok (content, rest) :=
    split_eq_ok.mpr ⟨rfl, rfl⟩
  simp only at length
  simp [string, length, cut, Utf8.read, illFormed]

theorem Lawful.congr {fits fits' : α → Prop} (law : c.Lawful fits)
    (same : ∀ a, fits a ↔ fits' a) : c.Lawful fits' where
  writable_iff a := (law.writable_iff a).trans (same a)
  decode_encode a rest h := law.decode_encode a rest ((same a).mpr h)
  encode_of_decode bs a rest h := (law.encode_of_decode bs a rest h).imp_left (same a).mp

end Codec

/-! What fits of a grant: all its texts and lists have lengths of four bytes. -/

/-- Texts whose length has four bytes. -/
def Text.Fits (s : String) : Prop := (Bytes.ofString s).length < Bytes.capacity 4

/-- Lists whose length has four bytes, of members that fit. -/
def FitsAll (fits : α → Prop) (items : List α) : Prop :=
  items.length < Bytes.capacity 4 ∧ ∀ a ∈ items, fits a

def Coin.Fits (c : Coin) : Prop := Text.Fits c.denom

def Limits.Fits (limits : Limits) : Prop := FitsAll Coin.Fits limits

def Allocation.Fits (a : Allocation) : Prop :=
  Text.Fits a.port ∧ Text.Fits a.channel ∧ a.limits.Fits ∧ FitsAll Text.Fits a.receivers

def Authorization.Fits : Authorization → Prop
  | send limits => limits.Fits
  | transfer allocations => FitsAll Allocation.Fits allocations

theorem Coin.lawful_codec : Coin.codec.Lawful Coin.Fits :=
  ((Codec.lawful_string.pair Codec.lawful_amount).map (fun _ => rfl) fun _ => rfl).congr
    fun _ => and_iff_left trivial

theorem Allocation.lawful_codec : Allocation.codec.Lawful Allocation.Fits :=
  (Codec.lawful_string.pair (Codec.lawful_string.pair (Coin.lawful_codec.list.pair
    Codec.lawful_string.list))).map (fun _ => rfl) fun _ => rfl

theorem Authorization.lawful_codec : Authorization.codec.Lawful Authorization.Fits := by
  refine ((Coin.lawful_codec.list.either Allocation.lawful_codec.list).map ?_ ?_).congr ?_
  · intro a
    cases a <;> rfl
  · intro x
    cases x <;> rfl
  · intro a
    cases a <;> rfl

theorem Grant.lawful_codec : Grant.codec.Lawful fun g => g.authorization.Fits :=
  ((Authorization.lawful_codec.pair Codec.lawful_u64.option).map (fun _ => rfl)
    fun _ => rfl).congr fun _ => and_iff_left fun _ _ => trivial

end LedgerBridge
