import LedgerBridge.Abi
import LedgerBridge.Proofs.Results
import Mathlib.Data.List.Forall2

/-! Values read back from the words and tails that they are written as. The head word of a text says
where its tail is, which depends on the tails before it; so what is carried along the head is that the
tails of the values still to come begin at the current offset. -/
namespace LedgerBridge.Abi

/-- The value may stand in a place of the kind. -/
def Kind.admits : Kind → Value → Bool
  | address, .address _ => true
  | uint256, .uint _ => true
  | uint8, .uint n => n.toNat < 256
  | bool, .bool _ => true
  | text, .text _ => true
  | _, _ => false

/-- Values of these kinds, place by place. -/
abbrev Conform (kinds : List Kind) (values : List Value) : Prop :=
  List.Forall₂ (fun kind v => kind.admits v) kinds values

theorem uint64_size_le_capacity : UInt64.size ≤ Bytes.capacity wordSize := by decide

@[simp] theorem length_word (n : Nat) : (word n).length = wordSize := Bytes.length_bigEndian _ _

theorem ofBigEndian_word {n : Nat} (h : n < Bytes.capacity wordSize) :
    Bytes.ofBigEndian (word n) = n := Bytes.ofBigEndian_bigEndian h

@[simp] theorem ofBigEndian_word_toNat (n : Word) : Bytes.ofBigEndian (word n.toNat) = n.toNat :=
  ofBigEndian_word n.isLt

@[simp] theorem length_head (offset : Nat) (v : Value) : (head offset v).length = wordSize := by
  cases v with
  | address a => simp [head, addressTopic, a.length_eq, wordSize]
  | uint | bool | text => simp [head]

@[simp] theorem length_heads (offset : Nat) (values : List Value) :
    (heads offset values).length = wordSize * values.length := by
  induction values generalizing offset with
  | nil => rfl
  | cons v rest ih =>
    simp only [heads, List.length_append, length_head, ih, List.length_cons, Nat.mul_add_one]
    omega

theorem readSize_word {n : Nat} (h : n < UInt64.size) : readSize (word n) = .ok n := by
  have same := ofBigEndian_word (Nat.lt_of_lt_of_le h uint64_size_le_capacity)
  simp [readSize, same, h]

variable {data more : Bytes} {offset : Nat}

/-- A text is read where its tail is. -/
theorem readText_of_drop_eq {s : String} (bound : data.length < UInt64.size)
    (inside : offset ≤ data.length) (there : data.drop offset = tail (.text s) ++ more) :
    readText data offset = .ok s := by
  have length := congrArg List.length there
  simp only [List.length_drop, tail, List.length_append, length_word] at length
  have counted : (data.drop offset).take wordSize = word (Bytes.ofString s).length := by
    rw [there, tail, List.append_assoc, List.append_assoc]
    exact List.take_left' (length_word _)
  have content : (data.drop (offset + wordSize)).take (Bytes.ofString s).length =
      Bytes.ofString s := by
    rw [← List.drop_drop, there, tail, List.append_assoc, List.append_assoc,
      List.drop_left' (length_word _)]
    exact List.take_left' rfl
  have size : readSize (word (Bytes.ofString s).length) = .ok (Bytes.ofString s).length :=
    readSize_word (by omega)
  have begins : ¬ data.length < offset + wordSize := by omega
  have ends : ¬ data.length < offset + wordSize + (Bytes.ofString s).length := by omega
  simp [readText, begins, ends, counted, size, content]

/-- A value is read from its head word if its tail is where the word says. -/
theorem readValue_head {kind : Kind} {v : Value} (admits : kind.admits v)
    (bound : data.length < UInt64.size) (inside : offset ≤ data.length)
    (there : data.drop offset = tail v ++ more) :
    readValue data (head offset v) kind = .ok v := by
  cases kind <;> cases v <;> simp only [Kind.admits, Bool.false_eq_true] at admits
  case address.address a =>
    simp [readValue, head, addressTopic]
  case uint256.uint n => simp [readValue, head]
  case uint8.uint n =>
    have small : n.toNat < 256 := by simpa using admits
    simp [readValue, head, small]
  case bool.bool b => cases b <;> rfl
  case text.text s =>
    have size : readSize (word offset) = .ok offset := readSize_word (by omega)
    simp [readValue, head, size, readText_of_drop_eq bound inside there, pure, Except.pure]

theorem decodeFrom_heads {kinds : List Kind} {values : List Value} (conform : Conform kinds values)
    (bound : data.length < UInt64.size) (inside : offset ≤ data.length)
    (there : data.drop offset = values.flatMap tail ++ more) (index : Nat) (rest : Bytes) :
    decodeFrom data index (heads offset values ++ rest) kinds = .ok values := by
  induction conform generalizing offset index with
  | nil => rfl
  | @cons kind v kinds values admits _ ih =>
    -- Behind this value's tail begin those of the others, where their offset will point.
    rw [List.flatMap_cons, List.append_assoc] at there
    have length := congrArg List.length there
    simp only [List.length_drop, List.length_append] at length
    have value : readValue data (head offset v) kind = .ok v :=
      readValue_head admits bound inside there
    have next : data.drop (offset + (tail v).length) = values.flatMap tail ++ more := by
      rw [← List.drop_drop, there]
      exact List.drop_left' rfl
    have others := ih (by omega) next (index + 1)
    have whole : ¬ (head offset v ++ (heads (offset + (tail v).length) values ++ rest)).length <
        wordSize := by
      rw [List.length_append, length_head]
      omega
    rw [heads, List.append_assoc, decodeFrom, if_neg whole, List.take_left' (length_head _ _),
      List.drop_left' (length_head _ _), value, others]
    rfl

theorem decode_encode_append {kinds : List Kind} {values : List Value}
    (conform : Conform kinds values) (extra : Bytes)
    (bound : (encode values ++ extra).length < UInt64.size) :
    decode kinds (encode values ++ extra) = .ok values := by
  have there : (encode values ++ extra).drop (wordSize * values.length) =
      values.flatMap tail ++ extra := by
    rw [encode, List.append_assoc]
    exact List.drop_left' (length_heads _ _)
  have inside : wordSize * values.length ≤ (encode values ++ extra).length := by
    simp only [encode, List.length_append, length_heads]
    omega
  have read := decodeFrom_heads conform bound inside there 0 (values.flatMap tail ++ extra)
  rw [← List.append_assoc] at read
  exact read

/-- Whatever is read may stand in its place. -/
theorem admits_of_readValue {word : Bytes} {kind : Kind} {v : Value}
    (h : readValue data word kind = .ok v) : kind.admits v := by
  cases kind <;> simp only [readValue] at h
  case address =>
    split at h
    · split at h
      · cases h
        rfl
      · cases h
    · cases h
  case uint256 =>
    cases h
    rfl
  case uint8 =>
    split at h
    · rename_i small
      cases h
      simp only [Kind.admits, decide_eq_true_eq, BitVec.toNat_ofNat]
      omega
    · cases h
  case bool =>
    split at h
    · cases h
      rfl
    · cases h
      rfl
    · cases h
  case text =>
    simp only [bind_eq_ok, pure_eq_ok] at h
    obtain ⟨_, -, s, -, rfl⟩ := h
    rfl

theorem conform_of_decodeFrom {index : Nat} {rest : Bytes} {kinds : List Kind} {values : List Value}
    (h : decodeFrom data index rest kinds = .ok values) :
    Conform (kinds.take values.length) values := by
  induction kinds generalizing index rest values with
  | nil =>
    cases h
    exact .nil
  | cons kind kinds ih =>
    simp only [decodeFrom] at h
    split at h
    · cases h
      exact .nil
    · simp only [bind_eq_ok, mapError_eq_ok, pure_eq_ok] at h
      obtain ⟨v, read, others, more, rfl⟩ := h
      exact .cons (admits_of_readValue read) (ih more)

/-- Values that are written are read back, whatever follows them, as long as a machine word holds the
length of it all. So values of the same kinds are told apart by their bytes; and values that were read,
one for each kind, are read again from the bytes that are written for them. -/
theorem decode_encode_inverse (kinds : List Kind) :
    (∀ values extra, Conform kinds values → (encode values ++ extra).length < UInt64.size →
      decode kinds (encode values ++ extra) = .ok values) ∧
    (∀ values others, Conform kinds values → Conform kinds others →
      (encode values).length < UInt64.size → encode values = encode others → values = others) ∧
    ∀ data values, decode kinds data = .ok values → values.length = kinds.length →
      Conform kinds values ∧
        ((encode values).length < UInt64.size → decode kinds (encode values) = .ok values) := by
  have again (values : List Value) (conform : Conform kinds values)
      (bound : (encode values).length < UInt64.size) :
      decode kinds (encode values) = .ok values := by
    have read := decode_encode_append conform [] (by rwa [List.append_nil])
    rwa [List.append_nil] at read
  refine ⟨fun values extra conform bound => ?_, fun values others conform conform' bound same => ?_,
    fun data values read complete => ?_⟩
  · exact decode_encode_append conform extra bound
  · have first := again values conform bound
    rw [same] at bound first
    exact Except.ok.inj (first.symm.trans (again others conform' bound))
  · have conform := conform_of_decodeFrom read
    rw [complete, List.take_length] at conform
    exact ⟨conform, again values conform⟩

/-- An empty text and one of two words among other values, with a byte behind them; and two texts that
were read from one tail. -/
theorem decode_encode_of_texts :
    let kinds := [Kind.address, .text, .uint8, .bool, .text]
    let values : List Value := [.address ⟨List.replicate 20 0x11, rfl⟩, .text "", .uint 18, .bool true,
      .text "a text that does not fit into one word"]
    let shared := word 64 ++ word 64 ++ tail (.text "hi")
    Conform kinds values ∧ (encode values ++ [0xFF]).length < UInt64.size ∧
      decode kinds (encode values ++ [0xFF]) = .ok values ∧
      decode [.text, .text] shared = .ok [.text "hi", .text "hi"] ∧
      encode [.text "hi", .text "hi"] ≠ shared ∧
      decode [.text, .text] (encode [.text "hi", .text "hi"]) = .ok [.text "hi", .text "hi"] := by
  intro kinds values shared
  have conform : Conform kinds values :=
    .cons rfl (.cons rfl (.cons rfl (.cons rfl (.cons rfl .nil))))
  have bound : (encode values ++ [0xFF]).length < UInt64.size := by decide +kernel
  have read : decode [.text, .text] shared = .ok [.text "hi", .text "hi"] := by decide +kernel
  have written := (decode_encode_inverse kinds).1 values [0xFF] conform bound
  have again := ((decode_encode_inverse [.text, .text]).2.2 shared _ read rfl).2 (by decide +kernel)
  exact ⟨conform, bound, written, read, by decide +kernel, again⟩

end LedgerBridge.Abi
