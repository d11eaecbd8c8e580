import LedgerBridge.Abi
import LedgerBridge.Proofs.Results

/-! Reading values inside of the bytes that there are. Offsets and lengths are whatever the caller wrote,
so reading is compared here with a reader of machine words, which has no outcome at all once it takes a
slice that is not there or a sum that does not fit. It always has one, and it is the same. -/
namespace LedgerBridge

namespace Bytes

theorem ofLittleEndian_append (low high : Bytes) :
    ofLittleEndian (low ++ high) = ofLittleEndian low + capacity low.length * ofLittleEndian high := by
  induction low with
  | nil => simp [ofLittleEndian, capacity]
  | cons b rest ih =>
    simp only [List.cons_append, ofLittleEndian, ih, List.length_cons, capacity, Nat.mul_add,
      Nat.mul_assoc, Nat.add_assoc]

theorem ofBigEndian_append (high low : Bytes) :
    ofBigEndian (high ++ low) = ofBigEndian low + capacity low.length * ofBigEndian high := by
  simp [ofBigEndian, ofLittleEndian_append]

theorem ofLittleEndian_eq_zero {bs : Bytes} : ofLittleEndian bs = 0 ↔ ∀ b ∈ bs, b = 0 := by
  induction bs with
  | nil => simp [ofLittleEndian]
  | cons b rest ih =>
    rw [ofLittleEndian, List.forall_mem_cons, ← ih, ← UInt8.toNat_inj, UInt8.toNat_zero]
    omega

theorem ofBigEndian_eq_zero {bs : Bytes} : ofBigEndian bs = 0 ↔ ∀ b ∈ bs, b = 0 := by
  simp [ofBigEndian, ofLittleEndian_eq_zero]

end Bytes

namespace Abi

/-- The head word at a place. -/
def wordAt (data : Bytes) (index : Nat) : Bytes := (data.drop (wordSize * index)).take wordSize

theorem length_wordAt {data : Bytes} {index : Nat} (inside : wordSize * (index + 1) ≤ data.length) :
    (wordAt data index).length = wordSize := by
  rw [wordAt, List.length_take, List.length_drop]
  rw [Nat.mul_add_one] at inside
  omega

/-- A computation that can fail, and that can also come to no outcome. -/
abbrev Checked (ε : Type) := ExceptT ε Option

namespace Checked

/-- The computation comes to that outcome. -/
def Yields (m : Checked ε α) (result : Except ε α) : Prop := m.run = some result

/-- The bytes from `start` up to `stop`, if they are there. -/
def slice (bs : Bytes) (start stop : Nat) : Option Bytes :=
  if start ≤ stop ∧ stop ≤ bs.length then some ((bs.drop start).take (stop - start)) else none

/-- The bytes, if they fill an array of that length. -/
def exactly (length : Nat) (bs : Bytes) : Option Bytes := if bs.length = length then some bs else none

/-- The number, if a machine word holds it. -/
def machine (n : Nat) : Option Nat := if n < UInt64.size then some n else none

/-- A place at most at the end of the data, which a machine word must hold to begin with. -/
def place (data : Bytes) (n : Nat) : Option Nat := (machine n).filter (· ≤ data.length)

/-- The number in a word of at most 256 bits. -/
def number (word : Bytes) : Option Nat :=
  if word.length ≤ 32 then some (Bytes.ofBigEndian word) else none

def readSize (word : Bytes) : Checked Fault Nat := do
  let high ← slice word 0 (wordSize - 8)
  if high.any (· ≠ 0) then throw .numberRange
  let low ← exactly 8 (← slice word (wordSize - 8) word.length)
  return Bytes.ofBigEndian low

def readText (data : Bytes) (offset : Nat) : Checked Fault String := do
  let some start := place data (offset + wordSize) | throw .textOffset
  let n ← readSize (← slice data offset start)
  let some stop := place data (start + n) | throw .textLength
  let content ← slice data start stop
  ExceptT.mk (some ((Utf8.read content).mapError Fault.textBytes))

def readValue (data word : Bytes) : Kind → Checked Fault Value
  | .address => do
    let high ← slice word 0 12
    if high.any (· ≠ 0) then throw .dirtyAddress
    let a ← Address.ofBytes? (← slice word 12 word.length)
    return .address a
  | .uint256 => do
    return .uint (.ofNat 256 (← number word))
  | .uint8 => do
    let n ← number word
    if 255 < n then throw (.uint8Range n)
    return .uint (.ofNat 256 n)
  | .bool => do
    match ← number word with
    | 0 => return .bool false
    | 1 => return .bool true
    | n => throw (.boolRange n)
  | .text => do
    return .text (← readText data (← readSize word))

/-- The value whose head word is at `index`. -/
def readAt (data : Bytes) (index : Nat) (kind : Kind) : Checked DecodeError Value := do
  let start ← machine (index * wordSize)
  let stop ← machine ((← machine (index + 1)) * wordSize)
  let word ← slice data start stop
  (readValue data word kind).adapt fun fault => ⟨index, fault⟩

def decode (kinds : List Kind) (data : Bytes) : Checked DecodeError (List Value) :=
  let available := min (data.length / wordSize) kinds.length
  (kinds.take available).zipIdx.mapM fun (kind, index) => readAt data index kind

variable {ε ε' α β : Type} {m : Checked ε α} {result : Except ε α} {data word bs : Bytes}
  {kind : Kind} {kinds : List Kind} {start stop n : Nat}

theorem Yields.bind {f : α → Checked ε β} {g : α → Except ε β} (first : m.Yields result)
    (rest : ∀ a, result = .ok a → (f a).Yields (g a)) : (m >>= f).Yields (result >>= g) := by
  unfold Yields at *
  rw [ExceptT.run_bind, first]
  cases result with
  | ok a => exact rest a rfl
  | error e => rfl

theorem yields_pure (a : α) : Yields (pure a : Checked ε α) (.ok a) := rfl

theorem yields_throw (e : ε) : Yields (throw e : Checked ε α) (.error e) := rfl

/-- What is there does not stop a computation. -/
theorem Yields.lift {o : Option α} {a : α} {f : α → Checked ε β} {result : Except ε β}
    (there : o = some a) (yields : (f a).Yields result) :
    Yields (liftM o >>= f) result := by
  subst there
  exact yields

theorem Yields.adapt (f : ε → ε') (yields : m.Yields result) :
    Yields (m.adapt f) (result.mapError f) := by
  have whole : m = some result := yields
  subst whole
  rfl

theorem slice_eq_some (ordered : start ≤ stop) (inside : stop ≤ bs.length) :
    slice bs start stop = some ((bs.drop start).take (stop - start)) := if_pos ⟨ordered, inside⟩

theorem slice_low (fits : n ≤ word.length) :
    slice word n word.length = some (word.drop n) := by
  rw [slice_eq_some fits (Nat.le_refl _), List.take_of_length_le (by simp)]

theorem slice_high (fits : n ≤ word.length) : slice word 0 n = some (word.take n) :=
  slice_eq_some (Nat.zero_le _) fits

/-- A test that fails first. -/
theorem Yields.guard {c : Prop} [Decidable c] {e : ε} {f : PUnit → Checked ε α}
    {result : Except ε α} (bad : c → result = .error e) (good : ¬ c → (f ⟨⟩).Yields result) :
    Yields (if c then throw e >>= f else f ⟨⟩) result := by
  by_cases h : c
  · rw [if_pos h, bad h]
    rfl
  · rw [if_neg h]
    exact good h

/-- The high bytes of a word are zero if and only if a machine word holds its number. -/
theorem yields_readSize (whole : word.length = wordSize) :
    (readSize word).Yields (Abi.readSize word) := by
  have eight : (word.drop (wordSize - 8)).length = 8 := by simp [whole, wordSize]
  have parts := Bytes.ofBigEndian_append (word.take (wordSize - 8)) (word.drop (wordSize - 8))
  have low := Bytes.ofBigEndian_lt (word.drop (wordSize - 8))
  have size : Bytes.capacity 8 = UInt64.size := rfl
  rw [List.take_append_drop, eight, size] at parts
  rw [eight, size] at low
  refine .lift (slice_high (by simp [whole])) (.guard (fun dirty => ?_) fun clean => ?_)
  · have high : Bytes.ofBigEndian (word.take (wordSize - 8)) ≠ 0 := by
      simpa [Bytes.ofBigEndian_eq_zero] using dirty
    have more := Nat.mul_le_mul_left UInt64.size (Nat.pos_of_ne_zero high)
    exact if_neg (by omega)
  · have high : Bytes.ofBigEndian (word.take (wordSize - 8)) = 0 := by
      simpa [Bytes.ofBigEndian_eq_zero] using clean
    have same : Abi.readSize word = .ok (Bytes.ofBigEndian (word.drop (wordSize - 8))) := by
      rw [high, Nat.mul_zero, Nat.add_zero] at parts
      simp only [Abi.readSize, parts, if_pos low]
    rw [same]
    exact .lift (slice_low (by simp [whole])) (.lift (if_pos eight) (yields_pure _))

/-- No sum that a machine word cannot hold is a place in the data. -/
theorem place_eq (bound : data.length < UInt64.size) :
    place data n = if data.length < n then none else some n := by
  simp only [place, machine]
  split
  · by_cases beyond : data.length < n
    · simp [Option.filter, beyond]
    · simp [Option.filter, beyond, Nat.le_of_not_lt beyond]
  · rw [if_pos (by omega)]
    rfl

theorem yields_readText (bound : data.length < UInt64.size) (offset : Nat) :
    (readText data offset).Yields (Abi.readText data offset) := by
  unfold readText Abi.readText
  rw [place_eq bound]
  by_cases beyond : data.length < offset + wordSize
  · simp only [if_pos beyond]
    exact yields_throw _
  · simp only [if_neg beyond]
    have whole : ((data.drop offset).take wordSize).length = wordSize := by
      rw [List.length_take, List.length_drop]
      omega
    have there : slice data offset (offset + wordSize) = some ((data.drop offset).take wordSize) := by
      rw [slice_eq_some (by omega) (by omega), Nat.add_sub_cancel_left]
    refine .lift there (.bind (yields_readSize whole) fun n _ => ?_)
    rw [place_eq bound]
    by_cases long : data.length < offset + wordSize + n
    · simp only [if_pos long]
      exact yields_throw _
    · simp only [if_neg long]
      have content : slice data (offset + wordSize) (offset + wordSize + n) =
          some ((data.drop (offset + wordSize)).take n) := by
        rw [slice_eq_some (by omega) (by omega), Nat.add_sub_cancel_left]
      exact .lift content rfl

theorem yields_readValue (bound : data.length < UInt64.size) (whole : word.length = wordSize)
    (kind : Kind) : (readValue data word kind).Yields (Abi.readValue data word kind) := by
  have counted : number word = some (Bytes.ofBigEndian word) := if_pos (by rw [whole]; decide)
  cases kind with
  | address =>
    have twenty : (word.drop 12).length = 20 := by simp [whole, wordSize]
    have taken : Address.ofBytes? (word.drop 12) = some ⟨word.drop 12, twenty⟩ := dif_pos twenty
    refine .lift (slice_high (by simp [whole, wordSize])) (.guard (fun dirty => ?_) fun clean => ?_)
    · have high : ¬ (word.take 12).all (· = 0) = true := by simpa using dirty
      simp only [Abi.readValue, taken, if_neg high]
    · have high : (word.take 12).all (· = 0) = true := by simpa using clean
      simp only [Abi.readValue, taken, if_pos high]
      exact .lift (slice_low (by simp [whole, wordSize])) (.lift taken (yields_pure _))
  | uint256 => exact .lift counted (yields_pure _)
  | uint8 =>
    refine .lift counted (.guard (fun large => ?_) fun small => ?_)
    · exact if_neg (by omega)
    · have fits : Bytes.ofBigEndian word < 256 := by omega
      simp only [Abi.readValue, if_pos fits]
      exact yields_pure _
  | bool =>
    refine .lift counted ?_
    simp only [Abi.readValue]
    cases Bytes.ofBigEndian word with
    | zero => exact yields_pure _
    | succ n =>
      cases n with
      | zero => exact yields_pure _
      | succ n => exact yields_throw _
  | text =>
    exact .bind (yields_readSize whole) fun offset _ =>
      .bind (yields_readText bound offset) fun s _ => yields_pure _

theorem machine_eq_some (small : n < UInt64.size) : machine n = some n := if_pos small

theorem yields_readAt {index : Nat} (bound : data.length < UInt64.size)
    (inside : wordSize * (index + 1) ≤ data.length) (kind : Kind) :
    (readAt data index kind).Yields
      ((Abi.readValue data (wordAt data index) kind).mapError fun fault => ⟨index, fault⟩) := by
  have ordered : wordSize * index ≤ wordSize * (index + 1) :=
    Nat.mul_le_mul_left _ (Nat.le_succ _)
  have start : machine (index * wordSize) = some (wordSize * index) := by
    rw [Nat.mul_comm]
    exact machine_eq_some (by omega)
  have next : machine (index + 1) = some (index + 1) :=
    machine_eq_some (by simp only [wordSize] at inside; omega)
  have stop : machine ((index + 1) * wordSize) = some (wordSize * (index + 1)) := by
    rw [Nat.mul_comm]
    exact machine_eq_some (by omega)
  have taken : slice data (wordSize * index) (wordSize * (index + 1)) = some (wordAt data index) := by
    rw [slice_eq_some ordered inside, Nat.mul_add_one, Nat.add_sub_cancel_left, wordAt]
  have whole : (wordAt data index).length = wordSize := length_wordAt inside
  exact .lift start (.lift next (.lift stop (.lift taken
    ((yields_readValue bound whole kind).adapt _))))

theorem yields_decodeFrom (bound : data.length < UInt64.size) (kinds : List Kind) (index : Nat) :
    Yields (((kinds.take (data.length / wordSize - index)).zipIdx index).mapM
        fun (kind, index) => readAt data index kind)
      (decodeFrom data index (data.drop (wordSize * index)) kinds) := by
  induction kinds generalizing index with
  | nil =>
    rw [List.take_nil, List.zipIdx_nil, List.mapM_nil, decodeFrom]
    exact yields_pure _
  | cons kind kinds ih =>
    rw [decodeFrom, List.length_drop]
    by_cases short : data.length - wordSize * index < wordSize
    · have none_left : data.length / wordSize - index = 0 := by
        simp only [wordSize] at short ⊢
        omega
      rw [none_left, List.take_zero, List.zipIdx_nil, List.mapM_nil, if_pos short]
      exact yields_pure _
    · have left : data.length / wordSize - index = data.length / wordSize - (index + 1) + 1 := by
        simp only [wordSize] at short ⊢
        omega
      have inside : wordSize * (index + 1) ≤ data.length := by
        simp only [wordSize] at short ⊢
        omega
      rw [left, List.take_succ_cons, List.zipIdx_cons, List.mapM_cons, if_neg short, List.drop_drop]
      exact .bind (yields_readAt bound inside kind) fun v _ =>
        .bind (ih (index + 1)) fun values _ => yields_pure _

/-- The reader of machine words comes to an outcome, and to which one. -/
theorem yields_decode (bound : data.length < UInt64.size) (kinds : List Kind) :
    (decode kinds data).Yields (Abi.decode kinds data) := by
  have read := yields_decodeFrom bound kinds 0
  rw [Nat.sub_zero, Nat.mul_zero, List.drop_zero] at read
  have same : kinds.take (min (data.length / wordSize) kinds.length) =
      kinds.take (data.length / wordSize) := by
    rw [← List.take_take, List.take_length]
  rwa [decode, same]

end Checked
end Abi
end LedgerBridge
