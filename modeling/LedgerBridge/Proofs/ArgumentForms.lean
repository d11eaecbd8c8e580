import LedgerBridge.Precompile.Error
import LedgerBridge.Proofs.CheckedReading
import Mathlib.Algebra.Group.Nat.Defs
import Mathlib.Control.Monad.Basic

/-! Which bytes can be read as values of given kinds, and what is said of those that cannot. Words are
looked at in their order, each for itself: the tails of texts may lie anywhere in the data, in the head
or in each other too. -/
namespace LedgerBridge.Abi

/-- The value that a word stands for, where the data hold the tails of texts. -/
inductive StandsFor (data word : Bytes) : Kind → Value → Prop
  | address (a : Address) (clean : word = List.replicate 12 0 ++ a.bytes) :
    StandsFor data word .address (.address a)
  | uint256 (n : Word) (value : Bytes.ofBigEndian word = n.toNat) :
    StandsFor data word .uint256 (.uint n)
  | uint8 (n : Word) (value : Bytes.ofBigEndian word = n.toNat) (small : n.toNat < 256) :
    StandsFor data word .uint8 (.uint n)
  | bool (b : Bool) (value : Bytes.ofBigEndian word = b.toNat) :
    StandsFor data word .bool (.bool b)
  | text (s : String) (offset n : Nat) (begins : Bytes.ofBigEndian word = offset)
      (place : offset < UInt64.size) (inside : offset + wordSize ≤ data.length)
      (counts : Bytes.ofBigEndian ((data.drop offset).take wordSize) = n)
      (size : n < UInt64.size) (ends : offset + wordSize + n ≤ data.length)
      (content : (data.drop (offset + wordSize)).take n = Bytes.ofString s) :
    StandsFor data word .text (.text s)

/-- As many values as there are kinds and whole words for. -/
def given (kinds : List Kind) (data : Bytes) : Nat := min kinds.length (data.length / wordSize)

/-- The word at a place stands for a value of the kind that is due there. -/
def Acceptable (kinds : List Kind) (data : Bytes) (i : Nat) : Prop :=
  ∃ kind v, kinds[i]? = some kind ∧ StandsFor data (wordAt data i) kind v

/-- Values for the words from `index` on. -/
structure ReadFrom (kinds : List Kind) (data : Bytes) (index : Nat) (values : List Value) : Prop where
  length : index + values.length = given kinds data
  stands : ∀ i v, values[i]? = some v →
    ∃ kind, kinds[index + i]? = some kind ∧ StandsFor data (wordAt data (index + i)) kind v

/-- The first word from `index` on that stands for no value. -/
structure FaultFrom (kinds : List Kind) (data : Bytes) (index : Nat) (e : DecodeError) : Prop where
  inside : index ≤ e.index ∧ e.index < given kinds data
  before : ∀ i, index ≤ i → i < e.index → Acceptable kinds data i
  fault : ∃ kind, kinds[e.index]? = some kind ∧
    readValue data (wordAt data e.index) kind = .error e.fault

/-- What is said of the first word that stands for no value of the kind that is due. -/
structure RefusedAt (kinds : List Kind) (data : Bytes) (e : DecodeError) : Prop where
  inside : e.index < given kinds data
  before : ∀ i < e.index, Acceptable kinds data i
  unacceptable : ¬ Acceptable kinds data e.index
  address : kinds[e.index]? = some .address → Refusal.ofDecode e =
    .invalid s!"invalid address encoding for argument {e.index}: non-zero high bytes"
  other : kinds[e.index]? ≠ some .address →
    ∃ reason, Refusal.ofDecode e = .badArgument s!"argument {e.index}" reason
  class_eq : (Refusal.ofDecode e).errorClass =
    if kinds[e.index]? = some .address then .validation else .argument

section

variable {data word : Bytes} {kind : Kind} {kinds rest : List Kind} {v : Value} {values : List Value}
  {fault : Fault} {e : DecodeError} {index offset n : Nat} {s : String}

theorem readSize_eq_ok_iff :
    readSize word = .ok n ↔ Bytes.ofBigEndian word = n ∧ n < UInt64.size := by
  simp only [readSize]
  split
  · constructor
    · rintro ⟨⟩
      exact ⟨rfl, ‹_›⟩
    · rintro ⟨rfl, -⟩
      rfl
  · constructor
    · rintro ⟨⟩
    · rintro ⟨rfl, small⟩
      exact absurd small ‹_›

theorem readText_eq_ok_iff :
    readText data offset = .ok s ↔ offset + wordSize ≤ data.length ∧
      ∃ n, (Bytes.ofBigEndian ((data.drop offset).take wordSize) = n ∧ n < UInt64.size) ∧
        offset + wordSize + n ≤ data.length ∧
        (data.drop (offset + wordSize)).take n = Bytes.ofString s := by
  simp only [readText]
  by_cases beyond : data.length < offset + wordSize
  · simp only [if_pos beyond, error_bind, reduceCtorEq, false_iff, not_and]
    exact fun inside => absurd beyond (Nat.not_lt.mpr inside)
  · rw [if_neg beyond, bind_eq_ok, and_iff_right (Nat.le_of_not_lt beyond)]
    refine exists_congr fun n => ?_
    rw [readSize_eq_ok_iff]
    refine and_congr_right fun _ => ?_
    by_cases long : data.length < offset + wordSize + n
    · simp only [if_pos long, error_bind, reduceCtorEq, false_iff, not_and]
      exact fun inside => absurd long (Nat.not_lt.mpr inside)
    · rw [if_neg long, and_iff_right (Nat.le_of_not_lt long), mapError_eq_ok, Utf8.read_eq_ok_iff,
        eq_comm]

/-- Twenty bytes are left of a word behind its padding. -/
theorem readAddress_eq (data : Bytes) (whole : word.length = wordSize) :
    ∃ a : Address, a.bytes = word.drop 12 ∧ readValue data word .address =
      if word.take 12 = List.replicate 12 0 then .ok (.address a) else .error .dirtyAddress := by
  have twenty : (word.drop 12).length = 20 := by simp [whole, wordSize]
  have taken : Address.ofBytes? (word.drop 12) = some ⟨word.drop 12, twenty⟩ := dif_pos twenty
  have padded : word.take 12 = List.replicate 12 0 ↔ (word.take 12).all (· = 0) = true := by
    rw [List.eq_replicate_iff]
    simp [whole, wordSize]
  refine ⟨⟨word.drop 12, twenty⟩, rfl, ?_⟩
  simp only [readValue, taken, padded]

theorem readAddress_eq_ok_iff (whole : word.length = wordSize) :
    readValue data word .address = .ok v ↔
      ∃ a : Address, word = List.replicate 12 0 ++ a.bytes ∧ v = .address a := by
  obtain ⟨a, rest, read⟩ := readAddress_eq data whole
  rw [read]
  constructor
  · intro h
    split at h
    · rename_i padded
      cases h
      exact ⟨a, by rw [rest, ← padded, List.take_append_drop], rfl⟩
    · cases h
  · rintro ⟨b, rfl, rfl⟩
    have same : a = b := Address.ext rest
    rw [if_pos (List.take_left' List.length_replicate), same]

theorem readValue_eq_ok_iff (whole : word.length = wordSize) :
    readValue data word kind = .ok v ↔ StandsFor data word kind v := by
  have range := Bytes.ofBigEndian_lt word
  rw [whole, show Bytes.capacity wordSize = 2 ^ 256 by rfl] at range
  have same : (BitVec.ofNat 256 (Bytes.ofBigEndian word)).toNat = Bytes.ofBigEndian word := by
    rw [BitVec.toNat_ofNat, Nat.mod_eq_of_lt range]
  constructor
  · intro read
    cases kind with
    | address =>
      obtain ⟨a, clean, rfl⟩ := (readAddress_eq_ok_iff whole).mp read
      exact .address a clean
    | uint256 =>
      cases read
      exact .uint256 _ same.symm
    | uint8 =>
      simp only [readValue] at read
      split at read
      · rename_i small
        cases read
        exact .uint8 _ same.symm (same.symm ▸ small)
      · cases read
    | bool =>
      simp only [readValue] at read
      split at read
      · rename_i zero
        cases read
        exact .bool false zero
      · rename_i one
        cases read
        exact .bool true one
      · cases read
    | text =>
      simp only [readValue, bind_eq_ok, pure_eq_ok] at read
      obtain ⟨offset, place, s, text, rfl⟩ := read
      obtain ⟨begins, place⟩ := readSize_eq_ok_iff.mp place
      obtain ⟨inside, n, ⟨counts, size⟩, ends, content⟩ := readText_eq_ok_iff.mp text
      exact .text s offset n begins place inside counts size ends content
  · intro stands
    cases stands with
    | address a clean => exact (readAddress_eq_ok_iff whole).mpr ⟨a, clean, rfl⟩
    | uint256 n value => simp [readValue, value]
    | uint8 n value small => simp [readValue, value, small]
    | bool b value => cases b <;> simp [readValue, value]
    | text s offset n begins place inside counts size ends content =>
      have there := readSize_eq_ok_iff.mpr ⟨begins, place⟩
      have text := readText_eq_ok_iff.mpr ⟨inside, n, ⟨counts, size⟩, ends, content⟩
      simp only [readValue, there, text, ok_bind]
      rfl

theorem readSize_ne_dirtyAddress : readSize word ≠ .error .dirtyAddress := by
  simp only [readSize]
  split <;> rintro ⟨⟩

theorem readText_ne_dirtyAddress : readText data offset ≠ .error .dirtyAddress := by
  simp only [readText]
  intro h
  split at h
  · cases h
  · cases size : readSize ((data.drop offset).take wordSize) with
    | error fault =>
      rw [size, error_bind] at h
      cases h
      exact readSize_ne_dirtyAddress size
    | ok n =>
      rw [size, ok_bind] at h
      split at h
      · cases h
      · cases read : Utf8.read ((data.drop (offset + wordSize)).take n) with
        | error => rw [read] at h; cases h
        | ok => rw [read] at h; cases h

/-- Only an address can be faulty for what it is padded with, and for nothing else. -/
theorem fault_eq_dirtyAddress_iff (whole : word.length = wordSize)
    (h : readValue data word kind = .error fault) : fault = .dirtyAddress ↔ kind = .address := by
  cases kind with
  | address =>
    obtain ⟨a, -, read⟩ := readAddress_eq data whole
    rw [read] at h
    split at h <;> cases h
    simp
  | uint256 => cases h
  | uint8 =>
    simp only [readValue] at h
    split at h <;> cases h
    simp
  | bool =>
    simp only [readValue] at h
    split at h <;> cases h
    simp
  | text =>
    simp only [reduceCtorEq, iff_false]
    rintro rfl
    simp only [readValue] at h
    cases size : readSize word with
    | error =>
      rw [size, error_bind] at h
      cases h
      exact readSize_ne_dirtyAddress size
    | ok offset =>
      rw [size, ok_bind, bind_pure_eq_error] at h
      exact readText_ne_dirtyAddress h

theorem StandsFor.unique {u v : Value} (whole : word.length = wordSize)
    (first : StandsFor data word kind u) (second : StandsFor data word kind v) : u = v := by
  rw [← readValue_eq_ok_iff whole] at first second
  exact Except.ok.inj (first.symm.trans second)

theorem lt_given (due : kinds[index]? = some kind) (inside : wordSize * (index + 1) ≤ data.length) :
    index < given kinds data := by
  obtain ⟨there, -⟩ := List.getElem?_eq_some_iff.mp due
  simp only [given, wordSize] at *
  omega

theorem whole_of_lt_given (h : index < given kinds data) :
    wordSize * (index + 1) ≤ data.length := by
  simp only [given, wordSize] at *
  omega

theorem ReadFrom.acceptable (h : ReadFrom kinds data index values) {i : Nat}
    (low : index ≤ i) (high : i < given kinds data) : Acceptable kinds data i := by
  have inside : i - index < values.length := by
    have length := h.length
    omega
  obtain ⟨kind, due, value⟩ := h.stands _ _ (List.getElem?_eq_getElem inside)
  rw [Nat.add_sub_cancel' low] at due value
  exact ⟨kind, _, due, value⟩

theorem ReadFrom.getElem?_eq_some_iff (h : ReadFrom kinds data 0 values) {i : Nat}
    (inside : i < given kinds data) (due : kinds[i]? = some kind) :
    values[i]? = some v ↔ StandsFor data (wordAt data i) kind v := by
  have stands (u : Value) (there : values[i]? = some u) :
      StandsFor data (wordAt data i) kind u := by
    obtain ⟨kind', due', value⟩ := h.stands i u there
    rw [Nat.zero_add] at due' value
    cases due.symm.trans due'
    exact value
  refine ⟨stands v, fun value => ?_⟩
  have counted : i < values.length := by
    have length := h.length
    omega
  have there := List.getElem?_eq_getElem counted
  rw [there, (stands _ there).unique (length_wordAt (whole_of_lt_given inside)) value]

theorem ReadFrom.cons (due : kinds[index]? = some kind)
    (value : StandsFor data (wordAt data index) kind v)
    (others : ReadFrom kinds data (index + 1) values) : ReadFrom kinds data index (v :: values) := by
  refine ⟨?_, fun i u there => ?_⟩
  · rw [← others.length, List.length_cons]
    omega
  · cases i with
    | zero =>
      cases there
      exact ⟨kind, due, value⟩
    | succ i =>
      have stands := others.stands i u there
      rwa [Nat.add_right_comm, Nat.add_assoc] at stands

theorem FaultFrom.cons (acceptable : Acceptable kinds data index)
    (later : FaultFrom kinds data (index + 1) e) : FaultFrom kinds data index e := by
  refine ⟨⟨Nat.le_of_succ_le later.inside.1, later.inside.2⟩, fun i low high => ?_, later.fault⟩
  rcases Nat.eq_or_lt_of_le low with rfl | above
  · exact acceptable
  · exact later.before i above high

theorem decodeFrom_cases (due : kinds.drop index = rest) (inside : index ≤ given kinds data) :
    (∃ values, decodeFrom data index (data.drop (wordSize * index)) rest = .ok values ∧
      ReadFrom kinds data index values) ∨
    ∃ e, decodeFrom data index (data.drop (wordSize * index)) rest = .error e ∧
      FaultFrom kinds data index e := by
  induction rest generalizing index with
  | nil =>
    refine .inl ⟨[], rfl, ?_, nofun⟩
    have used := List.drop_eq_nil_iff.mp due
    simp only [given] at *
    simp only [List.length_nil]
    omega
  | cons kind rest ih =>
    rw [decodeFrom, List.length_drop]
    by_cases short : data.length - wordSize * index < wordSize
    · refine .inl ⟨[], if_pos short, ?_, nofun⟩
      simp only [given, wordSize, List.length_nil] at *
      omega
    · have due_here : kinds[index]? = some kind := by
        rw [← List.head?_drop, due]
        rfl
      have due_next : kinds.drop (index + 1) = rest := by
        rw [← List.drop_drop, due]
        rfl
      have whole : wordSize * (index + 1) ≤ data.length := by
        simp only [wordSize] at *
        omega
      have here := lt_given due_here whole
      rw [if_neg short, List.drop_drop, ← Nat.mul_add_one]
      change (∃ values, ((readValue data (wordAt data index) kind).mapError _ >>= _) = _ ∧ _) ∨
        ∃ e, ((readValue data (wordAt data index) kind).mapError _ >>= _) = _ ∧ _
      cases read : readValue data (wordAt data index) kind with
      | error fault =>
        have none_before (i : Nat) (low : index ≤ i) (high : i < index) : Acceptable kinds data i :=
          absurd low (Nat.not_le.mpr high)
        exact .inr ⟨⟨index, fault⟩, rfl, ⟨Nat.le_refl _, here⟩, none_before, kind, due_here, read⟩
      | ok v =>
        have value := (readValue_eq_ok_iff (length_wordAt whole)).mp read
        rcases ih due_next here with ⟨values, more, others⟩ | ⟨e, more, later⟩
        · exact .inl ⟨v :: values, by rw [more]; rfl, others.cons due_here value⟩
        · exact .inr ⟨e, by rw [more]; rfl, later.cons ⟨kind, v, due_here, value⟩⟩

theorem ofDecode_of_dirtyAddress (h : e.fault = .dirtyAddress) : Refusal.ofDecode e =
    .invalid s!"invalid address encoding for argument {e.index}: non-zero high bytes" := by
  simp only [Refusal.ofDecode, h, Refusal.invalid.injEq, String.append_assoc]
  rfl

theorem ofDecode_of_ne (h : e.fault ≠ .dirtyAddress) :
    Refusal.ofDecode e = .badArgument s!"argument {e.index}" e.fault.reason := by
  unfold Refusal.ofDecode
  split
  · exact absurd ‹_› h
  · rfl

theorem FaultFrom.refusedAt (h : FaultFrom kinds data 0 e) : RefusedAt kinds data e := by
  obtain ⟨kind, due, read⟩ := h.fault
  have whole := length_wordAt (whole_of_lt_given h.inside.2)
  have padding : e.fault = .dirtyAddress ↔ kinds[e.index]? = some .address := by
    rw [due, Option.some.injEq]
    exact fault_eq_dirtyAddress_iff whole read
  have unacceptable : ¬ Acceptable kinds data e.index := by
    rintro ⟨kind', v, due', stands⟩
    cases due.symm.trans due'
    rw [(readValue_eq_ok_iff whole).mpr stands] at read
    cases read
  refine ⟨h.inside.2, fun i before => h.before i (Nat.zero_le i) before, unacceptable,
    fun address => ofDecode_of_dirtyAddress (padding.mpr address),
    fun other => ⟨_, ofDecode_of_ne (mt padding.mp other)⟩, ?_⟩
  by_cases dirty : e.fault = .dirtyAddress
  · rw [ofDecode_of_dirtyAddress dirty, if_pos (padding.mp dirty)]
    rfl
  · rw [ofDecode_of_ne dirty, if_neg (mt padding.mpr dirty)]
    rfl

/-- Reading gives one value for each kind that there is a whole word for, if and only if all of these
words are acceptable, and each value is the one that its word stands for. Otherwise the first word that
is not is refused, by its place and kind. In no case is anything read that is not there. -/
theorem decode_exactly (kinds : List Kind) (data : Bytes) (bound : data.length < 2 ^ 63) :
    ((∃ values, decode kinds data = .ok values) ↔
      ∀ i < given kinds data, Acceptable kinds data i) ∧
    (∀ values, decode kinds data = .ok values → values.length = given kinds data ∧
      ∀ i < given kinds data, ∀ kind, kinds[i]? = some kind → ∀ v,
        values[i]? = some v ↔ StandsFor data (wordAt data i) kind v) ∧
    (∀ e, decode kinds data = .error e → RefusedAt kinds data e) ∧
    (Checked.decode kinds data).Yields (decode kinds data) := by
  have outcome : (∃ values, decode kinds data = .ok values ∧ ReadFrom kinds data 0 values) ∨
      ∃ e, decode kinds data = .error e ∧ FaultFrom kinds data 0 e :=
    decodeFrom_cases rfl (Nat.zero_le _)
  refine ⟨?_, fun values read => ?_, fun e failed => ?_,
    Checked.yields_decode (Nat.lt_trans bound (by decide)) kinds⟩
  · rcases outcome with ⟨values, read, stand⟩ | ⟨e, failed, fault⟩
    · refine iff_of_true ⟨values, read⟩ fun i inside => ?_
      exact stand.acceptable (by omega) inside
    · refine iff_of_false (fun ⟨values, read⟩ => ?_) fun acceptable => ?_
      · cases failed.symm.trans read
      · exact fault.refusedAt.unacceptable (acceptable e.index fault.inside.2)
  · rcases outcome with ⟨values', read', stand⟩ | ⟨e, failed, -⟩
    · cases read.symm.trans read'
      exact ⟨by rw [← stand.length, Nat.zero_add], fun i inside kind due v =>
        stand.getElem?_eq_some_iff inside due⟩
    · cases failed.symm.trans read
  · rcases outcome with ⟨values, read, -⟩ | ⟨e', failed', fault⟩
    · cases failed.symm.trans read
    · cases failed.symm.trans failed'
      exact fault.refusedAt

end

/-- An offset and a length that nothing can be added to, and a text whose tail ends with the data. -/
theorem decode_of_wide_offsets :
    let kinds := [Kind.uint8, .text]
    let outside := word 7 ++ word (2 ^ 64 - 1)
    let long := word 7 ++ word 64 ++ word (2 ^ 64 - 1)
    let short := word 7 ++ word 64 ++ word 2 ++ [0x68, 0x69]
    (outside.length < 2 ^ 63 ∧ decode kinds outside = .error ⟨1, .textOffset⟩ ∧
      RefusedAt kinds outside ⟨1, .textOffset⟩ ∧
      (Checked.decode kinds outside).Yields (.error ⟨1, .textOffset⟩)) ∧
    (long.length < 2 ^ 63 ∧ decode kinds long = .error ⟨1, .textLength⟩ ∧
      RefusedAt kinds long ⟨1, .textLength⟩) ∧
    short.length < 2 ^ 63 ∧ decode kinds short = .ok [.uint 7, .text "hi"] ∧
      StandsFor short (word 64) .text (.text "hi") := by
  intro kinds outside long short
  have ⟨near, far⟩ : outside.length < 2 ^ 63 ∧ long.length < 2 ^ 63 := by decide +kernel
  have offset : decode kinds outside = .error ⟨1, .textOffset⟩ := by decide +kernel
  have length : decode kinds long = .error ⟨1, .textLength⟩ := by decide +kernel
  have read : decode kinds short = .ok [.uint 7, .text "hi"] := by decide +kernel
  obtain ⟨-, -, refused, yields⟩ := decode_exactly kinds outside near
  obtain ⟨-, -, refused', -⟩ := decode_exactly kinds long far
  rw [offset] at yields
  refine ⟨⟨near, offset, refused _ offset, yields⟩, ⟨far, length, refused' _ length⟩, ?_⟩
  have small : short.length < 2 ^ 63 := by decide +kernel
  obtain ⟨-, values, -⟩ := decode_exactly kinds short small
  exact ⟨small, read, ((values _ read).2 1 (by decide +kernel) .text rfl _).mp rfl⟩

end LedgerBridge.Abi
