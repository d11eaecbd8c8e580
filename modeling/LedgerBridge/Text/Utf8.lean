import LedgerBridge.Bytes

/-! UTF-8 text in byte strings: reading it, where ill-formed bytes begin, and reading with
replacements. -/
namespace LedgerBridge.Utf8

/-- Where ill-formed bytes begin and how many belong together; no length if the bytes only end
too soon. -/
structure Fault where
  index : Nat
  length : Option Nat
  deriving DecidableEq, Repr

def Fault.message (f : Fault) : String :=
  match f.length with
  | some n => s!"invalid utf-8 sequence of {n} bytes from index {f.index}"
  | none => s!"incomplete utf-8 byte sequence from index {f.index}"

/-- What stands at the front of a byte string. -/
inductive Front
  | whole (length : Nat)
  | broken (length : Nat)
  | cutShort

/-- The `owed` bytes that continue a character of which `got` bytes are read. -/
def tails : (owed got : Nat) → Bytes → Front
  | 0, got, _ => .whole got
  | _ + 1, _, [] => .cutShort
  | owed + 1, got, b :: rest =>
    if 0x80 ≤ b ∧ b ≤ 0xBF then tails owed (got + 1) rest else .broken got

/-- A second byte between `low` and `high`, then `owed` more. -/
def second (low high : UInt8) (owed : Nat) : Bytes → Front
  | [] => .cutShort
  | b :: rest => if low ≤ b ∧ b ≤ high then tails owed 2 rest else .broken 1

def front (b : UInt8) (rest : Bytes) : Front :=
  if b ≤ 0x7F then .whole 1
  else if 0xC2 ≤ b ∧ b ≤ 0xDF then second 0x80 0xBF 0 rest
  else if b = 0xE0 then second 0xA0 0xBF 1 rest
  else if b = 0xED then second 0x80 0x9F 1 rest
  else if 0xE1 ≤ b ∧ b ≤ 0xEF then second 0x80 0xBF 1 rest
  else if b = 0xF0 then second 0x90 0xBF 2 rest
  else if 0xF1 ≤ b ∧ b ≤ 0xF3 then second 0x80 0xBF 2 rest
  else if b = 0xF4 then second 0x80 0x8F 2 rest
  else .broken 1

/-- The first fault from `index` on, after `skip` bytes of a character already read. -/
def faultFrom : (index skip : Nat) → Bytes → Option Fault
  | _, _, [] => none
  | index, skip + 1, _ :: rest => faultFrom (index + 1) skip rest
  | index, 0, b :: rest =>
    match front b rest with
    | .whole n => faultFrom (index + 1) (n - 1) rest
    | .broken n => some ⟨index, some n⟩
    | .cutShort => some ⟨index, none⟩

def fault (bs : Bytes) : Fault := (faultFrom 0 0 bs).getD ⟨bs.length, none⟩

/-- The bytes of U+FFFD, which stands for each ill-formed part. -/
def replacement : Bytes := [0xEF, 0xBF, 0xBD]

/-- Replaces ill-formed parts, first dealing with `keep` bytes to copy and `drop` to leave out. -/
def repair : (keep drop : Nat) → Bytes → Bytes
  | _, _, [] => []
  | keep + 1, drop, b :: rest => b :: repair keep drop rest
  | 0, drop + 1, _ :: rest => repair 0 drop rest
  | 0, 0, b :: rest =>
    match front b rest with
    | .whole n => b :: repair (n - 1) 0 rest
    | .broken n => replacement ++ repair 0 (n - 1) rest
    | .cutShort => replacement

def text? (bs : Bytes) : Option String := String.fromUTF8? ⟨bs.toArray⟩

@[simp] theorem text?_ofString (s : String) : text? (Bytes.ofString s) = some s := by
  simp [text?, Bytes.ofString, String.fromUTF8?, s.isValidUTF8, String.fromUTF8]

theorem ofString_of_text? {bs : Bytes} {s : String} (h : text? bs = some s) :
    Bytes.ofString s = bs := by
  simp only [text?, String.fromUTF8?] at h
  split at h
  · simp only [Option.some.injEq] at h
    subst h
    simp [Bytes.ofString, String.fromUTF8]
  · cases h

def read (bs : Bytes) : Except Fault String :=
  match text? bs with
  | some s => .ok s
  | none => .error (fault bs)

@[simp] theorem read_ofString (s : String) : read (Bytes.ofString s) = .ok s := by simp [read]

theorem read_eq_ok_iff {bs : Bytes} {s : String} : read bs = .ok s ↔ Bytes.ofString s = bs := by
  constructor
  · intro h
    unfold read at h
    split at h
    · cases h; exact ofString_of_text? ‹_›
    · cases h
  · rintro rfl; simp

/-- The text of the bytes, with U+FFFD for each ill-formed part. -/
def readLossy (bs : Bytes) : String := (text? bs).getD ((text? (repair 0 0 bs)).getD "")

@[simp] theorem readLossy_ofString (s : String) : readLossy (Bytes.ofString s) = s := by
  simp [readLossy]

end LedgerBridge.Utf8
