import LedgerBridge.Json.Reader
import LedgerBridge.Json.Writer
import Mathlib.Data.List.Basic
import Mathlib.Tactic.SplitIfs

/-! The tokens of a written document. A text is taken apart at its quotes whatever stands between them,
and a word or number ends where the next mark or blank stands, so what is written is read as it was
meant token by token. -/
namespace LedgerBridge

/-- Only zero itself is written with a zero in front. -/
theorem Decimal.head?_write {n : Nat} (h : n ≠ 0) : (write n).head? ≠ some '0' := by
  induction n using Nat.strongRecOn with
  | _ n ih =>
    rw [write, Nat.toDigits_eq_if (by decide)]
    split
    · rename_i digit
      have small : ∀ d < 10, d ≠ 0 → Nat.digitChar d ≠ '0' := by decide
      simpa using small n digit h
    · rw [List.head?_append_of_ne_nil _ Nat.toDigits_ne_nil]
      exact ih (n / 10) (by omega) (by omega)

namespace Json

mutual

/-- The tokens that a document is written with. -/
def tokens : Document → List Token
  | .null => [.null]
  | .bool b => [.bool b]
  | .natural n => [.natural n]
  | .text s => [.text s]
  | .list [] => [.openList, .closeList]
  | .list (d :: items) => .openList :: tokens d ++ itemTokens items
  | .record [] => [.openRecord, .closeRecord]
  | .record ((key, d) :: members) =>
    .openRecord :: .text key :: .colon :: tokens d ++ memberTokens members
  | .foreign => [.number]

def itemTokens : List Document → List Token
  | [] => [.closeList]
  | d :: items => .comma :: tokens d ++ itemTokens items

def memberTokens : List (String × Document) → List Token
  | [] => [.closeRecord]
  | (key, d) :: members => .comma :: .text key :: .colon :: tokens d ++ memberTokens members

end

/-- The tokens that a lexer comes to on further characters. -/
def tokenize (l : Lexer) (cs : List Char) : Option (List Token) := do
  (← cs.foldlM Lexer.step l).finish

theorem tokenize_cons (l : Lexer) (c : Char) (cs : List Char) :
    tokenize l (c :: cs) = (l.step c).bind fun l => tokenize l cs := by
  simp only [tokenize, List.foldlM_cons]
  cases l.step c <;> rfl

/-- Words and numbers end in front of it. -/
def delimits (c : Char) : Bool := Lexer.isBlank c || c = '"' || (Lexer.mark? c).isSome

/-- Nothing follows that could belong to a word or number. -/
def Ends (rest : List Char) : Prop := ∀ c ∈ rest.head?, delimits c

variable {ts : List Token} {rest : List Char} {c : Char}

theorem ends_nil : Ends [] := nofun

theorem ends_cons (h : delimits c) : Ends (c :: rest) := by
  rintro _ ⟨⟩
  exact h

theorem tokenize_blank (h : Lexer.isBlank c) :
    tokenize ⟨ts, .between⟩ (c :: rest) = tokenize ⟨ts, .between⟩ rest := by
  simp [tokenize_cons, Lexer.step, Lexer.between, h]

theorem mark?_of_isBlank (h : Lexer.isBlank c) : Lexer.mark? c = none := by
  simp only [Lexer.isBlank, Bool.or_eq_true, decide_eq_true_eq] at h
  rcases h with ((rfl | rfl) | rfl) | rfl <;> rfl

theorem tokenize_mark {token : Token} (h : Lexer.mark? c = some token) :
    tokenize ⟨ts, .between⟩ (c :: rest) = tokenize ⟨token :: ts, .between⟩ rest := by
  have blank : ¬ Lexer.isBlank c := fun blank => by simp [mark?_of_isBlank blank] at h
  have quote : c ≠ '"' := by
    rintro rfl
    cases h
  simp [tokenize_cons, Lexer.step, Lexer.between, blank, quote, h]

/-! Words and numbers. -/

theorem tokenize_bare_append {word chars : List Char} (plain : ∀ c ∈ word, ¬ delimits c) :
    tokenize ⟨ts, .bare chars⟩ (word ++ rest) =
      tokenize ⟨ts, .bare (word.reverse ++ chars)⟩ rest := by
  induction word generalizing chars with
  | nil => rfl
  | cons c word ih =>
    obtain ⟨first, others⟩ := List.forall_mem_cons.mp plain
    have goesOn : Lexer.step ⟨ts, .bare chars⟩ c = some ⟨ts, .bare (c :: chars)⟩ := if_neg first
    rw [List.cons_append, tokenize_cons, goesOn, Option.bind_some, ih others, List.reverse_cons,
      List.append_assoc]
    rfl

/-- A word is complete when something else follows. -/
theorem tokenize_bare {chars : List Char} {token : Token}
    (h : Token.ofBare chars.reverse = some token) (ends : Ends rest) :
    tokenize ⟨ts, .bare chars⟩ rest = tokenize ⟨token :: ts, .between⟩ rest := by
  cases rest with
  | nil => simp [tokenize, Lexer.finish, h]
  | cons c rest =>
    have stops : delimits c := ends c rfl
    rw [tokenize_cons, tokenize_cons]
    simp only [delimits] at stops
    simp [Lexer.step, stops, h]

theorem tokenize_word {word : List Char} {token : Token} (nonempty : word ≠ [])
    (plain : ∀ c ∈ word, ¬ delimits c) (h : Token.ofBare word = some token) (ends : Ends rest) :
    tokenize ⟨ts, .between⟩ (word ++ rest) = tokenize ⟨token :: ts, .between⟩ rest := by
  obtain ⟨c, word, rfl⟩ := List.exists_cons_of_ne_nil nonempty
  obtain ⟨first, others⟩ := List.forall_mem_cons.mp plain
  have begins : Lexer.step ⟨ts, .between⟩ c = some ⟨ts, .bare [c]⟩ := by
    simp only [delimits, Bool.or_eq_true, decide_eq_true_eq, not_or, Bool.not_eq_true,
      Option.isSome_eq_false_iff, Option.isNone_iff_eq_none] at first
    simp [Lexer.step, Lexer.between, first]
  rw [List.cons_append, tokenize_cons, begins, Option.bind_some, tokenize_bare_append others]
  exact tokenize_bare (by simpa using h) ends

/-- A word that the format has. -/
theorem tokenize_literal {word : List Char} {token : Token} (nonempty : word ≠ [])
    (plain : word.any delimits = false) (h : Token.ofBare word = some token) (ends : Ends rest) :
    tokenize ⟨ts, .between⟩ (word ++ rest) = tokenize ⟨token :: ts, .between⟩ rest :=
  tokenize_word nonempty (fun c mem => List.any_eq_false.mp plain c mem) h ends

theorem not_delimits_of_isDigit (h : c.isDigit) : ¬ delimits c := by
  have unlike (mark : Char) (other : mark.isDigit = false) : c ≠ mark := by
    rintro rfl
    simp [h] at other
  simp (disch := decide) [delimits, Lexer.isBlank, Lexer.mark?, unlike]

theorem isInteger_write (n : Nat) : isInteger (Decimal.write n) := by
  have digits : isDigits (Decimal.write n) := by
    simp only [isDigits, Bool.and_eq_true, decide_eq_true_eq]
    exact ⟨Nat.toDigits_ne_nil, List.all_eq_true.mpr fun _ => Decimal.isDigit_of_mem_write⟩
  by_cases zero : n = 0
  · subst zero
    rfl
  · simp [isInteger, digits, Decimal.head?_write zero]

/-- A row of digits is no word. -/
theorem ofBare_write (n : Nat) : Token.ofBare (Decimal.write n) = some (.natural n) := by
  have unlike (word : List Char) (other : word.all Char.isDigit = false) :
      Decimal.write n ≠ word := by
    rintro rfl
    rw [List.all_eq_true.mpr fun _ => Decimal.isDigit_of_mem_write] at other
    cases other
  simp (disch := decide) [Token.ofBare, unlike, isInteger_write]

/-! Texts. -/

/-- What the lexer makes of a character of a text. -/
def unit (c : Char) : CodeUnit :=
  if c ∉ ['\x08', '\x0c', '\n', '\r', '\t'] ∧ c.toNat < 0x20 then .escaped c.toNat else .char c

theorem assemble_escaped {n : Nat} (h : n < 0x20) (units : List CodeUnit) :
    assemble (.escaped n :: units) = (assemble units).map (Char.ofNat n :: ·) := by
  have single : isHigh n = false ∧ isLow n = false := by
    simp only [isHigh, isLow, Bool.and_eq_false_iff, decide_eq_false_iff_not]
    omega
  match units with
  | [] => simp [assemble, single]
  | .char d :: rest =>
    simp only [assemble, single]
    cases assemble rest <;> rfl
  | .escaped m :: rest => simp [assemble, single]

theorem assemble_map_unit (cs : List Char) : assemble (cs.map unit) = some cs := by
  induction cs with
  | nil => rfl
  | cons c cs ih =>
    rw [List.map_cons, unit]
    split
    · rename_i control
      rw [assemble_escaped control.2, ih, Char.ofNat_toNat]
      rfl
    · rw [assemble, ih]
      rfl

theorem digitValue?_digitChar {d : Nat} (h : d < 16) :
    Hex.digitValue? (Nat.digitChar d) = some d :=
  (by decide : ∀ d < 16, Hex.digitValue? (Nat.digitChar d) = some d) d h

theorem tokenize_hexCode {n : Nat} (h : n < 0x100) (units : List CodeUnit) :
    tokenize ⟨ts, .code units 0 2⟩ (hexCode n ++ rest) =
      tokenize ⟨ts, .text (.escaped n :: units)⟩ rest := by
  have high : Hex.digitValue? (Nat.digitChar (n / 16)) = some (n / 16) :=
    digitValue?_digitChar (by omega)
  have low : Hex.digitValue? (Nat.digitChar (n % 16)) = some (n % 16) :=
    digitValue?_digitChar (by omega)
  have value : 16 * (n / 16) + n % 16 = n := by omega
  simp [hexCode, tokenize_cons, Lexer.step, high, low, value]

theorem tokenize_writeChar (units : List CodeUnit) :
    tokenize ⟨ts, .text units⟩ (writeChar c ++ rest) =
      tokenize ⟨ts, .text (unit c :: units)⟩ rest := by
  unfold writeChar
  split_ifs
  iterate 7
    · subst c
      simp [tokenize_cons, Lexer.step, Lexer.escaped?, unit]
  · have code : unit c = .escaped c.toNat := if_pos (by simp [*])
    have opens : tokenize ⟨ts, .text units⟩ (['\\', 'u', '0', '0'] ++ hexCode c.toNat ++ rest) =
        tokenize ⟨ts, .code units 0 2⟩ (hexCode c.toNat ++ rest) := rfl
    rw [opens, tokenize_hexCode (by omega), code]
  · simp [tokenize_cons, Lexer.step, unit, *]

theorem tokenize_flatMap_writeChar (cs : List Char) (units : List CodeUnit) :
    tokenize ⟨ts, .text units⟩ (cs.flatMap writeChar ++ rest) =
      tokenize ⟨ts, .text ((cs.map unit).reverse ++ units)⟩ rest := by
  induction cs generalizing units with
  | nil => rfl
  | cons c cs ih =>
    rw [List.flatMap_cons, List.append_assoc, tokenize_writeChar, ih]
    simp

/-- The quote that ends a written text is the first that is not escaped. -/
theorem tokenize_writeText (s : String) :
    tokenize ⟨ts, .between⟩ (writeText s ++ rest) = tokenize ⟨.text s :: ts, .between⟩ rest := by
  have opens : Lexer.step ⟨ts, .between⟩ '"' = some ⟨ts, .text []⟩ := rfl
  have closes (units : List CodeUnit) :
      Lexer.step ⟨ts, .text units⟩ '"' = some ⟨.ofUnits units.reverse :: ts, .between⟩ := rfl
  rw [writeText, List.cons_append, List.cons_append, tokenize_cons, opens, Option.bind_some,
    List.append_assoc, tokenize_flatMap_writeChar, List.singleton_append, tokenize_cons, closes,
    Option.bind_some]
  simp [Token.ofUnits, assemble_map_unit]

theorem tokenize_replicate (n : Nat) :
    tokenize ⟨ts, .between⟩ (List.replicate n ' ' ++ rest) = tokenize ⟨ts, .between⟩ rest := by
  induction n with
  | zero => rfl
  | succ n ih => rw [List.replicate_succ, List.cons_append, tokenize_blank rfl, ih]

theorem tokenize_newLine (depth : Nat) :
    tokenize ⟨ts, .between⟩ (newLine depth ++ rest) = tokenize ⟨ts, .between⟩ rest := by
  rw [newLine, List.cons_append, tokenize_blank rfl, tokenize_replicate]

/-! Documents on several lines. -/

theorem ends_prettyItems (depth : Nat) (items : List Document) :
    Ends (prettyItems depth items ++ rest) := by
  cases items <;> simp only [prettyItems, newLine, List.cons_append] <;> exact ends_cons rfl

theorem ends_prettyMembers (depth : Nat) (members : List (String × Document)) :
    Ends (prettyMembers depth members ++ rest) := by
  cases members <;> simp only [prettyMembers, newLine, List.cons_append] <;> exact ends_cons rfl

/-- For example a closing bracket. -/
theorem tokenize_newLine_mark (depth : Nat) {token : Token} (h : Lexer.mark? c = some token) :
    tokenize ⟨ts, .between⟩ (newLine depth ++ [c] ++ rest) =
      tokenize ⟨token :: ts, .between⟩ rest := by
  rw [List.append_assoc, tokenize_newLine, List.singleton_append, tokenize_mark h]

mutual

theorem tokenize_prettyChars (depth : Nat) (d : Document) {ts : List Token} {rest : List Char}
    (ends : Ends rest) :
    tokenize ⟨ts, .between⟩ (prettyChars depth d ++ rest) =
      tokenize ⟨(tokens d).reverse ++ ts, .between⟩ rest := by
  match d with
  | .null | .bool true | .bool false | .foreign => exact tokenize_literal nofun rfl rfl ends
  | .natural n =>
    exact tokenize_word Nat.toDigits_ne_nil
      (fun _ mem => not_delimits_of_isDigit (Decimal.isDigit_of_mem_write mem)) (ofBare_write n) ends
  | .text s => exact tokenize_writeText s
  | .list [] =>
    simp only [prettyChars, tokens, List.cons_append, List.nil_append]
    rw [tokenize_mark rfl, tokenize_mark rfl]
    rfl
  | .list (d :: items) =>
    simp only [prettyChars, tokens, List.cons_append, List.append_assoc]
    rw [tokenize_mark rfl, tokenize_newLine,
      tokenize_prettyChars _ d (ends_prettyItems depth items), tokenize_prettyItems depth items]
    simp
  | .record [] =>
    simp only [prettyChars, tokens, List.cons_append, List.nil_append]
    rw [tokenize_mark rfl, tokenize_mark rfl]
    rfl
  | .record ((key, d) :: members) =>
    simp only [prettyChars, tokens, List.cons_append, List.append_assoc]
    rw [tokenize_mark rfl, tokenize_newLine, tokenize_writeText, tokenize_mark rfl,
      tokenize_blank rfl, tokenize_prettyChars _ d (ends_prettyMembers depth members),
      tokenize_prettyMembers depth members]
    simp

theorem tokenize_prettyItems (depth : Nat) (items : List Document) {ts : List Token}
    {rest : List Char} :
    tokenize ⟨ts, .between⟩ (prettyItems depth items ++ rest) =
      tokenize ⟨(itemTokens items).reverse ++ ts, .between⟩ rest := by
  match items with
  | [] => exact tokenize_newLine_mark depth rfl
  | d :: items =>
    simp only [prettyItems, itemTokens, List.cons_append, List.append_assoc]
    rw [tokenize_mark rfl, tokenize_newLine,
      tokenize_prettyChars _ d (ends_prettyItems depth items), tokenize_prettyItems depth items]
    simp

theorem tokenize_prettyMembers (depth : Nat) (members : List (String × Document)) {ts : List Token}
    {rest : List Char} :
    tokenize ⟨ts, .between⟩ (prettyMembers depth members ++ rest) =
      tokenize ⟨(memberTokens members).reverse ++ ts, .between⟩ rest := by
  match members with
  | [] => exact tokenize_newLine_mark depth rfl
  | (key, d) :: members =>
    simp only [prettyMembers, memberTokens, List.cons_append, List.append_assoc]
    rw [tokenize_mark rfl, tokenize_newLine, tokenize_writeText, tokenize_mark rfl,
      tokenize_blank rfl, tokenize_prettyChars _ d (ends_prettyMembers depth members),
      tokenize_prettyMembers depth members]
    simp

end

/-! Documents on one line. -/

theorem ends_writeItems (items : List Document) : Ends (writeItems items ++ rest) := by
  cases items <;> exact ends_cons rfl

theorem ends_writeMembers (members : List (String × Document)) :
    Ends (writeMembers members ++ rest) := by
  cases members <;> exact ends_cons rfl

mutual

theorem tokenize_writeChars (d : Document) {ts : List Token} {rest : List Char} (ends : Ends rest) :
    tokenize ⟨ts, .between⟩ (writeChars d ++ rest) =
      tokenize ⟨(tokens d).reverse ++ ts, .between⟩ rest := by
  match d with
  -- What has no parts takes one line in either way.
  | .null => exact tokenize_prettyChars 0 .null ends
  | .bool b => exact tokenize_prettyChars 0 (.bool b) ends
  | .natural n => exact tokenize_prettyChars 0 (.natural n) ends
  | .text s => exact tokenize_prettyChars 0 (.text s) ends
  | .list [] => exact tokenize_prettyChars 0 (.list []) ends
  | .record [] => exact tokenize_prettyChars 0 (.record []) ends
  | .foreign => exact tokenize_prettyChars 0 .foreign ends
  | .list (d :: items) =>
    simp only [writeChars, tokens, List.cons_append, List.append_assoc]
    rw [tokenize_mark rfl, tokenize_writeChars d (ends_writeItems items), tokenize_writeItems items]
    simp
  | .record ((key, d) :: members) =>
    simp only [writeChars, tokens, List.cons_append, List.append_assoc]
    rw [tokenize_mark rfl, tokenize_writeText, tokenize_mark rfl,
      tokenize_writeChars d (ends_writeMembers members), tokenize_writeMembers members]
    simp

theorem tokenize_writeItems (items : List Document) {ts : List Token} {rest : List Char} :
    tokenize ⟨ts, .between⟩ (writeItems items ++ rest) =
      tokenize ⟨(itemTokens items).reverse ++ ts, .between⟩ rest := by
  match items with
  | [] => exact tokenize_mark rfl
  | d :: items =>
    simp only [writeItems, itemTokens, List.cons_append, List.append_assoc]
    rw [tokenize_mark rfl, tokenize_writeChars d (ends_writeItems items), tokenize_writeItems items]
    simp

theorem tokenize_writeMembers (members : List (String × Document)) {ts : List Token}
    {rest : List Char} :
    tokenize ⟨ts, .between⟩ (writeMembers members ++ rest) =
      tokenize ⟨(memberTokens members).reverse ++ ts, .between⟩ rest := by
  match members with
  | [] => exact tokenize_mark rfl
  | (key, d) :: members =>
    simp only [writeMembers, memberTokens, List.cons_append, List.append_assoc]
    rw [tokenize_mark rfl, tokenize_writeText, tokenize_mark rfl,
      tokenize_writeChars d (ends_writeMembers members), tokenize_writeMembers members]
    simp

end

/-- The characters of a document, and nothing else, have its tokens. -/
theorem tokens?_of_tokenize {cs : List Char} {d : Document}
    (h : tokenize ⟨[], .between⟩ (cs ++ []) = tokenize ⟨(tokens d).reverse ++ [], .between⟩ []) :
    tokens? (String.ofList cs).toList = some (tokens d) := by
  calc
    tokens? (String.ofList cs).toList = tokenize ⟨[], .between⟩ (cs ++ []) := by
      rw [String.toList_ofList, List.append_nil]
      rfl
    _ = tokenize ⟨(tokens d).reverse ++ [], .between⟩ [] := h
    _ = some (tokens d) := by simp [tokenize, Lexer.finish]

/-- A document is written with its tokens. -/
theorem tokens?_pretty (d : Document) : tokens? (pretty d).toList = some (tokens d) :=
  tokens?_of_tokenize (tokenize_prettyChars 0 d ends_nil)

theorem tokens?_write (d : Document) : tokens? (write d).toList = some (tokens d) :=
  tokens?_of_tokenize (tokenize_writeChars d ends_nil)

end Json

end LedgerBridge
