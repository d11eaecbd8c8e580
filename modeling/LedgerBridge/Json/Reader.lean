import LedgerBridge.Document
import LedgerBridge.Text.Numerals

/-! Reading a JSON text in two steps: its tokens, and the value that they make up. -/
namespace LedgerBridge.Json

/-! The tokens of a JSON text, found in one pass over its characters. -/

inductive Token
  | null
  | bool (b : Bool)
  | natural (n : Nat)
  /-- A number that is not written as a natural. -/
  | number
  | text (s : String)
  /-- A text with an escape for half of a surrogate pair; no string has it. -/
  | brokenText
  | openList
  | closeList
  | openRecord
  | closeRecord
  | comma
  | colon
  deriving DecidableEq, Repr

/-- One character of a text, or one escaped UTF-16 unit. -/
inductive CodeUnit
  | char (c : Char)
  | escaped (n : Nat)
  deriving DecidableEq, Repr

def isHigh (n : Nat) : Bool := 0xD800 ≤ n && n ≤ 0xDBFF
def isLow (n : Nat) : Bool := 0xDC00 ≤ n && n ≤ 0xDFFF

/-- Joins escaped pairs; fails if a half has no partner. -/
def assemble : List CodeUnit → Option (List Char)
  | [] => some []
  | .char c :: rest => (assemble rest).map (c :: ·)
  | [.escaped n] => if isHigh n || isLow n then none else some [Char.ofNat n]
  | .escaped n :: .char c :: rest =>
    if isHigh n || isLow n then none
    else (assemble rest).map (Char.ofNat n :: c :: ·)
  | .escaped n :: .escaped m :: rest =>
    if isHigh n then
      if isLow m then
        (assemble rest).map (Char.ofNat (0x10000 + (n - 0xD800) * 0x400 + (m - 0xDC00)) :: ·)
      else none
    else if isLow n then none
    else (assemble (.escaped m :: rest)).map (Char.ofNat n :: ·)

def Token.ofUnits (units : List CodeUnit) : Token :=
  match assemble units with
  | some cs => .text (.ofList cs)
  | none => .brokenText

def isDigits (cs : List Char) : Bool := cs ≠ [] && cs.all Char.isDigit

/-- Digits without a needless zero in front. -/
def isInteger (cs : List Char) : Bool := isDigits cs && (cs.head? ≠ some '0' || cs = ['0'])

def isExponent : List Char → Bool
  | [] => true
  | e :: rest =>
    (e = 'e' || e = 'E') &&
      match rest with
      | '+' :: digits => isDigits digits
      | '-' :: digits => isDigits digits
      | digits => isDigits digits

def isFraction : List Char → Bool
  | '.' :: rest => isDigits (rest.takeWhile Char.isDigit) && isExponent (rest.dropWhile Char.isDigit)
  | rest => isExponent rest

def isNumber (cs : List Char) : Bool :=
  let unsigned := match cs with
    | '-' :: rest => rest
    | _ => cs
  isInteger (unsigned.takeWhile Char.isDigit) && isFraction (unsigned.dropWhile Char.isDigit)

/-- A word or number, which ends where a blank or a mark stands. -/
def Token.ofBare (cs : List Char) : Option Token :=
  if cs = ['n', 'u', 'l', 'l'] then some .null
  else if cs = ['t', 'r', 'u', 'e'] then some (.bool true)
  else if cs = ['f', 'a', 'l', 's', 'e'] then some (.bool false)
  else if isInteger cs then (Decimal.readDigits cs).map .natural
  else if isNumber cs then some .number
  else none

/-- What the lexer is in the midst of. Parts read so far are kept in reverse. -/
inductive Mode
  | between
  | bare (chars : List Char)
  | text (units : List CodeUnit)
  | escape (units : List CodeUnit)
  | code (units : List CodeUnit) (value owed : Nat)
  deriving DecidableEq, Repr

structure Lexer where
  tokens : List Token
  mode : Mode
  deriving DecidableEq, Repr

namespace Lexer

def mark? (c : Char) : Option Token :=
  if c = '[' then some .openList
  else if c = ']' then some .closeList
  else if c = '\x7b' then some .openRecord
  else if c = '\x7d' then some .closeRecord
  else if c = ',' then some .comma
  else if c = ':' then some .colon
  else none

def isBlank (c : Char) : Bool := c = ' ' || c = '\t' || c = '\n' || c = '\r'

/-- A character where a token may begin. -/
def between (tokens : List Token) (c : Char) : Lexer :=
  if isBlank c then ⟨tokens, .between⟩
  else if c = '"' then ⟨tokens, .text []⟩
  else
    match mark? c with
    | some token => ⟨token :: tokens, .between⟩
    | none => ⟨tokens, .bare [c]⟩

def escaped? (c : Char) : Option Char :=
  if c = '"' ∨ c = '\\' ∨ c = '/' then some c
  else if c = 'b' then some '\x08'
  else if c = 'f' then some '\x0c'
  else if c = 'n' then some '\n'
  else if c = 'r' then some '\r'
  else if c = 't' then some '\t'
  else none

def step (l : Lexer) (c : Char) : Option Lexer :=
  match l.mode with
  | .between => some (between l.tokens c)
  | .bare chars =>
    if isBlank c || c = '"' || (mark? c).isSome then do
      let token ← Token.ofBare chars.reverse
      return between (token :: l.tokens) c
    else some ⟨l.tokens, .bare (c :: chars)⟩
  | .text units =>
    if c = '"' then some ⟨.ofUnits units.reverse :: l.tokens, .between⟩
    else if c = '\\' then some ⟨l.tokens, .escape units⟩
    else if c.toNat < 0x20 then none
    else some ⟨l.tokens, .text (.char c :: units)⟩
  | .escape units =>
    if c = 'u' then some ⟨l.tokens, .code units 0 4⟩
    else (escaped? c).map fun e => ⟨l.tokens, .text (.char e :: units)⟩
  | .code units value owed => do
    let d ← Hex.digitValue? c
    let value := 16 * value + d
    return ⟨l.tokens, if owed = 1 then .text (.escaped value :: units) else .code units value (owed - 1)⟩

def finish (l : Lexer) : Option (List Token) :=
  match l.mode with
  | .between => some l.tokens.reverse
  | .bare chars => do
    let token ← Token.ofBare chars.reverse
    return (token :: l.tokens).reverse
  | _ => none

end Lexer

def tokens? (cs : List Char) : Option (List Token) := do
  (← cs.foldlM Lexer.step ⟨[], .between⟩).finish

/-! Reading a JSON text. What is open around the current place is kept as a stack, so that the reader
takes one step per token and has no limit on depth. -/

/-- A list or record around a value that is being read. What stands before it is kept in reverse;
a text without a string is no key. -/
inductive Frame
  | item (before : List Document)
  | member (before : List (Option String × Document)) (key : Option String)

/-- What may come next. -/
inductive Reader
  | value (stack : List Frame)
  | firstItem (stack : List Frame)
  | afterItem (before : List Document) (stack : List Frame)
  | firstKey (stack : List Frame)
  | nextKey (before : List (Option String × Document)) (stack : List Frame)
  | colon (before : List (Option String × Document)) (key : Option String) (stack : List Frame)
  | afterMember (before : List (Option String × Document)) (stack : List Frame)
  | done (d : Document)

/-- No field can be read from a record one of whose keys is no string. -/
def closeRecord (members : List (Option String × Document)) : Document :=
  match members.mapM fun (key, d) => key.map (·, d) with
  | some members => .record members
  | none => .foreign

namespace Reader

/-- A value is complete. -/
def deliver (d : Document) : List Frame → Reader
  | [] => .done d
  | .item before :: stack => .afterItem (d :: before) stack
  | .member before key :: stack => .afterMember ((key, d) :: before) stack

def begin (stack : List Frame) : Token → Option Reader
  | .null => some (deliver .null stack)
  | .bool b => some (deliver (.bool b) stack)
  | .natural n => some (deliver (.natural n) stack)
  | .number => some (deliver .foreign stack)
  | .text s => some (deliver (.text s) stack)
  | .brokenText => some (deliver .foreign stack)
  | .openList => some (.firstItem stack)
  | .openRecord => some (.firstKey stack)
  | _ => none

def key? : Token → Option (Option String)
  | .text s => some (some s)
  | .brokenText => some none
  | _ => none

def step : Reader → Token → Option Reader
  | .value stack, t => begin stack t
  | .firstItem stack, t =>
    if t = .closeList then some (deliver (.list []) stack) else begin (.item [] :: stack) t
  | .afterItem before stack, .closeList => some (deliver (.list before.reverse) stack)
  | .afterItem before stack, .comma => some (.value (.item before :: stack))
  | .firstKey stack, t =>
    if t = .closeRecord then some (deliver (.record []) stack)
    else (key? t).map fun key => .colon [] key stack
  | .nextKey before stack, t => (key? t).map fun key => .colon before key stack
  | .colon before key stack, .colon => some (.value (.member before key :: stack))
  | .afterMember before stack, .closeRecord => some (deliver (closeRecord before.reverse) stack)
  | .afterMember before stack, .comma => some (.nextKey before stack)
  | _, _ => none

def result? : Reader → Option Document
  | .done d => some d
  | _ => none

end Reader

/-- The value that a text writes down. -/
def parse (s : String) : Option Document := do
  let tokens ← tokens? s.toList
  (← tokens.foldlM Reader.step (.value [])).result?

/-- A list must not be longer than the record that it stands for; a plain choice holds null. -/
def layout : Document.Layout where
  surplus := false
  isUnit
    | .null => true
    | _ => false

end LedgerBridge.Json
