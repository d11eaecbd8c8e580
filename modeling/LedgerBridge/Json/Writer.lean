import LedgerBridge.Document

/-! Writing JSON: on one line without blanks, or with a line for each item and member, two spaces
further in than what is around them. -/
namespace LedgerBridge.Json

def hexCode (n : Nat) : List Char := [Nat.digitChar (n / 16), Nat.digitChar (n % 16)]

/-- A character of a text. Only quotes, backslashes and control characters are escaped. -/
def writeChar (c : Char) : List Char :=
  if c = '"' then ['\\', '"']
  else if c = '\\' then ['\\', '\\']
  else if c = '\x08' then ['\\', 'b']
  else if c = '\x0c' then ['\\', 'f']
  else if c = '\n' then ['\\', 'n']
  else if c = '\r' then ['\\', 'r']
  else if c = '\t' then ['\\', 't']
  else if c.toNat < 0x20 then ['\\', 'u', '0', '0'] ++ hexCode c.toNat
  else [c]

def writeText (s : String) : List Char := '"' :: s.toList.flatMap writeChar ++ ['"']

/-- A foreign value is written as one of them. -/
def writeForeign : List Char := ['-', '1']

def writeBool (b : Bool) : List Char := if b then ['t', 'r', 'u', 'e'] else ['f', 'a', 'l', 's', 'e']

mutual

def writeChars : Document → List Char
  | .null => ['n', 'u', 'l', 'l']
  | .bool b => writeBool b
  | .natural n => Decimal.write n
  | .text s => writeText s
  | .list [] => ['[', ']']
  | .list (d :: items) => '[' :: writeChars d ++ writeItems items
  | .record [] => ['\x7b', '\x7d']
  | .record ((key, d) :: members) =>
    '\x7b' :: writeText key ++ ':' :: writeChars d ++ writeMembers members
  | .foreign => writeForeign

def writeItems : List Document → List Char
  | [] => [']']
  | d :: items => ',' :: writeChars d ++ writeItems items

def writeMembers : List (String × Document) → List Char
  | [] => ['\x7d']
  | (key, d) :: members => ',' :: writeText key ++ ':' :: writeChars d ++ writeMembers members

end

def newLine (depth : Nat) : List Char := '\n' :: List.replicate (2 * depth) ' '

mutual

def prettyChars (depth : Nat) : Document → List Char
  | .null => ['n', 'u', 'l', 'l']
  | .bool b => writeBool b
  | .natural n => Decimal.write n
  | .text s => writeText s
  | .list [] => ['[', ']']
  | .list (d :: items) =>
    '[' :: newLine (depth + 1) ++ prettyChars (depth + 1) d ++ prettyItems depth items
  | .record [] => ['\x7b', '\x7d']
  | .record ((key, d) :: members) =>
    '\x7b' :: newLine (depth + 1) ++ writeText key ++ ':' :: ' ' :: prettyChars (depth + 1) d ++
      prettyMembers depth members
  | .foreign => writeForeign

def prettyItems (depth : Nat) : List Document → List Char
  | [] => newLine depth ++ [']']
  | d :: items =>
    ',' :: newLine (depth + 1) ++ prettyChars (depth + 1) d ++ prettyItems depth items

def prettyMembers (depth : Nat) : List (String × Document) → List Char
  | [] => newLine depth ++ ['\x7d']
  | (key, d) :: members =>
    ',' :: newLine (depth + 1) ++ writeText key ++ ':' :: ' ' :: prettyChars (depth + 1) d ++
      prettyMembers depth members

end

def write (d : Document) : String := .ofList (writeChars d)

def pretty (d : Document) : String := .ofList (prettyChars 0 d)

end LedgerBridge.Json
