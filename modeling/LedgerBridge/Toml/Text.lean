import LedgerBridge.Text.Numerals

/-! What a TOML text is made of, each part taken from the front of it by a scanner. -/
namespace LedgerBridge.Toml

/-! Scanners: they take something from the front of a text, or fail and take nothing. -/

abbrev Scan := StateT (List Char) Option

namespace Scan

def peek? : Scan (Option Char) := fun cs => some (cs.head?, cs)

def atEnd : Scan Bool := fun cs => some (cs.isEmpty, cs)

/-- One character that passes the test. -/
def one (test : Char → Bool) : Scan Char
  | [] => none
  | c :: rest => if test c then some (c, rest) else none

def char (c : Char) : Scan Unit := discard (one (· = c))

def word (cs : List Char) : Scan Unit := cs.forM char

/-- All characters up to the first that fails the test. -/
def span (test : Char → Bool) : Scan (List Char) := fun cs =>
  some (cs.takeWhile test, cs.dropWhile test)

def span1 (test : Char → Bool) : Scan (List Char) := do
  return (← one test) :: (← span test)

def option (p : Scan α) : Scan (Option α) := some <$> p <|> pure none

def manyFrom (p : Scan α) (cs : List Char) : List α × List Char :=
  match p cs with
  | none => ([], cs)
  | some (a, rest) =>
    if rest.length < cs.length then
      let (items, rest) := manyFrom p rest
      (a :: items, rest)
    else ([a], rest)
termination_by cs.length

/-- As often as possible, and no more once nothing is taken. -/
def many (p : Scan α) : Scan (List α) := fun cs => some (manyFrom p cs)

def separated (mark : Scan Unit) (p : Scan α) : Scan (List α) :=
  (do return (← p) :: (← many (mark *> p))) <|> pure []

def between (first : Scan Unit) (last : Scan Unit) (p : Scan α) : Scan α := first *> p <* last

end Scan

/-! Blanks, comments, keys and the four forms of texts. -/

open Scan

def isSpace (c : Char) : Bool := c = ' ' || c = '\t'

/-- May stand in a comment or text as it is. -/
def isPlain (c : Char) : Bool := c = '\t' || (0x20 ≤ c.toNat && c.toNat ≠ 0x7F)

def spaces : Scan Unit := discard (span isSpace)

def newline : Scan Unit := char '\n' <|> word ['\r', '\n']

def comment : Scan Unit := char '#' *> discard (span isPlain)

/-- The end of a line, or of the whole text. -/
def lineEnd : Scan Unit := do
  if ← atEnd then pure () else newline

/-- What may follow a statement on its line. -/
def lineRest : Scan Unit := do
  spaces
  discard (option comment)
  lineEnd

/-- Blanks, line breaks and comments. -/
def gap : Scan Unit :=
  discard (many (discard (span1 isSpace) <|> newline <|> comment))

def hexDigit : Scan Nat := do
  match Hex.digitValue? (← one fun _ => true) with
  | some d => return d
  | none => failure

/-- A character given by so many hexadecimal digits. -/
def codePoint (digits : Nat) : Scan Char := do
  let n ← (List.replicate digits ()).foldlM (fun n _ => return 16 * n + (← hexDigit)) 0
  if h : n.isValidChar then return Char.ofNatAux n h else failure

def escape : Scan Char := do
  char '\\'
  match ← one fun _ => true with
  | 'b' => return '\x08'
  | 't' => return '\t'
  | 'n' => return '\n'
  | 'f' => return '\x0c'
  | 'r' => return '\r'
  | '"' => return '"'
  | '\\' => return '\\'
  | 'u' => codePoint 4
  | 'U' => codePoint 8
  | _ => failure

def isBasic (c : Char) : Bool := isPlain c && c ≠ '"' && c ≠ '\\'

def isLiteral (c : Char) : Bool := isPlain c && c ≠ '\x27'

def basicText : Scan (List Char) := do
  let parts ← between (char '"') (char '"') (many (span1 isBasic <|> List.singleton <$> escape))
  return parts.flatten

def literalText : Scan (List Char) := between (char '\x27') (char '\x27') (span isLiteral)

/-- One or two quotes that do not begin the end of a text. -/
def innerQuotes (quote : Char) : Scan (List Char) := do
  let quotes ← span1 (· = quote)
  if quotes.length ≤ 2 && !(← atEnd) then return quotes else failure

/-- The end of a text of several lines, and up to two quotes that belong to the text. -/
def closingQuotes (quote : Char) : Scan (List Char) := do
  let quotes ← span1 (· = quote)
  if 3 ≤ quotes.length && quotes.length ≤ 5 then return quotes.drop 3 else failure

/-- A backslash at the end of a line joins it to the next text. -/
def lineJoin : Scan (List Char) := do
  char '\\'
  spaces
  newline
  discard (many (discard (span1 isSpace) <|> newline))
  return []

def lineBreak : Scan (List Char) := newline *> pure ['\n']

/-- A text of several lines, without the line break that may follow the opening quotes. -/
def longText (quote : Char) (part : Scan (List Char)) : Scan (List Char) := do
  word [quote, quote, quote]
  discard (option newline)
  let parts ← many (part <|> lineBreak <|> innerQuotes quote)
  return parts.flatten ++ (← closingQuotes quote)

def longBasicText : Scan (List Char) :=
  longText '"' (span1 isBasic <|> lineJoin <|> List.singleton <$> escape)

def longLiteralText : Scan (List Char) := longText '\x27' (span1 isLiteral)

def text : Scan String :=
  .ofList <$> (longBasicText <|> basicText <|> longLiteralText <|> literalText)

def isBareKey (c : Char) : Bool := c.isAlphanum || c = '-' || c = '_'

def simpleKey : Scan String :=
  .ofList <$> (basicText <|> literalText <|> span1 isBareKey)

/-- How deep values and keys may be nested. -/
def depthLimit : Nat := 80

/-- The parts of a key, between dots. -/
def key : Scan (List String) := do
  let parts ← separated (char '.') (between spaces spaces simpleKey)
  if parts = [] || depthLimit ≤ parts.length then failure else return parts

end LedgerBridge.Toml
