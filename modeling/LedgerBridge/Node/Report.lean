import LedgerBridge.Precompile.Run
import LedgerBridge.Token

/-! What a node shows: what a single call did, and the methods of a precompile. -/
namespace LedgerBridge

/-! What a single call did, for a reader. -/

structure CallRequest where
  caller : Address
  origin : Address
  input : Bytes
  gas : Nat
  readOnly : Bool

structure CallReport where
  precompile : String
  address : Address
  result : Except CallError CallOutput
  gasUsed : Nat

namespace Precompile

def frame (r : CallRequest) : Frame := ⟨r.caller, r.input, r.gas⟩

/-- Runs a call and reports on it, with the store that it leaves. -/
def report (p : Precompile) (time : UInt64) (s : Store) (r : CallRequest) : CallReport × Store :=
  let done := p.run time s (frame r) r.origin r.readOnly
  (⟨p.name, p.address, done.result, r.gas - done.frame.gas⟩, done.store)

end Precompile

def Log.toDocument (l : Log) : Document :=
  .record [("address", .ofAddress l.address),
    ("topics", .list (l.topics.map fun topic => .text (Hex.encodeMarked topic))),
    ("data", .text (Hex.encodeMarked l.data))]

def Direction.text : Direction → String
  | add => "add"
  | sub => "sub"

def BalanceChange.toDocument (c : BalanceChange) : Document :=
  .record [("address", .ofAddress c.address), ("amount", .text c.amount.text),
    ("op", .text c.direction.text)]

namespace CallReport

def error? (r : CallReport) : Option CallError :=
  match r.result with
  | .ok _ => none
  | .error e => some e

def toDocument (r : CallReport) : Document :=
  let (success, output, logs, changes) := match r.result with
    | .ok out => (true, out.data, out.logs, out.changes)
    | .error e => (false, e.revertData, [], [])
  .record ([("precompile", .text r.precompile), ("address", .ofAddress r.address),
    ("success", .bool success), ("output", .text (Hex.encodeMarked output)),
    ("gas_used", .natural r.gasUsed)] ++
    Document.optionalMember "error" (.text ·.message) r.error? ++
    [("logs", .list (logs.map Log.toDocument)),
      ("balance_changes", .list (changes.map BalanceChange.toDocument))])

end CallReport

end LedgerBridge

namespace LedgerBridge.MethodsTable

/-! The methods of a precompile as a table in box-drawing characters: a column for each property, as
wide as its widest entry. Numbers stand to the right, all else to the left. -/

def cells (m : MethodInfo) : List String :=
  [Hex.encodeMarked m.selector, m.signature, m.kind.text, toString m.gas]

def headings : List String := ["Selector", "Method", "Kind", "Gas"]

def rightAligned : List Bool := [false, false, false, true]

def width (column : List String) : Nat := (column.map String.length).foldl max 0

def widths (rows : List (List String)) : List Nat :=
  (List.range headings.length).map fun i => width (rows.map fun row => row.getD i "")

def blanks (n : Nat) : String := .ofList (List.replicate n ' ')

def pad (right : Bool) (width : Nat) (cell : String) : String :=
  let fill := blanks (width - cell.length)
  if right then fill ++ cell else cell ++ fill

def row (alignments : List Bool) (widths : List Nat) (cells : List String) : String :=
  let padded := (alignments.zip (widths.zip cells)).map fun (right, width, cell) =>
    s!" {pad right width cell} "
  "│" ++ "┆".intercalate padded ++ "│"

/-- A line between rows, drawn with `stroke` and closed by the other three. -/
def rule (first : String) (stroke : Char) (crossing last : String) (widths : List Nat) : String :=
  let strokes := widths.map fun width => String.ofList (List.replicate (width + 2) stroke)
  first ++ crossing.intercalate strokes ++ last

def lines (methods : List MethodInfo) : List String :=
  let body := methods.map cells
  let ws := widths (headings :: body)
  let bodyLines := (body.map (row rightAligned ws)).intersperse (rule "├" '╌' "┼" "┤" ws)
  rule "┌" '─' "┬" "┐" ws :: row (headings.map fun _ => false) ws headings ::
    rule "╞" '═' "╪" "╡" ws :: bodyLines ++ [rule "└" '─' "┴" "┘" ws]

def text (methods : List MethodInfo) : String := "\n".intercalate (lines methods)

/-- The table under a line that names the precompile. -/
def listing (p : Precompile) : String :=
  .join ((s!"{p.name} at {p.address.text}" :: lines p.methods).map fun line => s!"  {line}\n")

end LedgerBridge.MethodsTable
