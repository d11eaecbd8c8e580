import LedgerBridge.Document
import LedgerBridge.Toml.Number

/-! Reading a TOML text: its lines, from them tables, and from these one record. -/
namespace LedgerBridge.Toml

/-! Tables under construction. Where a table may be extended depends on how it came to be. -/

/-- How a table came to be: under a header of its own, as a part of the header of another table, or
as a part of a dotted key. -/
inductive Origin
  | header
  | path
  | dotted
  deriving DecidableEq, Repr

inductive Node
  | value (d : Document)
  | table (origin : Origin) (members : List (String × Node))
  /-- Tables under headers in double brackets, in order. -/
  | rows (tables : List (List (String × Node)))

abbrev Members := List (String × Node)

def Members.get? (ms : Members) (key : String) : Option Node := (ms.find? (·.1 = key)).map (·.2)

def Members.put (ms : Members) (key : String) (node : Node) : Members :=
  ms.filter (·.1 ≠ key) ++ [(key, node)]

/-- A change to the table at the end of a path. Tables that are missing on the way are made, with the
origin given. A dotted key does not lead into a table that has a header; any path leads into the last
of several rows. -/
def within (origin : Origin) (change : Origin → Members → Option Members) :
    (path : List String) → Origin → Members → Option Members
  | [], here, ms => change here ms
  | key :: path, _, ms =>
    match ms.get? key with
    | none => do
      return ms.put key (.table origin (← within origin change path origin []))
    | some (.value _) => none
    | some (.table there inner) =>
      if origin = .dotted && there = .header then none
      else do return ms.put key (.table there (← within origin change path there inner))
    | some (.rows tables) =>
      match tables.getLast? with
      | none => none
      | some last => do
        return ms.put key (.rows (tables.dropLast ++ [← within origin change path .header last]))

/-- Adds a value under a key that is not in use. Dotted keys add to tables of dotted keys, plain keys
to others. -/
def addValue (ms : Members) (path : List String) (d : Document) : Option Members := do
  let key ← path.getLast?
  let parents := path.dropLast
  within .dotted (fun here inner =>
    if here = .dotted ↔ parents = [] then none
    else if (inner.get? key).isSome then none
    else some (inner.put key (.value d))) parents .header ms

def addValues (ms : Members) (pairs : List (List String × Document)) : Option Members :=
  pairs.foldlM (fun ms (path, d) => addValue ms path d) ms

/-- Adds a table under a header. Only a table that was made as part of a path may be there already. -/
def addTable (root : Members) (path : List String) (pairs : List (List String × Document)) :
    Option Members := do
  let key ← path.getLast?
  within .path (fun _ ms =>
    match ms.get? key with
    | none => do return ms.put key (.table .header (← addValues [] pairs))
    | some (.table .path inner) => do return ms.put key (.table .header (← addValues inner pairs))
    | some _ => none) path.dropLast .header root

/-- Adds one more row under a header in double brackets. -/
def addRow (root : Members) (path : List String) (pairs : List (List String × Document)) :
    Option Members := do
  let key ← path.getLast?
  within .path (fun _ ms =>
    match ms.get? key with
    | none => do return ms.put key (.rows [← addValues [] pairs])
    | some (.rows tables) => do return ms.put key (.rows (tables ++ [← addValues [] pairs]))
    | some _ => none) path.dropLast .header root

mutual

def Node.toDocument : Node → Document
  | .value d => d
  | .table _ members => .record (membersToDocuments members)
  | .rows tables => .list (tablesToDocuments tables)

def membersToDocuments : List (String × Node) → List (String × Document)
  | [] => []
  | (key, node) :: rest => (key, node.toDocument) :: membersToDocuments rest

def tablesToDocuments : List (List (String × Node)) → List Document
  | [] => []
  | members :: rest => .record (membersToDocuments members) :: tablesToDocuments rest

end

/-! Reading a TOML text: its lines, and from them one record. -/

open Scan

/-- A value and what is around it in a list. -/
def listItems (value : Scan Document) : Scan (List Document) := do
  let items ← separated (char ',') (between gap gap value)
  if items ≠ [] then discard (option (char ','))
  gap
  return items

def pair (value : Scan Document) : Scan (List String × Document) := do
  let key ← key
  char '='
  return (key, ← between spaces spaces value)

def inlineRecord (value : Scan Document) : Scan Document := do
  let pairs ← separated (char ',') (pair value)
  spaces
  match addValues [] pairs with
  | some ms => return .record (membersToDocuments ms)
  | none => failure

def scalar : Scan Document :=
  (.text <$> text) <|> number <|>
    (word ['t', 'r', 'u', 'e'] *> pure (.bool true)) <|>
    (word ['f', 'a', 'l', 's', 'e'] *> pure (.bool false))

/-- A value that holds others down to a depth. -/
def valueTo : (depth : Nat) → Scan Document
  | 0 => scalar
  | depth + 1 =>
    scalar <|>
      (.list <$> between (char '[') (char ']') (listItems (valueTo depth))) <|>
      between (char '\x7b') (char '\x7d') (inlineRecord (valueTo depth))

def value : Scan Document := valueTo (depthLimit - 1)

inductive Line
  | blank
  | header (path : List String)
  | rowHeader (path : List String)
  | pair (path : List String) (d : Document)

def line : Scan Line :=
  (comment *> lineEnd *> pure .blank) <|>
    (newline *> pure .blank) <|>
    (do let path ← between (word ['[', '[']) (word [']', ']']) key
        lineRest
        return .rowHeader path) <|>
    (do let path ← between (char '[') (char ']') key
        lineRest
        return .header path) <|>
    (do let key ← key
        char '='
        spaces
        let d ← value
        lineRest
        return .pair key d)

def lines : Scan (List Line) := do
  discard (option (char '\uFEFF'))
  spaces
  let lines ← many (line <* spaces)
  if ← atEnd then return lines else failure

/-- The pairs before the first header, and each header with the pairs that follow it. -/
def sections : List Line → List (List String × Document) × List (Line × List (List String × Document))
  | [] => ([], [])
  | .blank :: rest => sections rest
  | .pair path d :: rest =>
    let (pairs, headed) := sections rest
    ((path, d) :: pairs, headed)
  | header :: rest =>
    let (pairs, headed) := sections rest
    ([], (header, pairs) :: headed)

def addSection (root : Members) : Line × List (List String × Document) → Option Members
  | (.header path, pairs) => addTable root path pairs
  | (.rowHeader path, pairs) => addRow root path pairs
  | _ => some root

def parse (s : String) : Option Document := do
  let (lines, _) ← lines s.toList
  let (pairs, headed) := sections lines
  let root ← headed.foldlM addSection (← addValues [] pairs)
  return .record (membersToDocuments root)

/-- A list may be longer than the record that it stands for; a plain choice holds an empty record or
list. -/
def layout : Document.Layout where
  surplus := true
  isUnit
    | .list [] => true
    | .record [] => true
    | _ => false

end LedgerBridge.Toml
