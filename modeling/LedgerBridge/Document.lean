import LedgerBridge.Text.Numerals

/-! Structured data as a notation writes it down, and how a record is laid out in it. Of numbers
only naturals are told apart; whatever else a notation can write is one value, `foreign`, which no
field of a record accepts. -/
namespace LedgerBridge

inductive Document
  | null
  | bool (b : Bool)
  | natural (n : Nat)
  | text (s : String)
  | list (items : List Document)
  | record (members : List (String × Document))
  | foreign
  deriving Inhabited, Repr

namespace Document

/-- Where notations differ in what may stand for a record or a choice. -/
structure Layout where
  /-- A list that stands for a record may have more items than the record has fields. -/
  surplus : Bool
  /-- What the only member of a record holds that stands for a plain choice. -/
  isUnit : Document → Bool

/-- The member of that name, if there is one; fails if there are more. -/
def member? (name : String) : List (String × Document) → Option (Option Document)
  | [] => some none
  | (key, d) :: rest => do
    let other ← member? name rest
    if key = name then
      match other with
      | none => return some d
      | some _ => none
    else return other

/-- What a list holds for each of the fields, in order. -/
def positional : (fields : List String) → List Document → List (Option Document)
  | [], _ => []
  | _ :: fields, [] => none :: positional fields []
  | _ :: fields, d :: rest => some d :: positional fields rest

/-- The fields of a record, which is written by name in any order, or as a list in order. Members of
other names are skipped. -/
def fields? (layout : Layout) (fields : List String) : Document → Option (List (Option Document))
  | record members => fields.mapM fun name => member? name members
  | list items =>
    if fields.length < items.length && !layout.surplus then none else some (positional fields items)
  | _ => none

/-- The name of a plain choice. -/
def choice? (layout : Layout) : Document → Option String
  | text s => some s
  | record [(name, d)] => if layout.isUnit d then some name else none
  | _ => none

def text? : Document → Option String
  | text s => some s
  | _ => none

def bool? : Document → Option Bool
  | bool b => some b
  | _ => none

/-- A natural number below a limit. -/
def natural? (limit : Nat) : Document → Option Nat
  | natural n => if n < limit then some n else none
  | _ => none

def list? : Document → Option (List Document)
  | list items => some items
  | _ => none

/-- A part that may be null. -/
def optional? (read : Document → Option α) : Document → Option (Option α)
  | null => some none
  | d => (read d).map some

/-- A field that need not be given. -/
def orElse (d : Option Document) (standard : α) (read : Document → Option α) : Option α :=
  d.elim (some standard) read

/-- A member that is left out if there is nothing to say. -/
def optionalMember (key : String) (write : α → Document) : Option α → List (String × Document)
  | none => []
  | some a => [(key, write a)]

end Document

end LedgerBridge
