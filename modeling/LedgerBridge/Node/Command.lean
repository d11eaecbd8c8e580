import LedgerBridge.Text.Numerals

/-! The commands of a node, read from its command line. -/
namespace LedgerBridge.CommandLine

/-! Command-line arguments as named options. An option is given once, its value stands after it or is
attached to it, and a value that stands by itself does not begin with a dash unless it is one. -/

structure OptionSpec where
  name : String
  letter : Option Char
  /-- A flag has no value. -/
  isFlag : Bool

def flag (name : String) : OptionSpec := ⟨name, none, true⟩

def long (name : String) : OptionSpec := ⟨name, none, false⟩

def lettered (name : String) (letter : Char) : OptionSpec := ⟨name, some letter, false⟩

/-- Options by name, with their values; a flag has none. -/
abbrev Given := List (String × Option String)

def Given.has (g : Given) (name : String) : Bool := g.any (·.1 = name)

def Given.value? (g : Given) (name : String) : Option String :=
  (g.find? (·.1 = name)).bind (·.2)

def add (g : Given) (name : String) (value : Option String) : Option Given :=
  if g.has name then none else some (g ++ [(name, value)])

/-- What one argument says by itself. -/
inductive Reading
  | complete (name : String) (value : Option String)
  | needsValue (name : String)
  /-- No options follow. -/
  | last

/-- Splits at the first equals sign. -/
def splitValue (cs : List Char) : String × Option String :=
  (.ofList (cs.takeWhile (· ≠ '=')),
    match cs.dropWhile (· ≠ '=') with
    | [] => none
    | _ :: value => some (.ofList value))

def readLong (specs : List OptionSpec) (cs : List Char) : Option Reading := do
  let (name, value) := splitValue cs
  let spec ← specs.find? (·.name = name)
  match spec.isFlag, value with
  | true, none => return .complete name none
  | true, some _ => none
  | false, some v => return .complete name (some v)
  | false, none => return .needsValue name

def readLettered (specs : List OptionSpec) (letter : Char) (attached : List Char) :
    Option Reading := do
  let spec ← specs.find? (·.letter = some letter)
  match attached with
  | [] => return .needsValue spec.name
  | '=' :: value => return .complete spec.name (some (.ofList value))
  | value => return .complete spec.name (some (.ofList value))

def readArgument (specs : List OptionSpec) (arg : String) : Option Reading :=
  match arg.toList with
  | ['-', '-'] => some .last
  | '-' :: '-' :: rest => readLong specs rest
  | '-' :: letter :: attached => readLettered specs letter attached
  | _ => none

def standsAlone (value : String) : Bool := value = "-" || value.toList.head? ≠ some '-'

def readAll (specs : List OptionSpec) (g : Given) : List String → Option Given
  | [] => some g
  | arg :: rest =>
    match readArgument specs arg with
    | none => none
    | some .last => if rest = [] then some g else none
    | some (.complete name value) => do readAll specs (← add g name value) rest
    | some (.needsValue name) =>
      match rest with
      | [] => none
      | value :: rest =>
        if standsAlone value then do readAll specs (← add g name (some value)) rest else none

def read (specs : List OptionSpec) (args : List String) : Option Given := readAll specs [] args

/-- A number of 64 bits, or what stands for one that is not given. -/
def Given.number? (g : Given) (name : String) (standard : Nat) : Option Nat :=
  match g.value? name with
  | none => some standard
  | some s => Decimal.read UInt64.size s

end LedgerBridge.CommandLine

namespace LedgerBridge

inductive Command
  /-- Writes a configuration for development. -/
  | init (dir : String)
  /-- Lists the methods of one precompile or of all. -/
  | methods (config precompile : Option String)
  /-- Makes one call on a new chain. -/
  | call (config precompile caller : String) (origin : Option String) (data : String) (gas : Nat)
      (readOnly : Bool)
  /-- Prints the memo of a swap. -/
  | memo (outputDenom receiver contract : String) (slippage window : Nat)
  deriving DecidableEq, Repr

namespace Command

open CommandLine

def configName : String := "strata.toml"

def readInit (args : List String) : Option Command := do
  let g ← read [lettered "dir" 'd'] args
  return .init ((g.value? "dir").getD ".")

def readMethods (args : List String) : Option Command := do
  let g ← read [lettered "config" 'c', lettered "precompile" 'p'] args
  return .methods (g.value? "config") (g.value? "precompile")

def readCall (args : List String) : Option Command := do
  let g ← read [lettered "config" 'c', lettered "precompile" 'p', long "caller", long "origin",
    lettered "data" 'd', lettered "gas" 'g', flag "read-only"] args
  return .call ((g.value? "config").getD configName) (← g.value? "precompile")
    (← g.value? "caller") (g.value? "origin") (← g.value? "data") (← g.number? "gas" 10000000)
    (g.has "read-only")

def readMemo (args : List String) : Option Command := do
  let g ← read [long "output-denom", long "receiver", long "contract", long "slippage",
    long "window"] args
  return .memo (← g.value? "output-denom") (← g.value? "receiver") (← g.value? "contract")
    (← g.number? "slippage" 5) (← g.number? "window" 10)

/-- The command that arguments ask for; none if they are not understood. -/
def parse : List String → Option Command
  | "init" :: args => readInit args
  | "methods" :: args => readMethods args
  | "call" :: args => readCall args
  | "memo" :: args => readMemo args
  | _ => none

end Command

end LedgerBridge
