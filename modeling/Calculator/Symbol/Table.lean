import Calculator.Symbol.Context
import Calculator.Text.LowerCase
import Std.Data.TreeMap.Basic
/-!
# Symbol tables

A table holds variables and functions under the lower case of their names,
so the case of a name never matters. `bind` gives a variable its value and
`register` gives a function its operation; neither turns one kind into the
other. A variable keeps the spelling it was first bound with, a function
takes that of its last registration. `bindAll` and `registerAll` stop at
the first failure and keep what came before it.
-/

namespace Calculator

/-- A name asked to be of one kind that is of the other already. -/
structure SymbolError where
  name : String
  expected : SymbolKind
  found : SymbolKind
deriving DecidableEq, Repr

/-- The text of the error, in which the name is spelled as it was asked for. -/
def SymbolError.message (error : SymbolError) : String :=
  "`" ++ error.name ++ "` is a " ++ error.found.text ++ ", not a " ++ error.expected.text

/-- A name, as it is spelled, and what it stands for. -/
structure Symbol where
  name : String
  meaning : Meaning

/-- Variables and functions, each under the lower case of its name. -/
structure SymbolTable where
  symbols : Std.TreeMap String Symbol

namespace SymbolTable

/-- The table without symbols. -/
def empty : SymbolTable := ⟨∅⟩

/-- What two spellings of a name have in common. -/
def key (name : String) : String := Text.lowerCase name

/-- How many symbols there are. -/
def size (table : SymbolTable) : Nat := table.symbols.size

/-- There are none. -/
def isEmpty (table : SymbolTable) : Bool := table.symbols.isEmpty

/-- The symbol of a name. -/
def symbol? (table : SymbolTable) (name : String) : Option Symbol := table.symbols[key name]?

/-- What a name stands for. -/
def lookup (table : SymbolTable) (name : String) : Option Meaning :=
  (table.symbol? name).map Symbol.meaning

/-- The name stands for something. -/
def contains (table : SymbolTable) (name : String) : Bool := (table.symbol? name).isSome

/-- All symbols, in the order of their keys. -/
def toList (table : SymbolTable) : List Symbol := table.symbols.toList.map Prod.snd

/-- The variables with their values, each name spelled as in the table. -/
def variableList (table : SymbolTable) : List (String × Float) :=
  table.toList.filterMap fun symbol =>
    match symbol.meaning with
    | .var value => some (symbol.name, value)
    | .fn _ => none

/-- **A table is a context**, in which letter case does not matter. -/
def context (table : SymbolTable) : Context := ⟨table.lookup⟩

/-- Puts a symbol under the key of a name. -/
def insert (table : SymbolTable) (name : String) (symbol : Symbol) : SymbolTable :=
  ⟨table.symbols.insert (key name) symbol⟩

/-- **Gives a variable its value**, unless the name is a function. -/
def bind (table : SymbolTable) (name : String) (value : Float) : Except SymbolError SymbolTable :=
  match table.symbol? name with
  | none => .ok (table.insert name ⟨name, .var value⟩)
  | some ⟨spelling, .var _⟩ => .ok (table.insert name ⟨spelling, .var value⟩)
  | some ⟨_, .fn _⟩ => .error ⟨name, .var, .fn⟩

/-- **Gives a function its operation**, unless the name is a variable. -/
def register (table : SymbolTable) (name : String) (operation : Operation) :
    Except SymbolError SymbolTable :=
  match table.symbol? name with
  | some ⟨_, .var _⟩ => .error ⟨name, .fn, .var⟩
  | _ => .ok (table.insert name ⟨name, .fn operation⟩)

/-- Binds variables in order, up to the first failure. -/
def bindAll (table : SymbolTable) : List (String × Float) → Except SymbolError Unit × SymbolTable
  | [] => (.ok (), table)
  | (name, value) :: rest =>
    match table.bind name value with
    | .ok table => table.bindAll rest
    | .error error => (.error error, table)

/-- Registers functions in order, up to the first failure. -/
def registerAll (table : SymbolTable) :
    List (String × Operation) → Except SymbolError Unit × SymbolTable
  | [] => (.ok (), table)
  | (name, operation) :: rest =>
    match table.register name operation with
    | .ok table => table.registerAll rest
    | .error error => (.error error, table)

end SymbolTable

end Calculator
