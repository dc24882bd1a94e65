import Formula.Function.Builtin
import Formula.Text.Quoted
import Std.Data.TreeMap

/-! Functions by the names they are called by. The last registration of a name counts, and
the names are listed in order. -/

namespace Formula

structure Registry where
  entries : Std.TreeMap String Function

namespace Registry

def empty : Registry := ⟨∅⟩

def insert (registry : Registry) (name : String) (function : Function) : Registry :=
  ⟨registry.entries.insert name function⟩

def insertTable (registry : Registry) (table : Table) : Registry :=
  table.foldl (fun registry entry => registry.insert entry.1 entry.2) registry

def contains (registry : Registry) (name : String) : Bool := registry.entries.contains name

def find? (registry : Registry) (name : String) : Option Function := registry.entries.get? name

def names (registry : Registry) : List String := registry.entries.keys

/-- All functions that come with the language. -/
def standard : Registry :=
  (((empty.insertTable Group.trigonometric.table).insertTable Group.hyperbolic.table).insertTable
    Group.exponential.table).insertTable Group.conditional.table

/-- The names in a form for people who look for a fault. -/
def describe (registry : Registry) : String :=
  let names := ", ".intercalate (registry.names.map Quoted.text)
  "FunctionRegistry \x7b functions: [" ++ names ++ "] \x7d"

end Registry

end Formula
