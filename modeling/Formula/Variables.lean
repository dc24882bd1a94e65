import Formula.Value
import Std.Data.TreeMap

/-! Values of variables by name, with a policy for the names that are not there. -/

namespace Formula

inductive Missing where
  | error
  | null
deriving DecidableEq, Repr

structure Variables where
  values : Std.TreeMap String Value := ∅
  missing : Missing := .error

namespace Variables

def insert (known : Variables) (name : String) (value : Value) : Variables :=
  { known with values := known.values.insert name value }

/-- Later entries of a name replace earlier ones. -/
def ofList (entries : List (String × Value)) : Variables :=
  entries.foldl (fun known entry => known.insert entry.1 entry.2) {}

def withMissing (known : Variables) (missing : Missing) : Variables :=
  { known with missing }

/-- Whether a value is held, whatever the policy. -/
def contains (known : Variables) (name : String) : Bool := known.values.contains name

def value? (known : Variables) (name : String) : Option Value :=
  match known.values.get? name with
  | some value => some value
  | none =>
    match known.missing with
    | .error => none
    | .null => some .null

end Variables

end Formula
