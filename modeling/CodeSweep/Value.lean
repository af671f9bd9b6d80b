/-
# Values of data formats

What a JSON text or a TOML document may hold.  Tables keep the order in which their entries were
written.
-/
namespace CodeSweep

/-- A value of a data format. -/
inductive Value where
  | null
  | bool (b : Bool)
  | int (n : Int)
  /-- A number that is not written as an integer, as it was written. -/
  | real (literal : String)
  /-- A date, a time or both, as it was written. -/
  | moment (literal : String)
  | text (s : String)
  | list (items : List Value)
  | table (entries : List (String × Value))
  deriving Repr

namespace Value

/-- The value of the key in a table. -/
def get? (key : String) : Value → Option Value
  | table entries => entries.lookup key
  | _ => none

end Value

end CodeSweep
