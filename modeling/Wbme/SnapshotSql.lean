import Wbme.Contracts

/-! # Department snapshots in SQL

What a query makes of the elements of a department snapshot: the id of an element as an
integer, and whether an id is one of a department closure.
-/

namespace Wbme

inductive CastId where
  | null
  | id (n : Int)
  | failed

/-- The values of the type `integer`. -/
def isInt4 (n : Int) : Bool := decide (-2147483648 ≤ n) && decide (n ≤ 2147483647)

/-- Read the id of an element. Only an object has one; text goes through the database's own
reading of integers. -/
def castId (textToInt : String → Option Int) : Json → CastId
  | .obj fields =>
      match Json.field? fields "id" with
      | none => .null
      | some .null => .null
      | some (.num n) => if isInt4 n then .id n else .failed
      | some (.str s) =>
          match textToInt s with
          | some n => .id n
          | none => .failed
      | some _ => .failed
  | _ => .null

def inClosure (closure : List Nat) (n : Int) : Bool := closure.any fun d => (d : Int) == n

end Wbme
