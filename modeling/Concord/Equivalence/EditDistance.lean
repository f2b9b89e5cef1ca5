/-
Edit distance, row by row: the entry of a row at a place is the distance of a
beginning of one text from a beginning of the other.
-/
import Concord.Text.Blank

namespace Concord.Equivalence

/-- The entries of the next row after its first. `diagonal` is the entry of the row before at the
same place as the last entry `left` of the next one. -/
def nextEntries (c : Char) (diagonal left : Nat) : Text → List Nat → List Nat
  | d :: b, above :: row =>
    let entry := min (min (diagonal + if c = d then 0 else 1) (above + 1)) (left + 1)
    entry :: nextEntries c above entry b row
  | _, _ => []

/-- The row after one more character of the first text. -/
def nextRow (c : Char) (b : Text) : List Nat → List Nat
  | [] => []
  | first :: row => (first + 1) :: nextEntries c first (first + 1) b row

/-- The rows of the first text, starting from the row of its beginning. -/
def lastRow (b : Text) : Text → List Nat → List Nat
  | [], row => row
  | c :: a, row => lastRow b a (nextRow c b row)

/-- The least number of characters to insert, delete and replace to make `b` of `a`. -/
def editDistance (a b : Text) : Nat :=
  ((lastRow b a (List.range (b.length + 1))).getLast?).getD 0

end Concord.Equivalence
