/-
What a single statement is, told from its text alone.
-/
import Concord.Text.Blank

namespace Concord.Statement

/-- The shape of one statement. The parts are texts; statements inside a suite are texts again. -/
inductive Shape where
  | assignment (target value : Text)
  /-- `otherwise` is `none` when there is no other branch at all. -/
  | conditional (condition : Text) (yes : List Text) (otherwise : Option (List Text))
  | loop (range : Text) (body : List Text)
  | call (text : Text)
  | returning (value : Option Text)
  | raising (error : Text)
  | unknown (text : Text)
deriving DecidableEq, Repr

/-- The statements that stand inside a statement. -/
def Shape.children : Shape → List Text
  | .conditional _ yes otherwise => yes ++ otherwise.getD []
  | .loop _ body => body
  | _ => []

end Concord.Statement
