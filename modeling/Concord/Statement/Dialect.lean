/-
How statements are written in the formats of sources.
-/
import Concord.Source.Format
import Concord.Statement.Braced
import Concord.Statement.Indented

namespace Concord.Statement

open Text

/-- A way to write statements. -/
inductive Dialect where
  | indented
  | braced (style : Braced.Header)
  /-- Nothing is known of the statements. -/
  | unread
deriving DecidableEq, Repr

namespace Dialect

def ofFormat : Source.Format → Dialect
  | .python | .pytest => indented
  | .rust => braced .bare
  | .typescript | .java => braced .parenthesised
  | .sql | .ir | .unknown => unread

def name : Dialect → String
  | indented => "python"
  | braced .bare => "rust"
  | braced .parenthesised => "c-like"
  | unread => "opaque"

/-- The shape of one statement. -/
def decompose : Dialect → Text → Shape
  | indented, t => Indented.decompose t
  | braced style, t => Braced.decompose style t
  | unread, t => .unknown (trim t)

/-- The top-level statements of a block. -/
def splitBlock : Dialect → Text → List Text
  | indented, block => Indented.splitBlock block
  | braced _, block => Braced.splitBlock block
  | unread, block => if (trim block).isEmpty then [] else [trim block]

/-- The field of the receiver that a target names. -/
def ownField? : Dialect → Text → Option Text
  | indented, target => Indented.ownField? target
  | braced _, target => Braced.ownField? target
  | unread, _ => none

end Dialect

end Concord.Statement
