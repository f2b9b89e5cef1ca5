/-
Where syntax trees come from. The readers of models and tests take a tree as given: a
`Grammar` says which tree a text has, or at which place and in what words it is refused,
and what is proved of the readers is proved of every grammar. `Grammar.ordinary` is the
one that runs. It follows the grammars of the two languages on sources as they are
written, and does not tell where a text departs from them.
-/
import Concord.Source.Braced.Item
import Concord.Source.Fault
import Concord.Source.Indented.Statement

namespace Concord.Source

/-- How texts become syntax trees. -/
structure Grammar where
  /-- The statements of a source in indented blocks. -/
  statements : (source origin : String) → Except Fault (List Indented.Statement)
  /-- The items of a source in braces. -/
  items : (source origin : String) → Except Fault (List Braced.Item)

/-- The fault of a text without a tree. -/
def malformed (origin : String) : Fault := .syntaxError origin 0 0 "unexpected syntax"

/-- The grammars of sources as they are written. -/
def Grammar.ordinary : Grammar where
  statements source origin := (Indented.statements? source.toList).elim (.error (malformed origin)) .ok
  items source origin := (Braced.items? source.toList).elim (.error (malformed origin)) .ok

end Concord.Source
