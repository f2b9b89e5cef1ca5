/-
Test modules as they are found in a source: cases with their bodies as text, and
fixtures.
-/
import Concord.Order.KeyMap
import Concord.Source.Format

namespace Concord.Source

/-- One test. -/
structure Case where
  name : String
  doc : Option String := none
  decorations : List String := []
  fixtures : List String := []
  body : List String := []
  /-- A machine word, as lines are counted in memory. -/
  line : UInt64 := 0
deriving DecidableEq, Repr, Inhabited

/-- Something that tests ask for by name. -/
structure Fixture where
  name : String
  scope : String := "function"
  body : List String := []
deriving DecidableEq, Repr, Inhabited

/-- A test module. -/
structure Suite where
  name : String
  /-- What is tested. -/
  subject : String := ""
  framework : String := ""
  format : Format
  cases : List Case := []
  fixtures : List Fixture := []
  metadata : KeyMap String := .empty
deriving DecidableEq, Inhabited

end Concord.Source
