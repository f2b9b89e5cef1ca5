/-
Statements as trees, and the two ways to write them: with suites that are indented
below a header with a colon, and with suites in braces and semicolons after simple
statements. Both ways write the same simple statements, headers and conditions, which
are texts of one line.
-/
import Concord.Proofs.Code.Split
import Concord.Proofs.Text.Lines
import Concord.Statement.Dialect

namespace Concord.Statement

open Text Code

/-! ## Parts of one line -/

/-- A character that neither ends a header nor begins or ends a block. -/
def isInline (c : Char) : Bool := c != ':' && c != ';' && c != '{' && c != '}'

/-- A text that stands as an expression, a condition or a header on one line. A brace that closes at
its top level could only match a bracket of another kind. -/
structure IsPhrase (t : Text) : Prop where
  nonempty : t ≠ []
  trimmed : trim t = t
  oneLine : '\n' ∉ t
  closed : Closed t
  top : TopAll isInline t
  unescaped : t.getLast? ≠ some '\\'

instance (t : Text) : Decidable (IsPhrase t) :=
  decidable_of_iff
    (t ≠ [] ∧ trim t = t ∧ '\n' ∉ t ∧ Closed t ∧ TopAll isInline t ∧
      t.getLast? ≠ some '\\')
    ⟨fun ⟨h1, h2, h3, h4, h5, h6⟩ => ⟨h1, h2, h3, h4, h5, h6⟩, fun h => ⟨h.1, h.2, h.3, h.4, h.5, h.6⟩⟩

structure Phrase where
  text : Text
  isPhrase : IsPhrase text

/-- The condition of a conditional: no group as a whole. -/
structure Condition extends Phrase where
  bare : isParenthesised text = false

/-- The name of a field: letters, digits and underscores of ASCII. -/
structure FieldName where
  text : Text
  nonempty : text ≠ []
  ascii : ∀ c ∈ text, (isAsciiLetter c || isAsciiDigit c || c == '_') = true

/-- The words that begin or continue a compound statement when a parenthesis follows. -/
def compoundWords : List Text :=
  ["if".toList, "for".toList, "while".toList, "loop".toList, "elif".toList, "except".toList,
    "finally".toList]

/-- A character of a dotted name. -/
def isPathChar (c : Char) : Bool := isAlphanumeric c || c == '_' || c == '.'

def callText (path arguments : Text) : Text := path ++ '(' :: (arguments ++ [')'])

/-- A call that stands as a statement. -/
structure Call where
  path : Text
  arguments : Text
  start : (path.head?.any fun c => isAlphabetic c || c == '_') = true
  chars : ∀ c ∈ path, isPathChar c = true
  unreserved : path ∉ compoundWords
  notElse : startsWith path "else".toList = false
  oneLine : '\n' ∉ arguments
  closed : Closed arguments
  kept : endsWith (callText path arguments) ".unwrap()".toList = false

/-- A statement without a suite. -/
inductive Simple where
  | assign (field : FieldName) (value : Phrase)
  | call (c : Call)
  | finish
  | give (value : Phrase)

def Simple.text : Simple → Text
  | .assign f e => "self.".toList ++ (f.text ++ (" = ".toList ++ e.text))
  | .call c => callText c.path c.arguments
  | .finish => "return".toList
  | .give e => "return ".toList ++ e.text

/-- The words that begin a loop. -/
inductive LoopWord where
  | whilst
  | each
deriving DecidableEq, Repr

def LoopWord.text : LoopWord → Text
  | whilst => "while".toList
  | each => "for".toList

/-! ## Trees -/

mutual

/-- A statement with all that stands inside it. -/
inductive Tree where
  | simple (s : Simple)
  | branch (c : Condition) (yes : Suite)
  | fork (c : Condition) (yes no : Suite)
  | loop (w : LoopWord) (header : Phrase) (body : Suite)

/-- One statement or more. -/
inductive Suite where
  | last (s : Tree)
  | more (s : Tree) (rest : Suite)

end

def Suite.trees : Suite → List Tree
  | .last s => [s]
  | .more s rest => s :: rest.trees

mutual

/-- How deep statements stand inside each other. -/
def Tree.height : Tree → Nat
  | .simple _ => 0
  | .branch _ yes => yes.height + 1
  | .fork _ yes no => max yes.height no.height + 1
  | .loop _ _ body => body.height + 1

def Suite.height : Suite → Nat
  | .last s => s.height
  | .more s rest => max s.height rest.height

end

def Simple.shape : Simple → Shape
  | .assign f e => .assignment ("self.".toList ++ f.text) e.text
  | .call c => .call (callText c.path c.arguments)
  | .finish => .returning none
  | .give e => .returning (some e.text)

/-- The shape of a statement whose inner statements are written by `child`. -/
def Tree.shape (child : Tree → Text) : Tree → Shape
  | .simple s => s.shape
  | .branch c yes => .conditional c.text (yes.trees.map child) none
  | .fork c yes no => .conditional c.text (yes.trees.map child) (some (no.trees.map child))
  | .loop _ header body => .loop header.text (body.trees.map child)

/-! ## Suites that are indented -/

/-- A keyword and a header up to its colon. -/
def colonLine (word header : Text) : Text := word ++ ' ' :: (header ++ [':'])

mutual

/-- The lines of a statement whose suites are indented by `n + 1` spaces. -/
def Tree.lines (n : Nat) : Tree → List Text
  | .simple s => [s.text]
  | .branch c yes => colonLine "if".toList c.text :: (yes.lines n).map (indent (n + 1))
  | .fork c yes no => colonLine "if".toList c.text :: ((yes.lines n).map (indent (n + 1)) ++
      "else:".toList :: (no.lines n).map (indent (n + 1)))
  | .loop w header body => colonLine w.text header.text :: (body.lines n).map (indent (n + 1))

def Suite.lines (n : Nat) : Suite → List Text
  | .last s => s.lines n
  | .more s rest => s.lines n ++ rest.lines n

end

def Tree.indented (n : Nat) (s : Tree) : Text := join ['\n'] (s.lines n)

/-! ## Suites in braces -/

/-- A keyword and a header before its brace. -/
def opening (word header : Text) : Text := word ++ ' ' :: (header ++ [' '])

/-- A new line at a depth, with `m` spaces for each level. -/
def newline (m depth : Nat) : Text := '\n' :: List.replicate (m * depth) ' '

/-- A suite in its braces, the last of which stands on a line of its own. -/
def block (m depth : Nat) (suite : Text) : Text := '{' :: ((suite ++ newline m depth) ++ ['}'])

mutual

/-- The text of a statement that stands at a depth, with its suites in braces. -/
def Tree.braced (m depth : Nat) : Tree → Text
  | .simple s => s.text ++ [';']
  | .branch c yes => opening "if".toList c.text ++ block m depth (yes.braced m depth)
  | .fork c yes no => opening "if".toList c.text ++
      (block m depth (yes.braced m depth) ++ (" else ".toList ++ block m depth (no.braced m depth)))
  | .loop w header body => opening w.text header.text ++ block m depth (body.braced m depth)

/-- The statements of a suite, each on a new line one level deeper. -/
def Suite.braced (m depth : Nat) : Suite → Text
  | .last s => newline m (depth + 1) ++ s.braced m (depth + 1)
  | .more s rest => newline m (depth + 1) ++ (s.braced m (depth + 1) ++ rest.braced m depth)

end

end Concord.Statement
