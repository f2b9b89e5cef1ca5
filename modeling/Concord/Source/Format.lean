/-
Source formats: their tags, the other spellings of a tag, and the format of a
file by its name.
-/
import Concord.Path
import Concord.Text.Case

namespace Concord.Source

open Text

/-- The format of a source. Models and test modules of one language are different formats. -/
inductive Format where
  | python
  | pytest
  | rust
  | typescript
  | java
  | sql
  /-- Units that are written as JSON already. -/
  | ir
  | unknown
deriving DecidableEq, Repr, Inhabited

namespace Format

/-- All formats, in their order. -/
def all : List Format := [python, pytest, rust, typescript, java, sql, ir, unknown]

def tag : Format → String
  | python => "python"
  | pytest => "pytest"
  | rust => "rust"
  | typescript => "typescript"
  | java => "java"
  | sql => "sql"
  | ir => "ir"
  | unknown => "unknown"

/-- The name of a format as it is listed. -/
def name : Format → String
  | python => "Python"
  | pytest => "Pytest"
  | rust => "Rust"
  | typescript => "TypeScript"
  | java => "Java"
  | sql => "Sql"
  | ir => "Ir"
  | unknown => "Unknown"

/-- The format with exactly this tag. -/
def ofTag? (t : String) : Option Format := all.find? fun f => f.tag == t

/-- The format meant by a tag in any of its spellings. -/
def ofTag (t : String) : Format :=
  match lowered (trimmed t) with
  | "python" | "py" => python
  | "pytest" => pytest
  | "rust" | "rs" => rust
  | "typescript" | "ts" | "javascript" | "js" => typescript
  | "java" => java
  | "sql" | "plpgsql" => sql
  | "ir" | "ir-json" => ir
  | _ => unknown

/-- The format of a file, by its name. -/
def ofPath (path : String) : Format :=
  let extension := String.ofList (lower (Path.extension path.toList))
  let stem := lower (Path.stem path.toList)
  if extension == "json" && endsWith stem ".ir".toList then ir
  else match extension with
    | "py" | "pyi" =>
      if startsWith stem "test_".toList || endsWith stem "_test".toList then pytest else python
    | "rs" => rust
    | "ts" | "tsx" | "js" | "jsx" | "mjs" | "cjs" => typescript
    | "java" => java
    | "sql" => sql
    | _ => unknown

/-- Whether sources of this format are tests and not models. -/
def isTest (f : Format) : Bool := f == pytest

end Format

end Concord.Source
