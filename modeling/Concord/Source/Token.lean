/-
Tokens of a source, and reading them one after the other. A reader either
consumes tokens from the front of its input or has no result; a choice tries the
second reader on the input of the first.
-/
import Concord.Source.Fragment
import Concord.Text.Letter

namespace Concord.Source

open Text

/-- Whether a word may begin with this character: an underscore, or the property XID_Start. -/
def beginsWord (c : Char) : Bool :=
  c == '_' || (isAlphabetic c && (c.toNat < 128 || !inRanges Table.dependent c.toNat)) ||
    inRanges Table.beginning c.toNat

/-- Whether a word may go on with this character: the property XID_Continue. -/
def continuesWord (c : Char) : Bool :=
  beginsWord c || isAsciiDigit c ||
    (128 ≤ c.toNat &&
      ((isWord c && !inRanges Table.enclosing c.toNat) || inRanges Table.inner c.toNat))

theorem continuesWord_of_beginsWord {c : Char} (h : beginsWord c = true) : continuesWord c = true := by
  rw [continuesWord, h, Bool.true_or, Bool.true_or]

theorem isBlank_of_beginsWord {c : Char} (h : beginsWord c = true) : isBlank c = false := by
  simp only [beginsWord, Bool.or_eq_true, Bool.and_eq_true, beq_iff_eq] at h
  rcases h with (rfl | h) | h
  · rfl
  · exact isBlank_of_isAlphanumeric (by simp [isAlphanumeric, h.1])
  · have hcode : c.toNat = 0x2118 ∨ c.toNat = 0x212E := by
      simp [inRanges, Table.beginning] at h
      omega
    rw [← Bool.not_eq_true]
    intro hblank
    have hcodes := isBlank_codes hblank (by omega)
    rcases hcode with hcode | hcode <;> simp [hcode, blankCodes] at hcodes

theorem spanLoop_cons (p : Char → Bool) (c : Char) (t done : Text) :
    List.span.loop p (c :: t) done =
      bif p c then List.span.loop p t (c :: done) else (done.reverse, c :: t) := rfl

theorem length_spanLoop_le (p : Char → Bool) (t done : Text) :
    (List.span.loop p t done).2.length ≤ t.length := by
  induction t generalizing done with
  | nil => exact Nat.le_refl _
  | cons c t ih =>
    rw [spanLoop_cons]
    cases p c with
    | true => exact Nat.le_succ_of_le (ih (c :: done))
    | false => exact Nat.le_refl _

/-- What follows a word is shorter than what follows its first character. -/
theorem length_span_le {c : Char} (h : beginsWord c = true) (rest : Text) :
    ((c :: rest).span continuesWord).2.length ≤ rest.length := by
  rw [List.span, spanLoop_cons, continuesWord_of_beginsWord h]
  exact length_spanLoop_le continuesWord rest [c]

/-- A text that begins like a word is not blank, as far as it is taken at all. -/
theorem allBlank_take_of_beginsWord {c : Char} {rest after : Text} (h : beginsWord c = true)
    (hafter : after.length ≤ rest.length) :
    allBlank ((c :: rest).take ((c :: rest).length - after.length)) = false := by
  have hblank : isBlank c = false := isBlank_of_beginsWord h
  have hpos : (c :: rest).length - after.length = rest.length - after.length + 1 := by
    rw [List.length_cons]
    omega
  rw [hpos, List.take_succ_cons]
  simp [allBlank, hblank]

/-- A name in a source, which is never blank: where a name is missing there is no tree. -/
structure Name where
  text : Text
  named : allBlank text = false

/-- A comment: where it ends, and its indentation if it has a line of its own. -/
structure Comment where
  text : Text
  start : Nat
  stop : Nat
  own : Option Nat := none
deriving DecidableEq, Repr

/-- The kinds of token. -/
inductive TokenKind where
  | word
  | number
  /-- A literal in quotes. -/
  | quoted
  /-- The name of a lifetime. -/
  | lifetime
  | symbol
  /-- The end of the source. -/
  | ending
deriving DecidableEq, Repr, Inhabited

/-- A token with the comments in front of it. -/
structure Token where
  kind : TokenKind
  text : Text
  /-- A word is the name of something. -/
  named : kind = .word → allBlank text = false
  place : Place
  /-- The source from this token on. -/
  tail : Text
  /-- The indentation, if a line ends in front of the token outside all brackets. -/
  fresh : Option Nat := none
  comments : List Comment := []

namespace Token

def start (t : Token) : Nat := t.place.offset

def stop (t : Token) : Nat := t.place.offset + t.text.length

/-- The name that a word is. -/
def name (t : Token) (h : t.kind = .word) : Name := ⟨t.text, t.named h⟩

/-- The source from the start of a token to `stop`. -/
def textTo (t : Token) (stop : Nat) : Text := t.tail.take (stop - t.start)

def isWord (t : Token) (w : String) : Bool := t.kind == .word && t.text == w.toList

def isSymbol (t : Token) (s : String) : Bool := t.kind == .symbol && t.text == s.toList

end Token

/-- Where something stands, and its text. -/
structure Extent where
  place : Place
  text : Text
deriving Inhabited

/-- The tokens that are left, where the last thing that was read ended, and how many tokens the
whole source has. -/
structure Input where
  rest : List Token
  stop : Nat
  size : Nat

/-- The input at the start of a source. -/
def Input.ofTokens (tokens : List Token) : Input := ⟨tokens, 0, tokens.length⟩

/-- A reader of tokens. -/
abbrev Reader (α : Type) := StateT Input Option α

namespace Reader

/-- The next token, which stays. -/
def peek : Reader Token := fun s =>
  match s.rest with
  | [] => none
  | t :: _ => some (t, s)

/-- The token after the next one, which stays. -/
def peekSecond : Reader Token := fun s =>
  match s.rest with
  | _ :: t :: _ => some (t, s)
  | _ => none

/-- Consumes one token. -/
def next : Reader Token := fun s =>
  match s.rest with
  | [] => none
  | t :: rest => some (t, { s with rest, stop := t.stop })

/-- Consumes one token for which `p` holds. -/
def satisfy (p : Token → Bool) : Reader Token := do
  let t ← next
  guard (p t)
  return t

/-- Succeeds if `p` holds of the next token, which stays. -/
def ahead (p : Token → Bool) : Reader Unit := do
  guard (p (← peek))

def word (w : String) : Reader Token := satisfy (·.isWord w)

def symbol (s : String) : Reader Token := satisfy (·.isSymbol s)

/-- Any word. -/
def anyWord : Reader Token := satisfy (·.kind == .word)

/-- Any word as a name. -/
def anyName : Reader Name := do
  let t ← next
  if h : t.kind = .word then return t.name h else failure

/-- Whether the next token is the given symbol. -/
def seesSymbol (s : String) : Reader Bool := do return (← peek).isSymbol s

/-- Whether the next token is the given word. -/
def seesWord (w : String) : Reader Bool := do return (← peek).isWord w

/-- Reads something or nothing. -/
def maybe {α : Type} (r : Reader α) : Reader (Option α) :=
  (do return some (← r)) <|> pure none

/-- Consumes the given symbol if it is next, and tells whether it was. -/
def trySymbol (s : String) : Reader Bool := do return (← maybe (symbol s)).isSome

/-- Consumes the given word if it is next, and tells whether it was. -/
def tryWord (w : String) : Reader Bool := do return (← maybe (word w)).isSome

/-- Reads as often as the reader succeeds and consumes something, at most `n` times. -/
def manyUpTo {α : Type} (r : Reader α) : Nat → Reader (List α)
  | 0 => pure []
  | n + 1 => fun s =>
    match r s with
    | none => some ([], s)
    | some (a, s') =>
      if s.stop < s'.stop then
        (do return a :: (← manyUpTo r n)) s'
      else some ([], s)

/-- Reads as often as the reader succeeds. -/
def many {α : Type} (r : Reader α) : Reader (List α) := fun s => manyUpTo r s.size s

/-- One or more with `separator` between them. -/
def sepBy {α β : Type} (r : Reader α) (separator : Reader β) : Reader (List α) := do
  let first ← r
  let rest ← many (separator *> r)
  return first :: rest

/-- Items up to a closing symbol with commas between them and perhaps one at the end. -/
def listUntil {α : Type} (item : Reader α) (close : String) : Reader (List α) := do
  if ← trySymbol close then return []
  let items ← sepBy item (symbol ",")
  let _ ← maybe (symbol ",")
  let _ ← symbol close
  return items

/-- Where the last thing that was read ended. -/
def stop : Reader Nat := fun s => some (s.stop, s)

/-- How many tokens the source has. -/
def size : Reader Nat := fun s => some (s.size, s)

/-- Runs a reader and pairs its result with the text that it read. -/
def withText {α : Type} (r : Reader α) : Reader (α × Text) := do
  let t ← peek
  let a ← r
  return (a, t.textTo (← stop))

/-- The text that a reader reads. -/
def textOf {α : Type} (r : Reader α) : Reader Text := do return (← withText r).2

/-- What has been read since a token. -/
def extentFrom (start : Token) : Reader Extent := do
  return ⟨start.place, start.textTo (← stop)⟩

end Reader

end Concord.Source
