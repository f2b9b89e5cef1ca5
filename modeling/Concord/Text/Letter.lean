/-
Letter classes: alphabetic, numeric, upper and lower case, and the characters
of a word. ASCII is decided by comparison, the rest by the range tables.
-/
import Concord.Text.Blank
import Concord.Text.Table.Letter

namespace Concord.Text

/-- Whether `n` lies in one of the closed ranges. -/
def inRanges (table : Array (Nat × Nat)) (n : Nat) : Bool :=
  table.any fun r => r.1 ≤ n && n ≤ r.2

def isAsciiDigit (c : Char) : Bool := '0' ≤ c && c ≤ '9'

def isAsciiLower (c : Char) : Bool := 'a' ≤ c && c ≤ 'z'

def isAsciiUpper (c : Char) : Bool := 'A' ≤ c && c ≤ 'Z'

def isAsciiLetter (c : Char) : Bool := isAsciiLower c || isAsciiUpper c

/-- A class that is `ascii` below U+0080 and the ranges of `table` above. -/
def inClass (ascii : Char → Bool) (table : Array (Nat × Nat)) (c : Char) : Bool :=
  if c.toNat < 128 then ascii c else inRanges table c.toNat

/-- The property Alphabetic. -/
def isAlphabetic (c : Char) : Bool := inClass isAsciiLetter Table.alphabetic c

/-- The general categories of numbers: decimal digits, letter numbers and others. -/
def isNumeric (c : Char) : Bool := inClass isAsciiDigit Table.numeric c

def isAlphanumeric (c : Char) : Bool := isAlphabetic c || isNumeric c

/-- The property Uppercase. -/
def isUppercase (c : Char) : Bool := inClass isAsciiUpper Table.uppercase c

/-- The property Lowercase. -/
def isLowercase (c : Char) : Bool := inClass isAsciiLower Table.lowercase c

/-- A character of a word: a letter, a digit, a mark or a joining punctuation. -/
def isWord (c : Char) : Bool :=
  inClass (fun c => isAsciiLetter c || isAsciiDigit c || c == '_') Table.joining c ||
    isAlphabetic c

/-- The first character of a plain identifier. -/
def isNameStart (c : Char) : Bool := isAsciiLetter c || c == '_'

/-! ## Letters are not blank -/

/-- The codes of blanks outside ASCII. -/
def blankCodes : List Nat :=
  [0x85, 0xA0, 0x1680, 0x2000, 0x2001, 0x2002, 0x2003, 0x2004, 0x2005, 0x2006, 0x2007, 0x2008, 0x2009,
    0x200A, 0x2028, 0x2029, 0x202F, 0x205F, 0x3000]

theorem isBlank_codes {c : Char} (h : isBlank c = true) (hc : 128 ≤ c.toNat) : c.toNat ∈ blankCodes := by
  simp only [isBlank, Bool.or_eq_true, Bool.and_eq_true, decide_eq_true_eq, beq_iff_eq] at h
  simp only [blankCodes, List.mem_cons, List.not_mem_nil, or_false]
  omega

theorem inRanges_eq (table : Array (Nat × Nat)) (n : Nat) :
    inRanges table n = table.toList.any fun r => r.1 ≤ n && n ≤ r.2 := by
  rw [inRanges, ← Array.any_toList]

theorem blankCodes_not_alphanumeric : ∀ n ∈ blankCodes,
    inRanges Table.alphabetic n = false ∧ inRanges Table.numeric n = false := by
  simp only [inRanges_eq]
  decide +kernel

theorem toNat_of_isAsciiDigit {c : Char} (h : isAsciiDigit c = true) : 48 ≤ c.toNat ∧ c.toNat ≤ 57 := by
  simp only [isAsciiDigit, Bool.and_eq_true, decide_eq_true_eq, Char.le_def, UInt32.le_iff_toNat_le] at h
  exact h

theorem toNat_of_isAsciiLetter {c : Char} (h : isAsciiLetter c = true) : 65 ≤ c.toNat ∧ c.toNat ≤ 122 := by
  simp only [isAsciiLetter, isAsciiLower, isAsciiUpper, Bool.or_eq_true, Bool.and_eq_true,
    decide_eq_true_eq, Char.le_def, UInt32.le_iff_toNat_le] at h
  have hn : c.val.toNat = c.toNat := rfl
  simp at h
  omega

/-- No letter and no digit is blank. -/
theorem isBlank_of_isAlphanumeric {c : Char} (h : isAlphanumeric c = true) : isBlank c = false := by
  rw [← Bool.not_eq_true]
  intro hblank
  by_cases hc : c.toNat < 128
  · simp only [isAlphanumeric, isAlphabetic, isNumeric, inClass, if_pos hc, Bool.or_eq_true] at h
    simp only [isBlank, Bool.or_eq_true, Bool.and_eq_true, decide_eq_true_eq, beq_iff_eq] at hblank
    rcases h with h | h
    · have := toNat_of_isAsciiLetter h
      omega
    · have := toNat_of_isAsciiDigit h
      omega
  · have hcodes := blankCodes_not_alphanumeric _ (isBlank_codes hblank (Nat.not_lt.1 hc))
    simp only [isAlphanumeric, isAlphabetic, isNumeric, inClass, if_neg hc, hcodes.1, hcodes.2,
      Bool.or_self, Bool.false_eq_true] at h

end Concord.Text
