/-
The texts of strings and whole numbers are read back. A string is read character by
character, each from the way it is escaped (`readString_escapeChar`); a whole number digit
by digit, and it stays whole because no digit of a number of 64 bits overflows
(`readUnsigned_toDigits`).
-/
import Concord.Json.Reader
import Concord.Json.Writer

namespace Concord.Json

open Text Number

/-! ## White space -/

/-- Nothing but the white space of JSON. -/
def Blank (w : Text) : Prop := ∀ c ∈ w, isSpace c = true

theorem skipSpace_append {w : Text} (hw : Blank w) (t : Text) : skipSpace (w ++ t) = skipSpace t :=
  List.dropWhile_append_of_pos hw

theorem skipSpace_cons {c : Char} (h : isSpace c = false) (t : Text) :
    skipSpace (c :: t) = c :: t := by
  simp [skipSpace, h]

/-! ## Strings -/

theorem hexDigit?_hexChar : ∀ n < 16, hexDigit? (hexChar n) = some n := by decide

/-- A control character is read from the four digits of its number. -/
theorem readUnicode_control {c : Char} (h : c.toNat < 32) (t : Text) :
    readUnicode ('0' :: '0' :: hexChar (c.toNat / 16) :: hexChar (c.toNat % 16) :: t) =
      some (c, t) := by
  have hzero : hexDigit? '0' = some 0 := by decide
  have hhigh := hexDigit?_hexChar (c.toNat / 16) (by omega)
  have hlow := hexDigit?_hexChar (c.toNat % 16) (by omega)
  have hnumber : c.toNat / 16 * 16 + c.toNat % 16 = c.toNat := by omega
  have hpair : ¬ (0xDC00 ≤ c.toNat ∧ c.toNat ≤ 0xDFFF) := by omega
  have hfirst : ¬ (0xD800 ≤ c.toNat ∧ c.toNat ≤ 0xDBFF) := by omega
  simp [readUnicode, readHex4, hzero, hhigh, hlow, hnumber, hpair, hfirst]

/-- A character is read from the way it stands in a string. -/
theorem readString_escapeChar (done : Text) (fuel : Nat) (c : Char) (t : Text) :
    readString done (fuel + 1) (escapeChar c ++ t) = readString (c :: done) fuel t := by
  unfold escapeChar
  split
  · rename_i h
    obtain rfl : c = '"' := by simpa using h
    simp [readString, readEscape]
  rename_i hquote
  split
  · rename_i h
    obtain rfl : c = '\\' := by simpa using h
    simp [readString, readEscape]
  rename_i hback
  split
  · rename_i hcontrol
    split
    · rename_i h
      obtain rfl : c = '\n' := by simpa using h
      simp [readString, readEscape]
    split
    · rename_i h
      obtain rfl : c = '\r' := by simpa using h
      simp [readString, readEscape]
    split
    · rename_i h
      obtain rfl : c = '\t' := by simpa using h
      simp [readString, readEscape]
    split
    · rename_i h
      obtain rfl : c = Char.ofNat 8 := by
        rw [← beq_iff_eq.1 h, Char.ofNat_toNat]
      simp [readString, readEscape]
    split
    · rename_i h
      obtain rfl : c = Char.ofNat 12 := by
        rw [← beq_iff_eq.1 h, Char.ofNat_toNat]
      simp [readString, readEscape]
    · simp [readString, readEscape, readUnicode_control hcontrol]
  · rename_i hplain
    simp [readString, hquote, hback, hplain]

/-- A string is read up to its closing quote. -/
theorem readString_escaped (s done : Text) {fuel : Nat} (hfuel : s.length < fuel) (rest : Text) :
    readString done fuel (s.flatMap escapeChar ++ '"' :: rest) =
      some (String.ofList (done.reverse ++ s), rest) := by
  induction s generalizing done fuel with
  | nil =>
    obtain ⟨fuel, rfl⟩ : ∃ n, fuel = n + 1 := ⟨fuel - 1, by simp at hfuel; omega⟩
    simp [readString]
  | cons c s ih =>
    obtain ⟨fuel, rfl⟩ : ∃ n, fuel = n + 1 := ⟨fuel - 1, by simp at hfuel; omega⟩
    have hless : s.length < fuel := by simpa using hfuel
    rw [List.flatMap_cons, List.append_assoc, readString_escapeChar, ih (c :: done) hless]
    simp

theorem length_le_flatMap_escapeChar (s : Text) : s.length ≤ (s.flatMap escapeChar).length := by
  induction s with
  | nil => simp
  | cons c s ih =>
    have hc : 1 ≤ (escapeChar c).length := by
      unfold escapeChar
      repeat' split
      all_goals simp
    simp only [List.flatMap_cons, List.length_append, List.length_cons]
    omega

/-- A key or a string is read as the readers of values and members do it. -/
theorem readString_quoted (s : String) (rest : Text) :
    ∃ t, quoted s ++ rest = '"' :: t ∧ readString [] (t.length + 1) t = some (s, rest) := by
  refine ⟨s.toList.flatMap escapeChar ++ '"' :: rest, by simp [quoted], ?_⟩
  have hlength := length_le_flatMap_escapeChar s.toList
  rw [readString_escaped s.toList [] (by simp only [List.length_append]; omega)]
  simp

/-! ## Whole numbers -/

/-- The text cannot continue a number. -/
def Ends (t : Text) : Prop :=
  ∀ c ∈ t.head?, isAsciiDigit c = false ∧ c ≠ '.' ∧ c ≠ 'e' ∧ c ≠ 'E'

theorem isAsciiDigit_digitChar : ∀ d < 10, isAsciiDigit (Nat.digitChar d) = true := by decide

theorem digitOf_digitChar : ∀ d < 10, digitOf (Nat.digitChar d) = d := by decide

/-- One more digit of a number that stays within 64 bits. -/
theorem readUnsigned_digitChar (negative : Bool) {n d : Nat} (hd : d < 10)
    (hfits : n * 10 + d ≤ maxNat64) (rest : Text) :
    readUnsigned negative n (Nat.digitChar d :: rest) = readUnsigned negative (n * 10 + d) rest := by
  have hno : overflows n d = false := by simpa [overflows] using hfits
  rw [readUnsigned]
  simp only [isAsciiDigit_digitChar d hd, digitOf_digitChar d hd, hno, ↓reduceIte,
    Bool.false_eq_true]

theorem readUnsigned_toDigits (negative : Bool) (n : Nat) (h : n ≤ maxNat64) (rest : Text) :
    readUnsigned negative 0 (Nat.toDigits 10 n ++ rest) = readUnsigned negative n rest := by
  induction n using Nat.strongRecOn generalizing rest with
  | _ n ih =>
    by_cases hsmall : n < 10
    · rw [Nat.toDigits_of_lt_base hsmall, List.singleton_append,
        readUnsigned_digitChar negative hsmall (by omega)]
      simp
    · have hdivide : n / 10 * 10 + n % 10 = n := by omega
      rw [Nat.toDigits_of_base_le (by decide) (by omega), List.append_assoc,
        ih (n / 10) (by omega) (by omega), List.singleton_append,
        readUnsigned_digitChar negative (by omega) (by omega), hdivide]

/-- The first digit of a number is a zero only for zero itself. -/
theorem toDigits_eq_cons (n : Nat) :
    ∃ c t, Nat.toDigits 10 n = c :: t ∧ isAsciiDigit c = true ∧ (c = '0' → n = 0) := by
  induction n using Nat.strongRecOn with
  | _ n ih =>
    by_cases hsmall : n < 10
    · have hzero : ∀ d < 10, Nat.digitChar d = '0' → d = 0 := by decide
      exact ⟨_, [], Nat.toDigits_of_lt_base hsmall, isAsciiDigit_digitChar n hsmall, hzero n hsmall⟩
    · obtain ⟨c, t, hdigits, hdigit, hzero⟩ := ih (n / 10) (by omega)
      refine ⟨c, t ++ [Nat.digitChar (n % 10)], ?_, hdigit, fun hc => ?_⟩
      · rw [Nat.toDigits_of_base_le (by decide) (by omega), hdigits, List.cons_append]
      · have := hzero hc
        omega

/-- A number ends where no digit, point or exponent follows. -/
theorem readUnsigned_of_ends {negative : Bool} {n : Nat} {rest : Text} (hrest : Ends rest) :
    readUnsigned negative n rest = some (readUnsigned.whole negative n, rest) := by
  cases rest with
  | nil => simp [readUnsigned]
  | cons c t =>
    obtain ⟨hdigit, hpoint, hlower, hupper⟩ := hrest c (by simp)
    simp [readUnsigned, hdigit, hpoint, hlower, hupper]

theorem readNumber_toDigits (negative : Bool) (n : Nat) (h : n ≤ maxNat64) {rest : Text}
    (hrest : Ends rest) :
    readNumber negative (Nat.toDigits 10 n ++ rest) =
      some (readUnsigned.whole negative n, rest) := by
  rcases Nat.eq_zero_or_pos n with rfl | hn
  · have hread : readUnsigned negative 0 rest = some (readUnsigned.whole negative 0, rest) :=
      readUnsigned_of_ends hrest
    cases rest with
    | nil => simpa [readNumber] using hread
    | cons c t => simpa [readNumber, (hrest c (by simp)).1] using hread
  · have hread := readUnsigned_toDigits negative n h rest
    obtain ⟨c, t, hdigits, hdigit, hfirst⟩ := toDigits_eq_cons n
    have hzero : c ≠ '0' := fun hc => by have := hfirst hc; omega
    rw [hdigits, List.cons_append] at hread ⊢
    simp [readNumber, hdigit, hread, readUnsigned_of_ends hrest]

theorem isWhole64_iff (n : Int) :
    isWhole64 n = true ↔ -(Nat.pow 2 63 : Nat) ≤ n ∧ n ≤ (maxNat64 : Nat) := by
  simp only [isWhole64, Bool.and_eq_true, decide_eq_true_eq]
  exact Iff.rfl

theorem natAbs_le_of_isWhole64 {n : Int} (h : isWhole64 n = true) : n.natAbs ≤ maxNat64 := by
  have hbound : Nat.pow 2 63 ≤ maxNat64 := by decide
  have hrange := (isWhole64_iff n).1 h
  omega

/-- A negative number of 64 bits is no double. -/
theorem whole_negative {n : Int} (hsign : n < 0) (h : isWhole64 n = true) :
    readUnsigned.whole true n.natAbs = .int n := by
  have hrange := (isWhole64_iff n).1 h
  have hnonzero : n.natAbs ≠ 0 := by omega
  have hfits : ¬ Nat.pow 2 63 < n.natAbs := by omega
  have hvalue : -Int.ofNat n.natAbs = n := by
    rw [Int.ofNat_eq_natCast]
    omega
  simp only [readUnsigned.whole, ↓reduceIte, hnonzero, hfits, decide_false, Bool.or_self,
    Bool.false_eq_true, hvalue]

end Concord.Json
