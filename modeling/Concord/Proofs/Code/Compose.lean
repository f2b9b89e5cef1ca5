/-
Reading code piece by piece. The code characters of a text with their byte offsets
are those of its parts, moved by the bytes that stand before each part and raised by
the brackets around it.
-/
import Concord.Proofs.Code.Settled

namespace Concord.Code

open Text

/-- A character of code: the byte at which it begins and its bracket depth. -/
structure Located where
  offset : Nat
  char : Char
  depth : Nat
deriving DecidableEq, Repr

/-- The same character with `n` more bytes before it. -/
def Located.shift (n : Nat) (x : Located) : Located := { x with offset := x.offset + n }

/-- The same character with `d` more brackets around it. -/
def Located.raise (d : Nat) (x : Located) : Located := { x with depth := x.depth + d }

/-- The code among cells of which the first begins at byte `n`. -/
def locate (n : Nat) : List Cell → List Located
  | [] => []
  | ⟨c, none⟩ :: cells => locate (n + c.utf8Size) cells
  | ⟨c, some d⟩ :: cells => ⟨n, c, d⟩ :: locate (n + c.utf8Size) cells

/-- The code characters of a text. -/
def codeOf (t : Text) : List Located := locate 0 (scan t)

theorem byteLength_cons (c : Char) (t : Text) : byteLength (c :: t) = c.utf8Size + byteLength t := rfl

/-- The cells after a text begin where its bytes end. -/
theorem locate_append (n : Nat) (cells more : List Cell) :
    locate n (cells ++ more) = locate n cells ++ locate (n + byteLength (cells.map Cell.char)) more := by
  induction cells generalizing n with
  | nil => rfl
  | cons cell cells ih =>
    obtain ⟨c, _ | d⟩ := cell <;>
      simp only [List.cons_append, List.map_cons, locate, ih, byteLength_cons, Nat.add_assoc]

theorem locate_add (n m : Nat) (cells : List Cell) :
    locate (n + m) cells = (locate n cells).map (Located.shift m) := by
  induction cells generalizing n with
  | nil => rfl
  | cons cell cells ih =>
    obtain ⟨c, _ | d⟩ := cell <;>
      simp only [locate, Nat.add_right_comm n m, ih, List.map_cons, Located.shift]

theorem locate_raise (n d : Nat) (cells : List Cell) :
    locate n (cells.map (Cell.raise d)) = (locate n cells).map (Located.raise d) := by
  induction cells generalizing n with
  | nil => rfl
  | cons cell cells ih =>
    obtain ⟨c, _ | e⟩ := cell <;>
      simp only [List.map_cons, Cell.raise, Option.map_none, Option.map_some, locate, ih, Located.raise]

/-- The code of a text somewhere in another one. -/
theorem locate_scan (n : Nat) (t : Text) : locate n (scan t) = (codeOf t).map (Located.shift n) := by
  rw [codeOf, ← locate_add, Nat.zero_add]

/-- Two texts of which the first is settled. -/
theorem Settled.codeOf_append {a b : Text} (ha : Settled a) (h : Fresh a.getLast? ∨ b.head? ≠ some '\'') :
    codeOf (a ++ b) = codeOf a ++ (codeOf b).map (Located.shift (byteLength a)) := by
  have hchars : (scan a).map Cell.char = a := map_char_scanFrom _ a
  rw [codeOf, ha.scan_append_of h, locate_append, hchars, Nat.zero_add, locate_scan (byteLength a)]
  rfl

/-- A closed text in parentheses. -/
theorem Closed.codeOf_group {t : Text} (ht : Closed t) : codeOf ('(' :: (t ++ [')'])) =
    ⟨0, '(', 0⟩ :: (((codeOf t).map (Located.shift 1)).map (Located.raise 1) ++
      [⟨byteLength t + 1, ')', 0⟩]) := by
  have hscan : scan ('(' :: (t ++ [')'])) =
      ⟨'(', some 0⟩ :: ((scan t).map (Cell.raise 1) ++ [⟨')', some 0⟩]) :=
    ht.scanFrom_group rfl rfl 0 none []
  have hchars : ((scan t).map (Cell.raise 1)).map Cell.char = t := by
    rw [List.map_map]
    exact map_char_scanFrom _ t
  have hone : 0 + '('.utf8Size = 1 := rfl
  rw [codeOf, hscan, locate, hone, locate_append, hchars, locate_raise, locate_scan, Nat.add_comm 1]
  rfl

/-- **Reading is compositional.** What follows a settled text is read as on its own, moved by the bytes of
the text, unless a lifetime's mark at its end takes a quote from what follows; and where no bracket closes
that was not opened, parentheses around the text raise all of its code by one. -/
theorem Settled.codeOf_compositional {a : Text} (ha : Settled a) :
    (∀ b : Text, ¬((a.getLast? = some '&' ∨ a.getLast? = some '<') ∧ b.head? = some '\'') →
      codeOf (a ++ b) = codeOf a ++ (codeOf b).map (Located.shift (byteLength a))) ∧
    (NeverSinks a → codeOf ('(' :: (a ++ [')'])) =
      ⟨0, '(', 0⟩ :: (((codeOf a).map (Located.shift 1)).map (Located.raise 1) ++
        [⟨byteLength a + 1, ')', 0⟩])) := by
  refine ⟨fun b hb => ha.codeOf_append ?_, fun hsinks => (closed_iff.2 ⟨ha, hsinks⟩).codeOf_group⟩
  by_cases hquote : b.head? = some '\''
  · exact .inl ⟨fun h => hb ⟨.inl h, hquote⟩, fun h => hb ⟨.inr h, hquote⟩⟩
  · exact .inr hquote

/-- A lone closing bracket is no obstacle to the first law, and a bracket in a literal none to the second. -/
theorem codeOf_compositional_mixed :
    (Settled "é])".toList ∧ codeOf ("é])".toList ++ "'('x".toList) =
      codeOf "é])".toList ++ (codeOf "'('x".toList).map (Located.shift 4)) ∧
    (Settled "f(')')".toList ∧ NeverSinks "f(')')".toList ∧
      codeOf ('(' :: ("f(')')".toList ++ [')'])) =
        [⟨0, '(', 0⟩, ⟨1, 'f', 1⟩, ⟨2, '(', 1⟩, ⟨6, ')', 1⟩, ⟨7, ')', 0⟩]) := by
  have hlone : Settled "é])".toList := by decide
  have hcall : Settled "f(')')".toList ∧ NeverSinks "f(')')".toList := closed_iff.1 (by decide)
  refine ⟨⟨hlone, hlone.codeOf_compositional.1 _ (by decide)⟩, hcall.1, hcall.2, ?_⟩
  rw [hcall.1.codeOf_compositional.2 hcall.2]
  decide

end Concord.Code
