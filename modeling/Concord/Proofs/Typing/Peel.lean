/-
How types are peeled. Every layer is shorter than the one around it (`length_lt_of_step`), so the
fuel of peeling never runs out and a type is peeled as what is left of it after one layer
(`peel_of_more`). What the layers of single types are is said in terms of their texts: a
path of names (`step_bare`), one with arguments in brackets (`step_wrapped`), and unions, of which
one type is left (`step_union`), several (`step_present`) or none (`step_absent`).
-/
import Concord.Proofs.Code.Split
import Concord.Typing.Peel
import Mathlib.Data.List.Basic
import Mathlib.Order.Nat

namespace Concord.Code

open Text

/-- The pieces make up the text, but for the separators between them. -/
theorem length_piecesAt (sep : Char) (cells : List Cell) :
    (piecesAt sep cells).flatten.length + (piecesAt sep cells).length = cells.length + 1 := by
  induction cells with
  | nil => rfl
  | cons cell cells ih =>
    rw [piecesAt]
    split
    · simp only [List.flatten_cons, List.nil_append, List.length_cons]
      omega
    · split
      · rename_i hnil
        simp [hnil] at ih
      · rename_i piece rest hpieces
        rw [hpieces] at ih
        simp only [List.flatten_cons, List.cons_append, List.length_append, List.length_cons] at ih ⊢
        omega

/-- Each of several parts is shorter than the text. -/
theorem length_lt_of_mem_splitTop {sep : Char} {t part : Text} (h : part ∈ splitTop sep t)
    (hmany : 1 < (splitTop sep t).length) : part.length < t.length := by
  obtain ⟨piece, hpiece, rfl⟩ := List.mem_map.1 (List.mem_of_mem_filter h)
  have htrim := length_trim_le piece
  have hpieces := length_piecesAt sep (scan t)
  have hle : piece.length ≤ (piecesAt sep (scan t)).flatten.length :=
    (List.sublist_flatten_of_mem hpiece).length_le
  have hcount : (splitTop sep t).length ≤ (piecesAt sep (scan t)).length := by
    have hfilter := List.length_filter_le (fun p => !p.isEmpty)
      ((piecesAt sep (scan t)).map trim)
    rwa [List.length_map] at hfilter
  rw [length_scan] at hpieces
  omega

end Concord.Code

namespace Concord.Typing

open Text Code

/-! ## Layers are shorter -/

theorem length_unquote_le (quote : Char) (t : Text) : (unquote quote t).length ≤ t.length := by
  unfold unquote
  split
  · refine (length_trim_le _).trans ?_
    simp only [inside, List.length_dropLast, List.length_drop]
    omega
  · exact Nat.le_refl _

theorem length_getD_dropPrefix?_le (p t : Text) : ((dropPrefix? p t).getD t).length ≤ t.length := by
  cases h : dropPrefix? p t with
  | none => exact Nat.le_refl _
  | some u =>
    rw [dropPrefix?_eq_some_iff] at h
    simp [h]

theorem length_undecorated_le (t : Text) : (undecorated t).length ≤ t.length := by
  unfold undecorated
  dsimp only
  refine (length_trim_le _).trans ((length_getD_dropPrefix?_le _ _).trans ?_)
  have hmarks : (trimStart (stripLeading '&' (unquote '\'' (unquote '"' (trim t))))).length ≤
      t.length := calc
    _ ≤ (stripLeading '&' (unquote '\'' (unquote '"' (trim t)))).length := length_trimStart_le _
    _ ≤ (unquote '\'' (unquote '"' (trim t))).length := (List.dropWhile_sublist _).length_le
    _ ≤ (unquote '"' (trim t)).length := length_unquote_le _ _
    _ ≤ (trim t).length := length_unquote_le _ _
    _ ≤ t.length := length_trim_le t
  split
  · refine (length_trimStart_le _).trans ?_
    split
    · rename_i hcut
      have htext := congrArg List.length (cut?_eq_some hcut)
      simp only [List.length_append] at htext
      omega
    · exact hmarks
  · exact hmarks

theorem length_firstArgument_le (t : Text) : (firstArgument t).length ≤ t.length := by
  unfold firstArgument
  split
  · split
    · exact Nat.le_refl _
    · exact List.length_take_le' _ _
  · exact Nat.le_refl _

theorem length_lt_of_generic? {t outer inner : Text} (h : generic? t = some (outer, inner)) :
    inner.length < t.length := by
  unfold generic? at h
  split at h
  · cases h
  rename_i start close hbracket
  split at h
  · cases h
  · rename_i hends
    cases h
    have hne : t ≠ [] := by
      rintro rfl
      simp at hends
    have hpos := List.length_pos_iff.2 hne
    have hinner := (length_trim_le _).trans
      (length_firstArgument_le (t.drop (start + 1)).dropLast)
    simp only [List.length_dropLast, List.length_drop] at hinner
    omega

/-- What is left to peel is shorter. -/
theorem length_lt_of_step {w : Wrappers} {t u : Text} {nullable : Bool}
    (h : w.step t = .more u nullable) : u.length < t.length := by
  have hle := length_undecorated_le t
  unfold Wrappers.step at h
  dsimp only at h
  split at h
  · rename_i hmany
    split at h
    · rename_i only honly
      cases h
      have hmem : u ∈ splitTop '|' (undecorated t) := by
        refine List.mem_of_mem_filter (p := fun m => !w.absent.contains m) ?_
        rw [honly]
        exact List.mem_singleton_self u
      exact (length_lt_of_mem_splitTop hmem hmany).trans_le hle
    · cases h
  · split at h
    · cases h
    · split at h
      · cases h
      · rename_i hgeneric
        have hinner := length_lt_of_generic? hgeneric
        split at h
        · cases h
        · split at h
          · cases h
            omega
          · split at h
            · cases h
              omega
            · cases h

theorem peelFrom_zero (w : Wrappers) (nullable : Bool) (t : Text) :
    w.peelFrom nullable 0 t = ⟨t, nullable, false⟩ := rfl

-- unfolding the loop would else unfold its step too, down to the characters of the literals in it
attribute [local irreducible] Wrappers.step in
theorem peelFrom_succ (w : Wrappers) (nullable : Bool) (n : Nat) (t : Text) :
    w.peelFrom nullable (n + 1) t =
      match w.step t with
      | .done name more collection => ⟨name, nullable || more, collection⟩
      | .more u more => w.peelFrom (nullable || more) n u := rfl

/-- More fuel than characters is enough fuel. -/
theorem peelFrom_fuel (w : Wrappers) {n m : Nat} {t : Text} (hn : t.length < n) (hm : t.length < m)
    (nullable : Bool) : w.peelFrom nullable n t = w.peelFrom nullable m t := by
  induction n generalizing m t nullable with
  | zero => omega
  | succ n ih =>
    obtain ⟨m, rfl⟩ : ∃ k, m = k + 1 := ⟨m - 1, by omega⟩
    rw [peelFrom_succ, peelFrom_succ]
    generalize hstep : w.step t = step
    cases step with
    | done name more collection => rfl
    | more u more =>
      have hlt := length_lt_of_step hstep
      exact ih (by omega) (by omega) _

/-- The type in a layer that may allow for no value. -/
def Peeled.within (p : Peeled) (nullable : Bool) : Peeled :=
  { p with nullable := nullable || p.nullable }

@[simp] theorem Peeled.name_within (p : Peeled) (nullable : Bool) : (p.within nullable).name = p.name := rfl

theorem peelFrom_nullable (w : Wrappers) (n : Nat) (t : Text) (nullable : Bool) :
    w.peelFrom nullable n t = (w.peelFrom false n t).within nullable := by
  induction n generalizing t nullable with
  | zero => rw [peelFrom_zero, peelFrom_zero, Peeled.within, Bool.or_false]
  | succ n ih =>
    rw [peelFrom_succ, peelFrom_succ]
    generalize w.step t = step
    cases step with
    | done name more collection => simp [Peeled.within]
    | more u more =>
      dsimp only
      rw [ih u (nullable || more), ih u (false || more)]
      simp [Peeled.within, Bool.or_assoc]

theorem peel_of_done {w : Wrappers} {t name : Text} {nullable collection : Bool}
    (htrim : trim t = t) (h : w.step t = .done name nullable collection) :
    w.peel t = ⟨name, nullable, collection⟩ := by
  rw [Wrappers.peel, htrim, peelFrom_succ, h]
  simp

/-- A type is peeled as what is left of it after one layer. -/
theorem peel_of_more {w : Wrappers} {t u : Text} {nullable : Bool} (ht : trim t = t)
    (hu : trim u = u) (h : w.step t = .more u nullable) :
    w.peel t = (w.peel u).within nullable := by
  have hlt := length_lt_of_step h
  rw [Wrappers.peel, ht, peelFrom_succ, h]
  dsimp only
  rw [Bool.false_or, peelFrom_nullable, Wrappers.peel, hu,
    peelFrom_fuel w hlt (Nat.lt_succ_self u.length)]

/-! ## Texts without marks -/

/-- A type text without blanks, quotes or marks of a reference in front, and without blanks at its
end. -/
structure Unmarked (t : Text) : Prop where
  trimmed : trim t = t
  head : ∀ c ∈ t.head?, c ≠ '"' ∧ c ≠ '\'' ∧ c ≠ '&'
  immutable : startsWith t "mut ".toList = false

instance (t : Text) : Decidable (Unmarked t) :=
  decidable_of_iff (trim t = t ∧ (∀ c ∈ t.head?.toList, c ≠ '"' ∧ c ≠ '\'' ∧ c ≠ '&') ∧
      startsWith t "mut ".toList = false)
    ⟨fun h => ⟨h.1, fun c hc => h.2.1 c (Option.mem_toList.2 hc), h.2.2⟩,
      fun h => ⟨h.trimmed, fun c hc => h.head c (Option.mem_toList.1 hc), h.immutable⟩⟩

theorem unquote_of_head {c : Char} {t : Text} (h : t.head? ≠ some c) : unquote c t = t := by
  simp [unquote, h]

theorem stripLeading_of_head {c : Char} {t : Text} (h : t.head? ≠ some c) : stripLeading c t = t := by
  cases t with
  | nil => rfl
  | cons d t => exact List.dropWhile_cons_of_neg (by simpa using h)

theorem head_ne_marks {t : Text} (h : ∀ c ∈ t.head?, c ≠ '"' ∧ c ≠ '\'' ∧ c ≠ '&') :
    t.head? ≠ some '"' ∧ t.head? ≠ some '\'' ∧ t.head? ≠ some '&' :=
  ⟨fun hc => (h _ hc).1 rfl, fun hc => (h _ hc).2.1 rfl, fun hc => (h _ hc).2.2 rfl⟩

/-- Without a quote or a reference in front only the word for a mutable reference may come off. -/
theorem undecorated_of_head {t : Text} (htrim : trim t = t)
    (hhead : ∀ c ∈ t.head?, c ≠ '"' ∧ c ≠ '\'' ∧ c ≠ '&') :
    undecorated t = trim ((dropPrefix? "mut ".toList t).getD t) := by
  obtain ⟨hdouble, hsingle, hreference⟩ := head_ne_marks hhead
  unfold undecorated
  simp only [htrim, unquote_of_head hdouble, unquote_of_head hsingle,
    stripLeading_of_head hreference, trimStart_of_head (trim_eq_self_iff.1 htrim).1, beq_iff_eq,
    if_neg hsingle]

namespace Unmarked

variable {t : Text}

theorem trimStart_self (h : Unmarked t) : trimStart t = t :=
  trimStart_of_head (trim_eq_self_iff.1 h.trimmed).1

theorem undecorated_self (h : Unmarked t) : undecorated t = t := by
  rw [undecorated_of_head h.trimmed h.head, dropPrefix?_eq_none_iff.2 h.immutable, Option.getD_none,
    h.trimmed]

end Unmarked

/-! ## Texts without brackets -/

section NoBrackets

variable {t : Text} (hsquare : '[' ∉ t)

include hsquare

theorem dropSuffix?_of_no_brackets : dropSuffix? "[]".toList t = none := by
  rw [dropSuffix?, if_neg]
  intro hs
  obtain ⟨u, rfl⟩ := List.isSuffixOf_iff_suffix.1 hs
  exact hsquare (by simp)

theorem generic?_of_no_brackets (hangle : '<' ∉ t) : generic? t = none := by
  simp [generic?, bracket?, find?, cut?_char_none hsquare, cut?_char_none hangle]

/-- Of a type without brackets that is no union its last name counts. -/
theorem step_of_no_brackets {w : Wrappers} {raw : Text} (hraw : undecorated raw = t)
    (hangle : '<' ∉ t) (hsingle : ¬ 1 < (splitTop '|' t).length) :
    w.step raw = .done (lastSegment t) false false := by
  have hhead : (t.head? == some '[') = false := by
    rw [beq_eq_false_iff_ne]
    exact fun hhead => hsquare (List.mem_of_head? hhead)
  unfold Wrappers.step
  simp only [hraw, if_neg hsingle, dropSuffix?_of_no_brackets hsquare,
    generic?_of_no_brackets hsquare hangle, hhead, Option.filter_none]

end NoBrackets

theorem lastSegment_of_not_mem {t : Text} (htrim : trim t = t) (hcolon : ':' ∉ t) (hdot : '.' ∉ t) :
    lastSegment t = t := by
  unfold lastSegment
  simp only [htrim, cutLast?_of_not_mem (p := "::".toList) (c := ':') (by decide) hcolon,
    cutLast?_of_not_mem (p := ['.']) (c := '.') (by decide) hdot, Option.map_none, Option.getD_none]

/-! ## Bare texts -/

/-- The characters that types are written with around their names. -/
def typeMarks : List Char := marks ++ ['<', '>', '|', ',', '&']

/-- A character that is neither blank nor one of those. -/
def isBareChar (c : Char) : Bool := !isBlank c && !typeMarks.contains c

/-- A text of such characters, as the paths of names are. -/
structure IsBare (t : Text) : Prop where
  ne_nil : t ≠ []
  chars : ∀ c ∈ t, isBareChar c = true

instance (t : Text) : Decidable (IsBare t) :=
  decidable_of_iff (t ≠ [] ∧ ∀ c ∈ t, isBareChar c = true)
    ⟨fun h => ⟨h.1, h.2⟩, fun h => ⟨h.ne_nil, h.chars⟩⟩

theorem not_isBlank_of_isBareChar {c : Char} (h : isBareChar c = true) : isBlank c = false := by
  simp only [isBareChar, Bool.and_eq_true, Bool.not_eq_true'] at h
  exact h.1

namespace IsBare

variable {t : Text}

theorem not_mem (h : IsBare t) {c : Char} (hc : isBareChar c = false) : c ∉ t := by
  intro hmem
  rw [h.chars c hmem] at hc
  cases hc

theorem plain (h : IsBare t) : ∀ c ∈ t, isPlain c = true :=
  fun c hc => isPlain_of_class (by decide) (h.chars c hc)

theorem trim_self (h : IsBare t) : trim t = t :=
  trim_eq_self_iff.2 ⟨fun c hc => not_isBlank_of_isBareChar (h.chars c (List.mem_of_head? hc)),
    fun c hc => not_isBlank_of_isBareChar (h.chars c (List.mem_of_getLast? hc))⟩

theorem head_unmarked (h : IsBare t) (u : Text) :
    ∀ c ∈ (t ++ u).head?, isBlank c = false ∧ c ≠ '"' ∧ c ≠ '\'' ∧ c ≠ '&' := by
  obtain ⟨d, v, rfl⟩ := List.exists_cons_of_ne_nil h.ne_nil
  rintro c ⟨⟩
  have hbare := h.chars d List.mem_cons_self
  refine ⟨not_isBlank_of_isBareChar hbare, ?_, ?_, ?_⟩ <;> rintro rfl <;> revert hbare <;> decide

theorem startsWith_mut (h : IsBare t) : startsWith t "mut ".toList = false := by
  rw [← dropPrefix?_eq_none_iff]
  exact dropPrefix?_of_not_mem (c := ' ') (by decide) (h.not_mem (by decide))

/-- A bare text with something after it that no word for a mutable reference goes on with. -/
theorem unmarked_append_cons (h : IsBare t) {c : Char} {u : Text} (hc : c ∉ "mut ".toList)
    (hlast : ∀ d, (c :: u).getLast? = some d → isBlank d = false) : Unmarked (t ++ c :: u) where
  trimmed := trim_eq_self_iff.2 ⟨fun d hd => (h.head_unmarked _ d hd).1, fun d hd => by
    rw [List.getLast?_append_of_ne_nil _ (List.cons_ne_nil c u)] at hd
    exact hlast d hd⟩
  head d hd := (h.head_unmarked _ d hd).2
  immutable := by rw [startsWith_append_cons hc, h.startsWith_mut]

theorem unmarked (h : IsBare t) : Unmarked t where
  trimmed := h.trim_self
  head c hc := (h.head_unmarked [] c (by rwa [List.append_nil])).2
  immutable := h.startsWith_mut

theorem topAll_bar (h : IsBare t) : TopAll (· != '|') t := topAll_of_not_mem (h.not_mem (by decide))

end IsBare

/-- A bare text is peeled to its last name, also behind a lifetime. -/
theorem step_bare (w : Wrappers) {t raw : Text} (h : IsBare t) (hraw : undecorated raw = t) :
    w.step raw = .done (lastSegment t) false false := by
  have hsingle : splitTop '|' t = [t] := splitTop_single h.topAll_bar h.trim_self h.ne_nil
  exact step_of_no_brackets (h.not_mem (by decide)) hraw (h.not_mem (by decide)) (by simp [hsingle])

/-! ## Names -/

/-- A character of a name. -/
def isNameChar (c : Char) : Bool := isAlphanumeric c || c == '_'

/-- A name: letters, digits and underscores. -/
structure IsName (t : Text) : Prop where
  ne_nil : t ≠ []
  chars : ∀ c ∈ t, isNameChar c = true

instance (t : Text) : Decidable (IsName t) :=
  decidable_of_iff (t ≠ [] ∧ ∀ c ∈ t, isNameChar c = true)
    ⟨fun h => ⟨h.1, h.2⟩, fun h => ⟨h.ne_nil, h.chars⟩⟩

theorem not_isBlank_of_isNameChar {c : Char} (h : isNameChar c = true) : isBlank c = false := by
  simp only [isNameChar, Bool.or_eq_true, beq_iff_eq] at h
  rcases h with h | rfl
  · exact isBlank_of_isAlphanumeric h
  · decide

theorem isBareChar_of_isNameChar {c : Char} (h : isNameChar c = true) : isBareChar c = true := by
  have hmarks : ∀ x ∈ typeMarks, isNameChar x = false := by decide
  have hmark : c ∉ typeMarks := fun hmem => by
    rw [hmarks c hmem] at h
    cases h
  simp [isBareChar, not_isBlank_of_isNameChar h, hmark]

namespace IsName

variable {t : Text}

theorem bare (h : IsName t) : IsBare t := ⟨h.ne_nil, fun c hc => isBareChar_of_isNameChar (h.chars c hc)⟩

theorem not_mem (h : IsName t) {c : Char} (hc : isNameChar c = false) : c ∉ t := by
  intro hmem
  rw [h.chars c hmem] at hc
  cases hc

theorem head_ne (h : IsName t) {c : Char} (hc : isNameChar c = false) : t.head? ≠ some c :=
  fun hhead => h.not_mem hc (List.mem_of_head? hhead)

theorem trim_self (h : IsName t) : trim t = t := h.bare.trim_self

theorem unmarked (h : IsName t) : Unmarked t := h.bare.unmarked

theorem lastSegment_self (h : IsName t) : lastSegment t = t :=
  lastSegment_of_not_mem h.trim_self (h.not_mem (by decide)) (h.not_mem (by decide))

end IsName

/-- A name is peeled to itself, also behind a lifetime. -/
theorem step_name (w : Wrappers) {t raw : Text} (h : IsName t) (hraw : undecorated raw = t) :
    w.step raw = .done t false false := by
  rw [step_bare w h.bare hraw, h.lastSegment_self]

theorem peel_name (w : Wrappers) {t : Text} (h : IsName t) : w.peel t = ⟨t, false, false⟩ :=
  peel_of_done h.trim_self (step_name w h h.unmarked.undecorated_self)

/-- A lifetime in front of a name is taken off. -/
theorem peel_lifetime (w : Wrappers) {a t : Text} (ha : IsName a) (h : IsName t) :
    w.peel ('\'' :: (a ++ ' ' :: t)) = ⟨t, false, false⟩ := by
  have hlast : ('\'' :: (a ++ ' ' :: t)).getLast? = t.getLast? :=
    getLast?_append_cons ('\'' :: a) ' ' h.ne_nil
  have htrim : trim ('\'' :: (a ++ ' ' :: t)) = '\'' :: (a ++ ' ' :: t) := by
    refine trim_eq_self_iff.2 ⟨by rintro c ⟨⟩; decide, fun c hc => ?_⟩
    rw [hlast] at hc
    exact (trim_eq_self_iff.1 h.trim_self).2 c hc
  have hsingle : unquote '\'' ('\'' :: (a ++ ' ' :: t)) = '\'' :: (a ++ ' ' :: t) := by
    have hquote : t.getLast? ≠ some '\'' := fun hc =>
      h.not_mem (c := '\'') (by decide) (List.mem_of_getLast? hc)
    simp [unquote, hlast, hquote]
  have hcut : cut? [' '] ('\'' :: (a ++ ' ' :: t)) = some ('\'' :: a, t) :=
    cut?_char (t := '\'' :: a) (by simp [ha.not_mem (c := ' ') (by decide)]) t
  have hbare : undecorated ('\'' :: (a ++ ' ' :: t)) = t := by
    unfold undecorated
    simp only [htrim, unquote_of_head (c := '"') (t := '\'' :: (a ++ ' ' :: t)) (by simp), hsingle,
      stripLeading_of_head (c := '&') (t := '\'' :: (a ++ ' ' :: t)) (by simp),
      trimStart_of_head (t := '\'' :: (a ++ ' ' :: t)) (by rintro c ⟨⟩; decide), List.head?_cons,
      beq_self_eq_true, if_true, hcut, h.unmarked.trimStart_self,
      dropPrefix?_eq_none_iff.2 h.unmarked.immutable, Option.getD_none, h.trim_self]
  exact peel_of_done htrim (step_name w h hbare)

/-! ## Arguments in brackets -/

/-- The brackets that arguments of types stand in. -/
inductive Brackets where
  | square
  | angle
deriving DecidableEq, Repr

namespace Brackets

def opening : Brackets → Char
  | square => '['
  | angle => '<'

def closing : Brackets → Char
  | square => ']'
  | angle => '>'

end Brackets

/-- A name with arguments in brackets. -/
def wrapped (b : Brackets) (name inner : Text) : Text := name ++ b.opening :: (inner ++ [b.closing])

/-- A name with arguments in square brackets. -/
def squared (name inner : Text) : Text := name ++ '[' :: (inner ++ [']'])

theorem squared_eq (name inner : Text) : squared name inner = wrapped .square name inner := rfl

theorem getLast?_group (inner : Text) (o c : Char) : (o :: (inner ++ [c])).getLast? = some c := by
  rw [← List.cons_append, List.getLast?_append_of_ne_nil _ (List.cons_ne_nil c [])]
  rfl

theorem getLast?_wrapped (b : Brackets) (name inner : Text) :
    (wrapped b name inner).getLast? = some b.closing := by
  rw [wrapped, List.getLast?_append_of_ne_nil _ (List.cons_ne_nil _ _), getLast?_group]

namespace IsBare

variable {name : Text}

theorem unmarked_wrapped (h : IsBare name) (b : Brackets) (inner : Text) :
    Unmarked (wrapped b name inner) := by
  refine h.unmarked_append_cons (by cases b <;> decide) fun d hd => ?_
  rw [getLast?_group] at hd
  cases hd
  cases b <;> decide

/-- The other bracket stands in no bare text, so that it comes after this one. -/
theorem bracket?_wrapped (h : IsBare name) (b : Brackets) (inner : Text) :
    bracket? (wrapped b name inner) = some (name.length, b.closing) := by
  have hopening : find? [b.opening] (wrapped b name inner) = some name.length := by
    rw [find?, wrapped, cut?_char (h.not_mem (by cases b <;> decide))]
    rfl
  have hother : ∀ c, isBareChar c = false → c ≠ b.opening → ∀ i,
      find? [c] (wrapped b name inner) = some i → name.length < i := by
    intro c hc hne i hi
    have htext : wrapped b name inner = (name ++ [b.opening]) ++ (inner ++ [b.closing]) := by
      simp [wrapped]
    rw [htext, find?_append_of_not_mem (by simp [h.not_mem hc, hne])] at hi
    obtain ⟨j, -, rfl⟩ := Option.map_eq_some_iff.1 hi
    rw [List.length_append, List.length_singleton]
    omega
  unfold bracket?
  cases b with
  | square =>
    have hsquare : find? ['['] (wrapped .square name inner) = some name.length := hopening
    rw [hsquare]
    cases hangle : find? ['<'] (wrapped .square name inner) with
    | none => rfl
    | some i => exact if_neg (Nat.not_lt.2 (Nat.le_of_lt (hother _ (by decide) (by decide) i hangle)))
  | angle =>
    have hangle : find? ['<'] (wrapped .angle name inner) = some name.length := hopening
    rw [hangle]
    cases hsquare : find? ['['] (wrapped .angle name inner) with
    | none => rfl
    | some i => exact if_pos (hother _ (by decide) (by decide) i hsquare)

theorem generic?_wrapped (h : IsBare name) (b : Brackets) (inner : Text) :
    generic? (wrapped b name inner) = some (name, trim (firstArgument inner)) := by
  have hpos : name.length ≠ 0 := by simpa using h.ne_nil
  have htake : (wrapped b name inner).take name.length = name := List.take_left
  have hdrop : (wrapped b name inner).drop (name.length + 1) = inner ++ [b.closing] := by
    rw [wrapped, ← List.drop_drop, List.drop_left]
    rfl
  simp [generic?, h.bracket?_wrapped, hpos, getLast?_wrapped, htake, hdrop, h.trim_self]

theorem topAll_squared (h : IsBare name) {inner : Text} (hinner : Closed inner) {sep : Char}
    (hsep : isPlain sep = true) (hname : isBareChar sep = false) :
    TopAll (· != sep) (squared name inner) := by
  have hbracket : ∀ c, isPlain c = false → (c != sep) = true := by
    intro c hc
    rw [bne_iff_ne]
    rintro rfl
    rw [hsep] at hc
    cases hc
  exact TopAll.append (topAll_of_not_mem (h.not_mem hname))
    (topAll_group (by decide) (by decide) hinner (hbracket _ (by decide)) (hbracket _ (by decide)))
    (closed_of_plain h.plain) (.inr (by simp))

theorem closed_squared (h : IsBare name) {inner : Text} (hinner : Closed inner) :
    Closed (squared name inner) :=
  (closed_of_plain h.plain).append (hinner.group (by decide) (by decide)) (.inr (by simp))

end IsBare

/-- With arguments, square brackets are not those of an array. -/
theorem dropSuffix?_wrapped (b : Brackets) (name : Text) {inner : Text} (hne : inner ≠ []) :
    ((dropSuffix? "[]".toList (wrapped b name inner)).filter fun u => !u.elem '[') = none := by
  rw [Option.filter_eq_none_iff]
  intro u hu
  have htext := dropSuffix?_eq_some hu
  have hlast : (wrapped b name inner).getLast? = some ']' := by
    rw [htext, List.getLast?_append_of_ne_nil _ (by decide)]
    rfl
  cases b with
  | angle =>
    rw [getLast?_wrapped] at hlast
    exact absurd hlast (by decide)
  | square =>
    -- two characters from the end stands one of the arguments, so that their bracket is before it
    obtain ⟨v, d, rfl⟩ : ∃ v d, inner = v ++ [d] :=
      ⟨_, _, (List.dropLast_append_getLast hne).symm⟩
    have hparts : (name ++ '[' :: v) ++ [d, ']'] = u ++ "[]".toList := by
      rw [← htext]
      simp [wrapped, Brackets.opening, Brackets.closing]
    have hmem : '[' ∈ u := by
      rw [← (List.append_inj' hparts rfl).1]
      simp
    simpa using hmem

/-- What a name with arguments means goes by its last segment. -/
theorem step_wrapped (w : Wrappers) (b : Brackets) {name inner : Text} (h : IsBare name)
    (hbar : TopAll (· != '|') (wrapped b name inner)) (hne : inner ≠ []) :
    w.step (wrapped b name inner) =
      if w.collections.contains (lastSegment name) then .done (trim (firstArgument inner)) false true
      else if w.nullable.contains (lastSegment name) then .more (trim (firstArgument inner)) true
      else if w.transparent.contains (lastSegment name) then .more (trim (firstArgument inner)) false
      else .done (lastSegment name) false false := by
  have hunmarked := h.unmarked_wrapped b inner
  have hsingle : splitTop '|' (wrapped b name inner) = [wrapped b name inner] :=
    splitTop_single hbar hunmarked.trimmed (by simp [wrapped])
  unfold Wrappers.step
  simp only [hunmarked.undecorated_self, hsingle, dropSuffix?_wrapped b name hne, h.generic?_wrapped]
  simp

theorem IsName.unmarked_squared {name : Text} (h : IsName name) (inner : Text) :
    Unmarked (squared name inner) := h.bare.unmarked_wrapped .square inner

theorem step_squared (w : Wrappers) {name inner : Text} (h : IsName name) (hinner : Closed inner)
    (hne : inner ≠ []) : w.step (squared name inner) =
      if w.collections.contains name then .done (trim (firstArgument inner)) false true
      else if w.nullable.contains name then .more (trim (firstArgument inner)) true
      else if w.transparent.contains name then .more (trim (firstArgument inner)) false
      else .done name false false := by
  rw [squared_eq, step_wrapped w .square h.bare (h.bare.topAll_squared hinner (by decide) (by decide)) hne,
    h.lastSegment_self]

/-- A wrapper of something other than a collection that the strategy knows is peeled as its first
argument. -/
theorem peel_squared {w : Wrappers} {name inner hint : Text} (h : IsName name)
    (hinner : Closed inner) (hne : inner ≠ []) (hfirst : firstArgument inner = hint)
    (htrim : trim hint = hint) (hcollection : w.collections.contains name = false)
    (hthrough : (w.nullable ++ w.transparent).contains name = true) :
    w.peel (squared name inner) = (w.peel hint).within (w.nullable.contains name) := by
  refine peel_of_more (h.unmarked_squared inner).trimmed htrim ?_
  rw [step_squared w h hinner hne, hcollection, hfirst, htrim]
  cases hnullable : w.nullable.contains name with
  | true => rfl
  | false =>
    have htransparent : w.transparent.contains name = true := by
      rwa [List.contains_append, hnullable, Bool.false_or] at hthrough
    rw [htransparent]
    rfl

/-- A search for a comma passes over a closed text without one at its top level. -/
theorem findTop?_comma {t : Text} (h : TopAll (· != ',') t) (hclosed : Closed t) (u : Text) :
    findTop? [','] (t ++ u) = (firstTop? (startsWith · [',']) u
      (scanFrom (.code 0 (t.getLast?.or none)) u)).map (· + t.length) := by
  rw [findTop?, findTopWhere?_zero]
  refine firstTop?_closed hclosed (fun cell hcell htop v => ?_) (by decide) u
  rw [startsWith_cons, Bool.and_eq_false_imp]
  intro hcomma
  have hne := h cell hcell htop
  rw [← beq_iff_eq.1 hcomma] at hne
  cases hne

theorem firstArgument_single {t : Text} (h : TopAll (· != ',') t) (hclosed : Closed t) :
    firstArgument t = t := by
  have hnone := findTop?_comma h hclosed []
  rw [List.append_nil] at hnone
  rw [firstArgument, hnone]
  rfl

/-- Of several arguments the first counts. -/
theorem firstArgument_pair {t : Text} (h : TopAll (· != ',') t) (hclosed : Closed t)
    (hangle : '<' ∉ t) (rest : Text) : firstArgument (t ++ ',' :: rest) = t := by
  have hfind : findTop? [','] (t ++ ',' :: rest) = some t.length := by
    have hhere : firstTop? (startsWith · [',']) (',' :: rest)
        (scanFrom (.code 0 (t.getLast?.or none)) (',' :: rest)) = some 0 :=
      firstTop?_here (.inl (by decide)) (startsWith_append [','] rest)
    rw [findTop?_comma h hclosed, hhere, Option.map_some, Nat.zero_add]
  rw [firstArgument, hfind]
  simp [hangle]

/-! ## Unions -/

/-- Two types of which a value has one. -/
def union (a b : Text) : Text := a ++ " | ".toList ++ b

theorem splitTop_union {a b : Text} (ha : Closed a) (hta : TopAll (· != '|') a)
    (htb : TopAll (· != '|') b) (htrima : trim a = a) (htrimb : trim b = b) (hanil : a ≠ [])
    (hbnil : b ≠ []) : splitTop '|' (union a b) = [a, b] := by
  have htext : union a b = a ++ ([' '] ++ '|' :: ([' '] ++ b)) := by simp [union]
  rw [htext, splitTop_append_gap (by decide) (by decide) (by decide) ha (by decide) (by decide),
    splitTop_single hta htrima hanil, splitTop_single htb htrimb hbnil]
  rfl

/-- Of a union whose other members stand for no value one is left. -/
theorem step_union {w : Wrappers} {t only : Text} {left right : List Text} (hunmarked : Unmarked t)
    (hsplit : splitTop '|' t = left ++ only :: right) (hne : left ++ right ≠ [])
    (habsent : ∀ m ∈ left ++ right, m ∈ w.absent) (honly : only ∉ w.absent) :
    w.step t = .more only true := by
  have hnone : ∀ ms ⊆ left ++ right, ms.filter (fun m => !w.absent.contains m) = [] := by
    intro ms hms
    rw [List.filter_eq_nil_iff]
    intro m hm
    simp [habsent m (hms hm)]
  have hkept : (left ++ only :: right).filter (fun m => !w.absent.contains m) = [only] := by
    rw [List.filter_append, List.filter_cons_of_pos (by simpa using honly),
      hnone left (List.subset_append_left left right),
      hnone right (List.subset_append_right left right), List.nil_append]
  have hpos := List.length_pos_iff.2 hne
  have hmany : 1 < (left ++ only :: right).length := by
    simp only [List.length_append, List.length_cons] at hpos ⊢
    omega
  unfold Wrappers.step
  simp only [hunmarked.undecorated_self, hsplit, hkept, if_pos hmany, List.length_singleton,
    decide_eq_true hmany]

/-- A union of several types stays as it is. -/
theorem step_present {w : Wrappers} {t : Text} (hunmarked : Unmarked t)
    (hmany : 1 < (splitTop '|' t).length) (hpresent : ∀ m ∈ splitTop '|' t, m ∉ w.absent) :
    w.step t = .done t false false := by
  have hkept : (splitTop '|' t).filter (fun m => !w.absent.contains m) = splitTop '|' t := by
    rw [List.filter_eq_self]
    intro m hm
    simp [hpresent m hm]
  obtain ⟨a, b, ms, hmembers⟩ : ∃ a b ms, splitTop '|' t = a :: b :: ms := by
    match hsplit : splitTop '|' t with
    | [] | [a] => simp [hsplit] at hmany
    | a :: b :: ms => exact ⟨a, b, ms, rfl⟩
  rw [hmembers] at hkept hmany
  unfold Wrappers.step
  simp only [hunmarked.undecorated_self, hmembers, hkept, if_pos hmany, Nat.lt_irrefl, decide_false]

/-- A union of nothing but members for no value is no type and stays as it is. -/
theorem step_absent {w : Wrappers} {raw t : Text} (hraw : undecorated raw = t) (htrim : trim t = t)
    (habsent : ∀ m ∈ splitTop '|' t, m ∈ w.absent) (hchars : ∀ c ∈ ['[', '<', ':', '.'], c ∉ t) :
    ∃ nullable, w.step raw = .done t nullable false := by
  by_cases hmany : 1 < (splitTop '|' t).length
  · have hkept : (splitTop '|' t).filter (fun m => !w.absent.contains m) = [] := by
      rw [List.filter_eq_nil_iff]
      intro m hm
      simp [habsent m hm]
    refine ⟨decide (0 < (splitTop '|' t).length), ?_⟩
    unfold Wrappers.step
    simp only [hraw, if_pos hmany, hkept, List.length_nil]
  · have hself := lastSegment_of_not_mem htrim (hchars ':' (by decide)) (hchars '.' (by decide))
    refine ⟨false, ?_⟩
    rw [step_of_no_brackets (hchars '[' (by decide)) hraw (hchars '<' (by decide)) hmany, hself]

end Concord.Typing
