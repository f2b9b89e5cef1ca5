/-
The texts of JSON values. `Spells` is the grammar, with any white space between the parts of
a value; what it allows is read as the value it spells, if the reader has fuel for its length
and depth for its height (`readBack_of_spells`). Both ways to write a value are spellings
(`spells_compact`, `spells_pretty`). Doubles are left out: their digits are rounded.
-/
import Concord.Json.Decode
import Concord.Proofs.Json.Scalar

namespace Concord.Json

open Text Number

/-- What a text spells: a value, the items of a list or the members of an object. -/
inductive Part where
  | value (j : Json)
  | items (js : List Json)
  | members (ms : List (String × Json))

/-- The texts of values. Characters are escaped as they are written, white space is free. -/
inductive Spells : Part → Text → Prop where
  | null : Spells (.value .null) (scalar .null)
  | bool (b : Bool) : Spells (.value (.bool b)) (scalar (.bool b))
  | int {n : Int} (h : isWhole64 n = true) : Spells (.value (.int n)) (intText n)
  | str (s : String) : Spells (.value (.str s)) (quoted s)
  | padded {j : Json} {w t w' : Text} : Blank w → Spells (.value j) t → Blank w' →
      Spells (.value j) (w ++ t ++ w')
  | emptyList {w : Text} : Blank w → Spells (.value (.arr [])) ('[' :: w ++ [']'])
  | list {js : List Json} {t : Text} : Spells (.items js) t →
      Spells (.value (.arr js)) ('[' :: t ++ [']'])
  | emptyObject {w : Text} : Blank w → Spells (.value (.obj [])) ('{' :: w ++ ['}'])
  | object {ms : List (String × Json)} {t : Text} : Spells (.members ms) t →
      Spells (.value (.obj ms)) ('{' :: t ++ ['}'])
  | lastItem {j : Json} {t : Text} : Spells (.value j) t → Spells (.items [j]) t
  | item {j : Json} {js : List Json} {t u : Text} : Spells (.value j) t → Spells (.items js) u →
      Spells (.items (j :: js)) (t ++ ',' :: u)
  | lastMember {k : String} {j : Json} {w w' t : Text} : Blank w → Blank w' → Spells (.value j) t →
      Spells (.members [(k, j)]) (w ++ quoted k ++ w' ++ ':' :: t)
  | member {k : String} {j : Json} {ms : List (String × Json)} {w w' t u : Text} : Blank w →
      Blank w' → Spells (.value j) t → Spells (.members ms) u →
      Spells (.members ((k, j) :: ms)) (w ++ quoted k ++ w' ++ ':' :: t ++ ',' :: u)

/-! ## Reading -/

theorem ends_cons {c : Char} (h : isAsciiDigit c = false ∧ c ≠ '.' ∧ c ≠ 'e' ∧ c ≠ 'E') (t : Text) :
    Ends (c :: t) := by
  intro d hd
  obtain rfl : c = d := by simpa using hd
  exact h

theorem Ends.blank_append {w rest : Text} (hw : Blank w) (hrest : Ends rest) : Ends (w ++ rest) := by
  cases w with
  | nil => exact hrest
  | cons c w =>
    have hspace : isSpace c = true := hw c (by simp)
    simp only [isSpace, Bool.or_eq_true, beq_iff_eq] at hspace
    refine ends_cons ?_ _
    rcases hspace with ((rfl | rfl) | rfl) | rfl <;> decide

theorem readValue_blank_append {w : Text} (hw : Blank w) (depth fuel : Nat) (t : Text) :
    readValue depth fuel (w ++ t) = readValue depth fuel t := by
  cases fuel with
  | zero => rw [readValue_zero, readValue_zero]
  | succ fuel => simp only [readValue, skipSpace_append hw]

/-- What a text spells is read from it. A value may leave white space behind. -/
def ReadBack : Part → Text → Prop
  | .value j, t => ∀ depth fuel rest, j.height ≤ depth → t.length ≤ fuel → Ends rest →
      ∃ after, readValue depth fuel (t ++ rest) = some (j, after) ∧ skipSpace after = skipSpace rest
  | .items js, t => ∀ depth fuel rest, heightItems js ≤ depth → t.length < fuel →
      readItems depth fuel (t ++ ']' :: rest) = some (js, rest)
  | .members ms, t => ∀ depth fuel rest, heightMembers ms ≤ depth → t.length < fuel →
      readMembers depth fuel (t ++ '}' :: rest) = some (ms, rest)

/-- A value without white space around it leaves none. -/
theorem readBack_value {j : Json} {t : Text} (ht : t ≠ [])
    (h : ∀ depth fuel rest, j.height ≤ depth → t.length ≤ fuel + 1 → Ends rest →
      readValue depth (fuel + 1) (t ++ rest) = some (j, rest)) : ReadBack (.value j) t := by
  intro depth fuel rest hdepth hfuel hrest
  obtain ⟨fuel, rfl⟩ : ∃ n, fuel = n + 1 :=
    ⟨fuel - 1, by have := List.length_pos_iff.2 ht; omega⟩
  exact ⟨rest, h depth fuel rest hdepth hfuel hrest, rfl⟩

theorem readValue_digit {c : Char} (h : isAsciiDigit c = true) (depth fuel : Nat) (t : Text) :
    readValue depth (fuel + 1) (c :: t) = readNumber false (c :: t) := by
  have hrange := toNat_of_isAsciiDigit h
  have hother : ∀ d : Char, d.toNat < 48 → c ≠ d := by
    rintro d hd rfl
    omega
  have hspace : isSpace c = false := by
    simp [isSpace, hother ' ' (by decide), hother '\t' (by decide), hother '\n' (by decide),
      hother '\r' (by decide)]
  simp [readValue, skipSpace_cons hspace, h, hother '"' (by decide), hother '-' (by decide)]

theorem readBack_int {n : Int} (h : isWhole64 n = true) : ReadBack (.value (.int n)) (intText n) := by
  have hbound := natAbs_le_of_isWhole64 h
  by_cases hsign : n < 0
  · have htext : intText n = '-' :: Nat.toDigits 10 n.natAbs := by simp [intText, hsign]
    rw [htext]
    refine readBack_value (by simp) fun depth fuel rest _ _ hrest => ?_
    have hminus : isSpace '-' = false := by decide
    simp [readValue, skipSpace_cons hminus, readNumber_toDigits true n.natAbs hbound hrest,
      whole_negative hsign h]
  · have htext : intText n = Nat.toDigits 10 n.natAbs := by simp [intText, hsign]
    have hvalue : readUnsigned.whole false n.natAbs = .int n := by
      simp only [readUnsigned.whole, Bool.false_eq_true, ↓reduceIte, Json.int.injEq]
      omega
    rw [htext]
    refine readBack_value Nat.toDigits_ne_nil fun depth fuel rest _ _ hrest => ?_
    have hread := readNumber_toDigits false n.natAbs hbound hrest
    obtain ⟨c, t, hdigits, hdigit, -⟩ := toDigits_eq_cons n.natAbs
    rw [hdigits, List.cons_append] at hread ⊢
    rw [readValue_digit hdigit, hread, hvalue]

theorem readBack_str (s : String) : ReadBack (.value (.str s)) (quoted s) := by
  refine readBack_value (by simp [quoted]) fun depth fuel rest _ _ _ => ?_
  obtain ⟨t, htext, hread⟩ := readString_quoted s rest
  have hquote : isSpace '"' = false := by decide
  rw [htext]
  simp [readValue, skipSpace_cons hquote, hread]

/-- A text that closes a list at once holds no items. -/
theorem readItems_of_close {t u : Text} (h : skipSpace t = ']' :: u) (depth fuel : Nat) :
    readItems depth fuel t = none := by
  rcases fuel with _ | _ | fuel
  · exact readItems_zero depth t
  · simp only [readItems, readValue_zero]
  · simp [readItems, readValue, h, isAsciiDigit]

theorem readMembers_of_close {t u : Text} (h : skipSpace t = '}' :: u) (depth fuel : Nat) :
    readMembers depth fuel t = none := by
  cases fuel with
  | zero => exact readMembers_zero depth t
  | succ fuel => simp [readMembers, h]

theorem readBack_list {js : List Json} {t : Text} (ih : ReadBack (.items js) t) :
    ReadBack (.value (.arr js)) ('[' :: t ++ [']']) := by
  refine readBack_value (by simp) fun depth fuel rest hdepth hfuel _ => ?_
  simp only [height] at hdepth
  obtain ⟨depth, rfl⟩ : ∃ n, depth = n + 1 := ⟨depth - 1, by omega⟩
  have hread := ih depth fuel rest (by omega) (by simp at hfuel; omega)
  have hopen : isSpace '[' = false := by decide
  have hdigit : isAsciiDigit '[' = false := by decide
  -- a bracket that closes at once is looked for first, but then no items could have been read
  have hitems : ∀ u, skipSpace (t ++ ']' :: rest) ≠ ']' :: u := fun u hu => by
    rw [readItems_of_close hu] at hread
    cases hread
  simp [readValue, skipSpace_cons hopen, hdigit, hread]

theorem readBack_emptyList {w : Text} (hw : Blank w) :
    ReadBack (.value (.arr [])) ('[' :: w ++ [']']) := by
  refine readBack_value (by simp) fun depth fuel rest hdepth _ _ => ?_
  simp only [height] at hdepth
  obtain ⟨depth, rfl⟩ : ∃ n, depth = n + 1 := ⟨depth - 1, by omega⟩
  have hopen : isSpace '[' = false := by decide
  have hclose : isSpace ']' = false := by decide
  have hdigit : isAsciiDigit '[' = false := by decide
  simp [readValue, skipSpace_cons hopen, hdigit, skipSpace_append hw, skipSpace_cons hclose]

theorem readBack_object {ms : List (String × Json)} {t : Text} (ih : ReadBack (.members ms) t) :
    ReadBack (.value (.obj ms)) ('{' :: t ++ ['}']) := by
  refine readBack_value (by simp) fun depth fuel rest hdepth hfuel _ => ?_
  simp only [height] at hdepth
  obtain ⟨depth, rfl⟩ : ∃ n, depth = n + 1 := ⟨depth - 1, by omega⟩
  have hread := ih depth fuel rest (by omega) (by simp at hfuel; omega)
  have hopen : isSpace '{' = false := by decide
  have hdigit : isAsciiDigit '{' = false := by decide
  have hmembers : ∀ u, skipSpace (t ++ '}' :: rest) ≠ '}' :: u := fun u hu => by
    rw [readMembers_of_close hu] at hread
    cases hread
  simp [readValue, skipSpace_cons hopen, hdigit, hread]

theorem readBack_emptyObject {w : Text} (hw : Blank w) :
    ReadBack (.value (.obj [])) ('{' :: w ++ ['}']) := by
  refine readBack_value (by simp) fun depth fuel rest hdepth _ _ => ?_
  simp only [height] at hdepth
  obtain ⟨depth, rfl⟩ : ∃ n, depth = n + 1 := ⟨depth - 1, by omega⟩
  have hopen : isSpace '{' = false := by decide
  have hclose : isSpace '}' = false := by decide
  have hdigit : isAsciiDigit '{' = false := by decide
  simp [readValue, skipSpace_cons hopen, hdigit, skipSpace_append hw, skipSpace_cons hclose]

theorem readBack_padded {j : Json} {w t w' : Text} (hw : Blank w) (ih : ReadBack (.value j) t)
    (hw' : Blank w') : ReadBack (.value j) (w ++ t ++ w') := by
  intro depth fuel rest hdepth hfuel hrest
  obtain ⟨after, hread, hafter⟩ :=
    ih depth fuel (w' ++ rest) hdepth (by simp at hfuel; omega) (hrest.blank_append hw')
  refine ⟨after, ?_, hafter.trans (skipSpace_append hw' rest)⟩
  rw [List.append_assoc, List.append_assoc, readValue_blank_append hw, hread]

theorem readBack_lastItem {j : Json} {t : Text} (ih : ReadBack (.value j) t) :
    ReadBack (.items [j]) t := by
  intro depth fuel rest hdepth hfuel
  obtain ⟨fuel, rfl⟩ : ∃ n, fuel = n + 1 := ⟨fuel - 1, by omega⟩
  have hclose : isSpace ']' = false := by decide
  obtain ⟨after, hread, hafter⟩ := ih depth fuel (']' :: rest)
    (by simpa [heightItems] using hdepth) (by omega) (ends_cons (by decide) rest)
  rw [skipSpace_cons hclose] at hafter
  simp [readItems, hread, hafter]

theorem readBack_item {j : Json} {js : List Json} {t u : Text} (ih : ReadBack (.value j) t)
    (ihs : ReadBack (.items js) u) : ReadBack (.items (j :: js)) (t ++ ',' :: u) := by
  intro depth fuel rest hdepth hfuel
  obtain ⟨fuel, rfl⟩ : ∃ n, fuel = n + 1 := ⟨fuel - 1, by omega⟩
  simp only [heightItems] at hdepth
  simp only [List.length_append, List.length_cons] at hfuel
  have hcomma : isSpace ',' = false := by decide
  obtain ⟨after, hread, hafter⟩ := ih depth fuel (',' :: (u ++ ']' :: rest)) (by omega) (by omega)
    (ends_cons (by decide) _)
  have hreads := ihs depth fuel rest (by omega) (by omega)
  rw [skipSpace_cons hcomma] at hafter
  simp [readItems, hread, hafter, hreads]

/-- A member is read with the white space around its key; a brace or a comma follows. -/
theorem readMembers_of_value {w w' t after : Text} {k : String} {j : Json} {depth fuel : Nat}
    (hw : Blank w) (hw' : Blank w') (hread : readValue depth fuel t = some (j, after)) (u : Text) :
    (skipSpace after = '}' :: u →
        readMembers depth (fuel + 1) (w ++ quoted k ++ w' ++ ':' :: t) = some ([(k, j)], u)) ∧
      (skipSpace after = ',' :: u →
        readMembers depth (fuel + 1) (w ++ quoted k ++ w' ++ ':' :: t) =
          (readMembers depth fuel u).map fun r => ((k, j) :: r.1, r.2)) := by
  have hquote : isSpace '"' = false := by decide
  have hcolon : isSpace ':' = false := by decide
  obtain ⟨v, htext, hkey⟩ := readString_quoted k (w' ++ ':' :: t)
  have hskip : skipSpace (w ++ quoted k ++ w' ++ ':' :: t) = '"' :: v := by
    simp only [List.append_assoc, skipSpace_append hw, htext, skipSpace_cons hquote]
  constructor <;> intro hafter <;>
    simp only [readMembers, hskip, hkey, skipSpace_append hw', skipSpace_cons hcolon, hread, hafter]

theorem readBack_lastMember {k : String} {j : Json} {w w' t : Text} (hw : Blank w) (hw' : Blank w')
    (ih : ReadBack (.value j) t) :
    ReadBack (.members [(k, j)]) (w ++ quoted k ++ w' ++ ':' :: t) := by
  intro depth fuel rest hdepth hfuel
  obtain ⟨fuel, rfl⟩ : ∃ n, fuel = n + 1 := ⟨fuel - 1, by omega⟩
  simp only [heightMembers] at hdepth
  simp only [List.length_append, List.length_cons] at hfuel
  have hclose : isSpace '}' = false := by decide
  obtain ⟨after, hread, hafter⟩ := ih depth fuel ('}' :: rest) (by omega) (by omega)
    (ends_cons (by decide) _)
  rw [skipSpace_cons hclose] at hafter
  rw [List.append_assoc, List.cons_append]
  exact (readMembers_of_value hw hw' hread rest).1 hafter

theorem readBack_member {k : String} {j : Json} {ms : List (String × Json)} {w w' t u : Text}
    (hw : Blank w) (hw' : Blank w') (ih : ReadBack (.value j) t) (ihs : ReadBack (.members ms) u) :
    ReadBack (.members ((k, j) :: ms)) (w ++ quoted k ++ w' ++ ':' :: t ++ ',' :: u) := by
  intro depth fuel rest hdepth hfuel
  obtain ⟨fuel, rfl⟩ : ∃ n, fuel = n + 1 := ⟨fuel - 1, by omega⟩
  simp only [heightMembers] at hdepth
  simp only [List.length_append, List.length_cons] at hfuel
  have hcomma : isSpace ',' = false := by decide
  obtain ⟨after, hread, hafter⟩ := ih depth fuel (',' :: (u ++ '}' :: rest)) (by omega) (by omega)
    (ends_cons (by decide) _)
  have hreads := ihs depth fuel rest (by omega) (by omega)
  have htext : w ++ quoted k ++ w' ++ ':' :: t ++ ',' :: u ++ '}' :: rest =
      w ++ quoted k ++ w' ++ ':' :: (t ++ ',' :: (u ++ '}' :: rest)) := by simp
  rw [skipSpace_cons hcomma] at hafter
  rw [htext, (readMembers_of_value hw hw' hread _).2 hafter, hreads]
  rfl

/-- What the grammar allows is read as what it spells. -/
theorem readBack_of_spells {p : Part} {t : Text} (h : Spells p t) : ReadBack p t := by
  induction h with
  | null => exact readBack_value (by decide) fun depth fuel rest _ _ _ => rfl
  | bool b =>
    refine readBack_value (by cases b <;> decide) fun depth fuel rest _ _ _ => ?_
    cases b <;> rfl
  | int hwhole => exact readBack_int hwhole
  | str s => exact readBack_str s
  | padded hw _ hw' ih => exact readBack_padded hw ih hw'
  | emptyList hw => exact readBack_emptyList hw
  | list _ ih => exact readBack_list ih
  | emptyObject hw => exact readBack_emptyObject hw
  | object _ ih => exact readBack_object ih
  | lastItem _ ih => exact readBack_lastItem ih
  | item _ _ ih ihs => exact readBack_item ih ihs
  | lastMember hw hw' _ ih => exact readBack_lastMember hw hw' ih
  | member hw hw' _ _ ih ihs => exact readBack_member hw hw' ih ihs

/-- A text is read as the value it spells, unless it is nested too deep. -/
theorem read_of_spells {j : Json} {text : String} (h : Spells (.value j) text.toList)
    (hdepth : j.height ≤ maxDepth) : read text = some j := by
  have hends : Ends [] := fun c hc => by simp at hc
  obtain ⟨after, hread, hafter⟩ := readBack_of_spells h maxDepth (text.toList.length + 1) [] hdepth
    (by omega) hends
  rw [List.append_nil] at hread
  have hblank : (skipSpace after).isEmpty = true := by rw [hafter]; rfl
  simp [read, hread, hblank]

/-! ## Writing -/

mutual

/-- Whether a value holds no double and no whole number outside 64 bits. -/
def isPlain : Json → Bool
  | .int n => isWhole64 n
  | .float _ => false
  | .arr items => isPlainItems items
  | .obj members => isPlainMembers members
  | _ => true

def isPlainItems : List Json → Bool
  | [] => true
  | j :: items => j.isPlain && isPlainItems items

def isPlainMembers : List (String × Json) → Bool
  | [] => true
  | (_, j) :: members => j.isPlain && isPlainMembers members

end

theorem isPlainItems_iff (items : List Json) :
    isPlainItems items = true ↔ ∀ j ∈ items, j.isPlain = true := by
  induction items with
  | nil => simp [isPlainItems]
  | cons j items ih => simp [isPlainItems, ih]

theorem isPlainMembers_iff (members : List (String × Json)) :
    isPlainMembers members = true ↔ ∀ m ∈ members, m.2.isPlain = true := by
  induction members with
  | nil => simp [isPlainMembers]
  | cons m members ih => obtain ⟨k, j⟩ := m; simp [isPlainMembers, ih]

theorem blank_nil : Blank [] := fun c hc => by simp at hc

theorem blank_space : Blank [' '] := by
  intro c hc
  obtain rfl := List.mem_singleton.1 hc
  decide

/-- The white space of a new line. -/
def lineSpace (indent : Nat) : Text := '\n' :: List.replicate indent ' '

theorem blank_lineSpace (indent : Nat) : Blank (lineSpace indent) := by
  intro c hc
  rcases List.mem_cons.1 hc with rfl | hc
  · decide
  · obtain rfl := List.eq_of_mem_replicate hc
    decide

/-- White space after a part belongs to the last value in it. -/
theorem Spells.append_blank {p : Part} {t w : Text} (h : Spells p t) (hw : Blank w) :
    Spells p (t ++ w) := by
  have hvalue : ∀ {j : Json} {t : Text}, Spells (.value j) t → Spells (.value j) (t ++ w) :=
    fun h => .padded blank_nil h hw
  -- only the last item or member is touched; a value takes the white space itself
  induction h with
  | lastItem h => exact .lastItem (hvalue h)
  | item h _ _ ihs => rw [List.append_assoc]; exact .item h ihs
  | lastMember hbefore hafter h =>
    rw [List.append_assoc]
    exact .lastMember hbefore hafter (hvalue h)
  | member hbefore hafter h _ _ ihs =>
    rw [List.append_assoc]
    exact .member hbefore hafter h ihs
  | null => exact hvalue .null
  | bool b => exact hvalue (.bool b)
  | int hwhole => exact hvalue (.int hwhole)
  | str s => exact hvalue (.str s)
  | padded hw h hw' => exact hvalue (.padded hw h hw')
  | emptyList hw => exact hvalue (.emptyList hw)
  | list h => exact hvalue (.list h)
  | emptyObject hw => exact hvalue (.emptyObject hw)
  | object h => exact hvalue (.object h)

/-- A writer puts a spelling of a value before what follows it. -/
def Writes (write : Json → Text → Text) (j : Json) : Prop :=
  ∃ t, Spells (.value j) t ∧ ∀ rest, write j rest = t ++ rest

/-- Items are spelled by a writer that puts each of them after the same white space. -/
theorem exists_spells_items {write : Json → Text → Text} (join : Bool → List Json → Text → Text)
    {before : Text} (hbefore : Blank before) (hnil : ∀ rest, join false [] rest = rest)
    (hcons : ∀ first j items rest, join first (j :: items) rest =
      if first then before ++ write j (join false items rest)
      else ',' :: (before ++ write j (join false items rest)))
    {items : List Json} (h : ∀ j ∈ items, Writes write j) (hne : items ≠ []) :
    ∃ t, Spells (.items items) t ∧ (∀ rest, join true items rest = t ++ rest) ∧
      ∀ rest, join false items rest = ',' :: (t ++ rest) := by
  induction items with
  | nil => exact absurd rfl hne
  | cons j items ih =>
    obtain ⟨t, hspells, htext⟩ := h j (by simp)
    -- the white space in front of an item belongs to it, so only the comma stands between items
    have hvalue : Spells (.value j) (before ++ t) := by
      simpa using Spells.padded hbefore hspells blank_nil
    cases items with
    | nil => exact ⟨_, .lastItem hvalue, fun rest => by simp [hcons, hnil, htext],
        fun rest => by simp [hcons, hnil, htext]⟩
    | cons i items =>
      obtain ⟨u, hmore, -, hrest⟩ := ih (fun x hx => h x (by simp [hx])) (List.cons_ne_nil _ _)
      exact ⟨_, .item hvalue hmore, fun rest => by rw [hcons, hrest, htext]; simp,
        fun rest => by rw [hcons, hrest, htext]; simp⟩

/-- Members are spelled by a writer that puts each key and each value after the same white space. -/
theorem exists_spells_members {write : Json → Text → Text}
    (join : Bool → List (String × Json) → Text → Text) {before gap : Text} (hbefore : Blank before)
    (hgap : Blank gap) (hnil : ∀ rest, join false [] rest = rest)
    (hcons : ∀ first k j members rest, join first ((k, j) :: members) rest =
      if first then before ++ (quoted k ++ ':' :: (gap ++ write j (join false members rest)))
      else ',' :: (before ++ (quoted k ++ ':' :: (gap ++ write j (join false members rest)))))
    {members : List (String × Json)} (h : ∀ m ∈ members, Writes write m.2) (hne : members ≠ []) :
    ∃ t, Spells (.members members) t ∧ (∀ rest, join true members rest = t ++ rest) ∧
      ∀ rest, join false members rest = ',' :: (t ++ rest) := by
  induction members with
  | nil => exact absurd rfl hne
  | cons m members ih =>
    obtain ⟨k, j⟩ := m
    obtain ⟨t, hspells, htext⟩ := h (k, j) (by simp)
    have hvalue : Spells (.value j) (gap ++ t) := by
      simpa using Spells.padded hgap hspells blank_nil
    cases members with
    | nil => exact ⟨_, .lastMember hbefore blank_nil hvalue,
        fun rest => by simp [hcons, hnil, htext], fun rest => by simp [hcons, hnil, htext]⟩
    | cons n members =>
      obtain ⟨u, hmore, -, hrest⟩ := ih (fun x hx => h x (by simp [hx])) (List.cons_ne_nil _ _)
      exact ⟨_, .member hbefore blank_nil hvalue hmore,
        fun rest => by rw [hcons, hrest, htext]; simp, fun rest => by rw [hcons, hrest, htext]; simp⟩

/-- Induction on the items and the members of values. -/
theorem nested_induction {P : Json → Prop} (flat : ∀ j : Json, j.height = 0 → P j)
    (arr : ∀ items : List Json, (∀ j ∈ items, P j) → P (.arr items))
    (obj : ∀ members : List (String × Json), (∀ m ∈ members, P m.2) → P (.obj members)) :
    ∀ j, P j
  | .null => flat _ rfl
  | .bool _ => flat _ rfl
  | .int _ => flat _ rfl
  | .float _ => flat _ rfl
  | .str _ => flat _ rfl
  | .arr items => arr items fun j _ => nested_induction flat arr obj j
  | .obj members => obj members fun m hm =>
    have hmember := List.sizeOf_lt_of_mem hm
    have hvalue : sizeOf m.2 < sizeOf m := by cases m; simp only [Prod.mk.sizeOf_spec]; omega
    nested_induction flat arr obj m.2

theorem writes_scalar {write : Json → Text → Text} {j : Json} (hflat : j.height = 0)
    (h : j.isPlain = true) (hwrite : ∀ rest, write j rest = scalar j ++ rest) : Writes write j := by
  cases j with
  | null => exact ⟨_, .null, hwrite⟩
  | bool b => exact ⟨_, .bool b, hwrite⟩
  | int n => exact ⟨_, .int h, hwrite⟩
  | float x => cases h
  | str s => exact ⟨_, .str s, hwrite⟩
  | arr items => simp [height] at hflat
  | obj members => simp [height] at hflat

/-- A value on one line is spelled. -/
theorem writes_compact (j : Json) (h : j.isPlain = true) : Writes compactOnto j := by
  induction j using nested_induction with
  | flat j hflat =>
    refine writes_scalar hflat h fun rest => ?_
    cases j <;> simp_all [height, compactOnto]
  | arr items ih =>
    have hitems := (isPlainItems_iff items).1 h
    cases items with
    | nil => exact ⟨_, .emptyList blank_nil, fun _ => rfl⟩
    | cons j items =>
      obtain ⟨t, hspells, htext, -⟩ := exists_spells_items compactItems blank_nil
        (fun _ => rfl) (fun _ _ _ _ => rfl) (fun i hi => ih i hi (hitems i hi)) (List.cons_ne_nil _ _)
      exact ⟨_, .list hspells, fun rest => by simp [compactOnto, htext]⟩
  | obj members ih =>
    have hmembers := (isPlainMembers_iff members).1 h
    cases members with
    | nil => exact ⟨_, .emptyObject blank_nil, fun _ => rfl⟩
    | cons m members =>
      obtain ⟨t, hspells, htext, -⟩ := exists_spells_members compactMembers blank_nil blank_nil
        (fun _ => rfl) (fun _ _ _ _ _ => rfl) (fun n hn => ih n hn (hmembers n hn))
        (List.cons_ne_nil _ _)
      exact ⟨_, .object hspells, fun rest => by simp [compactOnto, htext]⟩

/-- A value over several lines is spelled. -/
theorem writes_pretty (indent : Nat) (j : Json) (h : j.isPlain = true) :
    Writes (prettyOnto indent) j := by
  induction j using nested_induction generalizing indent with
  | flat j hflat =>
    refine writes_scalar hflat h fun rest => ?_
    cases j <;> simp_all [height, prettyOnto]
  | arr items ih =>
    have hitems := (isPlainItems_iff items).1 h
    cases items with
    | nil => exact ⟨_, .emptyList blank_nil, fun _ => rfl⟩
    | cons j items =>
      obtain ⟨t, hspells, htext, -⟩ := exists_spells_items (prettyItems (indent + 2))
        (blank_lineSpace (indent + 2)) (fun _ => rfl) (fun _ _ _ _ => rfl)
        (fun i hi => ih i hi (indent + 2) (hitems i hi)) (List.cons_ne_nil _ _)
      exact ⟨_, .list (hspells.append_blank (blank_lineSpace indent)),
        fun rest => by simp [prettyOnto, htext, newline, lineSpace]⟩
  | obj members ih =>
    have hmembers := (isPlainMembers_iff members).1 h
    cases members with
    | nil => exact ⟨_, .emptyObject blank_nil, fun _ => rfl⟩
    | cons m members =>
      obtain ⟨t, hspells, htext, -⟩ := exists_spells_members (prettyMembers (indent + 2))
        (blank_lineSpace (indent + 2)) blank_space (fun _ => rfl) (fun _ _ _ _ _ => rfl)
        (fun n hn => ih n hn (indent + 2) (hmembers n hn)) (List.cons_ne_nil _ _)
      exact ⟨_, .object (hspells.append_blank (blank_lineSpace indent)),
        fun rest => by simp [prettyOnto, htext, newline, lineSpace]⟩

theorem spells_compact {j : Json} (h : j.isPlain = true) : Spells (.value j) j.compact.toList := by
  obtain ⟨t, hspells, htext⟩ := writes_compact j h
  simpa [compact, htext] using hspells

theorem spells_pretty {j : Json} (h : j.isPlain = true) : Spells (.value j) j.pretty.toList := by
  obtain ⟨t, hspells, htext⟩ := writes_pretty 0 j h
  simpa [pretty, htext] using hspells

/-! ## Shallow values -/

open Concord.Json.Encode

/-- A value without doubles that is nested at most `depth` deep. -/
structure Shallow (depth : Nat) (j : Json) : Prop where
  plain : j.isPlain = true
  height_le : j.height ≤ depth

/-- Members with such values. -/
def ShallowMembers (depth : Nat) (members : List (String × Json)) : Prop :=
  ∀ m ∈ members, Shallow depth m.2

variable {α : Type} {depth : Nat}

theorem Shallow.mono {depth' : Nat} {j : Json} (h : Shallow depth j) (hle : depth ≤ depth') :
    Shallow depth' j := ⟨h.plain, Nat.le_trans h.height_le hle⟩

/-- A shallow value is read from every text that spells it. -/
theorem Shallow.read {j : Json} (h : Shallow maxDepth j) {text : String}
    (hspells : Spells (.value j) text.toList) : read text = some j :=
  read_of_spells hspells h.height_le

@[simp] theorem shallow_str (s : String) : Shallow depth (.str s) := ⟨rfl, Nat.zero_le _⟩

@[simp] theorem shallow_bool (b : Bool) : Shallow depth (.bool b) := ⟨rfl, Nat.zero_le _⟩

theorem shallow_arr {items : List Json} (h : ∀ j ∈ items, Shallow depth j) :
    Shallow (depth + 1) (.arr items) := by
  refine ⟨(isPlainItems_iff items).2 fun j hj => (h j hj).plain, ?_⟩
  rw [height, Nat.add_le_add_iff_right]
  induction items with
  | nil => exact Nat.zero_le _
  | cons j items ih =>
    exact Nat.max_le.2 ⟨(h j (by simp)).height_le, ih fun i hi => h i (by simp [hi])⟩

theorem shallow_obj {members : List (String × Json)} (h : ShallowMembers depth members) :
    Shallow (depth + 1) (.obj members) := by
  refine ⟨(isPlainMembers_iff members).2 fun m hm => (h m hm).plain, ?_⟩
  rw [height, Nat.add_le_add_iff_right]
  induction members with
  | nil => exact Nat.zero_le _
  | cons m members ih =>
    exact Nat.max_le.2 ⟨(h m (by simp)).height_le, ih fun n hn => h n (by simp [hn])⟩

theorem shallow_list {write : α → Json} {as : List α} (h : ∀ a ∈ as, Shallow depth (write a)) :
    Shallow (depth + 1) (Encode.list write as) :=
  shallow_arr fun j hj => by
    obtain ⟨a, ha, rfl⟩ := List.mem_map.1 hj
    exact h a ha

@[simp] theorem shallow_strings (ss : List String) : Shallow (depth + 1) (strings ss) :=
  shallow_list fun s _ => shallow_str s

@[simp] theorem shallow_option_str (s : Option String) : Shallow depth (option .str s) := by
  cases s with
  | none => exact ⟨rfl, Nat.zero_le _⟩
  | some s => exact shallow_str s

@[simp] theorem shallow_map_str (m : KeyMap String) : Shallow (depth + 1) (Encode.map .str m) :=
  shallow_obj fun x hx => by
    obtain ⟨y, -, rfl⟩ := List.mem_map.1 hx
    exact shallow_str y.2

@[simp] theorem shallowMembers_append (a b : List (String × Json)) :
    ShallowMembers depth (a ++ b) ↔ ShallowMembers depth a ∧ ShallowMembers depth b := by
  simp only [ShallowMembers, List.mem_append, or_imp, forall_and]

@[simp] theorem shallowMembers_member (name : String) (j : Json) :
    ShallowMembers depth (member name j) ↔ Shallow depth j := by
  simp [ShallowMembers, member]

@[simp] theorem shallowMembers_memberUnless (absent : Bool) (name : String) (j : Json) :
    ShallowMembers depth (memberUnless absent name j) ↔ (absent = false → Shallow depth j) := by
  cases absent <;> simp [ShallowMembers, memberUnless]

end Concord.Json
