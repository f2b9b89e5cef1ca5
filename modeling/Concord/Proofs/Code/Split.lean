/-
Searching and splitting over closed texts. A search for a top-level place passes over
a closed text whose top level offers none (`firstTop?_closed`), and splitting gives back
the parts that separators were put between (`splitTop_parts`).
-/
import Concord.Proofs.Code.Top
import Concord.Proofs.Text.Lines

namespace Concord.Code

open Text

/-! ## The first top-level place -/

/-- A search passes over cells where the text from no top-level place on fits. -/
theorem firstTop?_skip {ok : Text → Bool} (cells : List Cell) (t : Text) (more : List Cell)
    (h : ∀ i cell, cells[i]? = some cell → cell.isTop = true →
      ok ((cells.map Cell.char).drop i ++ t) = false) :
    firstTop? ok (cells.map Cell.char ++ t) (cells ++ more) =
      (firstTop? ok t more).map (· + cells.length) := by
  induction cells with
  | nil => simp
  | cons cell cells ih =>
    have hrest := ih fun i x hx => h (i + 1) x (by simpa using hx)
    have hnot : (cell.isTop && ok (cell.char :: (cells.map Cell.char ++ t))) = false := by
      rw [Bool.and_eq_false_imp]
      exact fun htop => h 0 cell rfl htop
    rw [List.map_cons, List.cons_append, List.cons_append, firstTop?, hnot, hrest, Option.map_map]
    rfl

variable {ok : Text → Bool} {prev : Option Char}

/-- A search passes over a closed text if nothing fits from its top-level places on. -/
theorem firstTop?_closed_at {a : Text} (ha : Closed a) (hp : Fresh prev) (t : Text)
    (h : ∀ i cell, (scan a)[i]? = some cell → cell.isTop = true → ok (a.drop i ++ t) = false) :
    firstTop? ok (a ++ t) (scanFrom (.code 0 prev) (a ++ t)) =
      (firstTop? ok t (scanFrom (.code 0 (a.getLast?.or prev)) t)).map (· + a.length) := by
  have hzero : (Cell.raise 0 : Cell → Cell) = id := funext Cell.raise_zero
  have hchars : (scan a).map Cell.char = a := map_char_scanFrom _ a
  have hwalk := firstTop?_skip (scan a) t (scanFrom (.code 0 (a.getLast?.or prev)) t) (by rwa [hchars])
  rw [hchars, length_scan] at hwalk
  rw [ha.scanFrom_append 0 hp, hzero, List.map_id]
  exact hwalk

/-- A search passes over a closed text whose top level offers no place. -/
theorem firstTop?_closed {a : Text} (ha : Closed a)
    (h : ∀ cell ∈ scan a, cell.isTop = true → ∀ u, ok (cell.char :: u) = false) (hp : Fresh prev) (t : Text) :
    firstTop? ok (a ++ t) (scanFrom (.code 0 prev) (a ++ t)) =
      (firstTop? ok t (scanFrom (.code 0 (a.getLast?.or prev)) t)).map (· + a.length) := by
  refine firstTop?_closed_at ha hp t fun i cell hcell htop => ?_
  have hchar : a[i]? = some cell.char := by
    rw [← map_char_scanFrom .start a, List.getElem?_map]
    exact congrArg (Option.map Cell.char) hcell
  obtain ⟨hi, hget⟩ := List.getElem?_eq_some_iff.1 hchar
  rw [List.drop_eq_getElem_cons hi, hget]
  exact h cell (List.mem_of_getElem? hcell) htop _

theorem firstTop?_plain {c : Char} (hc : isPlain c = true) {t : Text} (h : ok (c :: t) = false) :
    firstTop? ok (c :: t) (scanFrom (.code 0 prev) (c :: t)) =
      (firstTop? ok t (scanFrom (.code 0 (some c)) t)).map (· + 1) := by
  simp [scanFrom_plain hc, firstTop?, h]

/-- A place outside literals and brackets is found if it fits. -/
theorem firstTop?_here {c : Char} (hc : isPlain c = true ∨ isOpening c = true) {t : Text}
    (h : ok (c :: t) = true) : firstTop? ok (c :: t) (scanFrom (.code 0 prev) (c :: t)) = some 0 := by
  have htop : Cell.isTop ⟨c, some 0⟩ = true := rfl
  rcases hc with hc | hc
  · simp [scanFrom_plain hc, firstTop?, h, htop]
  · simp [scanFrom_opening hc, firstTop?, h, htop]

theorem findTopWhere?_zero (ok : Text → Bool) (t : Text) :
    findTopWhere? ok t 0 = firstTop? ok t (scanFrom (.code 0 none) t) := by
  simp [findTopWhere?, scan, Cursor.start]

/-! ## Pieces -/

theorem piecesAt_quiet {sep : Char} (cells : List Cell)
    (h : ∀ cell ∈ cells, cell.isTop = true → (cell.char != sep) = true) {more : List Cell} {piece : Text}
    {pieces : List Text} (hmore : piecesAt sep more = piece :: pieces) :
    piecesAt sep (cells ++ more) = (cells.map Cell.char ++ piece) :: pieces := by
  induction cells with
  | nil => exact hmore
  | cons cell cells ih =>
    have hnot : (cell.isTop && cell.char == sep) = false := by
      rw [Bool.and_eq_false_imp]
      intro htop
      simpa using h cell (by simp) htop
    rw [List.cons_append, piecesAt, hnot, ih fun x hx => h x (by simp [hx])]
    rfl

theorem exists_piecesAt (sep : Char) (cells : List Cell) :
    ∃ piece pieces, piecesAt sep cells = piece :: pieces := by
  cases cells with
  | nil => exact ⟨_, _, rfl⟩
  | cons cell cells =>
    rw [piecesAt]
    split
    · exact ⟨_, _, rfl⟩
    · split <;> exact ⟨_, _, rfl⟩

/-- A separator parts the pieces before it from those after it. -/
theorem piecesAt_append (sep : Char) (cells more : List Cell) :
    piecesAt sep (cells ++ ⟨sep, some 0⟩ :: more) = piecesAt sep cells ++ piecesAt sep more := by
  induction cells with
  | nil => simp [piecesAt, Cell.isTop]
  | cons cell cells ih =>
    obtain ⟨piece, pieces, hpieces⟩ := exists_piecesAt sep cells
    rw [List.cons_append, piecesAt, piecesAt, ih, hpieces]
    split <;> rfl

/-- What follows without a separator belongs to the last piece. -/
theorem piecesAt_append_quiet {sep : Char} (cells : List Cell) {quiet : List Cell}
    (h : ∀ cell ∈ quiet, cell.isTop = true → (cell.char != sep) = true) :
    ∃ pieces piece, piecesAt sep cells = pieces ++ [piece] ∧
      piecesAt sep (cells ++ quiet) = pieces ++ [piece ++ quiet.map Cell.char] := by
  induction cells with
  | nil =>
    refine ⟨[], [], rfl, ?_⟩
    have hquiet : piecesAt sep (quiet ++ []) = [quiet.map Cell.char ++ []] :=
      piecesAt_quiet quiet h rfl
    rwa [List.append_nil, List.append_nil] at hquiet
  | cons cell cells ih =>
    obtain ⟨pieces, piece, hbefore, hafter⟩ := ih
    rw [List.cons_append, piecesAt, piecesAt, hbefore, hafter]
    split
    · exact ⟨[] :: pieces, piece, rfl, rfl⟩
    · cases pieces with
      | nil => exact ⟨[], cell.char :: piece, rfl, rfl⟩
      | cons first pieces => exact ⟨(cell.char :: first) :: pieces, piece, rfl, rfl⟩

theorem piecesAt_scan {sep : Char} {t : Text} (h : TopAll (· != sep) t) :
    piecesAt sep (scan t) = [t] := by
  have hpieces : piecesAt sep (scan t ++ []) = [(scan t).map Cell.char ++ []] :=
    piecesAt_quiet (scan t) h rfl
  rwa [List.append_nil, List.append_nil, scan, map_char_scanFrom] at hpieces

/-- A text without top-level separators is not split. -/
theorem splitTop_single {sep : Char} {t : Text} (h : TopAll (· != sep) t) (htrim : trim t = t)
    (hne : t ≠ []) : splitTop sep t = [t] := by
  have hkeep : t.isEmpty = false := by simpa using hne
  simp [splitTop, piecesAt_scan h, htrim, hkeep]

/-- A top-level separator parts what is before it from what is after it. -/
theorem splitTop_append {sep : Char} (hsep : isPlain sep = true) (hfresh : Fresh (some sep)) {a : Text}
    (ha : Closed a) (b : Text) : splitTop sep (a ++ sep :: b) = splitTop sep a ++ splitTop sep b := by
  rw [splitTop, ha.settled.scan_parted hsep hfresh, piecesAt_append, List.map_append, List.filter_append]
  rfl

/-- Blanks after a closed text do not count. -/
theorem splitTop_append_blank {sep : Char} (hsep : isBlank sep = false) {a gap : Text} (ha : Closed a)
    (hgap : ∀ c ∈ gap, isBlank c = true) : splitTop sep (a ++ gap) = splitTop sep a := by
  have hquote : gap.head? ≠ some '\'' := fun hhead =>
    not_mem_of_blank hgap (by decide) (List.mem_of_head? hhead)
  obtain ⟨pieces, piece, hbefore, hafter⟩ :=
    piecesAt_append_quiet (scan a) (topAll_of_not_mem (not_mem_of_blank hgap hsep))
  have hchars : (scan gap).map Cell.char = gap := map_char_scanFrom _ gap
  rw [hchars] at hafter
  rw [splitTop, ha.scan_append_of (.inr hquote), hafter, splitTop, hbefore]
  simp only [List.map_append, List.map_cons, List.map_nil, trim_append_blank piece hgap]

/-- Blanks before a text do not count. -/
theorem splitTop_blank_append {sep : Char} (hsep : isBlank sep = false) {gap : Text}
    (hgap : ∀ c ∈ gap, isBlank c = true) (b : Text) : splitTop sep (gap ++ b) = splitTop sep b := by
  obtain ⟨piece, pieces, hpieces⟩ := exists_piecesAt sep (scan b)
  have hchars : (scan gap).map Cell.char = gap := map_char_scanFrom _ gap
  have htrim : trim (gap ++ piece) = trim piece := by rw [trim, trimStart_append_blank hgap, trim]
  rw [splitTop, (closed_of_blank hgap).scan_append_of (.inl (fresh_of_blank hgap)),
    piecesAt_quiet (scan gap) (topAll_of_not_mem (not_mem_of_blank hgap hsep)) hpieces, hchars,
    splitTop, hpieces]
  simp only [List.map_cons, htrim]

/-- A separator with blanks around it parts a closed text from what follows. -/
theorem splitTop_append_gap {sep : Char} (hsep : isPlain sep = true) (hblank : isBlank sep = false)
    (hfresh : Fresh (some sep)) {a before after : Text} (ha : Closed a)
    (hbefore : ∀ c ∈ before, isBlank c = true) (hafter : ∀ c ∈ after, isBlank c = true) (b : Text) :
    splitTop sep (a ++ (before ++ sep :: (after ++ b))) = splitTop sep a ++ splitTop sep b := by
  have hclosed : Closed (a ++ before) := ha.append (closed_of_blank hbefore)
    (.inr fun hhead => not_mem_of_blank hbefore (by decide) (List.mem_of_head? hhead))
  rw [← List.append_assoc, splitTop_append hsep hfresh hclosed,
    splitTop_append_blank hblank ha hbefore, splitTop_blank_append hblank hafter]

/-- The pieces of texts with a separator and a space between them. -/
theorem piecesAt_join {sep : Char} (hsep : isPlain sep = true) (hspace : sep ≠ ' ') {t : Text} {ts : List Text}
    (h : ∀ u ∈ t :: ts, Closed u ∧ TopAll (· != sep) u) :
    piecesAt sep (scan (join [sep, ' '] (t :: ts))) = t :: ts.map (' ' :: ·) := by
  induction ts generalizing t with
  | nil => rw [join_singleton, piecesAt_scan (h t (by simp)).2, List.map_nil]
  | cons u us ih =>
    obtain ⟨hclosed, htop⟩ := h t (by simp)
    have hrest := ih fun v hv => h v (List.mem_cons_of_mem _ hv)
    have hscan : scan (join [sep, ' '] (t :: u :: us)) =
        scan t ++ ⟨sep, some 0⟩ :: ⟨' ', some 0⟩ :: scan (join [sep, ' '] (u :: us)) := by
      rw [join_cons _ _ (by simp), hclosed.scan_append, List.cons_append, List.cons_append, List.nil_append,
        scanFrom_plain hsep, scanFrom_plain (by decide), scanFrom_fresh (by decide)]
    have hafter : piecesAt sep (⟨' ', some 0⟩ :: scan (join [sep, ' '] (u :: us))) =
        (' ' :: u) :: us.map (' ' :: ·) := by
      rw [piecesAt, hrest]
      simp [Ne.symm hspace]
    have hcut : piecesAt sep (⟨sep, some 0⟩ :: ⟨' ', some 0⟩ :: scan (join [sep, ' '] (u :: us))) =
        [] :: (' ' :: u) :: us.map (' ' :: ·) := by
      rw [piecesAt, hafter]
      simp [Cell.isTop]
    rw [hscan, piecesAt_quiet (scan t) htop hcut, scan, map_char_scanFrom, List.append_nil]
    rfl

/-- **Splitting gives back the parts** that separators were put between. -/
theorem splitTop_parts {sep : Char} (hsep : isPlain sep = true) (hspace : sep ≠ ' ') {ts : List Text}
    (h : ∀ t ∈ ts, Closed t ∧ TopAll (· != sep) t) (htrim : ∀ t ∈ ts, trim t = t ∧ t ≠ []) :
    splitTop sep (join [sep, ' '] ts) = ts := by
  cases ts with
  | nil => rfl
  | cons t ts =>
    have hmap : (t :: ts.map (' ' :: ·)).map trim = t :: ts := by
      rw [List.map_cons, List.map_map, (htrim t (by simp)).1]
      congr 1
      exact (List.map_congr_left fun u hu => trim_cons_space (htrim u (by simp [hu])).1).trans (List.map_id _)
    rw [splitTop, piecesAt_join hsep hspace h, hmap, List.filter_eq_self]
    intro u hu
    simpa using (htrim u hu).2

theorem splitTop_pair {a b : Text} (ha : Closed a) (hta : TopAll (· != ',') a) (hb : Closed b)
    (htb : TopAll (· != ',') b) (htrima : trim a = a) (htrimb : trim b = b) (hanil : a ≠ []) (hbnil : b ≠ []) :
    splitTop ',' (a ++ ',' :: ' ' :: b) = [a, b] := by
  have hjoin : a ++ ',' :: ' ' :: b = join [',', ' '] [a, b] := by
    rw [join_cons _ _ (by simp), join_singleton]
    rfl
  rw [hjoin]
  refine splitTop_parts (by decide) (by decide) ?_ ?_ <;> simp [*]

end Concord.Code
