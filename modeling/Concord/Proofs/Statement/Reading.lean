/-
What is read of a statement: the simple statements of its suites, without those of the
clauses after a loop, of its own clauses after a comment, and of clauses further in that a
comment cut off and that look like a call (`Script.read`). Where there are none of these,
all are read (`Script.Plain.read_eq`).
-/
import Concord.Proofs.Statement.Clauses

namespace Concord.Statement.Indented

open Text Code

/-! ## Simple statements of a script -/

/-- A simple statement, unless it says nothing. -/
def SimpleLine.told (s : SimpleLine) : List Text := if s.text = "pass".toList then [] else [s.text]

mutual

/-- The simple statements of all suites, in order. -/
def Script.simples : Script → List Text
  | .simple s => s.told
  | .compound _ _ body more => body.simples ++ more.simples

def Tail.simples : Tail → List Text
  | .stop => []
  | .elif _ _ body more => body.simples ++ more.simples
  | .otherwise _ body => body.simples

def Body.simples : Body → List Text
  | .inline s rest => (s :: rest).flatMap SimpleLine.told
  | .block _ ss => ss.simples

def Scripts.simples : Scripts → List Text
  | .last s => s.simples
  | .more s rest => s.simples ++ rest.simples

end

/-- What is read of clauses that a comment cut off: all of them, unless they look like a call. -/
def Tail.readStray (t : Tail) : List Text := if looksLikeCall t.text then [] else t.simples

def Script.readStrays : Script → List Text
  | .simple _ => []
  | .compound _ _ _ more => more.strays.flatMap Tail.readStray

mutual

/-- The simple statements that reading does not pass over. -/
def Script.read : Script → List Text
  | .simple s => s.told
  | .compound .choice _ body more => body.read ++ more.read
  | .compound (.loop _) _ body _ => body.read

/-- Nothing is read after a comment between clauses. -/
def Tail.read : Tail → List Text
  | .stop => []
  | .elif [] _ body more => body.read ++ more.read
  | .elif (_ :: _) _ _ _ => []
  | .otherwise [] body => body.read
  | .otherwise (_ :: _) _ => []

def Body.read : Body → List Text
  | .inline s rest => (s :: rest).flatMap SimpleLine.told
  | .block _ ss => ss.read

/-- Below a header, the clauses that a comment cut off stand as statements of their own. -/
def Scripts.read : Scripts → List Text
  | .last s => s.read ++ s.readStrays
  | .more s rest => s.read ++ s.readStrays ++ rest.read

end

mutual

/-- No loop has a further clause, and no comment stands between clauses. -/
def Script.Plain : Script → Prop
  | .simple _ => True
  | .compound .choice _ body more => body.Plain ∧ more.Plain
  | .compound (.loop _) _ body more => body.Plain ∧ more = .stop

def Tail.Plain : Tail → Prop
  | .stop => True
  | .elif notes _ body more => notes = [] ∧ body.Plain ∧ more.Plain
  | .otherwise notes body => notes = [] ∧ body.Plain

def Body.Plain : Body → Prop
  | .inline _ _ => True
  | .block _ ss => ss.Plain

def Scripts.Plain : Scripts → Prop
  | .last s => s.Plain
  | .more s rest => s.Plain ∧ rest.Plain

end

theorem Tail.Plain.strays : ∀ {t : Tail}, t.Plain → t.strays = []
  | .stop, _ => rfl
  | .elif [] _ _ more, h => Tail.Plain.strays (t := more) h.2.2
  | .elif (_ :: _) _ _ _, h => by cases h.1
  | .otherwise [] _, _ => rfl
  | .otherwise (_ :: _) _, h => by cases h.1

theorem Script.Plain.readStrays {s : Script} (h : s.Plain) : s.readStrays = [] := by
  cases s with
  | simple s => rfl
  | compound w hd body more =>
    have hstrays : more.strays = [] := by
      cases w with
      | choice => exact h.2.strays
      | loop w => rw [h.2]; rfl
    rw [Script.readStrays, hstrays]
    rfl

mutual

/-- Nothing is passed over where no loop has a further clause and no comment stands between clauses. -/
theorem Script.Plain.read_eq : ∀ {s : Script}, s.Plain → s.read = s.simples
  | .simple _, _ => rfl
  | .compound .choice _ body more, h => by
    rw [Script.read, Script.simples, h.1.read_eq, h.2.read_eq]
  | .compound (.loop _) _ body more, h => by
    rw [Script.read, Script.simples, h.1.read_eq, h.2, Tail.simples, List.append_nil]

theorem Tail.Plain.read_eq : ∀ {t : Tail}, t.Plain → t.read = t.simples
  | .stop, _ => rfl
  | .elif [] _ body more, h => by
    rw [Tail.read, Tail.simples, h.2.1.read_eq, h.2.2.read_eq]
  | .elif (_ :: _) _ _ _, h => by cases h.1
  | .otherwise [] body, h => by
    rw [Tail.read, Tail.simples, h.2.read_eq]
  | .otherwise (_ :: _) _, h => by cases h.1

theorem Body.Plain.read_eq : ∀ {b : Body}, b.Plain → b.read = b.simples
  | .inline _ _, _ => rfl
  | .block _ ss, h => Scripts.Plain.read_eq (s := ss) h

theorem Scripts.Plain.read_eq : ∀ {s : Scripts}, s.Plain → s.read = s.simples
  | .last s, h => by
    have hs : s.Plain := h
    rw [Scripts.read, Scripts.simples, hs.read_eq, hs.readStrays, List.append_nil]
  | .more s rest, h => by
    rw [Scripts.read, Scripts.simples, h.1.read_eq, h.1.readStrays, List.append_nil, h.2.read_eq]

end

/-! ## What is read of a suite -/

def Item.read : Item → List Text
  | .line s => s.told
  | .whole s => s.read
  | .stray t => t.readStray

theorem Tail.read_upToNote : ∀ t : Tail, t.upToNote.read = t.read
  | .stop => rfl
  | .elif [] _ _ more => by rw [Tail.upToNote, Tail.read, Tail.read, more.read_upToNote]
  | .elif (_ :: _) _ _ _ => rfl
  | .otherwise [] _ => rfl
  | .otherwise (_ :: _) _ => rfl

theorem Script.read_items (s : Script) : s.items.flatMap Item.read = s.read ++ s.readStrays := by
  cases s with
  | simple s =>
    by_cases hpass : s.text = "pass".toList
    · simp only [Script.items, Script.read, Script.readStrays, SimpleLine.told, if_pos hpass]
      rfl
    · simp only [Script.items, Script.read, Script.readStrays, SimpleLine.told, if_neg hpass]
      simp only [List.flatMap_cons, List.flatMap_nil, Item.read, SimpleLine.told, if_neg hpass]
  | compound w h body more =>
    have hcut : Script.read (.compound w h body more.upToNote) = Script.read (.compound w h body more) := by
      cases w with
      | choice => rw [Script.read, Script.read, more.read_upToNote]
      | loop w => rfl
    rw [Script.items, List.flatMap_cons, Item.read, hcut, Script.readStrays, List.flatMap_map]
    rfl

theorem Scripts.read_items (s : Scripts) : s.items.flatMap Item.read = s.read := by
  cases s with
  | last s => exact s.read_items
  | more s rest => rw [Scripts.items, List.flatMap_append, s.read_items, rest.read_items, Scripts.read]

theorem Body.read_items (b : Body) : b.items.flatMap Item.read = b.read := by
  cases b with
  | inline s rest => rw [Body.items, List.flatMap_map, Body.read]; rfl
  | block pad ss => exact ss.read_items

theorem Tail.read_next (t : Tail) : (t.next?.getD []).flatMap Item.read = t.read := by
  cases t with
  | stop => rfl
  | elif notes h body more =>
    cases notes with
    | nil => exact List.append_nil _
    | cons n notes => rfl
  | otherwise notes body =>
    cases notes with
    | nil => exact body.read_items
    | cons n notes => rfl

/-! ## Depth -/

mutual

/-- How deep the statements of a suite stand inside each other. A further clause stands inside the one
before it. -/
def Script.height : Script → Nat
  | .simple _ => 0
  | .compound _ _ body more => max body.height more.height + 1

def Tail.height : Tail → Nat
  | .stop => 0
  | .elif _ _ body more => max body.height more.height + 1
  | .otherwise _ body => body.height

def Body.height : Body → Nat
  | .inline _ _ => 0
  | .block _ ss => ss.height

def Scripts.height : Scripts → Nat
  | .last s => s.height
  | .more s rest => max s.height rest.height

end

mutual

theorem Script.height_le_lines : ∀ s : Script, s.height ≤ s.lines.length
  | .simple _ => Nat.zero_le _
  | .compound _ _ body more => by
    have hbody := body.height_le_lines
    have hmore := more.height_le_lines
    simp only [Script.height, Script.lines, List.length_cons, List.length_append]
    omega

theorem Tail.height_le_lines : ∀ t : Tail, t.height ≤ t.lines.length
  | .stop => Nat.zero_le _
  | .elif _ _ body more => by
    have hbody := body.height_le_lines
    have hmore := more.height_le_lines
    simp only [Tail.height, Tail.lines, List.length_cons, List.length_append]
    omega
  | .otherwise _ body => by
    have hbody := body.height_le_lines
    simp only [Tail.height, Tail.lines, List.length_cons, List.length_append]
    omega

theorem Body.height_le_lines : ∀ b : Body, b.height ≤ b.lines.length
  | .inline _ _ => Nat.zero_le _
  | .block _ ss => by
    have hss := ss.height_le_lines
    simpa only [Body.height, Body.lines, List.length_map] using hss

theorem Scripts.height_le_lines : ∀ s : Scripts, s.height ≤ s.lines.length
  | .last s => s.height_le_lines
  | .more s rest => by
    have hs := s.height_le_lines
    have hrest := rest.height_le_lines
    simp only [Scripts.height, Scripts.lines, List.length_append]
    omega

end

theorem Script.height_le_text (s : Script) : s.height ≤ s.text.length :=
  Nat.le_trans s.height_le_lines (length_le_join s.isLine)

def Item.height : Item → Nat
  | .line _ => 0
  | .whole s => s.height
  | .stray _ => 0

/-- What can be said of the statements that a suite is read as. -/
def Item.Legible : Item → Prop
  | .line _ => True
  | .whole s => s.Legible 2
  | .stray t => IsBlock t.lines ∧ ∃ v, t.text = 'e' :: 'l' :: v

theorem Tail.height_upToNote : ∀ t : Tail, t.upToNote.height ≤ t.height
  | .stop => Nat.le_refl _
  | .elif [] _ _ more => by
    have hmore := more.height_upToNote
    simp only [Tail.upToNote, Tail.height]
    omega
  | .elif (_ :: _) _ _ _ => Nat.zero_le _
  | .otherwise [] _ => Nat.le_refl _
  | .otherwise (_ :: _) _ => Nat.zero_le _

theorem Script.Legible.items {s : Script} (h : s.Legible 1) :
    ∀ it ∈ s.items, it.Legible ∧ it.height ≤ s.height := by
  intro it hit
  cases s with
  | simple s =>
    rw [Script.items] at hit
    split at hit
    · cases hit
    · rw [List.mem_singleton.1 hit]
      exact ⟨trivial, Nat.le_refl _⟩
  | compound w hd body more =>
    rcases List.mem_cons.1 hit with rfl | hit
    · have hheight := more.height_upToNote
      refine ⟨⟨h.1, h.2.1.deeper (by omega), h.2.2.upToNote.deeper (by omega)⟩, ?_⟩
      simp only [Item.height, Script.height]
      omega
    · obtain ⟨t, ht, rfl⟩ := List.mem_map.1 hit
      exact ⟨⟨h.2.2.isBlock_strays t ht, strays_text t ht⟩, Nat.zero_le _⟩

theorem Scripts.Legible.items : ∀ {s : Scripts}, s.Legible 1 →
    ∀ it ∈ s.items, it.Legible ∧ it.height ≤ s.height
  | .last s, h, it, hit => Script.Legible.items (s := s) h it hit
  | .more s rest, h, it, hit => by
    rcases List.mem_append.1 hit with hit | hit
    · obtain ⟨hlegible, hheight⟩ := h.1.items it hit
      exact ⟨hlegible, Nat.le_trans hheight (Nat.le_max_left _ _)⟩
    · obtain ⟨hlegible, hheight⟩ := h.2.items it hit
      exact ⟨hlegible, Nat.le_trans hheight (Nat.le_max_right _ _)⟩

theorem Body.Legible.items {b : Body} (h : b.Legible 2) :
    ∀ it ∈ b.items, it.Legible ∧ it.height ≤ b.height := by
  intro it hit
  cases b with
  | inline s rest =>
    obtain ⟨u, -, rfl⟩ := List.mem_map.1 hit
    exact ⟨trivial, Nat.le_refl _⟩
  | block pad ss => exact Scripts.Legible.items (s := ss) h it hit

theorem Tail.Legible.next {t : Tail} (h : t.Legible 2) :
    ∀ it ∈ t.next?.getD [], it.Legible ∧ it.height ≤ t.height := by
  intro it hit
  cases t with
  | stop => cases hit
  | elif notes hd body more =>
    cases notes with
    | nil =>
      rw [List.mem_singleton.1 hit]
      exact ⟨⟨h.2.1, h.2.2.1, h.2.2.2⟩, Nat.le_refl _⟩
    | cons n notes => cases hit
  | otherwise notes body =>
    cases notes with
    | nil => exact h.2.items it hit
    | cons n notes => cases hit

/-! ## Statements stand in the text -/

theorem infix_join {x : Text} {ts : List Text} (h : x ∈ ts) (sep : Text) : x <:+: join sep ts := by
  obtain ⟨before, after, rfl⟩ := List.append_of_mem h
  obtain ⟨v, hv⟩ := exists_join_cons sep x after
  by_cases hnil : before = []
  · rw [hnil, List.nil_append, hv]
    exact (List.prefix_append x v).isInfix
  · rw [join_append sep hnil (by simp), hv]
    exact ⟨join sep before ++ sep, v, by simp⟩

theorem SimpleLine.told_subset (s : SimpleLine) : ∀ t ∈ s.told, t = s.text := by
  intro t ht
  rw [SimpleLine.told] at ht
  split at ht
  · cases ht
  · exact List.mem_singleton.1 ht

theorem infix_inline {s : SimpleLine} {rest : List SimpleLine} :
    ∀ t ∈ Body.simples (.inline s rest), t <:+: Body.first (.inline s rest) := by
  intro t ht
  rw [Body.simples, List.mem_flatMap] at ht
  obtain ⟨u, hu, htold⟩ := ht
  rw [u.told_subset t htold]
  have hmem : u.text ∈ s.text :: rest.map SimpleLine.text := List.mem_map_of_mem hu
  exact (infix_join hmem [';', ' ']).trans (List.suffix_cons _ _).isInfix

theorem infix_headLine (word header : Text) (b : Body) : b.first <:+: headLine word header b :=
  ⟨word ++ header ++ [':'], [], by simp [headLine]⟩

mutual

/-- A simple statement stands on some line. -/
theorem Script.infix_lines : ∀ s : Script, ∀ t ∈ s.simples, ∃ l ∈ s.lines, t <:+: l
  | .simple s, t, ht => ⟨s.text, by simp [Script.lines], s.told_subset t ht ▸ List.infix_rfl⟩
  | .compound w h body more, t, ht => by
    rcases List.mem_append.1 ht with ht | ht
    · obtain ⟨l, hl, hinfix⟩ := body.infix_lines w.text h.text t ht
      exact ⟨l, List.mem_append_left more.lines hl, hinfix⟩
    · obtain ⟨l, hl, hinfix⟩ := more.infix_lines t ht
      exact ⟨l, by simp [Script.lines, hl], hinfix⟩

theorem Tail.infix_lines : ∀ t : Tail, ∀ u ∈ t.simples, ∃ l ∈ t.lines, u <:+: l
  | .elif _ h body more, u, hu => by
    rcases List.mem_append.1 hu with hu | hu
    · obtain ⟨l, hl, hinfix⟩ := body.infix_lines "elif".toList h.text u hu
      exact ⟨l, List.mem_append_right _ (List.mem_append_left more.lines hl), hinfix⟩
    · obtain ⟨l, hl, hinfix⟩ := more.infix_lines u hu
      exact ⟨l, by simp [Tail.lines, hl], hinfix⟩
  | .otherwise _ body, u, hu => by
    obtain ⟨l, hl, hinfix⟩ := body.infix_lines "else".toList [] u hu
    exact ⟨l, List.mem_append_right _ hl, hinfix⟩

theorem Body.infix_lines : ∀ (b : Body) (word header : Text), ∀ t ∈ b.simples,
    ∃ l ∈ headLine word header b :: b.lines, t <:+: l
  | .inline s rest, word, header, t, ht =>
    ⟨_, by simp, (infix_inline t ht).trans (infix_headLine word header _)⟩
  | .block pad ss, word, header, t, ht => by
    obtain ⟨l, hl, hinfix⟩ := ss.infix_lines t ht
    exact ⟨pad.text ++ l, List.mem_cons_of_mem _ (List.mem_map_of_mem hl),
      hinfix.trans (List.suffix_append _ _).isInfix⟩

theorem Scripts.infix_lines : ∀ s : Scripts, ∀ t ∈ s.simples, ∃ l ∈ s.lines, t <:+: l
  | .last s, t, ht => s.infix_lines t ht
  | .more s rest, t, ht => by
    rcases List.mem_append.1 ht with ht | ht
    · obtain ⟨l, hl, hinfix⟩ := s.infix_lines t ht
      exact ⟨l, List.mem_append_left _ hl, hinfix⟩
    · obtain ⟨l, hl, hinfix⟩ := rest.infix_lines t ht
      exact ⟨l, List.mem_append_right _ hl, hinfix⟩

end

theorem Tail.infix_text (t : Tail) : ∀ u ∈ t.simples, u <:+: t.text := by
  intro u hu
  obtain ⟨l, hl, hinfix⟩ := t.infix_lines u hu
  exact hinfix.trans (infix_join hl ['\n'])

/-! ## Shapes without suites -/

/-- A simple statement has no suite. -/
theorem SimpleLine.isFlat (s : SimpleLine) : IsFlat (decompose s.text) := by
  refine decompose_flat s.isSimple.trimmed (fun w => s.isSimple.noClause _ ?_) s.isSimple.noLoop
  rcases w with _ | (_ | _) <;> decide

theorem leadingTarget_cons {c : Char} (hc : (isWord c || c == '.') = true) (t : Text) :
    ∃ u, leadingTarget (c :: t) = c :: u := by
  have hname : (c :: t).takeWhile (fun c => isWord c || c == '.') =
      c :: t.takeWhile (fun c => isWord c || c == '.') := List.takeWhile_cons_of_pos hc
  simp only [leadingTarget, hname]
  split
  · split
    · exact ⟨_, rfl⟩
    · exact ⟨_, rfl⟩
  · exact ⟨_, rfl⟩

/-- The target of an assignment is what the text begins with. -/
theorem assignment?_target {t target op value : Text} (h : assignment? t = some (target, op, value)) :
    target = leadingTarget t := by
  simp only [assignment?, Option.bind_eq_bind, Option.bind_eq_some_iff] at h
  obtain ⟨c, -, h⟩ := h
  split at h
  · cases h
  · obtain ⟨parts, -, hparts⟩ := Option.bind_eq_some_iff.1 h
    exact (Prod.mk.inj (Option.some.inj hparts)).1.symm

/-- What a comment cut off is no assignment to a field and gives up nothing. -/
theorem decompose_stray {u v : Text} (htrim : trim u = u) (hu : u = 'e' :: 'l' :: v) :
    (∃ target value, decompose u = .assignment target value ∧ ownField? target = none) ∨
      decompose u = if looksLikeCall u then .call u else .unknown u := by
  subst hu
  have hif : beginsWithWord ('e' :: 'l' :: v) "if".toList = false := rfl
  have hfor : beginsWithWord ('e' :: 'l' :: v) "for".toList = false := rfl
  have hwhile : beginsWithWord ('e' :: 'l' :: v) "while".toList = false := rfl
  have hasync : dropPrefix? "async for ".toList ('e' :: 'l' :: v) = none := rfl
  have hreturns : (('e' :: 'l' :: v) == "return".toList) = false := rfl
  have hreturn : dropPrefix? "return ".toList ('e' :: 'l' :: v) = none := rfl
  have hraises : (('e' :: 'l' :: v) == "raise".toList) = false := rfl
  have hraise : dropPrefix? "raise ".toList ('e' :: 'l' :: v) = none := rfl
  have hawait : dropPrefix? "await ".toList ('e' :: 'l' :: v) = none := rfl
  simp only [decompose, htrim, hif, hfor, hwhile, hasync, hreturns, hreturn, hraises, hraise, hawait,
    Bool.false_eq_true, if_false, Option.getD_none]
  cases hassign : assignment? ('e' :: 'l' :: v) with
  | none => exact .inr rfl
  | some parts =>
    obtain ⟨target, op, value⟩ := parts
    refine .inl ⟨target, _, rfl, ?_⟩
    obtain ⟨u, hu⟩ := leadingTarget_cons (c := 'e') (by decide) ('l' :: v)
    rw [assignment?_target hassign, hu]
    rfl

end Concord.Statement.Indented
