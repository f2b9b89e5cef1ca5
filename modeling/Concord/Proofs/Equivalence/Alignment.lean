/-
Greedy alignment, step by step and as a whole. A search passes the candidates one by one
and always has them in two parts around the best one so far (`Pick.Spans`), so that it
picks one and leaves the others (`perm_of_best?`); `align_induction` is the induction over
a run that every property of alignments uses. Candidates count only through their scores
(`align_related`). A list aligned with itself, when no candidate scores better than the
reference itself, keeps as candidates left the references left, so that each reference
takes itself (`align_self`).
-/
import Concord.Equivalence.Alignment
import Mathlib.Data.List.Forall2

namespace Concord.Equivalence

variable {ρ κ κ' α : Type}

section Steps

variable [LT α] [DecidableLT α]

/-! ## Picking -/

/-- A search that has passed the candidates `cs`. -/
structure Pick.Spans (score : κ → α) (cs : List κ) (p : Pick κ α) : Prop where
  candidates : p.before ++ p.best :: p.after = cs
  scored : p.score = score p.best

theorem Pick.Spans.step {score : κ → α} {cs : List κ} {p : Pick κ α} (h : p.Spans score cs) (c : κ) :
    (p.step score c).Spans score (cs ++ [c]) := by
  unfold Pick.step
  split
  · exact ⟨by rw [h.candidates], rfl⟩
  · exact ⟨by rw [← h.candidates, List.append_assoc, List.cons_append], h.scored⟩

/-- What each further candidate keeps is kept by a whole search. -/
theorem Pick.foldl_induction {score : κ → α} {motive : List κ → Pick κ α → Prop}
    (next : ∀ cs p c, p.Spans score cs → motive cs p → motive (cs ++ [c]) (p.step score c))
    (rest : List κ) {cs : List κ} {p : Pick κ α} (hspans : p.Spans score cs) (hp : motive cs p) :
    (rest.foldl (Pick.step score) p).Spans score (cs ++ rest) ∧
      motive (cs ++ rest) (rest.foldl (Pick.step score) p) := by
  induction rest generalizing cs p with
  | nil => exact ⟨by rwa [List.append_nil], by rwa [List.append_nil]⟩
  | cons c rest ih =>
    have hrest := ih (hspans.step c) (next cs p c hspans hp)
    rwa [List.append_assoc] at hrest

/-- What holds at the first candidate and is kept by each further one holds at the end of a search. -/
theorem best?_induction {score : κ → α} {motive : List κ → Pick κ α → Prop}
    (first : ∀ c, motive [c] ⟨[], c, score c, []⟩)
    (next : ∀ cs p c, p.Spans score cs → motive cs p → motive (cs ++ [c]) (p.step score c))
    {cs : List κ} {c : κ} {s : α} {others : List κ} (h : best? score cs = some (c, s, others)) :
    ∃ p : Pick κ α, p.Spans score cs ∧ motive cs p ∧ c = p.best ∧ s = p.score ∧
      others = p.before ++ p.after := by
  cases cs with
  | nil => cases h
  | cons d rest =>
    have hfirst : Pick.Spans score [d] ⟨[], d, score d, []⟩ := ⟨rfl, rfl⟩
    obtain ⟨hspans, hmotive⟩ := Pick.foldl_induction next rest hfirst (first d)
    cases h
    exact ⟨_, hspans, hmotive, rfl, rfl, rfl⟩

theorem exists_best?_of_mem (score : κ → α) {cs : List κ} {d : κ} (hd : d ∈ cs) :
    ∃ x, best? score cs = some x := by
  cases cs with
  | nil => cases hd
  | cons c rest => exact ⟨_, rfl⟩

/-- Picking takes one candidate out and leaves the others in their order. -/
theorem perm_of_best? {score : κ → α} {cs : List κ} {c : κ} {s : α} {others : List κ}
    (h : best? score cs = some (c, s, others)) :
    s = score c ∧ (c :: others).Perm cs ∧ others.Sublist cs := by
  obtain ⟨p, hspans, -, rfl, rfl, rfl⟩ :=
    best?_induction (motive := fun _ _ => True) (fun _ => trivial) (fun _ _ _ _ _ => trivial) h
  rw [← hspans.candidates]
  exact ⟨hspans.scored, List.perm_middle.symm, (List.sublist_cons_self _ _).append_left _⟩

/-! ## Runs -/

variable [LE α] [DecidableLE α]

/-- What holds when the references are used up, and is kept by a reference that finds no good
candidate and by one that takes its best, holds of every alignment. -/
theorem align_induction {score : ρ → κ → α} {least : α}
    {motive : List ρ → List κ → Alignment ρ κ α → Prop} (done : ∀ cs, motive [] cs ⟨[], [], cs⟩)
    (miss : ∀ r rs cs a, a = align score least rs cs →
      (∀ c s others, best? (score r) cs = some (c, s, others) → ¬least ≤ s) →
      motive rs cs a → motive (r :: rs) cs { a with missing := r :: a.missing })
    (take : ∀ r rs cs c s others a, a = align score least rs others →
      best? (score r) cs = some (c, s, others) → least ≤ s →
      motive rs others a → motive (r :: rs) cs { a with matched := (r, c, s) :: a.matched })
    (rs : List ρ) (cs : List κ) : motive rs cs (align score least rs cs) := by
  induction rs generalizing cs with
  | nil => exact done cs
  | cons r rs ih =>
    simp only [align]
    split
    · rename_i hnone
      exact miss r rs cs _ rfl (by simp [hnone]) (ih cs)
    · rename_i c s others hsome
      split
      · rename_i hleast
        exact take r rs cs c s others _ rfl hsome hleast (ih others)
      · rename_i hlow
        refine miss r rs cs _ rfl (fun c' s' others' h => ?_) (ih cs)
        rw [hsome] at h
        simp only [Option.some.injEq, Prod.mk.injEq] at h
        exact h.2.1 ▸ hlow

end Steps

/-! ## Related candidates -/

theorem map_eq_map_of_forall₂ {β : Type} {f : κ → β} {g : κ' → β} {xs : List κ} {ys : List κ'}
    (h : List.Forall₂ (fun x y => f x = g y) xs ys) : xs.map f = ys.map g := by
  rw [← List.forall₂_eq_eq_eq, List.forall₂_map_left_iff, List.forall₂_map_right_iff]
  exact h

/-- Two alignments of the same references that differ only in the candidates, which are related
one by one. -/
structure Alignment.Related (rel : κ → κ' → Prop) (a : Alignment ρ κ α) (b : Alignment ρ κ' α) :
    Prop where
  matched : List.Forall₂ (fun m n => m.1 = n.1 ∧ rel m.2.1 n.2.1 ∧ m.2.2 = n.2.2) a.matched b.matched
  missing : a.missing = b.missing
  extra : List.Forall₂ rel a.extra b.extra

section Related

variable [LT α] [DecidableLT α]

/-- Two searches that stand at the same place among related candidates. -/
structure Pick.Related (rel : κ → κ' → Prop) (p : Pick κ α) (q : Pick κ' α) : Prop where
  before : List.Forall₂ rel p.before q.before
  best : rel p.best q.best
  score : p.score = q.score
  after : List.Forall₂ rel p.after q.after

theorem Pick.Related.foldl {rel : κ → κ' → Prop} {score : κ → α} {score' : κ' → α}
    (hscore : ∀ c c', rel c c' → score c = score' c') {cs : List κ} {cs' : List κ'}
    (h : List.Forall₂ rel cs cs') {p : Pick κ α} {q : Pick κ' α} (hpq : p.Related rel q) :
    (cs.foldl (Pick.step score) p).Related rel (cs'.foldl (Pick.step score') q) := by
  induction h generalizing p q with
  | nil => exact hpq
  | cons hc _ ih =>
    refine ih ?_
    unfold Pick.step
    rw [hpq.score, hscore _ _ hc]
    split
    · exact ⟨List.rel_append hpq.before (.cons hpq.best hpq.after), hc, rfl, .nil⟩
    · exact ⟨hpq.before, hpq.best, rfl, List.rel_append hpq.after (.cons hc .nil)⟩

/-- Related candidates with the same scores are picked at the same place. -/
theorem best?_related {rel : κ → κ' → Prop} {score : κ → α} {score' : κ' → α}
    (hscore : ∀ c c', rel c c' → score c = score' c') {cs : List κ} {cs' : List κ'}
    (h : List.Forall₂ rel cs cs') :
    Option.Rel (fun x y => rel x.1 y.1 ∧ x.2.1 = y.2.1 ∧ List.Forall₂ rel x.2.2 y.2.2)
      (best? score cs) (best? score' cs') := by
  cases h with
  | nil => exact .none
  | @cons c c' rest rest' hc hrest =>
    have hfirst : Pick.Related rel ⟨[], c, score c, []⟩ ⟨[], c', score' c', []⟩ :=
      ⟨.nil, hc, hscore c c' hc, .nil⟩
    have hpick := hfirst.foldl hscore hrest
    exact .some ⟨hpick.best, hpick.score, List.rel_append hpick.before hpick.after⟩

variable [LE α] [DecidableLE α]

/-- Alignment looks at candidates only through their scores. -/
theorem align_related {rel : κ → κ' → Prop} {score : ρ → κ → α} {score' : ρ → κ' → α} {least : α}
    (hscore : ∀ r c c', rel c c' → score r c = score' r c') (rs : List ρ) {cs : List κ}
    {cs' : List κ'} (h : List.Forall₂ rel cs cs') :
    (align score least rs cs).Related rel (align score' least rs cs') := by
  induction rs generalizing cs cs' with
  | nil => exact ⟨.nil, rfl, h⟩
  | cons r rs ih =>
    have hmiss := ih h
    have hpick := best?_related (hscore r) h
    simp only [align]
    generalize best? (score r) cs = x at hpick
    generalize best? (score' r) cs' = y at hpick
    cases hpick with
    | none => exact ⟨hmiss.matched, by simp only [hmiss.missing], hmiss.extra⟩
    | some hxy =>
      obtain ⟨hc, hs, hothers⟩ := hxy
      have htake := ih hothers
      simp only [hs]
      split
      · exact ⟨.cons ⟨rfl, hc, rfl⟩ htake.matched, htake.missing, htake.extra⟩
      · exact ⟨hmiss.matched, by simp only [hmiss.missing], hmiss.extra⟩

end Related

/-! ## A list with itself -/

section Self

variable [LT α] [DecidableLT α]

/-- A search stays at its first candidate as long as no other one beats it. -/
theorem Pick.foldl_of_not_lt {score : κ → α} {c : κ} {rest : List κ} (h : ∀ d ∈ rest, ¬score c < score d)
    (passed : List κ) :
    rest.foldl (Pick.step score) ⟨[], c, score c, passed⟩ = ⟨[], c, score c, passed ++ rest⟩ := by
  induction rest generalizing passed with
  | nil => rw [List.foldl_nil, List.append_nil]
  | cons d rest ih =>
    rw [List.forall_mem_cons] at h
    rw [List.foldl_cons, Pick.step, if_neg h.1, ih h.2, List.append_assoc, List.singleton_append]

/-- A first candidate that no other one beats is taken, whatever ties with it. -/
theorem best?_cons_of_not_lt {score : κ → α} {c : κ} {rest : List κ}
    (h : ∀ d ∈ rest, ¬score c < score d) : best? score (c :: rest) = some (c, score c, rest) := by
  rw [best?, Pick.foldl_of_not_lt h]
  rfl

/-- A list aligned with itself: every item takes itself and nothing is left over. -/
theorem align_self [LE α] [DecidableLE α] {score : ρ → ρ → α} {least : α}
    (hleast : ∀ r, least ≤ score r r) (hbest : ∀ r c, ¬score r r < score r c) (xs : List ρ) :
    align score least xs xs = ⟨xs.map fun r => (r, r, score r r), [], []⟩ := by
  induction xs with
  | nil => rfl
  | cons r rest ih =>
    simp only [align, best?_cons_of_not_lt (fun d _ => hbest r d), if_pos (hleast r), ih, List.map_cons]

end Self

end Concord.Equivalence
