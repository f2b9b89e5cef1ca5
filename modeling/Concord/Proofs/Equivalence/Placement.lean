/-
What an alignment takes and what it leaves. Nothing is lost and nothing is used twice,
whatever the scores are (`align_conserves`). When scores are ordered, no pair that could
have been aligned is left over, and every reference took the best of what was then left,
the first of several (`align_prefers`).

Candidates may repeat, so both results are about places: `alignPlaced` is the same
alignment in which every candidate carries the place where it stands.
-/
import Concord.Proofs.Equivalence.Alignment
import Mathlib.Order.Lattice.Nat

namespace Concord.Equivalence

variable {ρ κ κ' α : Type}

/-- The third list is made of the first two, each in its own order. -/
inductive Interleaves {β : Type} : List β → List β → List β → Prop
  | nil : Interleaves [] [] []
  | left {x : β} {xs ys zs : List β} : Interleaves xs ys zs → Interleaves (x :: xs) ys (x :: zs)
  | right {y : β} {xs ys zs : List β} : Interleaves xs ys zs → Interleaves xs (y :: ys) (y :: zs)

theorem Interleaves.length_add {β : Type} {xs ys zs : List β} (h : Interleaves xs ys zs) :
    xs.length + ys.length = zs.length := by
  induction h with
  | nil => rfl
  | left _ ih => simp only [List.length_cons, ← ih]; omega
  | right _ ih => simp only [List.length_cons, ← ih]; omega

theorem Interleaves.sublist_left {β : Type} {xs ys zs : List β} (h : Interleaves xs ys zs) :
    xs.Sublist zs := by
  induction h with
  | nil => exact .refl _
  | left _ ih => exact ih.cons_cons _
  | right _ ih => exact ih.cons _

/-- The same alignment with other candidates. -/
def Alignment.mapCandidates (f : κ → κ') (a : Alignment ρ κ α) : Alignment ρ κ' α where
  matched := a.matched.map fun m => (m.1, f m.2.1, m.2.2)
  missing := a.missing
  extra := a.extra.map f

theorem Alignment.Related.eq_mapCandidates {f : κ → κ'} {a : Alignment ρ κ α} {b : Alignment ρ κ' α}
    (h : a.Related (fun c d => f c = d) b) : b = a.mapCandidates f := by
  obtain ⟨matched, missing, extra⟩ := b
  obtain ⟨hmatched, rfl, hextra⟩ := h
  have hmatched' : a.matched.map (fun m => (m.1, f m.2.1, m.2.2)) = matched.map id :=
    map_eq_map_of_forall₂ (hmatched.imp fun _ _ h => Prod.ext h.1 (Prod.ext h.2.1 h.2.2))
  have hextra' : a.extra.map f = extra.map id := map_eq_map_of_forall₂ hextra
  rw [mapCandidates, hmatched', hextra', List.map_id, List.map_id]

section Conservation

variable [LT α] [DecidableLT α] [LE α] [DecidableLE α]

/-- The alignment in which every candidate carries its place. -/
def alignPlaced (score : ρ → κ → α) (least : α) (reference : List ρ) (candidate : List κ) :
    Alignment ρ (κ × Nat) α :=
  align (fun r c => score r c.1) least reference candidate.zipIdx

/-- The places of candidates change nothing. -/
theorem align_eq_placed (score : ρ → κ → α) (least : α) (rs : List ρ) (cs : List κ) :
    align score least rs cs = (alignPlaced score least rs cs).mapCandidates Prod.fst := by
  have hplaces : List.Forall₂ (fun (c : κ × Nat) d => c.1 = d) cs.zipIdx cs := by
    rw [← List.forall₂_map_left_iff, List.zipIdx_map_fst]
    exact List.forall₂_same.2 fun _ _ => rfl
  refine Alignment.Related.eq_mapCandidates (align_related ?_ rs hplaces)
  rintro r c _ rfl
  rfl

/-- Every reference is matched or missing, in its order. -/
theorem align_interleaves (score : ρ → κ → α) (least : α) (rs : List ρ) (cs : List κ) :
    Interleaves ((align score least rs cs).matched.map Prod.fst) (align score least rs cs).missing rs := by
  refine align_induction
    (motive := fun rs _ a => Interleaves (a.matched.map Prod.fst) a.missing rs) ?_ ?_ ?_ rs cs
  · exact fun _ => .nil
  · intro r rs cs a _ _ ih
    exact .right ih
  · intro r rs cs c s others a _ _ _ ih
    exact .left ih

/-- Every candidate is matched once or extra. -/
theorem align_perm (score : ρ → κ → α) (least : α) (rs : List ρ) (cs : List κ) :
    ((align score least rs cs).matched.map (fun m => m.2.1) ++ (align score least rs cs).extra).Perm
      cs := by
  refine align_induction
    (motive := fun _ cs a => (a.matched.map (fun m => m.2.1) ++ a.extra).Perm cs) ?_ ?_ ?_ rs cs
  · exact fun cs => .refl cs
  · intro r rs cs a _ _ ih
    exact ih
  · intro r rs cs c s others a _ hbest _ ih
    exact (ih.cons c).trans (perm_of_best? hbest).2.1

theorem mem_of_mem_matched {score : ρ → κ → α} {least : α} {rs : List ρ} {cs : List κ}
    {m : ρ × κ × α} (h : m ∈ (align score least rs cs).matched) : m.1 ∈ rs ∧ m.2.1 ∈ cs := by
  refine ⟨(align_interleaves score least rs cs).sublist_left.subset (List.mem_map_of_mem h), ?_⟩
  refine (align_perm score least rs cs).subset (List.mem_append_left _ ?_)
  exact List.mem_map.2 ⟨m, h, rfl⟩

/-- The extra candidates keep their order. -/
theorem extra_sublist (score : ρ → κ → α) (least : α) (rs : List ρ) (cs : List κ) :
    (align score least rs cs).extra.Sublist cs := by
  refine align_induction (motive := fun _ cs a => a.extra.Sublist cs) ?_ ?_ ?_ rs cs
  · exact fun cs => .refl cs
  · intro r rs cs a _ _ ih
    exact ih
  · intro r rs cs c s others a _ hbest _ ih
    exact ih.trans (perm_of_best? hbest).2.2

/-- No place is taken twice. -/
theorem places_nodup (score : ρ → κ → α) (least : α) (rs : List ρ) (cs : List κ) :
    ((alignPlaced score least rs cs).matched.map fun m => m.2.1.2).Nodup := by
  have hperm := (align_perm (fun r (c : κ × Nat) => score r c.1) least rs cs.zipIdx).map Prod.snd
  have hall := hperm.nodup_iff.2 (by rw [List.zipIdx_map_snd]; exact List.nodup_range')
  rw [List.map_append, List.map_map] at hall
  exact (List.nodup_append.1 hall).1

/-- An alignment accounts for every reference and every candidate. -/
structure Conserves (reference : List ρ) (candidate : List κ) (a : Alignment ρ κ α) : Prop where
  /-- The references are the matched and the missing ones, both in their order. -/
  references : Interleaves (a.matched.map Prod.fst) a.missing reference
  /-- The candidates are the matched and the extra ones. -/
  candidates : (a.matched.map (fun m => m.2.1) ++ a.extra).Perm candidate
  /-- The extra candidates are in their order. -/
  extra : a.extra.Sublist candidate
  matched_add_missing : a.matched.length + a.missing.length = reference.length
  matched_add_extra : a.matched.length + a.extra.length = candidate.length

/-- **Alignment loses and duplicates nothing**, whatever the scores are: it accounts for every
reference and every candidate, and no two matched candidates stand at one place. -/
theorem align_conserves (score : ρ → κ → α) (least : α) (reference : List ρ) (candidate : List κ) :
    Conserves reference candidate (align score least reference candidate) ∧
      align score least reference candidate =
        (alignPlaced score least reference candidate).mapCandidates Prod.fst ∧
      (∀ m ∈ (alignPlaced score least reference candidate).matched,
        candidate[m.2.1.2]? = some m.2.1.1) ∧
      ((alignPlaced score least reference candidate).matched.map fun m => m.2.1.2).Nodup := by
  have hrefs := align_interleaves score least reference candidate
  have hcands := align_perm score least reference candidate
  refine ⟨⟨hrefs, hcands, extra_sublist score least reference candidate, ?_, ?_⟩,
    align_eq_placed score least reference candidate, ?_,
    places_nodup score least reference candidate⟩
  · simpa using hrefs.length_add
  · simpa using hcands.length_eq
  · intro m hm
    exact List.mk_mem_zipIdx_iff_getElem?.1 (mem_of_mem_matched hm).2

end Conservation

section Order

variable [LinearOrder α] [DecidableLT α]

/-- What the best candidate so far is among those that have been passed: better than all before it, and
no worse than those after it. -/
structure Pick.Best (score : κ → α) (p : Pick κ α) : Prop where
  before : ∀ d ∈ p.before, score d < p.score
  after : ∀ d ∈ p.after, score d ≤ p.score

theorem Pick.Best.step {score : κ → α} {cs : List κ} {p : Pick κ α} (hspans : p.Spans score cs)
    (h : p.Best score) (c : κ) : (p.step score c).Best score := by
  unfold Pick.step
  split
  · rename_i hlt
    refine ⟨fun d hd => ?_, by simp⟩
    rcases List.mem_append.1 hd with hd | hd
    · exact (h.before d hd).trans hlt
    · rcases List.mem_cons.1 hd with rfl | hd
      · exact hspans.scored ▸ hlt
      · exact (h.after d hd).trans_lt hlt
  · rename_i hle
    refine ⟨h.before, fun d hd => ?_⟩
    rcases List.mem_append.1 hd with hd | hd
    · exact h.after d hd
    · rw [List.mem_singleton.1 hd]
      exact not_lt.1 hle

/-- The candidates around the one that is picked. -/
theorem exists_of_best? {score : κ → α} {cs : List κ} {c : κ} {s : α} {others : List κ}
    (h : best? score cs = some (c, s, others)) :
    ∃ p : Pick κ α, p.Spans score cs ∧ p.Best score ∧ c = p.best ∧ s = p.score ∧
      others = p.before ++ p.after :=
  best?_induction (motive := fun _ p => p.Best score) (fun _ => ⟨by simp, by simp⟩)
    (fun _ _ c hspans hbest => hbest.step hspans c) h

/-- Nothing scores above what is picked. -/
theorem le_of_best? {score : κ → α} {cs : List κ} {c : κ} {s : α} {others : List κ}
    (h : best? score cs = some (c, s, others)) : ∀ d ∈ cs, score d ≤ s := by
  obtain ⟨p, hspans, hbest, rfl, rfl, rfl⟩ := exists_of_best? h
  intro d hd
  rw [← hspans.candidates, List.mem_append, List.mem_cons] at hd
  rcases hd with hd | rfl | hd
  · exact (hbest.before d hd).le
  · exact hspans.scored.ge
  · exact hbest.after d hd

/-- One candidate is preferred to another: it scores no lower, and higher if the other stands before
it. -/
def Preferred (score : κ → α) (place : κ → Nat) (c d : κ) : Prop :=
  score d ≤ score c ∧ (place d < place c → score d < score c)

/-- What is picked is preferred to all that is left. -/
theorem preferred_of_best? {score : κ → α} {place : κ → Nat} {cs : List κ} {c : κ} {s : α}
    {others : List κ} (hplace : cs.Pairwise fun c d => place c < place d)
    (h : best? score cs = some (c, s, others)) : ∀ d ∈ others, Preferred score place c d := by
  obtain ⟨p, hspans, hbest, rfl, rfl, rfl⟩ := exists_of_best? h
  intro d hd
  rw [Preferred, ← hspans.scored]
  rcases List.mem_append.1 hd with hd | hd
  · exact ⟨(hbest.before d hd).le, fun _ => hbest.before d hd⟩
  · -- what stands after the picked one does not stand before it
    rw [← hspans.candidates] at hplace
    have hfirst := (List.pairwise_cons.1 (List.pairwise_append.1 hplace).2.1).1 d hd
    exact ⟨hbest.after d hd, fun hlt => absurd hlt (Nat.lt_asymm hfirst)⟩

variable [DecidableLE α]

/-- What the references of a run have chosen, seen from its end. -/
structure Greedy (score : ρ → κ → α) (least : α) (place : κ → Nat) (a : Alignment ρ κ α) : Prop where
  /-- A missing reference has no good candidate among the extra ones. -/
  low : ∀ r ∈ a.missing, ∀ c ∈ a.extra, score r c < least
  /-- A matched reference has a good candidate. -/
  reached : ∀ m ∈ a.matched, m.2.2 = score m.1 m.2.1 ∧ least ≤ m.2.2
  /-- It prefers that candidate to the extra ones. -/
  extra : ∀ m ∈ a.matched, ∀ c ∈ a.extra, Preferred (score m.1) place m.2.1 c
  /-- It prefers that candidate to those that references after it took. -/
  later : a.matched.Pairwise fun m n => Preferred (score m.1) place m.2.1 n.2.1

/-- Every run is greedy, because the candidates that are extra or taken later were all left when a
reference chose. -/
theorem align_greedy (score : ρ → κ → α) (least : α) (place : κ → Nat) (rs : List ρ) (cs : List κ)
    (hplace : cs.Pairwise fun c d => place c < place d) :
    Greedy score least place (align score least rs cs) := by
  revert hplace
  refine align_induction (motive := fun _ cs a =>
    (cs.Pairwise fun c d => place c < place d) → Greedy score least place a) ?_ ?_ ?_ rs cs
  · intro cs _
    exact ⟨by simp, by simp, by simp, by simp⟩
  · intro r rs cs a ha hlow ih hplace
    obtain ⟨low, reached, extra, later⟩ := ih hplace
    refine ⟨?_, reached, extra, later⟩
    intro q hq c hc
    rcases List.mem_cons.1 hq with rfl | hq
    · -- The reference saw this candidate and found even the best one too low.
      have hmem : c ∈ cs := by
        subst ha
        exact (extra_sublist score least rs cs).subset hc
      obtain ⟨⟨d, s, others⟩, hbest⟩ := exists_best?_of_mem (score q) hmem
      exact lt_of_le_of_lt (le_of_best? hbest c hmem) (not_le.1 (hlow d s others hbest))
    · exact low q hq c hc
  · intro r rs cs c s others a ha hbest hleast ih hplace
    obtain ⟨hs, -, hsub⟩ := perm_of_best? hbest
    obtain ⟨low, reached, extra, later⟩ := ih (hplace.sublist hsub)
    have hpref := preferred_of_best? hplace hbest
    refine ⟨low, ?_, ?_, ?_⟩
    · intro m hm
      rcases List.mem_cons.1 hm with rfl | hm
      · exact ⟨hs, hleast⟩
      · exact reached m hm
    · intro m hm d hd
      rcases List.mem_cons.1 hm with rfl | hm
      · subst ha
        exact hpref d ((extra_sublist score least rs others).subset hd)
      · exact extra m hm d hd
    · refine List.pairwise_cons.2 ⟨?_, later⟩
      intro m hm
      subst ha
      exact hpref m.2.1 (mem_of_mem_matched hm).2

/-- **Greedy alignment leaves no good pair.** A reference left missing scores below the threshold
against every extra candidate. A matched reference reaches the threshold with its candidate, which it
prefers to every extra candidate and to every one that a later reference took: none scores higher, and
none that stands before it scores as high. -/
theorem align_prefers (score : ρ → κ → α) (least : α) (reference : List ρ) (candidate : List κ) :
    align score least reference candidate =
        (alignPlaced score least reference candidate).mapCandidates Prod.fst ∧
      ((alignPlaced score least reference candidate).matched.map Prod.fst).Sublist reference ∧
      Greedy (fun r c => score r c.1) least Prod.snd
        (alignPlaced score least reference candidate) := by
  have hplaces : candidate.zipIdx.Pairwise fun c d => c.2 < d.2 := by
    rw [← List.pairwise_map (R := (· < ·)), List.zipIdx_map_snd]
    exact List.pairwise_lt_range'
  refine ⟨align_eq_placed score least reference candidate, ?_, ?_⟩
  · exact (align_interleaves _ least reference candidate.zipIdx).sublist_left
  · exact align_greedy _ least Prod.snd reference candidate.zipIdx hplaces

end Order

/-- A score that falls with the distance. -/
def nearness (r c : Nat) : Nat := 10 - (max r c - min r c)

/-- Two rivals for the same candidate, which stands at two places, and a reference without a good
one. -/
theorem align_prefers_rivals :
    alignPlaced nearness 9 [4, 9, 5] [6, 5, 5, 1] =
        ⟨[(4, (5, 1), 9), (5, (5, 2), 10)], [9], [(6, 0), (1, 3)]⟩ ∧
      Preferred (fun c => nearness 4 c.1) Prod.snd (5, 1) (6, 0) ∧
      Preferred (fun c => nearness 4 c.1) Prod.snd (5, 1) (5, 2) := by
  have hrun : alignPlaced nearness 9 [4, 9, 5] [6, 5, 5, 1] =
      ⟨[(4, (5, 1), 9), (5, (5, 2), 10)], [9], [(6, 0), (1, 3)]⟩ := by decide
  obtain ⟨-, -, hgreedy⟩ := align_prefers nearness 9 [4, 9, 5] [6, 5, 5, 1]
  rw [hrun] at hgreedy
  exact ⟨hrun, hgreedy.extra (4, (5, 1), 9) (by simp) (6, 0) (by simp),
    (List.pairwise_cons.1 hgreedy.later).1 (5, (5, 2), 10) (by simp)⟩

end Concord.Equivalence
