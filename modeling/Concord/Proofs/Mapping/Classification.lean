/-
Classifying statements comes to an end. The rules of classification are those of an
inductive relation, `Classified`, in which the steps of a suite are as many as its
statements. Since the statements inside a statement are shorter than it, `stepOf` never
runs out of depth and finds, for every text, the one step that the rules give it
(`classified_iff`).
-/
import Concord.Mapping.Step
import Concord.Proofs.Statement.Inside
import Mathlib.Data.List.Forall2

namespace Concord.Mapping

open Text Statement Spec

/-! ## Rules -/

/-- The step that a statement is classified as. A suite has one step for each of its statements. -/
inductive Classified (d : Dialect) (fields : List String) : Text → Step → Prop where
  | mutate {t target value field : Text} (shape : d.decompose t = .assignment target value)
      (own : d.ownField? target = some field) (declared : String.ofList field ∈ fields) :
      Classified d fields t (.mutate (String.ofList field) (ownText value))
  | foreign {t target value : Text} (shape : d.decompose t = .assignment target value)
      (undeclared : ∀ field, d.ownField? target = some field → String.ofList field ∉ fields) :
      Classified d fields t (kept t)
  | guard {t condition : Text} {yes : List Text} {otherwise : Option (List Text)} {error : Option Text}
      (shape : d.decompose t = .conditional condition yes otherwise)
      (guards : guardError? d condition yes otherwise = some error) :
      Classified d fields t (.validate (ownText (Guard.invert condition)) (error.map ownText))
  | branch {t condition : Text} {yes : List Text} {otherwise : Option (List Text)} {steps others : List Step}
      (shape : d.decompose t = .conditional condition yes otherwise)
      (unguarded : guardError? d condition yes otherwise = none)
      (inner : List.Forall₂ (Classified d fields) yes steps)
      (other : List.Forall₂ (Classified d fields) (otherwise.getD []) others) :
      Classified d fields t (.branch (ownText condition) steps others)
  | iterate {t range : Text} {body : List Text} {steps : List Step} (shape : d.decompose t = .loop range body)
      (inner : List.Forall₂ (Classified d fields) body steps) :
      Classified d fields t (.iterate (ownText range) steps)
  | invoke {t call : Text} (shape : d.decompose t = .call call) :
      Classified d fields t (.invoke (ownText call) false)
  | give {t : Text} {value : Option Text} (shape : d.decompose t = .returning value) :
      Classified d fields t (.give (value.map ownText))
  | raise {t error : Text} (shape : d.decompose t = .raising error) :
      Classified d fields t (.raise (ownText error))
  | unread {t text : Text} (shape : d.decompose t = .unknown text) : Classified d fields t (kept t)

variable {d : Dialect} {fields : List String}

/-! ## Enough depth -/

theorem length_lt_of_child {t u : Text} {fuel : Nat} (h : t.length < fuel + 1)
    (hu : u ∈ (d.decompose t).children) : u.length < fuel :=
  Nat.lt_of_lt_of_le (inside_of_mem_children hu).shorter (Nat.le_of_lt_succ h)

/-- Each statement has a step by the rules, at any depth beyond its length. -/
theorem classified_stepWithin (fuel : Nat) (t : Text) (h : t.length < fuel) :
    Classified d fields t (stepWithin d fields fuel t) := by
  induction fuel generalizing t with
  | zero => exact absurd h (Nat.not_lt_zero _)
  | succ fuel ih =>
    -- a suite is classified one level below, where its statements are short enough
    have hsuite : ∀ {ts : List Text}, (∀ u ∈ ts, u ∈ (d.decompose t).children) →
        List.Forall₂ (Classified d fields) ts (ts.map (stepWithin d fields fuel)) := by
      intro ts hts
      exact List.forall₂_map_right_iff.2
        (List.forall₂_same.2 fun u hu => ih u (length_lt_of_child h (hts u hu)))
    rw [stepWithin]
    cases hshape : d.decompose t with
    | assignment target value =>
      cases hown : d.ownField? target with
      | none =>
        simp only [hown]
        exact .foreign hshape fun field hfield => by simp [hown] at hfield
      | some field =>
        by_cases hdeclared : fields.contains (String.ofList field) = true
        · simp only [hown, hdeclared, if_true]
          exact .mutate hshape hown (List.contains_iff_mem.1 hdeclared)
        · simp only [hown, hdeclared]
          refine .foreign hshape fun other hother hmem => hdeclared (List.contains_iff_mem.2 ?_)
          rwa [Option.some.inj (hown.symm.trans hother)]
    | conditional condition yes otherwise =>
      rw [hshape] at hsuite
      cases hguard : guardError? d condition yes otherwise with
      | some error =>
        simp only [hguard]
        exact .guard hshape hguard
      | none =>
        simp only [hguard]
        exact .branch hshape hguard (hsuite fun u hu => List.mem_append_left _ hu)
          (hsuite fun u hu => List.mem_append_right _ hu)
    | loop range body =>
      rw [hshape] at hsuite
      exact .iterate hshape (hsuite fun u hu => hu)
    | call call => exact .invoke hshape
    | returning value => exact .give hshape
    | raising error => exact .raise hshape
    | unknown text => exact .unread hshape

theorem eq_map_of_forall₂ {R : Text → Step → Prop} {f : Text → Step} {ts : List Text} {ss : List Step}
    (h : List.Forall₂ R ts ss) (hR : ∀ t ∈ ts, ∀ s, R t s → s = f t) : ss = ts.map f := by
  induction h with
  | nil => rfl
  | @cons t s ts ss hts _ ih =>
    rw [List.map_cons, hR t List.mem_cons_self s hts, ← ih fun u hu => hR u (List.mem_cons_of_mem _ hu)]

/-- The rules give no other step. -/
theorem Classified.eq_stepWithin {t : Text} {s : Step} (hs : Classified d fields t s) {fuel : Nat}
    (h : t.length < fuel) : s = stepWithin d fields fuel t := by
  induction fuel generalizing t s with
  | zero => exact absurd h (Nat.not_lt_zero _)
  | succ fuel ih =>
    have hsuite : ∀ {ts : List Text} {ss : List Step}, (∀ u ∈ ts, u ∈ (d.decompose t).children) →
        List.Forall₂ (Classified d fields) ts ss → ss = ts.map (stepWithin d fields fuel) := by
      intro ts ss hts hss
      exact eq_map_of_forall₂ hss fun u hu s hs => ih hs (length_lt_of_child h (hts u hu))
    rw [stepWithin]
    cases hs with
    | mutate hshape hown hdeclared =>
      simp only [hshape, hown, List.contains_iff_mem.2 hdeclared, if_true]
    | @foreign _ target value hshape hforeign =>
      cases hown : d.ownField? target with
      | none => simp only [hshape, hown]
      | some field =>
        have hnot : fields.contains (String.ofList field) = false := by
          simpa using hforeign field hown
        simp only [hshape, hown, hnot, Bool.false_eq_true, if_false]
    | guard hshape hguard => simp only [hshape, hguard]
    | branch hshape hguard hinner hother =>
      rw [hshape] at hsuite
      rw [hsuite (fun u hu => List.mem_append_left _ hu) hinner,
        hsuite (fun u hu => List.mem_append_right _ hu) hother]
      simp only [hshape, hguard]
    | @iterate _ range body steps hshape hinner =>
      have hbody : steps = body.map (stepWithin d fields fuel) :=
        hsuite (fun u hu => by rw [hshape]; exact hu) hinner
      simp only [hshape, hbody]
    | invoke hshape => simp only [hshape]
    | give hshape => simp only [hshape]
    | raise hshape => simp only [hshape]
    | unread hshape => simp only [hshape]

theorem classified_iff {t : Text} {s : Step} : Classified d fields t s ↔ s = stepOf d fields t := by
  refine ⟨fun h => h.eq_stepWithin (Nat.lt_succ_self _), ?_⟩
  rintro rfl
  exact classified_stepWithin _ t (Nat.lt_succ_self _)

/-- A list of statements has one step for each of them, and no other list of steps. -/
theorem forall₂_classified_iff {body : List String} {steps : List Step} :
    List.Forall₂ (Classified d fields) (body.map String.toList) steps ↔ steps = stepsOf d fields body := by
  constructor
  · intro h
    rw [eq_map_of_forall₂ h fun t _ s hs => classified_iff.1 hs, List.map_map]
    rfl
  · rintro rfl
    refine List.forall₂_map_left_iff.2 (List.forall₂_map_right_iff.2 (List.forall₂_same.2 fun s _ => ?_))
    exact classified_iff.2 rfl

/-- **Classification comes to an end on every text.** In every dialect the statements inside a statement
are made of its characters in their order and have fewer of them. So no chain of statements inside each
other goes on for ever, and the rules give each list of statements exactly one list of steps, the one that
`stepsOf` finds, with one step for each statement. -/
theorem classification_terminates (d : Dialect) (fields : List String) :
    (∀ t, ∀ s ∈ (d.decompose t).children, s.Sublist t ∧ s.length < t.length) ∧
    WellFounded (fun s t => s ∈ (d.decompose t).children) ∧
    ∀ body, (∀ steps, List.Forall₂ (Classified d fields) (body.map String.toList) steps ↔
        steps = stepsOf d fields body) ∧
      (stepsOf d fields body).length = body.length := by
  have hinside : ∀ t, ∀ s ∈ (d.decompose t).children, s.Sublist t ∧ s.length < t.length := fun t s hs =>
    ⟨(inside_of_mem_children hs).sublist, (inside_of_mem_children hs).shorter⟩
  refine ⟨hinside, ?_, fun body => ⟨fun steps => forall₂_classified_iff, List.length_map _⟩⟩
  exact Subrelation.wf (fun {s t} hs => (hinside t s hs).2) (measure List.length).wf

/-- A brace that is not closed: the whole branch is the statement inside. -/
theorem classification_terminates_unclosed :
    "\x7b y()".toList ∈ ((Dialect.braced .parenthesised).decompose "if (a) x(); else \x7b y()".toList).children ∧
    "\x7b y()".toList.Sublist "if (a) x(); else \x7b y()".toList ∧
    "\x7b y()".toList.length < "if (a) x(); else \x7b y()".toList.length := by
  have hmem : "\x7b y()".toList ∈
      ((Dialect.braced .parenthesised).decompose "if (a) x(); else \x7b y()".toList).children := by decide
  exact ⟨hmem, (classification_terminates _ []).1 _ _ hmem⟩

end Concord.Mapping
