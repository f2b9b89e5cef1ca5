/-
The steps of statement trees. Where a dialect reads every printed statement as its tree
has it, the steps of the printed statements are those of the trees (`stepWithin_printed`),
so that two such dialects agree.
-/
import Concord.Mapping.Step
import Concord.Proofs.Statement.Tree

namespace Concord.Statement

open Text Mapping Spec

/-- What a statement gives up with, if it only gives up. -/
def Tree.rejection? : Tree → Option (Option Text)
  | .simple .finish => some none
  | .simple (.give e) => some (some e.text)
  | _ => none

/-- What the only statement of a suite gives up with. -/
def Suite.rejection? : Suite → Option (Option Text)
  | .last s => s.rejection?
  | .more _ _ => none

def Simple.step : Simple → Step
  | .assign f e => .mutate (String.ofList f.text) (ownText e.text)
  | .call c => .invoke (ownText (callText c.path c.arguments)) false
  | .finish => .give none
  | .give e => .give (some (ownText e.text))

mutual

/-- The step of a statement. A conditional that only gives up is a guard of what follows it. -/
def Tree.step : Tree → Step
  | .simple s => s.step
  | .branch c yes =>
    match (if Guard.isBinding c.text then none else yes.rejection?) with
    | some error => .validate (ownText (Guard.invert c.text)) (error.map ownText)
    | none => .branch (ownText c.text) yes.steps []
  | .fork c yes no => .branch (ownText c.text) yes.steps no.steps
  | .loop _ header body => .iterate (ownText header.text) body.steps

def Suite.steps : Suite → List Step
  | .last s => [s.step]
  | .more s rest => s.step :: rest.steps

end

def Simple.Declared (fields : List String) : Simple → Prop
  | .assign f _ => String.ofList f.text ∈ fields
  | _ => True

mutual

/-- Every field that is assigned to is declared. -/
def Tree.Declared (fields : List String) : Tree → Prop
  | .simple s => s.Declared fields
  | .branch _ yes => yes.Declared fields
  | .fork _ yes no => yes.Declared fields ∧ no.Declared fields
  | .loop _ _ body => body.Declared fields

def Suite.Declared (fields : List String) : Suite → Prop
  | .last s => s.Declared fields
  | .more s rest => s.Declared fields ∧ rest.Declared fields

end

/-- A way to print statements at any depth, and how a dialect reads it. -/
structure Printing (d : Dialect) where
  text : (depth : Nat) → Tree → Text
  decompose_text : ∀ depth s, d.decompose (text depth s) = s.shape (text (depth + 1))
  ownField_self : ∀ f : FieldName, d.ownField? ("self.".toList ++ f.text) = some f.text

variable {d : Dialect} {fields : List String}

theorem rejection?_shape (s : Tree) (child : Tree → Text) :
    Mapping.rejection? (s.shape child) = s.rejection? := by
  cases s with
  | simple s => cases s <;> rfl
  | _ => rfl

/-- Only a suite of one statement can make its conditional a guard. -/
theorem guardError?_printed (p : Printing d) (c : Text) (yes : Suite) (depth : Nat) :
    guardError? d c (yes.trees.map (p.text depth)) none =
      if Guard.isBinding c then none else yes.rejection? := by
  cases yes with
  | last s =>
    simp only [guardError?, Suite.trees, List.map_cons, List.map_nil, p.decompose_text, rejection?_shape,
      Suite.rejection?]
  | more s rest => cases rest <;> simp [guardError?, Suite.trees, Suite.rejection?]

theorem step_simple (p : Printing d) {s : Simple} (h : s.Declared fields) (depth fuel : Nat) :
    stepWithin d fields (fuel + 1) (p.text depth (.simple s)) = s.step := by
  rw [stepWithin, p.decompose_text]
  cases s with
  | assign f e =>
    have hfield : fields.contains (String.ofList f.text) = true := List.contains_iff_mem.2 h
    simp only [Tree.shape, Simple.shape, p.ownField_self, hfield, if_true]
    rfl
  | call c => rfl
  | finish => rfl
  | give e => rfl

mutual

/-- **The steps of printed statements** are those of their trees. -/
theorem stepWithin_printed (p : Printing d) : ∀ (s : Tree), s.Declared fields → ∀ (depth fuel : Nat),
    s.height < fuel → stepWithin d fields fuel (p.text depth s) = s.step
  | s, h, depth, 0, hfuel => absurd hfuel (Nat.not_lt_zero _)
  | .simple s, h, depth, fuel + 1, _ => step_simple p h depth fuel
  | .branch c yes, h, depth, fuel + 1, hfuel => by
    have hyes := map_stepWithin_printed p yes h (depth + 1) fuel (Nat.lt_of_succ_lt_succ hfuel)
    rw [stepWithin, p.decompose_text]
    simp only [Tree.shape]
    rw [guardError?_printed, hyes]
    rfl
  | .fork c yes no, h, depth, fuel + 1, hfuel => by
    have hlt : max yes.height no.height < fuel := Nat.lt_of_succ_lt_succ hfuel
    have hyes := map_stepWithin_printed p yes h.1 (depth + 1) fuel (by omega)
    have hno := map_stepWithin_printed p no h.2 (depth + 1) fuel (by omega)
    rw [stepWithin, p.decompose_text]
    -- a conditional with another branch guards nothing
    have hguard : guardError? d c.text (yes.trees.map (p.text (depth + 1)))
        (some (no.trees.map (p.text (depth + 1)))) = none := by simp [guardError?]
    simp only [Tree.shape, hguard, Option.getD_some, hyes, hno]
    rfl
  | .loop w header body, h, depth, fuel + 1, hfuel => by
    have hbody := map_stepWithin_printed p body h (depth + 1) fuel (Nat.lt_of_succ_lt_succ hfuel)
    rw [stepWithin, p.decompose_text]
    simp only [Tree.shape, hbody]
    rfl

theorem map_stepWithin_printed (p : Printing d) : ∀ (b : Suite), b.Declared fields → ∀ (depth fuel : Nat),
    b.height < fuel → (b.trees.map (p.text depth)).map (stepWithin d fields fuel) = b.steps
  | .last s, h, depth, fuel, hfuel => by
    simp only [Suite.trees, List.map_cons, List.map_nil, stepWithin_printed p s h depth fuel hfuel]
    rfl
  | .more s rest, h, depth, fuel, hfuel => by
    have hlt : max s.height rest.height < fuel := hfuel
    simp only [Suite.trees, List.map_cons, stepWithin_printed p s h.1 depth fuel (by omega),
      map_stepWithin_printed p rest h.2 depth fuel (by omega)]
    rfl

end

end Concord.Statement
