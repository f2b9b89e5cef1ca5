/-
Two ways to write a body, one list of steps. A body whose suites are indented and the
same body with its suites in braces map to the same steps, those of its trees
(`steps_agree`): both dialects read what is printed as its tree has it, and the length of
a printed statement bounds how deep it goes.
-/
import Concord.Proofs.Mapping.Tree
import Concord.Proofs.Statement.Braced
import Concord.Proofs.Statement.Indented

namespace Concord.Statement

open Text

/-! ## Depth and length -/

mutual

/-- Every level of a statement takes a line. -/
theorem Tree.height_lt_lines (n : Nat) : ∀ s : Tree, s.height < (s.lines n).length
  | .simple s => by simp [Tree.height, Tree.lines]
  | .branch c yes => by
    have h := yes.height_lt_lines n
    simp only [Tree.height, Tree.lines, List.length_cons, List.length_map]
    omega
  | .fork c yes no => by
    have hyes := yes.height_lt_lines n
    have hno := no.height_lt_lines n
    simp only [Tree.height, Tree.lines, List.length_cons, List.length_append, List.length_map]
    omega
  | .loop w header body => by
    have h := body.height_lt_lines n
    simp only [Tree.height, Tree.lines, List.length_cons, List.length_map]
    omega

theorem Suite.height_lt_lines (n : Nat) : ∀ b : Suite, b.height < (b.lines n).length
  | .last s => s.height_lt_lines n
  | .more s rest => by
    have hs := s.height_lt_lines n
    have hrest := rest.height_lt_lines n
    simp only [Suite.height, Suite.lines, List.length_append]
    omega

end

theorem Tree.height_lt_indented (n : Nat) (s : Tree) : s.height < (s.indented n).length + 1 := by
  have hlines := s.height_lt_lines n
  have hlength : (s.lines n).length ≤ (s.indented n).length :=
    length_le_join fun l hl => ((Indented.tree_isStatement n s).lines l hl).toIsLine
  omega

theorem length_block (m depth : Nat) (suite : Text) : suite.length < (block m depth suite).length := by
  simp only [block, List.length_cons, List.length_append]
  omega

mutual

theorem Tree.height_le_braced (m depth : Nat) : ∀ s : Tree, s.height ≤ (s.braced m depth).length
  | .simple s => Nat.zero_le _
  | .branch c yes => by
    have h := yes.height_le_braced m depth
    have hblock := length_block m depth (yes.braced m depth)
    simp only [Tree.height, Tree.braced, List.length_append]
    omega
  | .fork c yes no => by
    have hyes := yes.height_le_braced m depth
    have hno := no.height_le_braced m depth
    have hyesBlock := length_block m depth (yes.braced m depth)
    have hnoBlock := length_block m depth (no.braced m depth)
    simp only [Tree.height, Tree.braced, List.length_append]
    omega
  | .loop w header body => by
    have h := body.height_le_braced m depth
    have hblock := length_block m depth (body.braced m depth)
    simp only [Tree.height, Tree.braced, List.length_append]
    omega

theorem Suite.height_le_braced (m depth : Nat) : ∀ b : Suite, b.height ≤ (b.braced m depth).length
  | .last s => by
    have h := s.height_le_braced m (depth + 1)
    simp only [Suite.height, Suite.braced, List.length_append]
    omega
  | .more s rest => by
    have hs := s.height_le_braced m (depth + 1)
    have hrest := rest.height_le_braced m depth
    simp only [Suite.height, Suite.braced, List.length_append]
    omega

end

end Concord.Statement

namespace Concord.Mapping

open Text Statement

/-! ## Both printings -/

def indentedPrinting (n : Nat) : Printing .indented where
  text _ s := s.indented n
  decompose_text _ s := Indented.decompose_indented n s
  ownField_self f := Indented.ownField?_self f

/-- Whole statements keep their semicolon, inner ones have lost it to the block around them. -/
def bracedPrinting (m : Nat) : Printing (.braced .bare) where
  text
    | 0, s => s.braced m 0
    | depth + 1, s => Braced.bared m (depth + 1) s
  decompose_text
    | 0, s => Braced.decompose_braced m 0 s
    | depth + 1, s => Braced.decompose_bared m (depth + 1) s
  ownField_self f := Braced.ownField?_self f

variable {fields : List String}

theorem stepsOf_indented (body : List Tree) (h : ∀ s ∈ body, s.Declared fields) (n : Nat) :
    stepsOf .indented fields (body.map fun s => String.ofList (s.indented n)) = body.map Tree.step := by
  rw [stepsOf, List.map_map]
  refine List.map_congr_left fun s hs => ?_
  rw [Function.comp, stepOf, String.toList_ofList]
  exact stepWithin_printed (indentedPrinting n) s (h s hs) 0 _ (s.height_lt_indented n)

theorem stepsOf_braced (body : List Tree) (h : ∀ s ∈ body, s.Declared fields) (m : Nat) :
    stepsOf (.braced .bare) fields (body.map fun s => String.ofList (s.braced m 0)) = body.map Tree.step := by
  rw [stepsOf, List.map_map]
  refine List.map_congr_left fun s hs => ?_
  rw [Function.comp, stepOf, String.toList_ofList]
  exact stepWithin_printed (bracedPrinting m) s (h s hs) 0 _ (Nat.lt_succ_of_le (s.height_le_braced m 0))

/-- **Two spellings of one body map to the same steps.** Suites that are indented by `n + 1` spaces and
suites in braces, with `m` spaces for each level and semicolons after simple statements, give the steps of
the trees that both were printed from. -/
theorem steps_agree (body : List Tree) (fields : List String) (h : ∀ s ∈ body, s.Declared fields)
    (n m : Nat) :
    stepsOf (.ofFormat .python) fields (body.map fun s => String.ofList (s.indented n)) =
        stepsOf (.ofFormat .rust) fields (body.map fun s => String.ofList (s.braced m 0)) ∧
      stepsOf (.ofFormat .python) fields (body.map fun s => String.ofList (s.indented n)) =
        body.map Tree.step := by
  have hindented := stepsOf_indented body h n
  have hbraced := stepsOf_braced body h m
  exact ⟨hindented.trans hbraced.symm, hindented⟩

/-- A guard, a fork with a loop in each branch, brackets in literals, and a plain return. -/
def qualifyBody : List Tree :=
  [.branch ⟨⟨"self.status != \"lead\"".toList, by decide⟩, by decide⟩
      (.last (.simple (.give ⟨"False".toList, by decide⟩))),
    .fork ⟨⟨"len(self.tags) > 2".toList, by decide⟩, by decide⟩
      (.more (.simple (.assign ⟨"status".toList, by decide, by decide⟩
          ⟨"\"qualified; \x7b\"".toList, by decide⟩))
        (.last (.loop .each ⟨"tag in self.tags".toList, by decide⟩
          (.last (.simple (.call ⟨"audit.log".toList, "tag, \"\x7d:\"".toList, by decide, by decide,
            by decide, by decide, by decide, by decide, by decide⟩))))))
      (.last (.loop .whilst ⟨"queue.pending()".toList, by decide⟩
        (.last (.branch ⟨⟨"ready".toList, by decide⟩, by decide⟩ (.last (.simple .finish)))))),
    .simple .finish]

theorem steps_agree_qualify : (∀ s ∈ qualifyBody, s.Declared ["status"]) ∧
    stepsOf (.ofFormat .python) ["status"] (qualifyBody.map fun s => String.ofList (s.indented 3)) =
      stepsOf (.ofFormat .rust) ["status"] (qualifyBody.map fun s => String.ofList (s.braced 4 0)) ∧
    stepsOf (.ofFormat .python) ["status"] (qualifyBody.map fun s => String.ofList (s.indented 3)) =
      qualifyBody.map Tree.step := by
  have hdeclared : ∀ s ∈ qualifyBody, s.Declared ["status"] := by
    simp [qualifyBody, Tree.Declared, Suite.Declared, Simple.Declared]
  exact ⟨hdeclared, steps_agree qualifyBody ["status"] hdeclared 3 4⟩

end Concord.Mapping
