/-
Scenarios account for their cases. What the statements of a case do is set up, acted or torn
down, each thing once and in its order: reading a statement moves what is pending to one of
these lists and forgets nothing (`Draft.Accounts.read`). What the statements assert is kept in
its order too, and only an equality may become a transition (`ofCase_accounts`).
-/
import Mathlib.Data.List.Forall2
import Concord.Proofs.Scenario.Acceptance

namespace Concord.Scenario

open Text Assertion

/-! ## Statements -/

/-- What a statement does: itself if it asserts nothing, else what is done on the way to the assertion. -/
def doings (framework : Framework) (statement : String) : List String :=
  (extract? framework statement.toList).elim [statement] fun e => e.actions.map String.ofList

/-- What a statement asserts. -/
def asserted (framework : Framework) (statement : String) : List Assertion :=
  (extract? framework statement.toList).elim [] Extraction.assertions

/-! ## Interleavings -/

/-- A stream of which every item goes to one of three lists, which keep its order. -/
inductive Interleaved : (setup action teardown stream : List String) → Prop
  | nil : Interleaved [] [] [] []
  | prepare (x : String) {ps as ts l : List String} : Interleaved ps as ts l → Interleaved (x :: ps) as ts (x :: l)
  | act (x : String) {ps as ts l : List String} : Interleaved ps as ts l → Interleaved ps (x :: as) ts (x :: l)
  | restore (x : String) {ps as ts l : List String} : Interleaved ps as ts l → Interleaved ps as (x :: ts) (x :: l)

namespace Interleaved

theorem append {ps as ts l ps' as' ts' l' : List String} (h : Interleaved ps as ts l)
    (h' : Interleaved ps' as' ts' l') : Interleaved (ps ++ ps') (as ++ as') (ts ++ ts') (l ++ l') := by
  induction h with
  | nil => exact h'
  | prepare x _ ih => exact .prepare x ih
  | act x _ ih => exact .act x ih
  | restore x _ ih => exact .restore x ih

theorem ofSetup (l : List String) : Interleaved l [] [] l := by
  induction l with
  | nil => exact .nil
  | cons x l ih => exact .prepare x ih

theorem ofAction (l : List String) : Interleaved [] l [] l := by
  induction l with
  | nil => exact .nil
  | cons x l ih => exact .act x ih

/-- A list parted by a test, in order on both sides. -/
theorem ofFilter (p : String → Bool) (l : List String) :
    Interleaved [] (l.filter fun x => !p x) (l.filter p) l := by
  induction l with
  | nil => exact .nil
  | cons x l ih =>
    cases hx : p x with
    | true => simpa [hx] using Interleaved.restore x ih
    | false => simpa [hx] using Interleaved.act x ih

end Interleaved

/-! ## Drafts -/

/-- What becomes of an assertion: it stays, or an equality becomes a transition from some value. -/
def Settles (a b : Assertion) : Prop :=
  b = a ∨ a.kind = .equality ∧ ∃ before, b = { a with kind := .stateTransition, actual := some before }

namespace Draft

theorem settles_settled (d : Draft) (a : Assertion) : Settles a (d.settled a) := by
  unfold settled
  split
  · rename_i hkind _
    split
    · exact .inr ⟨hkind, _, rfl⟩
    · exact .inl rfl
  · exact .inl rfl

/-- What was read so far is in the draft: all that was done, the last of it still pending, and all that was
asserted. -/
structure Accounts (framework : Framework) (d : Draft) (statements : List String) : Prop where
  done : ∃ placed, Interleaved d.setup d.action [] placed ∧
    placed ++ d.pending = statements.flatMap (doings framework)
  kept : List.Forall₂ Settles (statements.flatMap (asserted framework)) d.assertions

@[simp] theorem pending_placeFirst (d : Draft) : d.placeFirst.pending = [] := by
  unfold placeFirst
  split
  · rename_i hlast
    exact List.getLast?_eq_none_iff.1 hlast
  · rfl

@[simp] theorem pending_place (d : Draft) (actions : List String) : (d.place actions).pending = [] := by
  unfold place
  dsimp only
  split
  · exact d.pending_placeFirst
  · split <;> rfl

/-- The last pending statement acts and the others prepare. -/
theorem placeFirst_interleaved {d : Draft} {placed : List String} (h : Interleaved d.setup d.action [] placed) :
    Interleaved d.placeFirst.setup d.placeFirst.action [] (placed ++ d.pending) := by
  unfold placeFirst
  split
  · rename_i hlast
    rwa [List.getLast?_eq_none_iff.1 hlast, List.append_nil]
  · rename_i last hlast
    obtain ⟨before, hpending⟩ := List.getLast?_eq_some_iff.1 hlast
    have hinter := (h.append (.ofSetup before)).append (.ofAction [last])
    simp only [List.append_nil, List.append_assoc, ← hpending] at hinter
    rw [hpending, List.dropLast_concat, ← hpending]
    exact hinter

/-- Placing a statement puts every pending statement into one list, and then what the statement does. -/
theorem place_interleaved {d : Draft} {placed : List String} (h : Interleaved d.setup d.action [] placed)
    (actions : List String) :
    Interleaved (d.place actions).setup (d.place actions).action [] (placed ++ d.pending ++ actions) := by
  suffices hplaced : ∃ e : Draft, d.place actions = { e with action := e.action ++ actions } ∧
      Interleaved e.setup e.action [] (placed ++ d.pending) by
    obtain ⟨e, he, hinter⟩ := hplaced
    rw [he]
    have hactions := hinter.append (.ofAction actions)
    rwa [List.append_nil] at hactions
  refine ⟨_, rfl, ?_⟩
  split
  · exact placeFirst_interleaved h
  · split
    · have hsetup := h.append (.ofSetup d.pending)
      rwa [List.append_nil] at hsetup
    · have haction := h.append (.ofAction d.pending)
      rwa [List.append_nil] at haction

theorem foldl_assert_frame (d : Draft) (as : List Assertion) : (as.foldl assert d).setup = d.setup ∧
    (as.foldl assert d).action = d.action ∧ (as.foldl assert d).pending = d.pending := by
  induction as generalizing d with
  | nil => exact ⟨rfl, rfl, rfl⟩
  | cons a as ih => exact ih (d.assert a)

theorem foldl_assert_kept (d : Draft) (as : List Assertion) :
    ∃ bs, (as.foldl assert d).assertions = d.assertions ++ bs ∧ List.Forall₂ Settles as bs := by
  induction as generalizing d with
  | nil => exact ⟨[], by simp, .nil⟩
  | cons a as ih =>
    obtain ⟨bs, hbs, hsettles⟩ := ih (d.assert a)
    refine ⟨d.settled a :: bs, ?_, .cons (d.settles_settled a) hsettles⟩
    rw [List.foldl_cons, hbs]
    simp [assert]

theorem read_of_none {framework : Framework} {statement : String} (d : Draft)
    (h : extract? framework statement.toList = none) :
    d.read framework statement = { d with pending := d.pending ++ [statement] } := by simp [Draft.read, h]

theorem read_of_some {framework : Framework} {statement : String} {e : Extraction} (d : Draft)
    (h : extract? framework statement.toList = some e) :
    d.read framework statement = e.assertions.foldl assert (d.place (e.actions.map String.ofList)) := by
  simp [Draft.read, h]

/-- Reading a statement forgets nothing that it does or asserts. -/
theorem Accounts.read {framework : Framework} {d : Draft} {statements : List String}
    (h : d.Accounts framework statements) (statement : String) :
    (d.read framework statement).Accounts framework (statements ++ [statement]) := by
  obtain ⟨⟨placed, hplaced, hstream⟩, hkept⟩ := h
  cases he : extract? framework statement.toList with
  | none =>
    have hdoings : doings framework statement = [statement] := by simp [doings, he]
    have hasserted : asserted framework statement = [] := by simp [asserted, he]
    rw [d.read_of_none he]
    refine ⟨⟨placed, hplaced, ?_⟩, by simpa [hasserted] using hkept⟩
    rw [List.flatMap_append, ← hstream]
    simp [hdoings]
  | some e =>
    have hdoings : doings framework statement = e.actions.map String.ofList := by simp [doings, he]
    have hasserted : asserted framework statement = e.assertions := by simp [asserted, he]
    have hinter := place_interleaved hplaced (e.actions.map String.ofList)
    obtain ⟨hsetup, haction, hsame⟩ := foldl_assert_frame (d.place (e.actions.map String.ofList)) e.assertions
    obtain ⟨bs, hbs, hsettles⟩ := foldl_assert_kept (d.place (e.actions.map String.ofList)) e.assertions
    rw [d.read_of_some he]
    refine ⟨⟨_, by rw [hsetup, haction]; exact hinter, ?_⟩, ?_⟩
    · rw [hsame, pending_place, List.append_nil, hstream, List.flatMap_append]
      simp [hdoings]
    · rw [hbs, assertions_place, List.flatMap_append]
      simpa [hasserted] using List.rel_append hkept hsettles

theorem Accounts.foldl_read {framework : Framework} {d : Draft} {before : List String}
    (h : d.Accounts framework before) (statements : List String) :
    (statements.foldl (Draft.read framework) d).Accounts framework (before ++ statements) := by
  induction statements generalizing d before with
  | nil => rwa [List.append_nil]
  | cons t ts ih =>
    have hrest := ih (h.read t)
    rwa [List.append_assoc] at hrest

theorem accounts_body (framework : Framework) (body : List String) :
    (body.foldl (Draft.read framework) {}).Accounts framework body := by
  have hempty : ({} : Draft).Accounts framework [] := ⟨⟨[], .nil, rfl⟩, .nil⟩
  exact hempty.foldl_read body

end Draft

/-! ## Cases -/

/-- A decoration adds nothing, or one assertion about an error. -/
theorem panicAssertion?_added (c : Source.Case) (action : List String) (assertions : List Assertion) :
    (panicAssertion? c action assertions).toList = [] ∨
      ∃ target error, (panicAssertion? c action assertions).toList = [raising target error] ∧
        ∃ d ∈ c.decorations, occurs "should_panic".toList d.toList = true := by
  unfold panicAssertion?
  split
  · rename_i decoration hfound
    split
    · exact .inl rfl
    · exact .inr ⟨_, _, rfl, decoration, List.mem_of_find?_eq_some hfound, by simpa using List.find?_some hfound⟩
  · exact .inl rfl

/-- **A scenario accounts for every statement of its case.** What the statements do is interleaved from what
prepares, acts and restores; what they assert stands in its order, an equality at most as a transition, with
at most one assertion after it that an expected panic adds. -/
theorem ofCase_accounts (framework : Framework) (c : Source.Case) :
    Interleaved (ofCase framework c).setup (ofCase framework c).action (ofCase framework c).teardown
        (c.body.flatMap (doings framework)) ∧
      ∃ kept added, (ofCase framework c).assertions = kept ++ added ∧
        List.Forall₂ Settles (c.body.flatMap (asserted framework)) kept ∧
        (added = [] ∨ ∃ target error, added = [raising target error] ∧
          ∃ d ∈ c.decorations, occurs "should_panic".toList d.toList = true) := by
  obtain ⟨⟨placed, hplaced, hstream⟩, hkept⟩ := Draft.accounts_body framework c.body
  unfold ofCase
  dsimp only
  rw [← hstream]
  split
  · refine ⟨Draft.placeFirst_interleaved hplaced, _, _, rfl, ?_, panicAssertion?_added _ _ _⟩
    rwa [Draft.assertions_placeFirst]
  · refine ⟨?_, _, _, rfl, hkept, panicAssertion?_added _ _ _⟩
    -- the calls that clean up are taken out of what is still pending
    have hinter := hplaced.append
      (.ofFilter isCleanup (c.body.foldl (Draft.read framework) {}).pending)
    rw [List.append_nil, List.nil_append] at hinter
    exact hinter

end Concord.Scenario
