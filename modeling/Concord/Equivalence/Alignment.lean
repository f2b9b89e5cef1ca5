/-
Aligning two lists: each reference, in order, takes the candidate with the best
score among those left, the first of several, and none if the best is too low.
-/
namespace Concord.Equivalence

variable {ρ κ α : Type}

/-- What an alignment gives. -/
structure Alignment (ρ κ α : Type) where
  matched : List (ρ × κ × α)
  /-- References without a candidate. -/
  missing : List ρ
  /-- Candidates without a reference. -/
  extra : List κ
deriving DecidableEq, Repr

/-- Where a search for the best candidate stands: the best one so far, its score, and the candidates
before and after it that have been passed. -/
structure Pick (κ α : Type) where
  before : List κ
  best : κ
  score : α
  after : List κ

/-- Goes on to the next candidate, which must be better to take the place of the best one. -/
def Pick.step [LT α] [DecidableLT α] (score : κ → α) (p : Pick κ α) (c : κ) : Pick κ α :=
  if p.score < score c then ⟨p.before ++ p.best :: p.after, c, score c, []⟩
  else { p with after := p.after ++ [c] }

/-- The candidate with the best score, its score, and the other candidates; the first of several
that are best. -/
def best? [LT α] [DecidableLT α] (score : κ → α) : List κ → Option (κ × α × List κ)
  | [] => none
  | c :: rest =>
    let p := rest.foldl (Pick.step score) ⟨[], c, score c, []⟩
    some (p.best, p.score, p.before ++ p.after)

/-- Aligns references with candidates by a score that must reach a threshold. -/
def align [LT α] [DecidableLT α] [LE α] [DecidableLE α] (score : ρ → κ → α) (least : α) :
    List ρ → List κ → Alignment ρ κ α
  | [], candidates => ⟨[], [], candidates⟩
  | r :: references, candidates =>
    match best? (score r) candidates with
    | none =>
      let rest := align score least references candidates
      { rest with missing := r :: rest.missing }
    | some (c, s, others) =>
      if least ≤ s then
        let rest := align score least references others
        { rest with matched := (r, c, s) :: rest.matched }
      else
        let rest := align score least references candidates
        { rest with missing := r :: rest.missing }

end Concord.Equivalence
