/-
Which statements of a script its step stands for. Every simple statement that is read is
shown by a step of its own, by the guard made of it or in the text of a statement that was
kept as it is (`covers_read`): a suite gives the steps of what it is read as, and what a
comment cut off is kept.
-/
import Concord.Mapping.Step
import Concord.Proofs.Statement.Reading

namespace Concord.Mapping

open Text Code Statement Spec Indented

/-! ## Representation -/

/-- What statements a step stands for. -/
inductive Represents (fields : List String) : Step → List Text → Prop where
  /-- The step built from a statement. -/
  | own (s : Text) : Represents fields (stepOf .indented fields s) [s]
  /-- The guard that gives up as the statement does. -/
  | guard {s : Text} {error : Option Text} (condition : String)
    (h : rejection? (decompose s) = some error) :
    Represents fields (.validate condition (error.map ownText)) [s]
  /-- A text kept as it was that holds the statements. -/
  | kept {text : String} {ss : List Text} (h : ∀ s ∈ ss, s <:+: text.toList) :
    Represents fields (.invoke text true) ss

/-- Some of the steps stand for the statements, in their order. -/
inductive Covers (fields : List String) : List Step → List Text → Prop where
  | nil : Covers fields [] []
  | skip (step : Step) {steps : List Step} {ss : List Text} (h : Covers fields steps ss) :
    Covers fields (step :: steps) ss
  | take {step : Step} {steps : List Step} {ss rest : List Text} (hstep : Represents fields step ss)
    (h : Covers fields steps rest) : Covers fields (step :: steps) (ss ++ rest)

variable {fields : List String}

theorem covers_none (steps : List Step) : Covers fields steps [] := by
  induction steps with
  | nil => exact .nil
  | cons step steps ih => exact .skip step ih

theorem Covers.append {steps steps' : List Step} {ss ss' : List Text} (h : Covers fields steps ss)
    (h' : Covers fields steps' ss') : Covers fields (steps ++ steps') (ss ++ ss') := by
  induction h with
  | nil => exact h'
  | skip step _ ih => exact .skip step ih
  | take hstep _ ih =>
    rw [List.append_assoc]
    exact .take hstep ih

theorem covers_single {step : Step} {ss : List Text} (h : Represents fields step ss) :
    Covers fields [step] ss := by
  have hcovers := Covers.take h .nil
  rwa [List.append_nil] at hcovers

theorem covers_items {step : Text → Step} {items : List Item}
    (h : ∀ it ∈ items, Covers fields (step it.text).all it.read) :
    Covers fields (Step.allOf ((items.map Item.text).map step)) (items.flatMap Item.read) := by
  induction items with
  | nil => exact .nil
  | cons it items ih =>
    have hrest := ih fun x hx => h x (List.mem_cons_of_mem _ hx)
    exact (h it (by simp)).append hrest

/-! ## Steps of what a suite is read as -/

theorem stepWithin_flat {t : Text} (hchoice : ∀ c y o, decompose t ≠ .conditional c y o)
    (hloop : ∀ r b, decompose t ≠ .loop r b) (fuel other : Nat) :
    stepWithin .indented fields (fuel + 1) t = stepWithin .indented fields (other + 1) t := by
  have hshape : Dialect.indented.decompose t = decompose t := rfl
  rw [stepWithin, stepWithin, hshape]
  cases hcase : decompose t with
  | conditional c y o => exact absurd hcase (hchoice c y o)
  | loop r b => exact absurd hcase (hloop r b)
  | _ => rfl

theorem exists_all_eq (step : Step) : ∃ rest, step.all = step :: rest := by
  cases step <;> exact ⟨_, rfl⟩

/-- A single step shows a simple statement. -/
theorem covers_simple (s : SimpleLine) (fuel : Nat) :
    Covers fields (stepWithin .indented fields (fuel + 1) s.text).all s.told := by
  obtain ⟨hchoice, hloop⟩ := s.isFlat
  rw [SimpleLine.told]
  split
  · exact covers_none _
  · have hstep : stepWithin .indented fields (fuel + 1) s.text = stepOf .indented fields s.text :=
      stepWithin_flat hchoice hloop fuel _
    obtain ⟨rest, hall⟩ := exists_all_eq (stepOf .indented fields s.text)
    rw [hstep, hall]
    exact .take (.own s.text) (covers_none rest)

theorem stepWithin_stray {u v : Text} (htrim : trim u = u) (hu : u = 'e' :: 'l' :: v)
    (hcall : looksLikeCall u = false) (fuel : Nat) :
    stepWithin .indented fields (fuel + 1) u = .invoke (String.ofList u) true := by
  have hshape : Dialect.indented.decompose u = decompose u := rfl
  have hkept : kept u = .invoke (String.ofList u) true := by rw [kept, htrim]
  rw [stepWithin, hshape, ← hkept]
  rcases decompose_stray htrim hu with ⟨target, value, hcase, hfield⟩ | hcase
  · have hown : Dialect.indented.ownField? target = none := hfield
    rw [hcase]
    simp only [hown]
  · rw [hcase, hcall]
    rfl

theorem covers_stray {t : Tail} (h : (Item.stray t).Legible) (fuel : Nat) :
    Covers fields (stepWithin .indented fields (fuel + 1) t.text).all t.readStray := by
  obtain ⟨hblock, v, hv⟩ := h
  rw [Tail.readStray]
  cases hcall : looksLikeCall t.text with
  | true => exact covers_none _
  | false =>
    have htrim : trim t.text = t.text := hblock.trim_join
    rw [stepWithin_stray htrim hv hcall]
    refine covers_single (.kept fun s hs => ?_)
    rw [String.toList_ofList]
    exact t.infix_text s hs

/-- Only a conditional with a single statement and no other branch is a guard. -/
theorem guardError?_eq_some {d : Dialect} {c : Text} {yes : List Text} {otherwise : Option (List Text)}
    {error : Option Text} (h : guardError? d c yes otherwise = some error) :
    ∃ only, yes = [only] ∧ otherwise = none ∧ rejection? (d.decompose only) = some error := by
  rw [guardError?.eq_def] at h
  split at h
  · rename_i only
    split at h
    · cases h
    · exact ⟨only, rfl, rfl, h⟩
  · cases h

theorem covers_told {s : SimpleLine} {error : Option Text} (h : rejection? (decompose s.text) = some error)
    (condition : String) : Covers fields [.validate condition (error.map ownText)] s.told := by
  rw [SimpleLine.told]
  split
  · exact covers_none _
  · exact covers_single (.guard condition h)

/-- What gives up is a simple statement, and the guard made of it stands for it. -/
theorem covers_guard {it : Item} (hit : it.Legible) {error : Option Text}
    (h : rejection? (decompose it.text) = some error) (condition : String) :
    Covers fields [.validate condition (error.map ownText)] it.read := by
  cases it with
  | line s => exact covers_told h condition
  | whole s =>
    cases s with
    | simple s =>
      have htext : (Item.whole (.simple s)).text = s.text := join_singleton ['\n'] s.text
      rw [htext] at h
      exact covers_told h condition
    | compound w hd body more =>
      cases w with
      | choice => simp [Item.text, decompose_choice hit, rejection?] at h
      | loop w => simp [Item.text, decompose_loops hit, rejection?] at h
  | stray t =>
    obtain ⟨hblock, v, hv⟩ := hit
    have htrim : trim t.text = t.text := hblock.trim_join
    rw [Item.text] at h
    rcases decompose_stray htrim hv with ⟨target, value, hcase, -⟩ | hcase
    · rw [hcase] at h
      cases h
    · rw [hcase] at h
      split at h <;> cases h

theorem covers_item {fuel : Nat}
    (hscript : ∀ s : Script, s.Legible 2 → s.height < fuel →
      Covers fields (stepWithin .indented fields fuel s.text).all s.read)
    {it : Item} (hit : it.Legible) (hheight : it.height < fuel) :
    Covers fields (stepWithin .indented fields fuel it.text).all it.read := by
  obtain ⟨fuel, rfl⟩ : ∃ n, fuel = n + 1 := ⟨fuel - 1, by omega⟩
  cases it with
  | line s => exact covers_simple s fuel
  | whole s => exact hscript s hit hheight
  | stray t => exact covers_stray hit fuel

/-- A conditional stands for what is read of its clauses. -/
theorem covers_choice {fuel : Nat} {hd : Header} {body : Body} {more : Tail}
    (h : (Script.compound .choice hd body more).Legible 2)
    (hbody : Covers fields (Step.allOf ((body.items.map Item.text).map (stepWithin .indented fields fuel)))
      body.read)
    (hmore : Covers fields
      (Step.allOf (((more.next?.getD []).map Item.text).map (stepWithin .indented fields fuel))) more.read) :
    Covers fields
      (stepWithin .indented fields (fuel + 1) (Script.text (.compound .choice hd body more))).all
      (body.read ++ more.read) := by
  have hshape : Dialect.indented.decompose (Script.text (.compound .choice hd body more)) = _ :=
    decompose_choice h
  have hnext : (more.next?.map (List.map Item.text)).getD [] = (more.next?.getD []).map Item.text := by
    cases more.next? <;> rfl
  rw [stepWithin, hshape]
  simp only
  cases hguard : guardError? .indented (trim hd.text) (body.items.map Item.text)
      (more.next?.map (List.map Item.text)) with
  | none =>
    simp only [hnext]
    exact .skip _ (hbody.append hmore)
  | some error =>
    obtain ⟨only, honly, hnone, hreject⟩ := guardError?_eq_some hguard
    obtain ⟨it, hitems, rfl⟩ := List.map_eq_singleton_iff.1 honly
    have hread : more.read = [] := by
      rw [← more.read_next, Option.map_eq_none_iff.1 hnone]
      rfl
    have hit := (h.2.1.items it (by simp [hitems])).1
    rw [hread, List.append_nil, ← body.read_items, hitems, List.flatMap_singleton]
    exact covers_guard hit hreject _

/-- **The step of a script stands for what is read of it.** -/
theorem covers_read (fuel : Nat) (t : Script) (h : t.Legible 2) (hfuel : t.height < fuel) :
    Covers fields (stepWithin .indented fields fuel t.text).all t.read := by
  -- on the fuel and not on the script: what a suite is read as was cut at comments, so that it need
  -- not be a part of the script
  induction fuel generalizing t with
  | zero => exact absurd hfuel (Nat.not_lt_zero _)
  | succ fuel ih =>
    cases t with
    | simple s =>
      have htext : Script.text (.simple s) = s.text := join_singleton ['\n'] s.text
      rw [htext]
      exact covers_simple s fuel
    | compound w hd body more =>
      have hlt : max body.height more.height < fuel := Nat.lt_of_succ_lt_succ hfuel
      have hbody : Covers fields
          (Step.allOf ((body.items.map Item.text).map (stepWithin .indented fields fuel))) body.read := by
        rw [← body.read_items]
        refine covers_items fun it hit => ?_
        obtain ⟨hlegible, hheight⟩ := h.2.1.items it hit
        exact covers_item ih hlegible (by omega)
      cases w with
      | choice =>
        refine covers_choice h hbody ?_
        rw [← more.read_next]
        refine covers_items fun it hit => ?_
        obtain ⟨hlegible, hheight⟩ := h.2.2.next it hit
        exact covers_item ih hlegible (by omega)
      | loop w =>
        have hshape : Dialect.indented.decompose (Script.text (.compound (.loop w) hd body more)) = _ :=
          decompose_loops h
        rw [stepWithin, hshape]
        exact .skip _ hbody

/-- **Every simple statement that is not passed over is represented**, in its order, by a step of its
own, by the guard made of it or in the text of a statement that was kept. Where no loop has a further
clause and no comment stands between clauses, none is passed over. -/
theorem simple_statements_represented (t : Script) (h : t.Legible 2) (fields : List String) :
    Covers fields (stepOf (.ofFormat .python) fields t.text).all t.read ∧ (t.Plain → t.read = t.simples) :=
  ⟨covers_read _ t h (Nat.lt_succ_of_le t.height_le_text), fun hplain => hplain.read_eq⟩

/-- Further clauses on the lines of their headers and below them, a loop with a clause that is passed over,
a guard inside a loop, and clauses that comments cut off. -/
def pollScript : Script :=
  .compound .choice ⟨" len(queue) > 2".toList, by decide, by decide, by decide⟩
    (.inline ⟨"self.size = 2".toList, by decide⟩ [⟨"audit(\";\")".toList, by decide⟩])
    (.elif [] ⟨"(ready)".toList, by decide, by decide, by decide⟩
      (.block ⟨"\t".toList, by decide, by decide, by decide⟩
        (.more (.compound (.loop .whilst) ⟨" job := take()".toList, by decide, by decide, by decide⟩
            (.block ⟨"  ".toList, by decide, by decide, by decide⟩
              (.last (.compound .choice ⟨" job.done".toList, by decide, by decide, by decide⟩
                (.inline ⟨"return job".toList, by decide⟩ []) .stop)))
            (.otherwise [] (.inline ⟨"pass".toList, by decide⟩ [⟨"idle()".toList, by decide⟩])))
          (.last (.compound (.loop .each) ⟨" x in xs".toList, by decide, by decide, by decide⟩
            (.inline ⟨"visit(x)".toList, by decide⟩ [])
            (.otherwise [⟨"# none left, isn't it (".toList, by decide, by decide, '(', by decide, by decide⟩]
              (.inline ⟨"rest()".toList, by decide⟩ []))))))
      (.otherwise [] (.block ⟨"    ".toList, by decide, by decide, by decide⟩
        (.last (.simple ⟨"raise Empty()".toList, by decide⟩)))))

theorem simple_statements_represented_poll : pollScript.Legible 2 ∧
    Covers ["size"] (stepOf (.ofFormat .python) ["size"] pollScript.text).all
      ["self.size = 2".toList, "audit(\";\")".toList, "return job".toList, "visit(x)".toList,
        "rest()".toList, "raise Empty()".toList] := by
  have hlegible : pollScript.Legible 2 := by
    simp only [pollScript, Script.Legible, Tail.Legible, Body.Legible, Scripts.Legible]
    decide
  have hread : pollScript.read = ["self.size = 2".toList, "audit(\";\")".toList, "return job".toList,
      "visit(x)".toList, "rest()".toList, "raise Empty()".toList] := by decide +kernel
  exact ⟨hlegible, hread ▸ (simple_statements_represented pollScript hlegible ["size"]).1⟩

/-! ## What is passed over -/

/-- The text of a statement that was kept as it was. -/
def keptText : Step → Text
  | .invoke text true => text.toList
  | _ => []

/-- What a step that stands for a statement shows of it. -/
def CanShow (fields : List String) (s : Text) (step : Step) : Prop :=
  step = stepOf .indented fields s ∨ (step.kind = "validate" ∧ (rejection? (decompose s)).isSome = true) ∨
    (step.isUnclassified = true ∧ s <:+: keptText step)

instance (fields : List String) (s : Text) (step : Step) : Decidable (CanShow fields s step) :=
  inferInstanceAs (Decidable (_ ∨ _ ∨ _))

theorem Represents.canShow {step : Step} {group : List Text} (h : Represents fields step group) {s : Text}
    (hs : s ∈ group) : CanShow fields s step := by
  cases h with
  | own u =>
    rw [List.mem_singleton.1 hs]
    exact .inl rfl
  | guard condition hreject =>
    rw [List.mem_singleton.1 hs]
    exact .inr (.inl ⟨rfl, by rw [hreject]; rfl⟩)
  | kept hinfix => exact .inr (.inr ⟨rfl, hinfix s hs⟩)

theorem Covers.exists_canShow {steps : List Step} {ss : List Text} (h : Covers fields steps ss) {s : Text}
    (hs : s ∈ ss) : ∃ step ∈ steps, CanShow fields s step := by
  induction h with
  | nil => cases hs
  | skip step _ ih =>
    obtain ⟨st, hst, hshow⟩ := ih hs
    exact ⟨st, List.mem_cons_of_mem _ hst, hshow⟩
  | take hstep _ ih =>
    rcases List.mem_append.1 hs with hs | hs
    · exact ⟨_, List.mem_cons_self, hstep.canShow hs⟩
    · obtain ⟨st, hst, hshow⟩ := ih hs
      exact ⟨st, List.mem_cons_of_mem _ hst, hshow⟩

theorem not_covers_of_lost {steps : List Step} {ss : List Text} {s : Text} (hs : s ∈ ss)
    (h : ∀ step ∈ steps, ¬ CanShow fields s step) : ¬ Covers fields steps ss := by
  intro hcovers
  obtain ⟨step, hstep, hshow⟩ := hcovers.exists_canShow hs
  exact h step hstep hshow

def spaces : Pad := ⟨"    ".toList, by decide, by decide, by decide⟩

def callF : Script := .simple ⟨"f()".toList, by decide⟩

def callG : Script := .simple ⟨"g()".toList, by decide⟩

def forEach (body : Scripts) (more : Tail) : Script :=
  .compound (.loop .each) ⟨" x in xs".toList, by decide, by decide, by decide⟩ (.block spaces body) more

/-- The other branch stands after a comment. -/
def elseAfterNote : Script :=
  .compound .choice ⟨" c".toList, by decide, by decide, by decide⟩
    (.block spaces (.last (.simple ⟨"return".toList, by decide⟩)))
    (.otherwise [⟨"# otherwise".toList, by decide, by decide, 'e', by decide, by decide⟩]
      (.block spaces (.last callG)))

example : elseAfterNote.text = "if c:\n    return\n# otherwise\nelse:\n    g()".toList := by decide

/-- A loop has a further clause. -/
def elseAfterLoop : Script := forEach (.last callF) (.otherwise [] (.block spaces (.last callG)))

/-- What a comment cuts off looks like a call. -/
def elifLikeCall : Script :=
  forEach (.last (.compound .choice ⟨" a".toList, by decide, by decide, by decide⟩ (.block spaces (.last callF))
    (.elif [⟨"# or".toList, by decide, by decide, 'r', by decide, by decide⟩]
      ⟨" (b)".toList, by decide, by decide, by decide⟩ (.block spaces (.last callG)) .stop))) .stop

/-- The header has a colon of its own. -/
def colonInHeader : Script :=
  .compound .choice ⟨" lambda: c".toList, by decide, by decide, by decide⟩ (.block spaces (.last callG)) .stop

/-- A comment two levels further in opens a bracket. -/
def bracketInNote : Script :=
  forEach (.more
    (.compound .choice ⟨" a".toList, by decide, by decide, by decide⟩
      (.block spaces (.last (.compound .choice ⟨" b".toList, by decide, by decide, by decide⟩
        (.block spaces (.last callF))
        (.otherwise [⟨"# (".toList, by decide, by decide, '(', by decide, by decide⟩]
          (.block spaces (.last callF))))))
      .stop)
    (.last callG)) .stop

/-- None of the conditions can be left out: each of these scripts loses the call of `g`. -/
theorem simple_statement_lost :
    ¬ Covers [] (stepOf (.ofFormat .python) [] elseAfterNote.text).all elseAfterNote.simples ∧
      ¬ Covers [] (stepOf (.ofFormat .python) [] elseAfterLoop.text).all elseAfterLoop.simples ∧
      ¬ Covers [] (stepOf (.ofFormat .python) [] elifLikeCall.text).all elifLikeCall.simples ∧
      ¬ Covers [] (stepOf (.ofFormat .python) [] colonInHeader.text).all colonInHeader.simples ∧
      ¬ Covers [] (stepOf (.ofFormat .python) [] bracketInNote.text).all bracketInNote.simples :=
  ⟨not_covers_of_lost (s := "g()".toList) (by decide +kernel) (by decide +kernel),
    not_covers_of_lost (s := "g()".toList) (by decide +kernel) (by decide +kernel),
    not_covers_of_lost (s := "g()".toList) (by decide +kernel) (by decide +kernel),
    not_covers_of_lost (s := "g()".toList) (by decide +kernel) (by decide +kernel),
    not_covers_of_lost (s := "g()".toList) (by decide +kernel) (by decide +kernel)⟩

end Concord.Mapping
