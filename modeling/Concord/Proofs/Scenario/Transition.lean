/-
Transitions are recognised exactly. A draft remembers of every target the value that it was last
found equal to, and how much had been done by then; with what is pending, it has since grown by
just what the statements in between do (`Draft.Remembers.read`). So an equality becomes a
transition exactly when the latest equality before it of the same target has another value and
something is done between the two (`ofCase_transition`).
-/
import Concord.Proofs.Scenario.Conservation

namespace Concord.Scenario

open Text Assertion

/-! ## The latest equality of a target -/

/-- `old` is the latest equality of the target in `statements`, and `since` is what follows it. -/
def Latest (framework : Framework) (target : String) (statements : List String) (old : Assertion)
    (since : List String) : Prop :=
  ∃ earlier statement, statements = earlier ++ statement :: since ∧ old ∈ asserted framework statement ∧
    old.kind = .equality ∧ old.target = target ∧
    ∀ t ∈ since, ∀ a ∈ asserted framework t, a.kind = .equality → a.target ≠ target

/-- The equality `a` finds its target changed: the latest equality of it, `old`, expects another value, and
something was done since. -/
def Changed (framework : Framework) (before : List String) (a old : Assertion) : Prop :=
  ∃ since, Latest framework a.target before old since ∧
    old.expected.json.same a.expected.json = false ∧ ∃ t ∈ since, doings framework t ≠ []

variable {framework : Framework}

/-- A statement asserts at most one thing, of one moment, and does nothing if it asserts an equality. -/
theorem asserted_cases (framework : Framework) (statement : String) : asserted framework statement = [] ∨
    ∃ a, asserted framework statement = [a] ∧ a.kind ≠ .stateTransition ∧
      (a.kind = .equality → doings framework statement = []) := by
  cases he : extract? framework statement.toList with
  | none => exact .inl (by simp [asserted, he])
  | some e =>
    have hasserted : asserted framework statement = e.assertions := by simp [asserted, he]
    rw [hasserted]
    rcases extract?_says he with hnone | ⟨a, ha, hsaid, hactions⟩
    · exact .inl hnone
    · exact .inr ⟨a, ha, hsaid.momentary, fun hkind => by simp [doings, he, hactions hkind]⟩

theorem asserted_eq {statement : String} {a : Assertion} (h : a ∈ asserted framework statement) :
    asserted framework statement = [a] := by
  rcases asserted_cases framework statement with hnone | ⟨b, hb, -⟩
  · rw [hnone] at h
    cases h
  · rw [hb, List.mem_singleton] at h
    rw [hb, h]

/-- A target has one latest equality. -/
theorem Latest.unique {target : String} {statements since since' : List String} {old old' : Assertion}
    (h : Latest framework target statements old since)
    (h' : Latest framework target statements old' since') : old' = old ∧ since' = since := by
  obtain ⟨earlier, s, rfl, hmem, hkind, htarget, hnone⟩ := h
  obtain ⟨earlier', s', heq, hmem', hkind', htarget', hnone'⟩ := h'
  rcases List.append_eq_append_iff.1 heq with ⟨mid, hearlier, hmid⟩ | ⟨mid, hearlier, hmid⟩
  · cases mid with
    | nil =>
      obtain ⟨rfl, rfl⟩ := List.cons.inj hmid
      rw [asserted_eq hmem, List.mem_singleton] at hmem'
      exact ⟨hmem', rfl⟩
    | cons x mid =>
      -- the second one would stand after the first
      obtain ⟨rfl, rfl⟩ := List.cons.inj hmid
      exact absurd htarget' (hnone s' (by simp) old' hmem' hkind')
  · cases mid with
    | nil =>
      obtain ⟨rfl, rfl⟩ := List.cons.inj hmid
      rw [asserted_eq hmem, List.mem_singleton] at hmem'
      exact ⟨hmem', rfl⟩
    | cons x mid =>
      obtain ⟨rfl, rfl⟩ := List.cons.inj hmid
      exact absurd htarget (hnone' s (by simp) old hmem hkind)

/-- A statement without an equality of the target leaves the latest one as it is. -/
theorem Latest.concat {target : String} {statements since : List String} {old : Assertion}
    (h : Latest framework target statements old since) {statement : String}
    (hother : ∀ a ∈ asserted framework statement, a.kind = .equality → a.target ≠ target) :
    Latest framework target (statements ++ [statement]) old (since ++ [statement]) := by
  obtain ⟨earlier, s, rfl, hmem, hkind, htarget, hnone⟩ := h
  refine ⟨earlier, s, by simp, hmem, hkind, htarget, fun t ht => ?_⟩
  rcases List.mem_append.1 ht with ht | ht
  · exact hnone t ht
  · exact List.mem_singleton.1 ht ▸ hother

/-! ## Drafts -/

namespace Draft

@[simp] theorem values_placeFirst (d : Draft) : d.placeFirst.values = d.values := by
  unfold placeFirst
  split <;> rfl

@[simp] theorem values_place (d : Draft) (actions : List String) : (d.place actions).values = d.values := by
  unfold place
  dsimp only
  split
  · exact d.values_placeFirst
  · split <;> rfl

/-- After a first assertion all that is pending acts. -/
theorem action_place {d : Draft} (h : d.assertions ≠ []) (actions : List String) :
    (d.place actions).action = d.action ++ d.pending ++ actions := by
  have hsome : d.assertions.isEmpty = false := by simpa using h
  simp [place, hsome]

/-- What a draft remembers of the statements read so far. -/
structure Remembers (framework : Framework) (d : Draft) (statements : List String) : Prop where
  /-- Nothing is remembered before a first assertion. -/
  first : d.assertions = [] → d.values = []
  unknown : ∀ target, d.value? target = none →
    ∀ t ∈ statements, ∀ a ∈ asserted framework t, a.kind = .equality → a.target ≠ target
  known : ∀ target v n, d.value? target = some (v, n) → ∃ old since,
    Latest framework target statements old since ∧ old.expected = v ∧
      n + (since.flatMap (doings framework)).length = d.action.length + d.pending.length

/-- Taking in an equality remembers its value; nothing else is remembered. -/
theorem value?_assert (d : Draft) {a : Assertion} (h : a.kind ≠ .stateTransition) (target : String) :
    (d.assert a).value? target =
      if a.kind = .equality ∧ a.target = target then some (a.expected, d.action.length) else d.value? target := by
  have hsame : (d.settled a).target = a.target ∧ (d.settled a).expected = a.expected := by
    rcases d.settles_settled a with hsettled | ⟨-, before, hsettled⟩ <;> simp [hsettled]
  have hkind : ((d.settled a).kind == .equality || (d.settled a).kind == .stateTransition) =
      decide (a.kind = .equality) := by
    rcases d.settles_settled a with hsettled | ⟨hequal, before, hsettled⟩
    · rw [hsettled, beq_eq_false_iff_ne.2 h, Bool.or_false]
      rfl
    · simp [hsettled, hequal]
  unfold value? assert
  dsimp only
  rw [hkind, hsame.1, hsame.2]
  by_cases hequal : a.kind = .equality
  · by_cases htarget : a.target = target <;> simp [hequal, htarget]
  · simp [hequal]

theorem remembers_nil (framework : Framework) : ({} : Draft).Remembers framework [] :=
  ⟨fun _ => rfl, fun _ _ => List.forall_mem_nil _, fun _ _ _ h => by cases h⟩

/-- A statement that asserts no equality is only counted by what it does. -/
theorem Remembers.concat {d e : Draft} {statements : List String} (h : d.Remembers framework statements)
    {statement : String} (hother : ∀ a ∈ asserted framework statement, a.kind ≠ .equality)
    (hfirst : e.assertions = [] → d.assertions = []) (hvalues : e.values = d.values)
    (hcount : d.values ≠ [] → e.action.length + e.pending.length =
      d.action.length + d.pending.length + (doings framework statement).length) :
    e.Remembers framework (statements ++ [statement]) := by
  have hvalue (target : String) : e.value? target = d.value? target := by simp only [value?, hvalues]
  refine ⟨fun hnone => by rw [hvalues, h.first (hfirst hnone)], fun target hnone t ht => ?_,
    fun target v n hsome => ?_⟩
  · rcases List.mem_append.1 ht with ht | ht
    · exact h.unknown target (by rw [← hvalue, hnone]) t ht
    · exact fun a ha hkind => absurd hkind (hother a (List.mem_singleton.1 ht ▸ ha))
  · rw [hvalue] at hsome
    obtain ⟨old, since, hlatest, hexpected, hlength⟩ := h.known target v n hsome
    have hne : d.values ≠ [] := fun hnil => by simp [value?, hnil] at hsome
    refine ⟨old, _, hlatest.concat fun a ha hkind => absurd hkind (hother a ha), hexpected, ?_⟩
    rw [hcount hne, List.flatMap_append, List.length_append, List.flatMap_singleton]
    omega

/-- An equality is remembered, and what follows it counts from there. -/
theorem Remembers.equality {d : Draft} {statements : List String} (h : d.Remembers framework statements)
    {statement : String} {a : Assertion} (hasserted : asserted framework statement = [a])
    (hkind : a.kind = .equality) (hdoings : doings framework statement = []) :
    ((d.place []).assert a).Remembers framework (statements ++ [statement]) := by
  have hmomentary : a.kind ≠ .stateTransition := by simp [hkind]
  have hvalue (target : String) : ((d.place []).assert a).value? target =
      if a.target = target then some (a.expected, (d.place []).action.length) else d.value? target := by
    rw [value?_assert _ hmomentary]
    simp [hkind, value?]
  refine ⟨fun hnone => by simp [assert] at hnone, fun target hnone t ht b hb hequal => ?_,
    fun target v n hsome => ?_⟩
  · rw [hvalue] at hnone
    split at hnone
    · cases hnone
    · rename_i htarget
      rcases List.mem_append.1 ht with ht | ht
      · exact h.unknown target hnone t ht b hb hequal
      · rw [List.mem_singleton.1 ht, hasserted, List.mem_singleton] at hb
        exact hb ▸ htarget
  · rw [hvalue] at hsome
    split at hsome
    · rename_i htarget
      cases hsome
      refine ⟨a, [], ⟨statements, statement, rfl, by simp [hasserted], hkind, htarget, by simp⟩, rfl, ?_⟩
      simp [assert]
    · rename_i htarget
      obtain ⟨old, since, hlatest, hexpected, hlength⟩ := h.known target v n hsome
      have hne : d.assertions ≠ [] := fun hnil => by simp [value?, h.first hnil] at hsome
      refine ⟨old, _, hlatest.concat ?_, hexpected, ?_⟩
      · intro b hb _
        rw [hasserted, List.mem_singleton] at hb
        exact hb ▸ htarget
      · have haction : ((d.place []).assert a).action = d.action ++ d.pending := by
          show (d.place []).action = _
          rw [action_place hne, List.append_nil]
        have hpending : ((d.place []).assert a).pending = [] := d.pending_place []
        rw [haction, hpending, List.flatMap_append, List.flatMap_singleton, hdoings, List.append_nil,
          List.length_append, List.length_nil]
        omega

/-- What is not an equality is taken in without being remembered. -/
theorem values_assert_other (d : Draft) {a : Assertion} (h : a.kind ≠ .stateTransition)
    (hother : a.kind ≠ .equality) : (d.assert a).values = d.values := by
  have hsettled : d.settled a = a := by
    rcases d.settles_settled a with hsettled | ⟨hkind, -⟩
    · exact hsettled
    · exact absurd hkind hother
  simp [assert, hsettled, h, hother]

/-- **Reading a statement keeps what is remembered right.** -/
theorem Remembers.read {d : Draft} {statements : List String} (h : d.Remembers framework statements)
    (statement : String) : (d.read framework statement).Remembers framework (statements ++ [statement]) := by
  cases he : extract? framework statement.toList with
  | none =>
    have hdoings : doings framework statement = [statement] := by simp [doings, he]
    rw [d.read_of_none he]
    refine h.concat (by simp [asserted, he]) id rfl fun _ => ?_
    simp [hdoings, Nat.add_assoc]
  | some e =>
    have hdoings : doings framework statement = e.actions.map String.ofList := by simp [doings, he]
    have hcount (hne : d.values ≠ []) : (d.place (e.actions.map String.ofList)).action.length =
        d.action.length + d.pending.length + (doings framework statement).length := by
      rw [action_place (fun hnil => hne (h.first hnil)), hdoings, List.length_append, List.length_append]
    rw [d.read_of_some he]
    rcases extract?_says he with hnone | ⟨a, ha, hsaid, hactions⟩
    · rw [hnone]
      refine h.concat (by simp [asserted, he, hnone]) (by simp) (values_place _ _) fun hne => ?_
      simpa using hcount hne
    · have hasserted : asserted framework statement = [a] := by simp [asserted, he, ha]
      rw [ha]
      by_cases hkind : a.kind = .equality
      · rw [hactions hkind]
        exact h.equality hasserted hkind (by rw [hdoings, hactions hkind]; rfl)
      · refine h.concat (by simpa [hasserted] using hkind) (fun hnil => by simp [assert] at hnil) ?_ fun hne => ?_
        · rw [List.foldl_cons, List.foldl_nil, values_assert_other _ hsaid.momentary hkind, values_place]
        · simpa [assert] using hcount hne

theorem remembers_foldl (framework : Framework) (statements : List String) :
    (statements.foldl (Draft.read framework) {}).Remembers framework statements := by
  suffices H : ∀ (d : Draft) (before : List String), d.Remembers framework before →
      (statements.foldl (Draft.read framework) d).Remembers framework (before ++ statements) from
    H {} [] (remembers_nil framework)
  induction statements with
  | nil => intro d before h; rwa [List.append_nil]
  | cons t ts ih =>
    intro d before h
    have hrest := ih _ _ (h.read t)
    rwa [List.append_assoc] at hrest

/-- What was taken in stays. -/
theorem exists_assertions_foldl (framework : Framework) (d : Draft) (statements : List String) :
    ∃ later, (statements.foldl (Draft.read framework) d).assertions = d.assertions ++ later := by
  induction statements generalizing d with
  | nil => exact ⟨[], by simp⟩
  | cons t ts ih =>
    obtain ⟨later, hlater⟩ := ih (d.read framework t)
    have hread : ∃ more, (d.read framework t).assertions = d.assertions ++ more := by
      cases he : extract? framework t.toList with
      | none => exact ⟨[], by simp [d.read_of_none he]⟩
      | some e =>
        obtain ⟨bs, hbs, -⟩ := foldl_assert_kept (d.place (e.actions.map String.ofList)) e.assertions
        exact ⟨bs, by simpa [d.read_of_some he] using hbs⟩
    obtain ⟨more, hmore⟩ := hread
    exact ⟨more ++ later, by rw [List.foldl_cons, hlater, hmore, List.append_assoc]⟩

theorem settled_unknown (d : Draft) {a : Assertion} (h : d.value? a.target = none) : d.settled a = a := by
  unfold settled
  rw [h]
  split
  · rename_i hsome
    cases hsome
  · rfl

theorem settled_known (d : Draft) {a : Assertion} (hkind : a.kind = .equality) {v : Datum} {n : Nat}
    (h : d.value? a.target = some (v, n)) : d.settled a =
      if n < d.action.length ∧ v.json.same a.expected.json = false then
        { a with kind := .stateTransition, actual := some (valueText v) } else a := by
  unfold settled
  rw [h, hkind]
  simp

end Draft

/-! ## Cases -/

/-- The assertions of a scenario begin with those of the draft. -/
theorem exists_assertions_ofCase (framework : Framework) (c : Source.Case) :
    ∃ added, (ofCase framework c).assertions = (c.body.foldl (Draft.read framework) {}).assertions ++ added := by
  unfold ofCase
  dsimp only
  split
  · exact ⟨_, by rw [Draft.assertions_placeFirst]⟩
  · exact ⟨_, rfl⟩

/-- An equality stands in the scenario where it was asserted, as the draft before it settles it. -/
theorem getElem?_ofCase {c : Source.Case} {before after : List String} {statement : String}
    (hbody : c.body = before ++ statement :: after) {a : Assertion} (ha : a ∈ asserted framework statement)
    (hkind : a.kind = .equality) :
    (ofCase framework c).assertions[(before.flatMap (asserted framework)).length]? =
      some (((before.foldl (Draft.read framework) {}).place []).settled a) := by
  have hlength := (Draft.accounts_body framework before).kept.length_eq
  obtain ⟨added, hadded⟩ := exists_assertions_ofCase framework c
  obtain ⟨later, hlater⟩ := Draft.exists_assertions_foldl framework
    ((before.foldl (Draft.read framework) {}).read framework statement) after
  have hread : ((before.foldl (Draft.read framework) {}).read framework statement).assertions =
      (before.foldl (Draft.read framework) {}).assertions ++
        [((before.foldl (Draft.read framework) {}).place []).settled a] := by
    cases he : extract? framework statement.toList with
    | none => simp [asserted, he] at ha
    | some e =>
      rcases extract?_says he with hnone | ⟨b, hb, -, hactions⟩
      · simp [asserted, he, hnone] at ha
      · obtain rfl : a = b := by simpa [asserted, he, hb] using ha
        rw [Draft.read_of_some _ he, hb, hactions hkind]
        simp [Draft.assert]
  rw [hadded, hbody, List.foldl_append, List.foldl_cons, hlater, hread, hlength]
  simp

/-- **Transitions are recognised exactly.** An equality becomes a transition if and only if its target was
found equal to another value before and something was done between the latest such equality and it; the
transition is then from that value. In all other cases the equality stays as it is. -/
theorem ofCase_transition (framework : Framework) (c : Source.Case) {before after : List String}
    {statement : String} (hbody : c.body = before ++ statement :: after) {a : Assertion}
    (ha : a ∈ asserted framework statement) (hkind : a.kind = .equality) :
    ∃ r, (ofCase framework c).assertions[(before.flatMap (asserted framework)).length]? = some r ∧
      (r.kind = .stateTransition ↔ ∃ old, Changed framework before a old) ∧
      (∀ old, Changed framework before a old →
        r = { a with kind := .stateTransition, actual := some (valueText old.expected) }) ∧
      ((∀ old, ¬ Changed framework before a old) → r = a) := by
  refine ⟨_, getElem?_ofCase hbody ha hkind, ?_⟩
  have hremembers := Draft.remembers_foldl framework before
  generalize before.foldl (Draft.read framework) {} = d at hremembers ⊢
  have hsame : (d.place []).value? a.target = d.value? a.target := by simp [Draft.value?]
  cases hvalue : d.value? a.target with
  | none =>
    have hsettled : (d.place []).settled a = a := Draft.settled_unknown _ (hsame.trans hvalue)
    have hnot : ∀ old, ¬ Changed framework before a old := by
      rintro old ⟨since, ⟨earlier, s, rfl, hmem, hequal, htarget, -⟩, -⟩
      exact hremembers.unknown a.target hvalue s (by simp) old hmem hequal htarget
    rw [hsettled]
    exact ⟨by simp [hkind, hnot], fun old hold => absurd hold (hnot old), fun _ => rfl⟩
  | some known =>
    obtain ⟨v, n⟩ := known
    obtain ⟨old, since, hlatest, rfl, hlength⟩ := hremembers.known _ _ _ hvalue
    have hne : d.assertions ≠ [] := fun hnil => by simp [Draft.value?, hremembers.first hnil] at hvalue
    have hdone : n < (d.place []).action.length ↔ ∃ t ∈ since, doings framework t ≠ [] := by
      rw [Draft.action_place hne, List.append_nil, List.length_append, ← hlength, Nat.lt_add_right_iff_pos,
        List.length_pos_iff, ne_eq, List.flatMap_eq_nil_iff]
      simp
    have hchanged : ∀ x, Changed framework before a x ↔ x = old ∧
        n < (d.place []).action.length ∧ old.expected.json.same a.expected.json = false := by
      intro x
      constructor
      · rintro ⟨since', hlatest', hdiffers, hacts⟩
        obtain ⟨rfl, rfl⟩ := hlatest.unique hlatest'
        exact ⟨rfl, hdone.2 hacts, hdiffers⟩
      · rintro ⟨rfl, hlt, hdiffers⟩
        exact ⟨since, hlatest, hdiffers, hdone.1 hlt⟩
    rw [Draft.settled_known _ hkind (hsame.trans hvalue)]
    split
    · rename_i hcond
      refine ⟨⟨fun _ => ⟨old, (hchanged old).2 ⟨rfl, hcond⟩⟩, fun _ => rfl⟩, fun x hx => ?_, fun hnot => ?_⟩
      · rw [((hchanged x).1 hx).1]
      · exact absurd ((hchanged old).2 ⟨rfl, hcond⟩) (hnot old)
    · rename_i hcond
      have hnot : ∀ x, ¬ Changed framework before a x := fun x hx => hcond ((hchanged x).1 hx).2
      exact ⟨by simp [hkind, hnot], fun x hx => absurd hx (hnot x), fun _ => rfl⟩

/-- A status is looked at three times: nothing is done before the second time, and only inside a block that must
raise before the third. -/
def promotion : Source.Case where
  name := "promotes"
  body := ["lead = Contact()", "assert lead.status == \"lead\"", "assert lead.status == \"open\"",
    "with pytest.raises(StateError):\n    lead.qualify()", "assert lead.status == \"qualified\""]

theorem ofCase_transition_promotion :
    Changed .pytest (promotion.body.take 4) (equal "lead.status" (.str "qualified"))
        (equal "lead.status" (.str "open")) ∧
      ∃ r, (ofCase .pytest promotion).assertions[3]? = some r ∧ r.kind = .stateTransition ∧
        r.actual = some "open" := by
  have hchanged : Changed .pytest (promotion.body.take 4) (equal "lead.status" (.str "qualified"))
      (equal "lead.status" (.str "open")) :=
    ⟨[promotion.body[3]], ⟨promotion.body.take 2, promotion.body[2], rfl, by decide +kernel, rfl, rfl,
      by decide +kernel⟩, by decide +kernel, by decide +kernel⟩
  have hbody : promotion.body = promotion.body.take 4 ++ promotion.body[4] :: [] := rfl
  have hlength : ((promotion.body.take 4).flatMap (asserted .pytest)).length = 3 := by decide +kernel
  obtain ⟨r, hr, -, hvalue, -⟩ := ofCase_transition .pytest promotion hbody
    (by decide +kernel : equal "lead.status" (.str "qualified") ∈ asserted .pytest promotion.body[4]) rfl
  rw [hlength] at hr
  exact ⟨hchanged, r, hr, by rw [hvalue _ hchanged], by rw [hvalue _ hchanged]; decide +kernel⟩

example : ((ofCase .pytest promotion).assertions.map Assertion.kind) =
    [.equality, .equality, .raises, .stateTransition] := by decide +kernel

end Concord.Scenario
