/-
What equality of values looks at. Numbers count as doubles in which zero has no sign, so
that two stored values are the same exactly if their contents are equal (`sameValue_iff`).
Assertions that say the same are then those with one saying (`sameAssertion_iff`), and to say
the same is an equivalence (`sameAssertion_equivalence`).
-/
import Concord.Equivalence.AssertionMatch
import Concord.Proofs.Number.Equality
import Concord.Proofs.Order.KeyMap

namespace Concord.Equivalence

open Json

/-! ## Contents -/

mutual

/-- A value with all its numbers as doubles without a sign of zero. -/
def content : Json → Json
  | .int n => .float (Number.unsigned (Number.nearestInt n))
  | .float x => .float (Number.unsigned x)
  | .arr items => .arr (contentItems items)
  | .obj members => .obj (contentMembers members)
  | j => j

def contentItems : List Json → List Json
  | [] => []
  | j :: items => content j :: contentItems items

def contentMembers : List (String × Json) → List (String × Json)
  | [] => []
  | (key, j) :: members => (key, content j) :: contentMembers members

end

theorem contentMembers_eq (members : List (String × Json)) :
    contentMembers members = members.map fun m => (m.1, content m.2) := by
  induction members with
  | nil => rfl
  | cons m members ih => rw [contentMembers, ih, List.map_cons]

theorem increasing_contentMembers {members : List (String × Json)} (h : KeyMap.Increasing members) :
    KeyMap.Increasing (contentMembers members) := by
  rw [contentMembers_eq, KeyMap.Increasing, List.map_map]
  exact h

/-! ## Numbers -/

theorem isNaN_of_number? {j : Json} {x : Float} (hj : j.isSettled = true) (hx : number? j = some x) :
    x.isNaN = false := by
  cases j with
  | int n => exact Option.some.inj hx ▸ Number.isNaN_nearestInt n
  | float y => exact Option.some.inj hx ▸ Number.isNaN_of_isFinite hj
  | _ => cases hx

theorem content_of_number? {j : Json} {x : Float} (hx : number? j = some x) :
    content j = .float (Number.unsigned x) := by
  cases j with
  | int n => rw [content, Option.some.inj hx]
  | float y => rw [content, Option.some.inj hx]
  | _ => cases hx

theorem sameValue_of_numbers {a b : Json} {x y : Float} (hx : number? a = some x)
    (hy : number? b = some y) : sameValue a b = (x == y) := by
  cases a <;> cases b <;> simp_all [sameValue, number?]

/-- A number is the same as another value exactly if that is an equal number. -/
theorem sameNumber_iff {a b : Json} {x : Float} (hx : number? a = some x) (ha : a.isSettled = true)
    (hb : b.isSettled = true) : sameValue a b = true ↔ content a = content b := by
  cases hy : number? b with
  | some y =>
    have hequal := Number.beq_iff_unsigned (isNaN_of_number? ha hx) (isNaN_of_number? hb hy)
    rw [sameValue_of_numbers hx hy, hequal, content_of_number? hx, content_of_number? hy, Json.float.injEq]
  | none =>
    rw [content_of_number? hx]
    cases a <;> cases b <;> simp_all [sameValue, number?, same, content]

/-! ## Members -/

theorem member?_eq_some_iff {members : List (String × Json)} (h : KeyMap.Increasing members) {key : String}
    {j : Json} : member? members key = some j ↔ (key, j) ∈ members :=
  (KeyMap.mem_members_iff ⟨members, h⟩ (key, j)).symm

/-- Members with increasing keys that are all among as many others are those others. -/
theorem eq_of_subset {xs ys : List (String × Json)} (hxs : KeyMap.Increasing xs)
    (hys : KeyMap.Increasing ys) (hlength : xs.length = ys.length) (h : xs ⊆ ys) : xs = ys := by
  have hnodup : xs.Nodup :=
    List.Pairwise.of_map Prod.fst (fun _ _ hne he => String.ne_of_lt hne (congrArg Prod.fst he)) hxs
  have hperm : xs.Perm ys := (List.subperm_of_subset hnodup h).perm_of_length_le hlength.ge
  exact congrArg KeyMap.members (KeyMap.eq_of_perm (m := ⟨xs, hxs⟩) (n := ⟨ys, hys⟩) hperm)

/-! ## Equality of values -/

mutual

/-- Stored values are the same exactly if their contents are equal. -/
theorem sameValue_iff : ∀ a b : Json, a.isSettled = true → b.isSettled = true →
    (sameValue a b = true ↔ content a = content b)
  | .null, b, _, _ | .bool _, b, _, _ | .str _, b, _, _ => by
    cases b <;> simp [sameValue, number?, same, content]
  | .int _, _, ha, hb => sameNumber_iff rfl ha hb
  | .float _, _, ha, hb => sameNumber_iff rfl ha hb
  | .arr as, b, ha, hb => by
    cases b with
    | arr bs =>
      rw [sameValue, content, content, Json.arr.injEq]
      exact sameItems_iff as bs ha hb
    | _ => simp [sameValue, number?, same, content]
  | .obj as, b, ha, hb => by
    cases b with
    | obj bs =>
      simp only [isSettled, Bool.and_eq_true, decide_eq_true_eq] at ha hb
      have hlength (members : List (String × Json)) : (contentMembers members).length = members.length := by
        rw [contentMembers_eq, List.length_map]
      rw [sameValue, Bool.and_eq_true, beq_iff_eq, sameMembers_iff as bs ha.2 hb.2 hb.1, content, content,
        Json.obj.injEq]
      constructor
      · rintro ⟨heq, hsubset⟩
        exact eq_of_subset (increasing_contentMembers ha.1) (increasing_contentMembers hb.1)
          (by rw [hlength, hlength, heq]) hsubset
      · intro heq
        exact ⟨by rw [← hlength as, ← hlength bs, heq], heq ▸ List.Subset.refl _⟩
    | _ => simp [sameValue, number?, same, content]

theorem sameItems_iff : ∀ as bs : List Json, isSettledItems as = true → isSettledItems bs = true →
    (sameItems as bs = true ↔ contentItems as = contentItems bs)
  | [], [], _, _ => by simp [sameItems, contentItems]
  | [], _ :: _, _, _ => by simp [sameItems, contentItems]
  | _ :: _, [], _, _ => by simp [sameItems, contentItems]
  | a :: as, b :: bs, ha, hb => by
    simp only [isSettledItems, Bool.and_eq_true] at ha hb
    rw [sameItems, Bool.and_eq_true, sameValue_iff a b ha.1 hb.1, sameItems_iff as bs ha.2 hb.2,
      contentItems, contentItems, List.cons.injEq]

theorem sameMembers_iff : ∀ as bs : List (String × Json), isSettledMembers as = true →
    isSettledMembers bs = true → KeyMap.Increasing bs →
    (sameMembers as bs = true ↔ contentMembers as ⊆ contentMembers bs)
  | [], _, _, _, _ => by simp [sameMembers, contentMembers]
  | (key, a) :: as, bs, ha, hb, hincreasing => by
    simp only [isSettledMembers, Bool.and_eq_true] at ha
    have hrest := sameMembers_iff as bs ha.2 hb hincreasing
    have hfirst : (∃ b, member? bs key = some b ∧ sameValue a b = true) ↔
        (key, content a) ∈ contentMembers bs := by
      rw [contentMembers_eq, List.mem_map]
      constructor
      · rintro ⟨b, hfound, hsame⟩
        have hmem := (member?_eq_some_iff hincreasing).1 hfound
        have hsettled := (isSettledMembers_iff bs).1 hb _ hmem
        exact ⟨_, hmem, by rw [(sameValue_iff a b ha.1 hsettled).1 hsame]⟩
      · rintro ⟨⟨k, b⟩, hmem, heq⟩
        obtain ⟨rfl, hcontent⟩ := Prod.mk.inj heq
        have hsettled := (isSettledMembers_iff bs).1 hb _ hmem
        exact ⟨b, (member?_eq_some_iff hincreasing).2 hmem,
          (sameValue_iff a b ha.1 hsettled).2 hcontent.symm⟩
    rw [contentMembers, List.cons_subset, ← hfirst, ← hrest, sameMembers, Bool.and_eq_true]
    cases member? bs key <;> simp

end

/-! ## Assertions -/

/-- What an assertion says. -/
def saying (a : Assertion) : Assertion.Kind × Text × Json :=
  (a.kind, normalTarget a.target.toList, content a.expected.json)

/-- Assertions say the same exactly if they have one saying. -/
theorem sameAssertion_iff (a b : Assertion) : sameAssertion a b = true ↔ saying a = saying b := by
  rw [sameAssertion, Bool.and_eq_true, Bool.and_eq_true, beq_iff_eq, beq_iff_eq,
    sameValue_iff _ _ a.expected.settled b.expected.settled, saying, saying, Prod.mk.injEq, Prod.mk.injEq,
    and_assoc]

theorem sameAssertion_self (a : Assertion) : sameAssertion a a = true := (sameAssertion_iff a a).2 rfl

theorem sameAssertion_equivalence : Equivalence fun a b => sameAssertion a b = true where
  refl := sameAssertion_self
  symm h := (sameAssertion_iff _ _).2 ((sameAssertion_iff _ _).1 h).symm
  trans h h' := (sameAssertion_iff _ _).2 (((sameAssertion_iff _ _).1 h).trans ((sameAssertion_iff _ _).1 h'))

end Concord.Equivalence
