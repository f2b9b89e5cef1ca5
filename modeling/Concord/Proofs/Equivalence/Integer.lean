/-
Expected values made of whole numbers. They are compared as doubles, so two of one shape are the same
exactly if any two numbers at one place are rounded to the same number (`sameValue_integers_iff`).
Where one of the two lies below `2 ^ 53` they are compared exactly.
-/
import Concord.Proofs.Equivalence.Content
import Concord.Proofs.Number.Significant

namespace Concord.Equivalence

open Json Number

mutual

/-- Two values of one shape, with whole numbers at the same places, any two of them related by `r`. -/
def Placewise (r : Int → Int → Prop) : Json → Json → Prop
  | .int m, .int n => r m n
  | .arr as, .arr bs => PlacewiseItems r as bs
  | .obj as, .obj bs => PlacewiseMembers r as bs
  | _, _ => False

def PlacewiseItems (r : Int → Int → Prop) : List Json → List Json → Prop
  | [], [] => True
  | a :: as, b :: bs => Placewise r a b ∧ PlacewiseItems r as bs
  | _, _ => False

def PlacewiseMembers (r : Int → Int → Prop) : List (String × Json) → List (String × Json) → Prop
  | [], [] => True
  | (k, a) :: as, (l, b) :: bs => k = l ∧ Placewise r a b ∧ PlacewiseMembers r as bs
  | _, _ => False

end

/-- Two values of one shape that are made of whole numbers. -/
abbrev SameShape : Json → Json → Prop := Placewise fun _ _ => True

/-! ## Contents -/

theorem content_int_iff {m n : Int} (hm : isWhole64 m = true) (hn : isWhole64 n = true) :
    content (.int m) = content (.int n) ↔ rounded m = rounded n := by
  rw [content, content, Json.float.injEq, ← nearestInt_beq_iff hm hn]
  exact (beq_iff_unsigned (isNaN_nearestInt m) (isNaN_nearestInt n)).symm

mutual

theorem content_eq_iff : ∀ a b : Json, SameShape a b → a.isSettled = true → b.isSettled = true →
    (content a = content b ↔ Placewise (fun m n => rounded m = rounded n) a b)
  | .int _, .int _, _ => by
    rw [Placewise]
    exact content_int_iff
  | .arr as, .arr bs, h => by
    rw [content, content, Json.arr.injEq, Placewise]
    exact contentItems_eq_iff as bs h
  | .obj as, .obj bs, h => by
    intro ha hb
    simp only [isSettled, Bool.and_eq_true] at ha hb
    rw [content, content, Json.obj.injEq, Placewise]
    exact contentMembers_eq_iff as bs h ha.2 hb.2

theorem contentItems_eq_iff : ∀ as bs : List Json, PlacewiseItems (fun _ _ => True) as bs →
    isSettledItems as = true → isSettledItems bs = true →
    (contentItems as = contentItems bs ↔ PlacewiseItems (fun m n => rounded m = rounded n) as bs)
  | [], [], _ => by simp [PlacewiseItems]
  | a :: as, b :: bs, ⟨hfirst, hrest⟩ => by
    intro ha hb
    simp only [isSettledItems, Bool.and_eq_true] at ha hb
    rw [contentItems, contentItems, List.cons.injEq, PlacewiseItems, content_eq_iff a b hfirst ha.1 hb.1,
      contentItems_eq_iff as bs hrest ha.2 hb.2]

theorem contentMembers_eq_iff : ∀ as bs : List (String × Json), PlacewiseMembers (fun _ _ => True) as bs →
    isSettledMembers as = true → isSettledMembers bs = true →
    (contentMembers as = contentMembers bs ↔ PlacewiseMembers (fun m n => rounded m = rounded n) as bs)
  | [], [], _ => by simp [PlacewiseMembers]
  | (k, a) :: as, (l, b) :: bs, ⟨_, hfirst, hrest⟩ => by
    intro ha hb
    simp only [isSettledMembers, Bool.and_eq_true] at ha hb
    rw [contentMembers, contentMembers, List.cons.injEq, Prod.mk.injEq, PlacewiseMembers,
      content_eq_iff a b hfirst ha.1 hb.1, contentMembers_eq_iff as bs hrest ha.2 hb.2, and_assoc]

end

/-! ## Equality -/

section

variable {r s : Int → Int → Prop}

mutual

/-- Values of one shape are equal if what relates the numbers at each place makes them equal. -/
theorem eq_of_placewise (hrs : ∀ m n, r m n → s m n → m = n) :
    ∀ a b : Json, Placewise r a b → Placewise s a b → a = b
  | .int m, .int n, hr, hs => congrArg Json.int (hrs m n hr hs)
  | .arr as, .arr bs, hr, hs => congrArg Json.arr (eq_of_placewiseItems hrs as bs hr hs)
  | .obj as, .obj bs, hr, hs => congrArg Json.obj (eq_of_placewiseMembers hrs as bs hr hs)

theorem eq_of_placewiseItems (hrs : ∀ m n, r m n → s m n → m = n) :
    ∀ as bs : List Json, PlacewiseItems r as bs → PlacewiseItems s as bs → as = bs
  | [], [], _, _ => rfl
  | a :: as, b :: bs, ⟨hr, hr'⟩, ⟨hs, hs'⟩ => by
    rw [eq_of_placewise hrs a b hr hs, eq_of_placewiseItems hrs as bs hr' hs']

theorem eq_of_placewiseMembers (hrs : ∀ m n, r m n → s m n → m = n) :
    ∀ as bs : List (String × Json), PlacewiseMembers r as bs → PlacewiseMembers s as bs → as = bs
  | [], [], _, _ => rfl
  | (k, a) :: as, (l, b) :: bs, ⟨hkey, hr, hr'⟩, ⟨_, hs, hs'⟩ => by
    rw [hkey, eq_of_placewise hrs a b hr hs, eq_of_placewiseMembers hrs as bs hr' hs']

end

end

/-- **Values of whole numbers are the same exactly if any two numbers at one place are rounded to the
same number.** So they are compared exactly unless different numbers become equal at every place, and
that never happens where one of any two numbers at a place lies below `2 ^ 53`. -/
theorem sameValue_integers_iff (a b : Datum) (h : SameShape a.json b.json) :
    (sameValue a.json b.json = true ↔ Placewise (fun m n => rounded m = rounded n) a.json b.json) ∧
      ((sameValue a.json b.json = true ↔ a = b) ↔
        (Placewise (fun m n => rounded m = rounded n) a.json b.json → a = b)) ∧
      (Placewise (fun m n => min m.natAbs n.natAbs < 2 ^ 53) a.json b.json →
        (sameValue a.json b.json = true ↔ a = b)) := by
  have hcontent := sameValue_iff a.json b.json a.settled b.settled
  have hsame := hcontent.trans (content_eq_iff a.json b.json h a.settled b.settled)
  have hself : a = b → sameValue a.json b.json = true := fun heq => hcontent.2 (by rw [heq])
  refine ⟨hsame, ?_, fun hbelow => ⟨fun htrue => ?_, hself⟩⟩
  · rw [← hsame]
    exact ⟨fun h => h.1, fun h => ⟨h, hself⟩⟩
  · have hjson : a.json = b.json :=
      eq_of_placewise (fun _ _ hlt heq => eq_of_rounded_eq hlt heq) a.json b.json hbelow (hsame.1 htrue)
    cases a
    cases b
    simpa using hjson

theorem sameValue_tickets :
    SameShape (.obj [("batch", .int 7), ("tickets", .arr [.int 9007199254740992, .int (-3)])])
        (.obj [("batch", .int 7), ("tickets", .arr [.int 9007199254740993, .int (-3)])]) ∧
      sameValue (.obj [("batch", .int 7), ("tickets", .arr [.int 9007199254740992, .int (-3)])])
        (.obj [("batch", .int 7), ("tickets", .arr [.int 9007199254740993, .int (-3)])]) = true := by
  have hshape : SameShape (.obj [("batch", .int 7), ("tickets", .arr [.int 9007199254740992, .int (-3)])])
      (.obj [("batch", .int 7), ("tickets", .arr [.int 9007199254740993, .int (-3)])]) := by
    simp [Placewise, PlacewiseMembers, PlacewiseItems]
  refine ⟨hshape, (sameValue_integers_iff ⟨_, by decide⟩ ⟨_, by decide⟩ hshape).1.2 ?_⟩
  simp only [Placewise, PlacewiseMembers, PlacewiseItems]
  decide +kernel

/-- Different whole numbers can be the same value. -/
theorem sameValue_neighbours : sameValue (.int 9007199254740993) (.int 9007199254740992) = true := by
  decide +kernel

end Concord.Equivalence
