/-
What a map from strings holds after a member is put into it: the new value under
its key, and what was there before under every other. The map of a list with different
keys has the members of the list (`perm_ofList`).
-/
import Concord.Order.KeyMap
import Mathlib.Data.List.Forall2

namespace Concord.KeyMap

variable {α β : Type}

theorem find?_insertMember_self (key : String) (value : α) (members : List (String × α)) :
    (insertMember key value members).find? (fun x => x.1 == key) = some (key, value) := by
  induction members with
  | nil => simp [insertMember]
  | cons m rest ih =>
    obtain ⟨k, v⟩ := m
    simp only [insertMember]
    split
    · simp
    · split
      · rename_i hlt
        have hne : (k == key) = false := beq_eq_false_iff_ne.2 (String.ne_of_lt hlt)
        simp only [List.find?_cons, hne, ih]
      · simp

theorem find?_insertMember_other {key other : String} (h : other ≠ key) (value : α)
    (members : List (String × α)) :
    (insertMember key value members).find? (fun x => x.1 == other) =
      members.find? (fun x => x.1 == other) := by
  have hne : (key == other) = false := beq_eq_false_iff_ne.2 h.symm
  induction members with
  | nil => simp [insertMember, hne]
  | cons m rest ih =>
    obtain ⟨k, v⟩ := m
    simp only [insertMember]
    split
    · simp [hne]
    · rename_i hnlt
      split
      · simp only [List.find?_cons, ih]
      · rename_i hngt
        have hk : k = key := String.le_antisymm (String.not_lt.1 hnlt) (String.not_lt.1 hngt)
        subst hk
        simp only [List.find?_cons, hne]

@[simp] theorem get?_insert_self (m : KeyMap α) (key : String) (value : α) :
    (m.insert key value).get? key = some value := by
  simp [get?, insert, find?_insertMember_self]

theorem get?_insert_other (m : KeyMap α) {key other : String} (h : other ≠ key) (value : α) :
    (m.insert key value).get? other = m.get? other := by
  simp [get?, insert, find?_insertMember_other h]

theorem mem_members_of_get? {m : KeyMap α} {key : String} {value : α} (h : m.get? key = some value) :
    (key, value) ∈ m.members := by
  simp only [get?, Option.map_eq_some_iff] at h
  obtain ⟨⟨k, v⟩, hfind, rfl⟩ := h
  have hk : k = key := by simpa using List.find?_some hfind
  exact hk ▸ List.mem_of_find?_eq_some hfind

/-! ## Maps of lists -/

theorem eq_of_members {m n : KeyMap α} (h : m.members = n.members) : m = n := by
  cases m
  cases n
  simpa using h

theorem eq_empty_of_isEmpty {m : KeyMap α} (h : m.isEmpty = true) : m = .empty :=
  eq_of_members (List.isEmpty_iff.1 h)

/-- Putting members in one after the other gives the map of their list. -/
theorem foldl_insert_empty (xs : List (String × α)) :
    xs.foldl (fun m x => m.insert x.1 x.2) .empty = ofList xs := by
  suffices H : ∀ m : KeyMap α, (xs.foldl (fun m x => m.insert x.1 x.2) m).members =
      xs.foldl (fun done x => insertMember x.1 x.2 done) m.members from
    eq_of_members (H .empty)
  induction xs with
  | nil => exact fun _ => rfl
  | cons x xs ih => exact fun m => ih (m.insert x.1 x.2)

/-- With increasing keys, a member is found under its key. -/
theorem find?_of_mem : ∀ {members : List (String × α)} {x : String × α}, Increasing members →
    x ∈ members → members.find? (fun y => y.1 == x.1) = some x
  | [], _, _, hx => by simp at hx
  | y :: rest, x, h, hx => by
    simp only [Increasing, List.map_cons, List.pairwise_cons] at h
    rcases List.mem_cons.1 hx with rfl | hx
    · simp
    · have hne : (y.1 == x.1) = false := by
        simp only [beq_eq_false_iff_ne]
        exact String.ne_of_lt (h.1 _ (List.mem_map_of_mem hx))
      simp only [List.find?_cons, hne]
      exact find?_of_mem h.2 hx

theorem get?_of_mem {m : KeyMap α} {x : String × α} (h : x ∈ m.members) :
    m.get? x.1 = some x.2 := by
  simp [get?, find?_of_mem m.increasing h]

/-- A member with a new key is put between the others. -/
theorem perm_insertMember {key : String} (value : α) {members : List (String × α)}
    (h : key ∉ members.map Prod.fst) :
    (insertMember key value members).Perm ((key, value) :: members) := by
  induction members with
  | nil => exact .refl _
  | cons m rest ih =>
    obtain ⟨k, v⟩ := m
    simp only [List.map_cons, List.mem_cons, not_or] at h
    simp only [insertMember]
    split
    · exact .refl _
    · rename_i hnlt
      split
      · exact ((ih h.2).cons _).trans (.swap _ _ _)
      · rename_i hngt
        exact absurd (String.le_antisymm (String.not_lt.1 hngt) (String.not_lt.1 hnlt)) h.1

/-- The map of a list with different keys has the members of the list. -/
theorem perm_ofList {xs : List (String × α)} (h : (xs.map Prod.fst).Nodup) :
    (ofList xs).members.Perm xs := by
  suffices H : ∀ done : List (String × α), ((xs ++ done).map Prod.fst).Nodup →
      (xs.foldl (fun done x => insertMember x.1 x.2 done) done).Perm (xs ++ done) by
    simpa [ofList, sortMembers] using H [] (by simpa using h)
  clear h
  induction xs with
  | nil => exact fun _ _ => .refl _
  | cons x xs ih =>
    intro done h
    simp only [List.cons_append, List.map_cons, List.nodup_cons, List.map_append, List.mem_append,
      not_or] at h
    have hput := perm_insertMember x.2 h.1.2
    have hmove : (xs ++ insertMember x.1 x.2 done).Perm (x :: xs ++ done) :=
      (hput.append_left xs).trans List.perm_middle
    refine (ih _ ?_).trans hmove
    refine (hmove.map Prod.fst).nodup_iff.2 ?_
    simpa [not_or] using h

/-- The order of the keys leaves one way to list the members of a map. -/
theorem eq_of_perm {m n : KeyMap α} (h : m.members.Perm n.members) : m = n := by
  have hm := List.pairwise_map.1 m.increasing
  have hn := List.pairwise_map.1 n.increasing
  refine eq_of_members (List.Perm.eq_of_pairwise ?_ hm hn h)
  intro a b _ _ hab hba
  exact absurd hba (String.lt_asymm hab)

theorem nodup_keys (m : KeyMap α) : (m.members.map Prod.fst).Nodup :=
  List.Pairwise.imp (fun h => String.ne_of_lt h) m.increasing

@[simp] theorem ofList_members (m : KeyMap α) : ofList m.members = m :=
  eq_of_perm (perm_ofList m.nodup_keys)

/-- The map of a list with different keys does not depend on the order of the list. -/
theorem ofList_perm {xs ys : List (String × α)} (hkeys : (xs.map Prod.fst).Nodup)
    (h : xs.Perm ys) : ofList xs = ofList ys := by
  have hys : (ys.map Prod.fst).Nodup := (h.map Prod.fst).nodup_iff.1 hkeys
  exact eq_of_perm ((perm_ofList hkeys).trans (h.trans (perm_ofList hys).symm))

theorem mem_members_iff (m : KeyMap α) (x : String × α) : x ∈ m.members ↔ m.get? x.1 = some x.2 :=
  ⟨get?_of_mem, mem_members_of_get?⟩

/-- Maps are equal that give the same under every key. -/
theorem eq_of_get? {m n : KeyMap α} (h : ∀ key, m.get? key = n.get? key) : m = n := by
  have hnodup : ∀ m : KeyMap α, m.members.Nodup := fun m =>
    List.Pairwise.of_map Prod.fst (fun _ _ hne he => hne (congrArg Prod.fst he)) m.nodup_keys
  refine eq_of_perm ((List.perm_ext_iff_of_nodup (hnodup m) (hnodup n)).2 fun x => ?_)
  rw [mem_members_iff, mem_members_iff, h]

/-- What is put in later counts. -/
theorem get?_foldl_insert (xs : List (String × α)) (m : KeyMap α) (key : String) :
    (xs.foldl (fun m x => m.insert x.1 x.2) m).get? key =
      ((ofList xs).get? key).or (m.get? key) := by
  induction xs generalizing m with
  | nil => rfl
  | cons x xs ih =>
    rw [← foldl_insert_empty, List.foldl_cons, List.foldl_cons, ih, ih]
    by_cases hkey : key = x.1
    · subst hkey
      rw [get?_insert_self, get?_insert_self]
      cases (ofList xs).get? x.1 <;> rfl
    · rw [get?_insert_other _ hkey, get?_insert_other _ hkey]
      cases (ofList xs).get? key <;> rfl

theorem get?_ofList_cons (x : String × α) (xs : List (String × α)) (key : String) :
    (ofList (x :: xs)).get? key =
      ((ofList xs).get? key).or (if key = x.1 then some x.2 else none) := by
  rw [← foldl_insert_empty, List.foldl_cons, get?_foldl_insert]
  split
  · rename_i hkey
    rw [hkey, get?_insert_self]
  · rename_i hkey
    rw [get?_insert_other _ hkey]
    rfl

theorem isSome_get?_ofList (xs : List (String × α)) (key : String) :
    ((ofList xs).get? key).isSome = true ↔ key ∈ xs.map Prod.fst := by
  induction xs with
  | nil => simp [ofList, sortMembers, get?]
  | cons x xs ih =>
    rw [get?_ofList_cons, Option.isSome_or, Bool.or_eq_true, ih, List.map_cons, List.mem_cons]
    by_cases hkey : key = x.1 <;> simp [hkey]

theorem mem_keys_ofList (xs : List (String × α)) (key : String) :
    key ∈ (ofList xs).members.map Prod.fst ↔ key ∈ xs.map Prod.fst := by
  rw [← isSome_get?_ofList, ofList_members, isSome_get?_ofList]

/-- Two members with the same key and related values. -/
def Alike (rel : α → β → Prop) (x : String × α) (y : String × β) : Prop := x.1 = y.1 ∧ rel x.2 y.2

/-- Alike members stay so when related values are put under one key. -/
theorem forall₂_insertMember {rel : α → β → Prop} {v : α} {w : β} (key : String) (hv : rel v w)
    {xs : List (String × α)} {ys : List (String × β)} (h : List.Forall₂ (Alike rel) xs ys) :
    List.Forall₂ (Alike rel) (insertMember key v xs) (insertMember key w ys) := by
  induction h with
  | nil => exact .cons ⟨rfl, hv⟩ .nil
  | cons hxy hrest ih =>
    rename_i x y xs ys
    obtain ⟨k, a⟩ := x
    obtain ⟨k', b⟩ := y
    obtain ⟨rfl, hab⟩ : k = k' ∧ rel a b := hxy
    simp only [insertMember]
    split
    · exact .cons ⟨rfl, hv⟩ (.cons ⟨rfl, hab⟩ hrest)
    · split
      · exact .cons ⟨rfl, hab⟩ ih
      · exact .cons ⟨rfl, hv⟩ hrest

theorem forall₂_ofList {rel : α → β → Prop} {xs : List (String × α)} {ys : List (String × β)}
    (h : List.Forall₂ (Alike rel) xs ys) :
    List.Forall₂ (Alike rel) (ofList xs).members (ofList ys).members := by
  suffices H : ∀ (as : List (String × α)) (bs : List (String × β)),
      List.Forall₂ (Alike rel) as bs →
      List.Forall₂ (Alike rel) (xs.foldl (fun done x => insertMember x.1 x.2 done) as)
        (ys.foldl (fun done y => insertMember y.1 y.2 done) bs) from H [] [] .nil
  induction h with
  | nil => exact fun _ _ h => h
  | cons hxy hrest ih =>
    intro as bs h
    simp only [List.foldl_cons, hxy.1]
    exact ih _ _ (forall₂_insertMember _ hxy.2 h)

end Concord.KeyMap
