/-
Maps from strings with their keys in increasing order, as lists of members. Two
maps with the same members are equal, because the order leaves one way to list them.
-/
namespace Concord

/-- Members whose keys increase. -/
def KeyMap.Increasing {α : Type} (members : List (String × α)) : Prop :=
  (members.map Prod.fst).Pairwise (fun a b => a < b)

instance {α : Type} (members : List (String × α)) : Decidable (KeyMap.Increasing members) :=
  inferInstanceAs (Decidable ((members.map Prod.fst).Pairwise (fun a b => a < b)))

/-- A map from strings. -/
structure KeyMap (α : Type) where
  members : List (String × α)
  increasing : KeyMap.Increasing members
deriving DecidableEq

namespace KeyMap

variable {α : Type}

/-- Puts a member into members with increasing keys, in place of one with the same key. -/
def insertMember (key : String) (value : α) : List (String × α) → List (String × α)
  | [] => [(key, value)]
  | (k, v) :: rest =>
    if key < k then (key, value) :: (k, v) :: rest
    else if k < key then (k, v) :: insertMember key value rest
    else (key, value) :: rest

/-- Members by increasing key; of several with one key the last counts. -/
def sortMembers (members : List (String × α)) : List (String × α) :=
  members.foldl (fun done m => insertMember m.1 m.2 done) []

theorem mem_insertMember {key : String} {value : α} {members : List (String × α)}
    {x : String × α} (h : x ∈ insertMember key value members) : x = (key, value) ∨ x ∈ members := by
  induction members with
  | nil => simpa [insertMember] using h
  | cons m rest ih =>
    obtain ⟨k, v⟩ := m
    simp only [insertMember] at h
    split at h
    · simpa using h
    · split at h
      · rcases List.mem_cons.1 h with rfl | h
        · simp
        · rcases ih h with rfl | h <;> simp [*]
      · rcases List.mem_cons.1 h with rfl | h <;> simp [*]

theorem increasing_insertMember (key : String) (value : α) {members : List (String × α)}
    (h : Increasing members) : Increasing (insertMember key value members) := by
  unfold Increasing at *
  induction members with
  | nil => simp [insertMember]
  | cons m rest ih =>
    obtain ⟨k, v⟩ := m
    simp only [List.map_cons, List.pairwise_cons] at h
    simp only [insertMember]
    split
    · rename_i hlt
      simp only [List.map_cons, List.pairwise_cons]
      refine ⟨?_, h.1, h.2⟩
      intro a ha
      rcases List.mem_cons.1 ha with rfl | ha
      · exact hlt
      · exact String.lt_trans hlt (h.1 a ha)
    · rename_i hnlt
      split
      · rename_i hgt
        simp only [List.map_cons, List.pairwise_cons]
        refine ⟨?_, ih h.2⟩
        intro a ha
        obtain ⟨x, hx, rfl⟩ := List.mem_map.1 ha
        rcases mem_insertMember hx with rfl | hx
        · exact hgt
        · exact h.1 _ (List.mem_map_of_mem hx)
      · rename_i hngt
        have : key = k := String.le_antisymm (String.not_lt.1 hngt) (String.not_lt.1 hnlt)
        subst this
        simpa using h

theorem increasing_sortMembers (members : List (String × α)) :
    Increasing (sortMembers members) := by
  suffices H : ∀ done : List (String × α), Increasing done →
      Increasing (members.foldl (fun done m => insertMember m.1 m.2 done) done) from
    H [] List.Pairwise.nil
  induction members with
  | nil => exact fun _ h => h
  | cons m rest ih => exact fun done h => ih _ (increasing_insertMember m.1 m.2 h)

theorem mem_of_mem_sortMembers {members : List (String × α)} {x : String × α}
    (h : x ∈ sortMembers members) : x ∈ members := by
  suffices H : ∀ done : List (String × α),
      x ∈ members.foldl (fun done m => insertMember m.1 m.2 done) done →
      x ∈ done ∨ x ∈ members from by simpa using H [] h
  clear h
  induction members with
  | nil => exact fun _ h => .inl h
  | cons m rest ih =>
    intro done h
    rcases ih _ h with h | h
    · rcases mem_insertMember h with rfl | h
      · simp
      · exact .inl h
    · simp [h]

/-- The map without members. -/
def empty : KeyMap α := ⟨[], List.Pairwise.nil⟩

instance : Inhabited (KeyMap α) := ⟨empty⟩

/-- The map of some members; of several with one key the last counts. -/
def ofList (members : List (String × α)) : KeyMap α :=
  ⟨sortMembers members, increasing_sortMembers members⟩

def insert (m : KeyMap α) (key : String) (value : α) : KeyMap α :=
  ⟨insertMember key value m.members, increasing_insertMember key value m.increasing⟩

def get? (m : KeyMap α) (key : String) : Option α :=
  (m.members.find? fun x => x.1 == key).map Prod.snd

def keys (m : KeyMap α) : List String := m.members.map Prod.fst

def isEmpty (m : KeyMap α) : Bool := m.members.isEmpty

end KeyMap

end Concord
