/-
What a usage holds after some events: each pattern is counted once for each of its events,
and its entities are those that the events name.
-/
import Concord.Pattern.Usage
import Mathlib.Data.List.Nodup

namespace Concord.Pattern

theorem Tag.nodup_all : Tag.all.Nodup := by decide

/-- A specification has one event for each of its patterns. -/
theorem countP_eventsOf (s : Specification) (t : Tag) :
    (eventsOf s).countP (·.pattern == t) = if s.tags.has t then 1 else 0 := by
  have hcount : (eventsOf s).countP (·.pattern == t) = s.tags.toList.count t := by
    simp [eventsOf, List.countP_map, List.count, Function.comp_def]
  have hnodup : s.tags.toList.Nodup := Tag.nodup_all.filter _
  rw [hcount]
  split
  · rename_i hhas
    exact List.count_eq_one_of_mem hnodup ((Tags.mem_toList _ _).2 hhas)
  · rename_i hhas
    exact List.count_eq_zero_of_not_mem fun hmem => hhas ((Tags.mem_toList _ _).1 hmem)

theorem mem_eventsOf {s : Specification} {e : Event} :
    e ∈ eventsOf s ↔ s.tags.has e.pattern = true ∧ e.entity = s.qualifiedName := by
  obtain ⟨pattern, entity⟩ := e
  simp only [eventsOf, List.mem_map, Event.mk.injEq, Tags.mem_toList]
  constructor
  · rintro ⟨t, ht, rfl, rfl⟩
    exact ⟨ht, rfl⟩
  · rintro ⟨ht, rfl⟩
    exact ⟨pattern, ht, rfl, rfl⟩

namespace Usage

theorem counts_applyAll (u : Usage) (events : List Event) (t : Tag) :
    (u.applyAll events).counts t = u.counts t + events.countP (·.pattern == t) := by
  induction events generalizing u with
  | nil => rfl
  | cons e events ih =>
    have hcons : u.applyAll (e :: events) = (u.apply e).applyAll events := rfl
    rw [hcons, ih, List.countP_cons]
    by_cases h : t = e.pattern
    · simp [apply, h]
      omega
    · have hne : (e.pattern == t) = false := beq_eq_false_iff_ne.2 (Ne.symm h)
      simp [apply, h, hne]

theorem mem_entities_applyAll (u : Usage) (events : List Event) (t : Tag) (name : String) :
    name ∈ ((u.applyAll events).entities t).names ↔
      name ∈ (u.entities t).names ∨ ∃ e ∈ events, e.pattern = t ∧ e.entity = name := by
  induction events generalizing u with
  | nil => simp [applyAll]
  | cons e events ih =>
    have hcons : u.applyAll (e :: events) = (u.apply e).applyAll events := rfl
    rw [hcons, ih]
    by_cases h : t = e.pattern
    · subst h
      simp only [apply, ↓reduceIte, NameSet.insert, NameSet.mem_insertName, List.mem_cons,
        exists_eq_or_imp, true_and]
      constructor
      · rintro ((rfl | hold) | hnew)
        · exact .inr (.inl rfl)
        · exact .inl hold
        · exact .inr (.inr hnew)
      · rintro (hold | rfl | hnew)
        · exact .inl (.inr hold)
        · exact .inl (.inl rfl)
        · exact .inr hnew
    · simp [apply, h, Ne.symm h]

end Usage

end Concord.Pattern
