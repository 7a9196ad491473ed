/-!
The slots of names. Every definition takes a slot of its own, also when the
name had one already: the name then means the new slot and the old one is never
handed out again.
-/

namespace Stacklet

/-- The names that are defined, with their slots. -/
structure Slots where
  /-- Every definition with its slot, the latest one first. -/
  bound : List (String × Nat)
  /-- The number of slots handed out, which is also the next slot. -/
  count : Nat
  /-- Slots are handed out in order, each of them once. -/
  numbered : bound.map Prod.snd = (List.range count).reverse
  deriving DecidableEq

namespace Slots

/-- Before any definition. -/
def empty : Slots := ⟨[], 0, rfl⟩

instance : Inhabited Slots := ⟨empty⟩

/-- Gives a name the next slot. -/
def define (s : Slots) (name : String) : Slots where
  bound := (name, s.count) :: s.bound
  count := s.count + 1
  numbered := by simp [List.range_succ, s.numbered]

/-- The slot that a name means: that of its latest definition. -/
def find? (s : Slots) (name : String) : Option Nat := s.bound.lookup name

@[simp] theorem count_define (s : Slots) (name : String) :
    (s.define name).count = s.count + 1 := rfl

@[simp] theorem find?_empty (name : String) : empty.find? name = none := rfl

theorem find?_define (s : Slots) (name other : String) :
    (s.define name).find? other = if other = name then some s.count else s.find? other := by
  simp only [find?, define, List.lookup_cons]
  by_cases h : other = name
  · simp [h]
  · simp [h, beq_eq_false_iff_ne.mpr h]

/-- A name means a slot that has been handed out. -/
theorem lt_count {s : Slots} {name : String} {slot : Nat} (found : s.find? name = some slot) :
    slot < s.count := by
  obtain ⟨before, after, split, _⟩ := List.lookup_eq_some_iff.mp found
  have mem : slot ∈ s.bound.map Prod.snd := by simp [split]
  rw [s.numbered] at mem
  simpa using mem

end Slots

end Stacklet
