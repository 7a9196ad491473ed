import Mathlib.Logic.Function.Iterate
import Stacklet.Value.Builtin

/-!
# Arrays through the built-in functions

What the five functions answer when their answers are handed from one to the next. An array is
taken apart from its front and put together again at the end of another one, and after any number
of rounds the two hold the items between them (`rounds_eq`). So the items come out in order, each
one once, whatever they are, and the rest of an array is null only where there is no round left
(`arrays_consistent`).
-/

namespace Stacklet

namespace Builtin

/-- A round: the first item of the second array goes to the end of the first array, and the
second one is left without it. -/
def moveFirst : Value × Value → Value × Value
  | (taken, left) => (apply .push [taken, apply .first [left]], apply .rest [left])

/-- What an array and a new empty one come to after some rounds. -/
def rounds (count : Nat) (array : Value) : Value × Value := moveFirst^[count] (.array [], array)

variable {items : List Value}

theorem rounds_succ (count : Nat) (array : Value) :
    rounds (count + 1) array = moveFirst (rounds count array) :=
  Function.iterate_succ_apply' moveFirst count _

/-! ## Single calls -/

theorem push_array (items : List Value) (item : Value) :
    apply .push [.array items, item] = .array (items ++ [item]) := rfl

theorem length_push (items : List Value) (item : Value) :
    apply .len [apply .push [.array items, item]] =
      .integer (Int64.ofNat items.length + 1) := by
  rw [push_array]
  change Value.integer (Int64.ofNat (items ++ [item]).length) = _
  rw [List.length_append, List.length_singleton, Int64.ofNat_add]
  rfl

theorem last_push (items : List Value) (item : Value) :
    apply .last [apply .push [.array items, item]] = item := List.getLastD_concat

theorem first_push (some : items ≠ []) (item : Value) :
    apply .first [apply .push [.array items, item]] = apply .first [.array items] := by
  obtain ⟨first, others, rfl⟩ := List.exists_cons_of_ne_nil some
  rfl

/-- Without its first item an array is an array, so that an item can be put to its end. -/
theorem rest_push (some : items ≠ []) (item : Value) :
    apply .rest [apply .push [.array items, item]] =
      apply .push [apply .rest [.array items], item] := by
  obtain ⟨first, others, rfl⟩ := List.exists_cons_of_ne_nil some
  rfl

/-! ## Rounds -/

/-- A round moves one item. -/
theorem moveFirst_eq {count : Nat} (inside : count < items.length) :
    moveFirst (.array (items.take count), .array (items.drop count)) =
      (.array (items.take (count + 1)), .array (items.drop (count + 1))) := by
  rw [List.drop_eq_getElem_cons inside, ← List.take_append_getElem inside]
  rfl

/-- After some rounds, as many items have been moved. -/
theorem rounds_eq {count : Nat} (le : count ≤ items.length) :
    rounds count (.array items) = (.array (items.take count), .array (items.drop count)) := by
  induction count with
  | zero => rfl
  | succ count ih => rw [rounds_succ, ih (Nat.le_of_succ_le le), moveFirst_eq le]

/-- The item that is moved last is the last one. -/
theorem first_rounds (some : items ≠ []) :
    apply .first [(rounds (items.length - 1) (.array items)).2] = apply .last [.array items] := by
  have inside : items.length - 1 < items.length :=
    Nat.sub_lt (List.length_pos_iff.mpr some) Nat.one_pos
  rw [rounds_eq (Nat.le_of_lt inside), List.drop_eq_getElem_cons inside,
    ← List.getLast_eq_getElem some]
  change items.getLast some = items.getLastD .null
  rw [List.getLastD_eq_getLast?, List.getLast?_eq_some_getLast some]
  rfl

/-- In as many rounds as an array has items it is rebuilt in order, and none of them meets
anything but an array. The last item to be moved is the last one. An array with one more item has
that item as its last one, and the first one and the rest that it had before, if it had any. The
empty array has no first item, no last one and no rest. -/
theorem arrays_consistent (items : List Value) (item : Value) :
    (∀ count ≤ items.length, ∃ taken left,
      rounds count (.array items) = (.array taken, .array left)) ∧
    rounds items.length (.array items) = (.array items, .array []) ∧
    (items ≠ [] → apply .last [.array items] =
      apply .first [(rounds (items.length - 1) (.array items)).2]) ∧
    apply .len [.array items] = .integer (Int64.ofNat items.length) ∧
    apply .len [apply .push [.array items, item]] = .integer (Int64.ofNat items.length + 1) ∧
    apply .last [apply .push [.array items, item]] = item ∧
    (items ≠ [] →
      apply .first [apply .push [.array items, item]] = apply .first [.array items] ∧
      apply .rest [apply .push [.array items, item]] =
        apply .push [apply .rest [.array items], item]) ∧
    apply .rest [.array []] = .null ∧ apply .first [.array []] = .null ∧
    apply .last [.array []] = .null := by
  refine ⟨fun count le => ⟨_, _, rounds_eq le⟩, ?_, fun some => (first_rounds some).symm, rfl,
    length_push items item, last_push items item,
    fun some => ⟨first_push some item, rest_push some item⟩, rfl, rfl, rfl⟩
  rw [rounds_eq (Nat.le_refl _), List.take_length, List.drop_length]

end Builtin

end Stacklet
