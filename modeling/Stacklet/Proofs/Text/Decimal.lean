import Stacklet.Text.Decimal

/-!
# Numbers in decimal

What is read as a 64-bit integer is a numeral of that integer, and every numeral is read
(`readInt64?_eq_some_iff`). An integer that is not negative is written as a row of digits, which
is a numeral of it.
-/

namespace Stacklet

/-! ## Numerals -/

/-- At least one digit, and digits only, of that value. -/
structure Digits (cs : List Char) (n : Nat) : Prop where
  nonempty : cs ≠ []
  digits : ∀ c ∈ cs, c.isDigit = true
  value : Nat.ofDigitChars 10 cs 0 = n

/-- Digits, with a sign in front or without one. -/
inductive Numeral : List Char → Int → Prop
  | unsigned {cs : List Char} {n : Nat} : Digits cs n → Numeral cs n
  | plus {cs : List Char} {n : Nat} : Digits cs n → Numeral ('+' :: cs) n
  | minus {cs : List Char} {n : Nat} : Digits cs n → Numeral ('-' :: cs) (-n)

theorem readDigits?_eq_some_iff {cs : List Char} {n : Nat} :
    readDigits? cs = some n ↔ Digits cs n := by
  unfold readDigits?
  split
  · rename_i broken
    refine ⟨nofun, fun digits => ?_⟩
    simp only [Bool.or_eq_true, Bool.not_eq_true', List.isEmpty_iff] at broken
    rcases broken with none | other
    · exact (digits.nonempty none).elim
    · cases other.symm.trans (List.all_eq_true.mpr digits.digits)
  · rename_i whole
    simp only [Bool.or_eq_true, Bool.not_eq_true', List.isEmpty_iff, not_or,
      Bool.not_eq_false] at whole
    rw [Option.some.injEq]
    exact ⟨fun value => ⟨whole.1, List.all_eq_true.mp whole.2, value⟩, Digits.value⟩

theorem int64?_eq_some_iff {z : Int} {n : Int64} : int64? z = some n ↔ n.toInt = z := by
  unfold int64?
  split
  · rename_i fits
    have back : (Int64.ofInt z).toInt = z := Int64.toInt_ofInt_of_le fits.1 fits.2
    rw [Option.some.injEq, ← Int64.toInt_inj, back]
    exact eq_comm
  · rename_i large
    refine ⟨nofun, ?_⟩
    rintro rfl
    exact (large ⟨n.le_toInt, n.toInt_lt⟩).elim

/-- A row of digits has no sign in front. -/
theorem readInt64?_of_digits {text : String}
    (digits : ∀ c ∈ text.toList, c.isDigit = true) :
    readInt64? text = (readDigits? text.toList).bind fun n => int64? n := by
  unfold readInt64?
  split
  · rename_i chars
    rw [chars] at digits
    cases digits _ List.mem_cons_self
  · rename_i chars
    rw [chars] at digits
    cases digits _ List.mem_cons_self
  · rfl

theorem bind_int64?_eq_some_iff {cs : List Char} {n : Int64} {f : Nat → Int} :
    ((readDigits? cs).bind fun m => int64? (f m)) = some n ↔
      ∃ m, Digits cs m ∧ n.toInt = f m := by
  simp only [Option.bind_eq_some_iff, readDigits?_eq_some_iff, int64?_eq_some_iff]

/-- The integers that are read are those whose numerals the texts are. -/
theorem readInt64?_eq_some_iff {text : String} {n : Int64} :
    readInt64? text = some n ↔ Numeral text.toList n.toInt := by
  constructor
  · intro read
    unfold readInt64? at read
    split at read <;> rename_i chars <;>
      obtain ⟨m, digits, value⟩ := bind_int64?_eq_some_iff.mp read
    · rw [chars, value]
      exact .minus digits
    · rw [chars, value]
      exact .plus digits
    · rw [value]
      exact .unsigned digits
  · intro numeral
    generalize same : text.toList = cs at numeral
    generalize value : n.toInt = z at numeral
    cases numeral with
    | unsigned digits =>
      rw [← same] at digits
      rw [readInt64?_of_digits digits.digits]
      exact bind_int64?_eq_some_iff.mpr ⟨_, digits, value⟩
    | plus digits =>
      unfold readInt64?
      rw [same]
      exact bind_int64?_eq_some_iff.mpr ⟨_, digits, value⟩
    | minus digits =>
      unfold readInt64?
      rw [same]
      exact bind_int64?_eq_some_iff.mpr ⟨_, digits, value⟩

/-! ## Integers that are not negative -/

theorem digits_toDigits (n : Nat) : Digits (Nat.toDigits 10 n) n where
  nonempty := Nat.toDigits_ne_nil
  digits _ member := Nat.isDigit_of_mem_toDigits (by decide) (by decide) member
  value := Nat.ofDigitChars_toDigits (by decide) (by decide)

section Natural

variable {value : Int64} (natural : 0 ≤ value)

include natural

theorem toList_toString_toInt : (toString value.toInt).toList =
    Nat.toDigits 10 value.toInt.toNat := by
  have low : 0 ≤ value.toInt := Int64.le_iff_toInt_le.mp natural
  obtain ⟨n, same⟩ := Int.eq_ofNat_of_zero_le low
  rw [same]
  exact Nat.toList_repr

theorem isDigit_of_mem_toString {c : Char} (member : c ∈ (toString value.toInt).toList) :
    c.isDigit = true := by
  rw [toList_toString_toInt natural] at member
  exact (digits_toDigits _).digits c member

theorem numeral_toString : Numeral (toString value.toInt).toList value.toInt := by
  have low : 0 ≤ value.toInt := Int64.le_iff_toInt_le.mp natural
  have numeral := Numeral.unsigned (digits_toDigits value.toInt.toNat)
  rwa [← toList_toString_toInt natural, Int.toNat_of_nonneg low] at numeral

end Natural

end Stacklet
