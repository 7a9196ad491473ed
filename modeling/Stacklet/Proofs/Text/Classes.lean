import Stacklet.Token.Scanner

/-!
# Classes of characters

White space, letters and digits, the signs of the language and the double quote are
told apart: no character is in two of these classes. So the first character decides
how a token goes on, and white space ends every token.
-/

namespace Stacklet

/-- The code points in some intervals, one by one. -/
def Ranges.codes (ranges : Ranges) : List Nat :=
  ranges.flatMap fun range => List.range' range.1 (range.2 + 1 - range.1)

theorem Ranges.mem_codes {ranges : Ranges} {n : Nat} (inside : ranges.contains n = true) :
    n ∈ ranges.codes := by
  induction ranges with
  | nil => cases inside
  | cons range rest ih =>
    rcases range with ⟨lo, hi⟩
    rw [codes, List.flatMap_cons, List.mem_append]
    rw [Ranges.contains] at inside
    split at inside
    · cases inside
    · split at inside
      · left
        rw [List.mem_range'_1]
        dsimp only
        omega
      · exact .inr (ih inside)

variable {c : Char}

/-- White space goes on no token and is no part of one. -/
theorem isBlank_apart (blank : isBlank c = true) :
    isWordChar c = false ∧ Kind.ofSymbol? c = none ∧ c ≠ '"' := by
  have all : ∀ n ∈ blankRanges.codes, isWordChar (Char.ofNat n) = false ∧
      Kind.ofSymbol? (Char.ofNat n) = none ∧ Char.ofNat n ≠ '"' := by decide +kernel
  have one := all c.toNat (Ranges.mem_codes blank)
  rwa [Char.ofNat_toNat] at one

theorem isDigit_apart (digit : c.isDigit = true) :
    isLetter c = false ∧ Kind.ofSymbol? c = none ∧ c ≠ '"' := by
  have all : ∀ n ∈ List.range' 48 10, isLetter (Char.ofNat n) = false ∧
      Kind.ofSymbol? (Char.ofNat n) = none ∧ Char.ofNat n ≠ '"' := by decide
  have code : c.toNat ∈ List.range' 48 10 := by
    obtain ⟨low, high⟩ := Bool.and_eq_true_iff.mp digit
    have low : 48 ≤ c.toNat := of_decide_eq_true low
    have high : c.toNat ≤ 57 := of_decide_eq_true high
    rw [List.mem_range'_1]
    omega
  have one := all c.toNat code
  rwa [Char.ofNat_toNat] at one

/-- The characters that are operators or delimiters. -/
theorem ofSymbol?_apart {kind : Kind} (symbol : Kind.ofSymbol? c = some kind) :
    isBlank c = false ∧ isWordChar c = false ∧ c ≠ '"' := by
  unfold Kind.ofSymbol? at symbol
  split at symbol <;> first | decide | cases symbol

theorem isLetter_apart (letter : isLetter c = true) :
    isBlank c = false ∧ Kind.ofSymbol? c = none ∧ c ≠ '"' := by
  have on : isWordChar c = true := by rw [isWordChar, letter, Bool.true_or]
  refine ⟨?_, ?_, ?_⟩
  · cases blank : isBlank c with
    | false => rfl
    | true => exact (Bool.eq_false_iff.mp (isBlank_apart blank).1 on).elim
  · cases symbol : Kind.ofSymbol? c with
    | none => rfl
    | some kind => exact (Bool.eq_false_iff.mp (ofSymbol?_apart symbol).2.1 on).elim
  · rintro rfl
    revert letter
    decide

end Stacklet
