import Stacklet.Repl
import Stacklet.Proofs.Program.Rendering
import Stacklet.Proofs.Session.Redefinition

/-!
# Numbers typed in again

An answer that is a number can be given as an input, and is answered with the same
number (`Session.eval_numeral`). A negative number is no literal: it is read as a sign in
front of the number without it, and the sign is applied when the input runs. The least
number is the one exception. Without its sign it has no 64 bits, so the input is refused.
-/

namespace Stacklet

open Machine

/-! ## The expression of a number -/

/-- The expression that the text of a number is read as. -/
def Expr.numeral (n : Int64) : Expr :=
  if 0 ≤ n then .integer n else .unary .negate (.integer (-n))

namespace Expr

variable {n : Int64}

theorem numeral_of_natural (natural : 0 ≤ n) : numeral n = .integer n := if_pos natural

theorem numeral_of_negative (negative : ¬ 0 ≤ n) :
    numeral n = .unary .negate (.integer (-n)) := if_neg negative

theorem toInt_neg (notLeast : n ≠ .minValue) : (-n).toInt = -n.toInt := by
  have low := n.le_toInt
  have high := n.toInt_lt
  have other : n.toInt ≠ -2 ^ 63 := fun same =>
    notLeast (Int64.toInt_inj.mp (same.trans Int64.toInt_minValue.symm))
  rw [Int64.toInt_neg]
  apply Int.bmod_eq_of_le <;> omega

/-- Without its sign, a negative number has 64 bits unless it is the least one. -/
theorem natural_neg (negative : ¬ 0 ≤ n) (notLeast : n ≠ .minValue) : 0 ≤ -n := by
  rw [Int64.le_iff_toInt_le, Int64.toInt_zero] at negative ⊢
  rw [toInt_neg notLeast]
  omega

/-- The text of a negative number is a sign in front of the text of the number without it. -/
theorem render_of_negative (negative : ¬ 0 ≤ n) (notLeast : n ≠ .minValue) :
    (Value.integer n).render.toList = '-' :: (toString (-n).toInt).toList := by
  rw [Int64.le_iff_toInt_le, Int64.toInt_zero] at negative
  obtain ⟨m, same⟩ := Int.eq_negSucc_of_lt_zero (Int.not_le.mp negative)
  change (toString n.toInt).toList = _
  rw [toInt_neg notLeast, same]
  change ("-" ++ Nat.repr (m + 1)).toList = _
  rw [String.toList_append]
  rfl

/-- The tokens of a number, and what it is derived as. -/
theorem exists_numeral (notLeast : n ≠ .minValue) : ∃ ts,
    Lexes (Value.integer n).render.toList ts ∧
      Derives maxNesting (.expr .lowest (numeral n)) ts := by
  by_cases natural : 0 ≤ n
  · have spelled := spelled_integer natural
    rw [numeral_of_natural natural]
    have room : 2 ≤ maxNesting := by decide
    exact ⟨_, spelled.lexes, (spelled.derives.loosen (Nat.zero_le _)).mono room⟩
  · have spelled := spelled_integer (natural_neg natural notLeast)
    obtain ⟨c, cs, starts, noSign⟩ := spelled.starts
    have text : (Value.integer n).render.toList = UnaryOp.negate.symbol.toList ++ c :: cs := by
      rw [render_of_negative natural notLeast, ← starts]
      rfl
    have derives : Derives 3 (.expr .unary (.unary .negate (.integer (-n)))) _ :=
      .unary (rfl : (⟨UnaryOp.negate.kind, UnaryOp.negate.symbol⟩ : Token).kind = _)
        (spelled.derives.loosen (by decide))
    rw [numeral_of_negative natural, text]
    refine ⟨_, LaysOut.lexes (.unary .negate noSign (starts ▸ spelled.laysOut)), ?_⟩
    exact (derives.loosen (Nat.zero_le _)).mono (by decide)

theorem parseText_numeral (notLeast : n ≠ .minValue) :
    parseText (Value.integer n).render = ([.expr (numeral n)], []) := by
  obtain ⟨ts, lexes, derives⟩ := exists_numeral notLeast
  rw [parseText_iff lexes, ← List.append_nil ts]
  exact .unended (.alone derives) nofun .done

/-- The sign of the least number is read on its own, and its digits are too large. -/
theorem parseText_least : parseText (Value.integer .minValue).render =
    ([], [.invalidInteger "9223372036854775808"]) := rfl

/-- A line that holds a number is not blank. -/
theorem isBlankLine_numeral (notLeast : n ≠ .minValue) :
    Repl.isBlankLine (Value.integer n).render = false := by
  have starts : ∃ c cs, (Value.integer n).render.toList = c :: cs ∧ isBlank c = false := by
    by_cases natural : 0 ≤ n
    · obtain ⟨c, cs, starts, _⟩ := (spelled_integer natural).starts
      have digit : c.isDigit = true :=
        isDigit_of_mem_toString natural (show c ∈ (toString n.toInt).toList from
          starts ▸ List.mem_cons_self)
      refine ⟨c, cs, starts, Bool.eq_false_iff.mpr fun blank => ?_⟩
      have noWord := (isBlank_apart blank).1
      rw [isWordChar, digit, Bool.or_true] at noWord
      cases noWord
    · exact ⟨_, _, render_of_negative natural notLeast, by decide⟩
  obtain ⟨c, cs, chars, notBlank⟩ := starts
  rw [Repl.isBlankLine, chars, List.all_cons, notBlank, Bool.false_and]

end Expr

/-! ## Numbers in a session -/

namespace Session

variable {s : Session} {n : Int64}

/-- The code of a number takes one constant. -/
theorem exists_lowers_numeral (room : s.env.constants.size < 65536) :
    ∃ code q, Lowers (.block [.expr (.numeral n)]) ⟨s.env, 0⟩ code q := by
  by_cases natural : 0 ≤ n
  · rw [Expr.numeral_of_natural natural]
    exact ⟨_, _, .next (.dropped (.integer room)) .done⟩
  · rw [Expr.numeral_of_negative natural]
    exact ⟨_, _, .next (.dropped (.unary (.integer room))) .done⟩

/-- The sign of a negative number is applied to the number without it. -/
theorem evalAll_numeral : Program.eval [.expr (.numeral n)] s.env.slots s.globals =
    .ok (.integer n) s.globals := by
  by_cases natural : 0 ≤ n
  · rw [Expr.numeral_of_natural natural]
    rfl
  · rw [Expr.numeral_of_negative natural]
    have turned : Int64.ofInt (-(-n).toInt) = n := by
      rw [Int64.ofInt_neg, Int64.ofInt_toInt, Int64.neg_neg]
    change EStateM.Result.ok (Value.integer (Int64.ofInt (-(-n).toInt))) s.globals = _
    rw [turned]

theorem nodes_numeral : Program.nodes [.expr (.numeral n)] ≤ defaultStackSize := by
  unfold Expr.numeral
  split
  · exact show 2 ≤ 2048 by decide
  · exact show 3 ≤ 2048 by decide

theorem Sound.eval_integer (sound : s.Sound) (room : s.env.constants.size < 65536)
    (notLeast : n ≠ .minValue) : (s.eval (Value.integer n).render).1 = .ok (.integer n) := by
  obtain ⟨code, q, lowers⟩ := exists_lowers_numeral (n := n) room
  exact sound.eval_of_lowers (Expr.parseText_numeral notLeast) lowers nodes_numeral evalAll_numeral

/-- The text of the least number is refused everywhere. -/
theorem eval_least (s : Session) : s.eval (Value.integer .minValue).render =
    (.error (.parse [.invalidInteger "9223372036854775808"]), s) := by
  simp only [Session.eval, Expr.parseText_least]

/-- In every session that has room for a constant, the text of a number is answered with the
number, and the prompt loop shows the same text again. The text of the least number is refused,
and the session stays as it was. -/
theorem eval_numeral (inputs : List String) (n : Int64)
    (room : (after inputs).env.constants.size < 65536) :
    (n ≠ .minValue →
      ((after inputs).eval (Value.integer n).render).1 = .ok (.integer n) ∧
        (Repl.answer (after inputs) (Value.integer n).render).1 =
          (Value.integer n).render ++ "\n") ∧
      (n = .minValue → (after inputs).eval (Value.integer n).render =
        (.error (.parse [.invalidInteger "9223372036854775808"]), after inputs)) := by
  constructor
  · intro notLeast
    have value := (sound_after inputs).eval_integer room notLeast
    refine ⟨value, ?_⟩
    rw [Repl.answer, Expr.isBlankLine_numeral notLeast]
    rcases answer : (after inputs).eval (Value.integer n).render with ⟨result, s'⟩
    rw [answer] at value
    cases value
    rfl
  · rintro rfl
    exact eval_least _

/-- The answer to the first input is a negative number. As the next input it has the same
answer, in text as well. -/
theorem eval_numeral_difference :
    ((after []).eval "4 - 7").1 = .ok (.integer (-3)) ∧
      ((after ["4 - 7"]).eval "-3").1 = .ok (.integer (-3)) ∧
      (Repl.answer (after ["4 - 7"]) "-3").1 = "-3\n" := by
  have facts : ((after []).eval "4 - 7").1 = .ok (.integer (-3)) ∧
      ((after []).eval "4 - 7").2.env.constants.size < 65536 := by
    decide +kernel
  have next : after ["4 - 7"] = ((after []).eval "4 - 7").2 := after_concat [] "4 - 7"
  rw [← next] at facts
  exact ⟨facts.1, (eval_numeral ["4 - 7"] (-3) facts.2).1 (by decide)⟩

/-- The least number is not answered with itself, not even by a fresh session. -/
theorem not_eval_least : ¬ ∀ (inputs : List String) (n : Int64),
    (after inputs).env.constants.size < 65536 →
      ((after inputs).eval (Value.integer n).render).1 = .ok (.integer n) := by
  intro all
  have least := all [] .minValue (by decide)
  rw [eval_least] at least
  cases least

end Session

end Stacklet
