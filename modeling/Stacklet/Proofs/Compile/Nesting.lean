import Stacklet.Proofs.Compile.Correctness
import Stacklet.Proofs.Machine.Headroom
import Stacklet.Proofs.Program.Texts

/-!
# Nesting and the stack

A program that is read without a fault and succeeds on some stack succeeds on the
usual one (`Program.run_default`). Each level of nesting costs at most two cells
(`Derives.fits`), and there are 256 levels. Two things are left to be seen, since an
operator and its left operand are on the same level. If the left operand comes first
it costs no cell. If it comes second, as for "less", it is no comparison, or else
the operator fails on a truth value. So chains can be as long as they like, except
those that never succeed.
-/

namespace Stacklet

open Machine

/-! ## Comparisons -/

/-- The operators that yield a truth value. -/
def BinaryOp.compares : BinaryOp → Bool
  | .less | .greater | .equal | .notEqual => true
  | _ => false

theorem BinaryOp.ofIntegers_compares {op : BinaryOp} {a b : Int} {value : Value}
    (compares : op.compares = true) (applied : op.ofIntegers a b = .ok value) :
    ∃ truth, value = .boolean truth := by
  cases op with
  | less | greater | equal | notEqual =>
    cases applied
    exact ⟨_, rfl⟩
  | _ => cases compares

/-- What a comparison yields is a truth value. -/
theorem BinaryOp.apply_compares {op : BinaryOp} {left right value : Value}
    (compares : op.compares = true) (applied : op.apply left right = .ok value) :
    ∃ truth, value = .boolean truth := by
  unfold BinaryOp.apply at applied
  split at applied
  · exact ofIntegers_compares compares applied
  · split at applied <;> cases applied
    · exact ⟨_, rfl⟩
    · exact ⟨_, rfl⟩
  · cases applied

/-- Truth values can only be tested for being equal. -/
theorem BinaryOp.apply_boolean {op : BinaryOp} {truth : Bool} {right value : Value}
    (applied : op.apply (.boolean truth) right = .ok value) : op = .equal ∨ op = .notEqual := by
  unfold BinaryOp.apply at applied
  split at applied
  · rename_i impossible
    cases impossible
  · split at applied
    · exact .inl rfl
    · exact .inr rfl
    · cases applied
  · cases applied

/-- The expression compares two others. -/
def Expr.isTest : Expr → Bool
  | .binary op _ _ => op.compares
  | _ => false

/-! ## Successful evaluations -/

theorem Eval.ofExcept_eq_ok {result : Except RuntimeError Value} {value : Value}
    {globals globals' : Array Value} :
    Eval.ofExcept result globals = .ok value globals' ↔ result = .ok value ∧ globals = globals' := by
  cases result with
  | error e => exact ⟨fun same => (throw_ne_ok same).elim, fun same => by cases same.1⟩
  | ok found =>
    rw [Eval.ofExcept, pure_eq_ok, Except.ok.injEq]

section Evaluated

variable {op : BinaryOp} {left right : Expr} {slots : Slots} {value : Value}
  {globals globals' : Array Value}

theorem Expr.eval_binary_eq_ok (notLess : op ≠ .less)
    (evaluated : (Expr.binary op left right).eval slots globals = .ok value globals') :
    ∃ first globals₁ second, left.eval slots globals = .ok first globals₁ ∧
      right.eval (left.scope slots) globals₁ = .ok second globals' ∧
      op.apply first second = .ok value := by
  simp only [Expr.eval, if_neg notLess] at evaluated
  obtain ⟨first, globals₁, inLeft, evaluated⟩ := bind_eq_ok.mp evaluated
  obtain ⟨second, globals₂, inRight, evaluated⟩ := bind_eq_ok.mp evaluated
  obtain ⟨applied, rfl⟩ := Eval.ofExcept_eq_ok.mp evaluated
  exact ⟨first, globals₁, second, inLeft, inRight, applied⟩

theorem Expr.eval_less_eq_ok
    (evaluated : (Expr.binary .less left right).eval slots globals = .ok value globals') :
    ∃ second globals₁ first, right.eval slots globals = .ok second globals₁ ∧
      left.eval (right.scope slots) globals₁ = .ok first globals' ∧
      BinaryOp.less.apply first second = .ok value := by
  simp only [Expr.eval, if_true] at evaluated
  obtain ⟨second, globals₁, inRight, evaluated⟩ := bind_eq_ok.mp evaluated
  obtain ⟨first, globals₂, inLeft, evaluated⟩ := bind_eq_ok.mp evaluated
  obtain ⟨applied, rfl⟩ := Eval.ofExcept_eq_ok.mp evaluated
  exact ⟨second, globals₁, first, inRight, inLeft, applied⟩

theorem Expr.eval_isTest {e : Expr} (isTest : e.isTest = true)
    (evaluated : e.eval slots globals = .ok value globals') : ∃ truth, value = .boolean truth := by
  cases e with
  | binary op left right =>
    have compares : op.compares = true := isTest
    by_cases isLess : op = .less
    · subst isLess
      obtain ⟨_, _, _, _, _, applied⟩ := Expr.eval_less_eq_ok evaluated
      exact BinaryOp.apply_compares compares applied
    · obtain ⟨_, _, _, _, _, applied⟩ := Expr.eval_binary_eq_ok isLess evaluated
      exact BinaryOp.apply_compares compares applied
  | _ => cases isTest

end Evaluated

/-! ## Cells and levels -/

/-- The cells that are enough for an expression with so many levels: two for each, of
which only a comparison needs the last one. -/
def Expr.allowance (room : Nat) (e : Expr) : Nat := if e.isTest then 2 * room else 2 * room - 1

theorem Expr.allowance_le (room : Nat) (e : Expr) : e.allowance room ≤ 2 * room := by
  unfold Expr.allowance
  split <;> omega

theorem Expr.le_allowance (room : Nat) (e : Expr) : 2 * room + 1 ≤ e.allowance (room + 1) := by
  unfold Expr.allowance
  split <;> omega

/-- If a phrase is evaluated successfully, it does not take more cells than its levels
allow. -/
def Phrase.Fits (room : Nat) : Phrase → Prop
  | .expr _ e => ∀ slots globals value globals',
      e.eval slots globals = .ok value globals' → e.peak slots globals ≤ e.allowance room
  | .statement s => ∀ slots globals value globals',
      s.eval slots globals = .ok value globals' → s.peak slots globals ≤ 2 * room
  | .statements inside | .block inside => ∀ slots globals last value globals',
      Stmt.evalAll inside slots last globals = .ok value globals' →
        Stmt.peakAll inside slots globals ≤ 2 * room
  | _ => True

namespace Phrase.Fits

variable {room : Nat} {layer layer' : Precedence} {e : Expr}

theorem leaf (one : ∀ slots globals, e.peak slots globals = 1) :
    Phrase.Fits (room + 1) (.expr layer e) := by
  intro slots globals _ _ _
  have high := e.le_allowance room
  rw [one]
  omega

/-- An expression that has one level less to itself. -/
theorem inside (fits : Phrase.Fits room (.expr layer e)) :
    Phrase.Fits (room + 1) (.expr layer' e) := by
  intro slots globals value globals' evaluated
  have taken := fits slots globals value globals' evaluated
  have low := e.allowance_le room
  have high := e.le_allowance room
  omega

theorem unary {op : UnaryOp} (fits : Phrase.Fits room (.expr layer e)) :
    Phrase.Fits (room + 1) (.expr layer' (.unary op e)) := by
  intro slots globals value globals' evaluated
  obtain ⟨operand, globals₁, inside, _⟩ := bind_eq_ok.mp evaluated
  have taken := fits slots globals operand globals₁ inside
  have low := e.allowance_le room
  have high := Expr.le_allowance room (.unary op e)
  rw [Expr.peak]
  omega

/-- A left operand that comes first costs no cell. -/
theorem binary {op : BinaryOp} {left right : Expr} (notLess : op ≠ .less)
    (fits : Phrase.Fits (room + 1) (.expr layer left))
    (fits' : Phrase.Fits room (.expr layer' right)) :
    Phrase.Fits (room + 1) (.expr op.precedence (.binary op left right)) := by
  intro slots globals value globals' evaluated
  obtain ⟨first, globals₁, second, inLeft, inRight, applied⟩ :=
    Expr.eval_binary_eq_ok notLess evaluated
  have taken := fits slots globals first globals₁ inLeft
  have taken' := fits' (left.scope slots) globals₁ second globals' inRight
  have low := right.allowance_le room
  have high := Expr.le_allowance room (.binary op left right)
  have covers : left.allowance (room + 1) ≤ (Expr.binary op left right).allowance (room + 1) := by
    cases isTest : left.isTest with
    | false =>
      rw [Expr.allowance, isTest]
      exact high
    | true =>
      obtain ⟨truth, rfl⟩ := Expr.eval_isTest isTest inLeft
      have compares : (Expr.binary op left right).isTest = true := by
        rcases BinaryOp.apply_boolean applied with rfl | rfl <;> rfl
      rw [Expr.allowance, Expr.allowance, isTest, compares]
  rw [Expr.peak, if_neg notLess]
  apply peakThen_le (Nat.le_trans taken covers)
  intro found globals₂ same
  rw [inLeft] at same
  cases same
  omega

/-- A left operand that comes second is no comparison. -/
theorem less {left right : Expr} (fits : Phrase.Fits (room + 1) (.expr layer left))
    (fits' : Phrase.Fits room (.expr layer' right)) :
    Phrase.Fits (room + 1) (.expr .comparison (.binary .less left right)) := by
  intro slots globals value globals' evaluated
  obtain ⟨second, globals₁, first, inRight, inLeft, applied⟩ := Expr.eval_less_eq_ok evaluated
  have taken := fits (right.scope slots) globals₁ first globals' inLeft
  have taken' := fits' slots globals second globals₁ inRight
  have low := right.allowance_le room
  have plain : left.isTest = false := by
    cases isTest : left.isTest with
    | false => rfl
    | true =>
      obtain ⟨truth, rfl⟩ := Expr.eval_isTest isTest inLeft
      rcases BinaryOp.apply_boolean applied with impossible | impossible <;> cases impossible
  have allowed : (Expr.binary .less left right).allowance (room + 1) = 2 * (room + 1) := rfl
  rw [Expr.allowance, plain] at taken
  rw [Expr.peak, if_pos rfl, allowed]
  apply peakThen_le
  · omega
  · intro found globals₂ same
    rw [inRight] at same
    cases same
    simp only [Bool.false_eq_true, if_false] at taken
    omega

theorem conditional {condition : Expr} {consequence : List Stmt}
    {alternative : Option (List Stmt)} (fits : Phrase.Fits room (.expr layer condition))
    (fits' : Phrase.Fits room (.block consequence))
    (fits'' : ∀ block, alternative = some block → Phrase.Fits room (.block block)) :
    Phrase.Fits (room + 1) (.expr layer' (.conditional condition consequence alternative)) := by
  intro slots globals value globals' evaluated
  obtain ⟨test, globals₁, inCondition, evaluated⟩ := bind_eq_ok.mp evaluated
  have taken := fits slots globals test globals₁ inCondition
  have low := condition.allowance_le room
  have high := Expr.le_allowance room (.conditional condition consequence alternative)
  rw [Expr.peak]
  apply peakThen_le
  · omega
  · intro found globals₂ same
    rw [inCondition] at same
    cases same
    split at evaluated
    · rename_i truth
      obtain ⟨last, globals₂, inBlock, _⟩ := bind_eq_ok.mp evaluated
      have taken' := fits' _ _ _ _ _ inBlock
      rw [if_pos truth]
      omega
    · rename_i truth
      rw [if_neg truth]
      cases alternative with
      | none =>
        rw [Stmt.peakAlternative]
        omega
      | some block =>
        obtain ⟨last, globals₂, inBlock, _⟩ := bind_eq_ok.mp evaluated
        have taken' := fits'' block rfl _ _ _ _ _ inBlock
        rw [Stmt.peakAlternative]
        omega

theorem next {s : Stmt} {rest : List Stmt} (fits : Phrase.Fits room (.statement s))
    (fits' : Phrase.Fits room (.statements rest)) : Phrase.Fits room (.statements (s :: rest)) := by
  intro slots globals last value globals' evaluated
  obtain ⟨found, globals₁, inFirst, inRest⟩ := bind_eq_ok.mp evaluated
  rw [Stmt.peakAll]
  apply peakThen_le (fits slots globals found globals₁ inFirst)
  intro found' globals₂ same
  rw [inFirst] at same
  cases same
  exact fits' _ _ _ _ _ inRest

end Phrase.Fits

/-- Whatever is derived fits. -/
theorem Derives.fits {room : Nat} {phrase : Phrase} {ts : List Token}
    (derives : Derives room phrase ts) : phrase.Fits room := by
  induction derives with
  | name | integer | text | boolean => exact .leaf fun _ _ => rfl
  | group _ _ _ ih => exact ih.inside
  | array | function | call | index =>
    intro slots globals value globals' evaluated
    exact (throw_ne_ok evaluated).elim
  | choice _ _ _ _ _ ih ih' => exact ih.conditional ih' (by simp)
  | choiceElse _ _ _ _ _ _ _ ih ih' ih'' =>
    exact ih.conditional ih' (by rintro block ⟨⟩; exact ih'')
  | unary _ _ ih => exact ih.unary
  | @binary _ _ _ op _ _ _ _ member _ _ _ ih ih' =>
    obtain rfl := Precedence.mem_operators.mp member
    by_cases isLess : op = .less
    · subst isLess
      exact ih.less ih'
    · exact ih.binary isLess ih'
  | looser _ ih => exact ih
  | one | more | noItems | someItems | oneName | moreNames | noNames | someNames => trivial
  | define _ _ _ _ ih =>
    intro slots globals value globals' evaluated
    obtain ⟨found, globals₁, inside, _⟩ := bind_eq_ok.mp evaluated
    exact Nat.le_trans (ih _ _ _ _ inside) (Expr.allowance_le ..)
  | «return» =>
    intro slots globals value globals' evaluated
    exact (throw_ne_ok evaluated).elim
  | alone _ ih =>
    intro slots globals value globals' evaluated
    exact Nat.le_trans (ih _ _ _ _ evaluated) (Expr.allowance_le ..)
  | done => exact fun _ _ _ _ _ _ => Nat.zero_le _
  | ended _ _ _ ih ih' | unended _ _ _ ih ih' => exact ih.next ih'
  | braced _ _ _ ih => exact ih

/-! ## Programs -/

/-- A program that is read without a fault and evaluated successfully takes two cells for
each level of nesting at most. -/
theorem Program.peak_le {text : String} {program : Program} {slots : Slots} {value : Value}
    {globals globals' : Array Value} (read : parseText text = (program, []))
    (evaluated : program.eval slots globals = .ok value globals') :
    program.peak slots globals ≤ 2 * maxNesting := by
  obtain ⟨ts, lexes⟩ := Lexes.exists_of text.toList
  exact ((parseText_iff lexes).mp read).fits slots globals .null value globals' evaluated

section Runs

variable {program : Program} {env env' : Env} {b : Bytecode} {globals : Array Value}
  {stackSize : Nat} {m : Machine}

section Ends

variable {slots : Nat} {code : List Instr} {height : Nat → Nat} {value : Value}

/-- A run of accepted code comes to the value that the code performs. -/
theorem WellFormed.run_of_performs (wellFormed : WellFormed b slots code height) (top : m.top = 0)
    (performs : Performs b (Left 0 m) 0 m b.code.size (.ok value globals)) :
    ∃ m', run b m = (.ok (), m') ∧ m'.lastPopped = value ∧ m'.globals = globals := by
  rcases performs with ⟨visited, m', steps, left⟩
  refine ⟨m', wellFormed.run_of_end top steps, ?_, left.globals⟩
  rw [lastPopped, left.top]
  exact left.value

/-- If a run comes to its end, what its code performs has succeeded. -/
theorem WellFormed.performs_of_run (wellFormed : WellFormed b slots code height) {m' : Machine}
    {result : EStateM.Result Failure (Array Value) Value} (top : m.top = 0)
    (done : run b m = (.ok (), m')) (performs : Performs b (Left 0 m) 0 m b.code.size result) :
    result = .ok m'.lastPopped m'.globals := by
  match result with
  | .ok value globals =>
    obtain ⟨m'', done', rfl, rfl⟩ := wellFormed.run_of_performs top performs
    rw [done] at done'
    cases done'
    rfl
  | .error (.runtime e) globals =>
    rcases performs with ⟨visited, o, m₁, m₂, steps, fails, _⟩
    have failed := wellFormed.run_of_fails top steps fails
    rw [done] at failed
    cases failed

end Ends

/-- On a stack with room for what it takes, a compiled program is run as it is evaluated. -/
theorem Program.performs {code : List Instr} {q : Progress}
    (lowers : Lowers (.block program) ⟨env, 0⟩ code q)
    (bytes : b.code.toList = Instr.bytesOf code) (constants : b.constants = q.constants)
    (size : globals.size = 65536) (room : program.peak env.slots globals ≤ stackSize) :
    Performs b (Left 0 (withGlobals stackSize globals)) 0 (withGlobals stackSize globals)
      b.code.size (program.eval env.slots globals) := by
  have ends : b.code.size = q.position := by
    rw [(lowers.wellFormed bytes constants).size_eq, lowers.position_eq, Nat.zero_add]
  have cells : (withGlobals stackSize globals).top + program.peak env.slots globals ≤
      (withGlobals stackSize globals).stack.size := by
    change 0 + _ ≤ (Array.replicate stackSize Value.null).size
    rw [Nat.zero_add, Array.size_replicate]
    exact room
  have performs := lowers.simulates (Code.Holds.of_toList bytes)
    (constants ▸ List.prefix_refl _) (Nat.le_of_eq size.symm) cells
  rw [lastPopped_withGlobals] at performs
  rw [ends]
  exact performs

/-- What a program that is evaluated successfully comes to when it is run. -/
theorem Program.run_of_eval {value : Value} {globals' : Array Value}
    (compiled : program.compile env = .ok (b, env')) (size : globals.size = 65536)
    (room : program.peak env.slots globals ≤ stackSize)
    (evaluated : program.eval env.slots globals = .ok value globals') :
    ∃ m, run b (withGlobals stackSize globals) = (.ok (), m) ∧ m.lastPopped = value ∧
      m.globals = globals' := by
  obtain ⟨code, q, lowers, bytes, constants, _⟩ := program.lowers compiled
  have performs := Program.performs lowers bytes constants size room
  rw [evaluated] at performs
  exact (lowers.wellFormed bytes constants).run_of_performs rfl performs

/-- A program that is read without a fault and comes to its end on a stack of any height
comes to the same end on the usual stack: with the same value and the same globals. -/
theorem Program.run_default {text : String} (read : parseText text = (program, []))
    (compiled : program.compile env = .ok (b, env')) (size : globals.size = 65536)
    (done : run b (withGlobals stackSize globals) = (.ok (), m)) :
    ∃ m', run b (withGlobals defaultStackSize globals) = (.ok (), m') ∧
      m'.lastPopped = m.lastPopped ∧ m'.globals = m.globals := by
  obtain ⟨code, q, lowers, bytes, constants, _⟩ := program.lowers compiled
  have wellFormed := lowers.wellFormed bytes constants
  -- On a stack that is high enough for the whole tree, the end is that of the evaluator.
  obtain ⟨n, doneHigh, wider⟩ :=
    (Wider.fresh (Nat.le_max_left stackSize program.nodes) globals).run done (by simp)
  have enough : program.peak env.slots globals ≤ max stackSize program.nodes :=
    Nat.le_trans (Stmt.peakAll_le_nodes program env.slots globals) (Nat.le_max_right ..)
  have evaluated := wellFormed.performs_of_run rfl doneHigh
    (Program.performs lowers bytes constants size enough)
  -- And what the evaluator takes fits on the usual stack.
  have room : program.peak env.slots globals ≤ defaultStackSize :=
    Nat.le_trans (Program.peak_le read evaluated) (by decide)
  obtain ⟨m', done', same, same'⟩ := Program.run_of_eval compiled size room evaluated
  exact ⟨m', done', same.trans wider.lastPopped_eq, same'.trans wider.globals⟩

/-- The program `let a = 1; if (2 < 3) { 2 + 3 }`, which gets along with two cells. -/
def Program.guardedSum : Program :=
  [.define "a" (.integer 1), .expr (.conditional (.binary .less (.integer 2) (.integer 3))
    [.expr (.binary .add (.integer 2) (.integer 3))] none)]

theorem Program.run_default_guardedSum :
    ∃ b env m m',
      parseText "let a = 1; if (2 < 3) \x7b 2 + 3 \x7d" = (guardedSum, []) ∧
      guardedSum.compile .empty = .ok (b, env) ∧
      run b (withGlobals 2 (freshGlobals 65536)) = (.ok (), m) ∧ m.lastPopped = .integer 5 ∧
      m.globals = (freshGlobals 65536).setIfInBounds 0 (.integer 1) ∧
      run b (withGlobals defaultStackSize (freshGlobals 65536)) = (.ok (), m') ∧
      m'.lastPopped = m.lastPopped ∧ m'.globals = m.globals := by
  have read : parseText "let a = 1; if (2 < 3) \x7b 2 + 3 \x7d" = (guardedSum, []) := by rfl
  have compiled : guardedSum.compile .empty = .ok (_, _) := rfl
  have size : (freshGlobals 65536).size = 65536 := Array.size_replicate ..
  have room : guardedSum.peak .empty (freshGlobals 65536) ≤ 2 := by decide
  have evaluated : guardedSum.eval .empty (freshGlobals 65536) =
      .ok (.integer 5) ((freshGlobals 65536).setIfInBounds 0 (.integer 1)) := rfl
  obtain ⟨m, done, answer, set⟩ := Program.run_of_eval compiled size room evaluated
  obtain ⟨m', ends⟩ := Program.run_default read compiled size done
  exact ⟨_, _, m, m', read, compiled, done, answer, set, ends⟩

end Runs

end Stacklet
