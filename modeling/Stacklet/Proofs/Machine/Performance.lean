import Stacklet.Proofs.Code.Layout
import Stacklet.Proofs.Machine.Execution
import Stacklet.Proofs.Machine.Steps
import Stacklet.Proofs.Program.Evaluation

/-!
# Code that performs a computation

`Performs b post o m o' result` relates a stretch of code to a computation on the
globals that has come to `result`. If that is a value, a run from `o` reaches `o'`
with a machine of which `post` holds; if it is an error of the run, the run comes
to an instruction that fails with this error and leaves the globals behind that
the computation has left. `Performs.bind` puts stretches together the way
computations are put together.
-/

namespace Stacklet.Machine

/-- What holds of a value, the globals, and the machine that a run has come to. -/
abbrev Post := Value → Array Value → Machine → Prop

/-- The code from `o` to `o'` does what the computation has done that ended so. -/
def Performs (b : Bytecode) (post : Post) (o : Nat) (m : Machine) (o' : Nat) :
    EStateM.Result Failure (Array Value) Value → Prop
  | .ok value globals => ∃ visited m', Steps b visited o m o' m' ∧ post value globals m'
  | .error (.runtime e) globals => ∃ visited at' m' m'',
      Steps b visited o m at' m' ∧ Fails b at' m' e m'' ∧ m''.globals = globals
  | .error .meaningless _ => False

namespace Performs

variable {b : Bytecode} {post post' : Post} {o o₁ o₂ : Nat} {m m₁ : Machine}
  {result : EStateM.Result Failure (Array Value) Value}

theorem mono (performs : Performs b post o m o₁ result)
    (weaken : ∀ value globals m', post value globals m' → post' value globals m') :
    Performs b post' o m o₁ result := by
  match result with
  | .ok value globals =>
    rcases performs with ⟨visited, m', steps, holds⟩
    exact ⟨visited, m', steps, weaken _ _ _ holds⟩
  | .error (.runtime e) globals => exact performs

/-- Steps in front of a stretch of code. -/
theorem after {visited : List Nat} (steps : Steps b visited o m o₁ m₁)
    (performs : Performs b post o₁ m₁ o₂ result) : Performs b post o m o₂ result := by
  match result with
  | .ok value globals =>
    rcases performs with ⟨visited', m', steps', holds⟩
    exact ⟨visited ++ visited', m', steps.trans steps', holds⟩
  | .error (.runtime e) globals =>
    rcases performs with ⟨visited', at', m', m'', steps', fails, same⟩
    exact ⟨visited ++ visited', at', m', m'', steps.trans steps', fails, same⟩

/-- Two stretches of code, one behind the other. -/
theorem bind {x : Eval Value} {f : Value → Eval Value} {globals : Array Value}
    (first : Performs b post o m o₁ (x globals))
    (second : ∀ value globals' m', x globals = .ok value globals' → post value globals' m' →
      Performs b post' o₁ m' o₂ (f value globals')) :
    Performs b post' o m o₂ ((x >>= f) globals) := by
  cases computed : x globals with
  | ok value globals' =>
    rw [computed] at first
    rw [bind_of_ok computed]
    rcases first with ⟨visited, m', steps, holds⟩
    exact (second value globals' m' computed holds).after steps
  | error failure globals' =>
    rw [computed] at first
    rw [bind_of_error computed]
    cases failure with
    | runtime e => exact first
    | meaningless => exact first

/-- Steps behind a stretch of code. -/
theorem before (first : Performs b post o m o₁ result)
    (steps : ∀ value globals m', post value globals m' →
      ∃ visited m₂, Steps b visited o₁ m' o₂ m₂ ∧ post' value globals m₂) :
    Performs b post' o m o₂ result := by
  match result with
  | .ok value globals =>
    rcases first with ⟨visited, m', reached, holds⟩
    obtain ⟨visited', m₂, steps, holds'⟩ := steps value globals m' holds
    exact ⟨visited ++ visited', m₂, reached.trans steps, holds'⟩
  | .error (.runtime e) globals => exact first

end Performs

/-! ## What code leaves behind -/

/-- What code does not touch: the sizes, and the values that lie on the stack. -/
structure Kept (m m' : Machine) : Prop where
  stackSize : m'.stack.size = m.stack.size
  globalsSize : m'.globals.size = m.globals.size
  below : ∀ k < m.top, m'.stack[k]? = m.stack[k]?

/-- Code has come to a value and left it on the stack, or popped it last. -/
structure Left (leaves : Nat) (m : Machine) (value : Value) (globals : Array Value)
    (m' : Machine) : Prop extends Kept m m' where
  top : m'.top = m.top + leaves
  globals : m'.globals = globals
  value : m'.stack.getD m.top .null = value

section Left

variable {leaves : Nat} {m m₁ m₂ : Machine} {value value' : Value} {globals globals' : Array Value}

theorem Kept.refl (m : Machine) : Kept m m := ⟨rfl, rfl, fun _ _ => rfl⟩

theorem Kept.trans (first : Kept m m₁) (second : Kept m₁ m₂) (le : m.top ≤ m₁.top) :
    Kept m m₂ where
  stackSize := second.stackSize.trans first.stackSize
  globalsSize := second.globalsSize.trans first.globalsSize
  below k lt := (second.below k (Nat.lt_of_lt_of_le lt le)).trans (first.below k lt)

/-- What was left over a machine is left over the one before it as well. -/
theorem Left.above (left : Left leaves m₁ value globals m₂) (kept : Kept m m₁)
    (same : m₁.top = m.top) : Left leaves m value globals m₂ where
  toKept := kept.trans left.toKept (Nat.le_of_eq same.symm)
  top := same ▸ left.top
  globals := left.globals
  value := same ▸ left.value

/-- The value that was left is the topmost one. -/
theorem Left.cell (left : Left 1 m value globals m₁) : m₁.cell 0 = value := by
  have at' : m₁.top - 1 - 0 = m.top := by rw [left.top]; rfl
  rw [Machine.cell, at']
  exact left.value

/-- Of two values left the first one lies under the second. -/
theorem Left.cell_under (left : Left 1 m value globals m₁) (left' : Left 1 m₁ value' globals' m₂) :
    m₂.cell 1 = value := by
  have at' : m₂.top - 1 - 1 = m.top := by rw [left'.top, left.top]; rfl
  have above : m.top < m₁.top := by rw [left.top]; exact Nat.lt_succ_self _
  rw [Machine.cell, at', ← left.value, Array.getD_eq_getD_getElem?, Array.getD_eq_getD_getElem?,
    left'.below m.top above]

/-- Values are replaced by one that is pushed in their place. -/
theorem Kept.pushed {count : Nat} (kept : Kept m m₁) (above : m₁.top = m.top + count)
    (room : m.top < m.stack.size) (value : Value) :
    Left 1 m value m₁.globals ((m₁.dropped count).pushed value) := by
  have top : (m₁.dropped count).top = m.top := by
    rw [dropped, above]
    exact Nat.add_sub_cancel ..
  have stack : ((m₁.dropped count).pushed value).stack = m₁.stack.setIfInBounds m.top value := by
    rw [← top]
    rfl
  refine ⟨⟨?_, kept.globalsSize, ?_⟩, ?_, rfl, ?_⟩
  · rw [stack, Array.size_setIfInBounds]
    exact kept.stackSize
  · intro k below
    rw [stack, Array.getElem?_setIfInBounds_ne (Nat.ne_of_gt below)]
    exact kept.below k below
  · exact congrArg (· + 1) top
  · rw [stack, Array.getD_eq_getD_getElem?,
      Array.getElem?_setIfInBounds_self_of_lt (kept.stackSize ▸ room)]
    rfl

/-- The value that was left is popped. -/
theorem Left.popped (left : Left 1 m value globals m₁) (size : globals'.size = globals.size) :
    Left 0 m value globals' { m₁.dropped 1 with globals := globals' } where
  stackSize := left.stackSize
  globalsSize := by rw [size, ← left.globals]; exact left.globalsSize
  below := left.below
  top := by
    change m₁.top - 1 = m.top
    rw [left.top]
    rfl
  globals := rfl
  value := left.value

end Left

/-! ## Single instructions -/

section Instructions

variable {b : Bytecode} {o : Nat} {m m₁ : Machine} {i : Instr} {rest : List Instr}

/-- An instruction that replaces the values left by one that it computes, or fails. -/
theorem performs_instr {computed : Except RuntimeError Value} {globals : Array Value}
    (holds : b.code.Holds o (i :: rest)) (kept : Kept m m₁) (above : m₁.top = m.top + i.pops)
    (room : m.top < m.stack.size) (same : m₁.globals = globals)
    (outcome : i.outcome b.constants m₁.globals (m₁.cell 1) (m₁.cell 0) = some <$> computed) :
    Performs b (Left 1 m) o m₁ (o + i.size) (Eval.ofExcept computed globals) := by
  have entry := holds.entryAt?_eq
  have enough : i.pops ≤ m₁.top := by rw [above]; exact Nat.le_add_left ..
  have executed := (execute_eq enough : execute b.constants (o + i.size) i m₁ = _)
  rw [outcome] at executed
  cases computed with
  | error e => exact ⟨[], o, m₁, m₁.dropped i.pops, .refl, ⟨entry, executed⟩, same⟩
  | ok value =>
    have fits : (m₁.dropped i.pops).top < (m₁.dropped i.pops).stack.size := by
      change m₁.top - i.pops < m₁.stack.size
      rw [above, Nat.add_sub_cancel, kept.stackSize]
      exact room
    simp only [finish, Functor.map, Except.map, if_pos fits] at executed
    have left := kept.pushed above room value
    rw [same] at left
    exact ⟨[o], _, (Step.intro entry executed).steps, left⟩

/-- Code for two operands and an operator behind them. -/
theorem performs_operator {x y : Eval Value} {o₁ o₂ : Nat} {globals : Array Value}
    {compute : Value → Value → Except RuntimeError Value} (holds : b.code.Holds o₂ (i :: rest))
    (pops : i.pops = 2) (room : m.top < m.stack.size)
    (outcome : ∀ constants globals under top,
      i.outcome constants globals under top = some <$> compute under top)
    (first : Performs b (Left 1 m) o m o₁ (x globals))
    (second : ∀ value globals' m₁, x globals = .ok value globals' → Left 1 m value globals' m₁ →
      Performs b (Left 1 m₁) o₁ m₁ o₂ (y globals')) :
    Performs b (Left 1 m) o m (o₂ + i.size)
      ((do let under ← x; let top ← y; Eval.ofExcept (compute under top)) globals) := by
  refine first.bind fun under globals₁ m₁ computed left => ?_
  refine (second under globals₁ m₁ computed left).bind fun top globals₂ m₂ _ left' => ?_
  have above : m₁.top = m.top + 1 := left.top
  have kept : Kept m m₂ := left.toKept.trans left'.toKept (by omega)
  refine performs_instr holds kept ?_ room left'.globals ?_
  · rw [left'.top, above, pops]
  · rw [outcome, left'.cell, left.cell_under left']

/-- An instruction that pushes a value from nothing. -/
theorem performs_value {value : Value} (holds : b.code.Holds o (i :: rest)) (pops : i.pops = 0)
    (room : m.top < m.stack.size)
    (outcome : i.outcome b.constants m.globals (m.cell 1) (m.cell 0) = .ok (some value)) :
    Performs b (Left 1 m) o m (o + i.size) ((return value : Eval Value) m.globals) := by
  have computed : some <$> (Except.ok value : Except RuntimeError Value) = .ok (some value) := rfl
  exact performs_instr holds (.refl m) (by rw [pops]; rfl) room rfl (outcome.trans computed.symm)

/-- An instruction that computes nothing. -/
theorem step_instr (holds : b.code.Holds o (i :: rest)) (enough : i.pops ≤ m.top)
    (outcome : i.outcome b.constants m.globals (m.cell 1) (m.cell 0) = .ok none) :
    Step b o m (i.goto (o + i.size) (m.cell 0))
      { m.dropped i.pops with globals := i.store m.globals (m.cell 0) } := by
  have executed := (execute_eq enough : execute b.constants (o + i.size) i m = _)
  rw [outcome] at executed
  exact ⟨holds.entryAt?_eq, executed⟩

end Instructions

end Stacklet.Machine
