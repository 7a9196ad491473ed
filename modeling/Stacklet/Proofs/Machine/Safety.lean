import Stacklet.Proofs.Machine.Events
import Stacklet.Proofs.Machine.Guarded

/-!
# Any byte code is safe to run

Nothing is assumed of the byte code here: it may jump into operands or behind its end,
its last operand may be cut off, and runs follow each other on the same machine whatever
the ones before have come to. In all states that are reached the stack holds no more
values than it has cells, no access is out of bounds, and globals change only where one
is set (`runs_safe`). What carries this is that a failing instruction leaves all cells
and globals as they are (`execute_error_eq`), and a successful one never leaves more
values than cells.
-/

namespace Stacklet.Machine

/-! ## States -/

/-- The machine after so many runs, whatever each of them has come to. -/
def afterRuns (b : Bytecode) (m : Machine) : (runs : Nat) → Machine
  | 0 => m
  | runs + 1 => (run b (afterRuns b m runs)).2

/-- The states of any number of runs, each with the offset at which its run goes on. A run
may end anywhere, and where an instruction fails it has to; the next one starts at offset 0
with the machine that is left. -/
inductive Reachable (b : Bytecode) (start : Machine) : Nat → Machine → Prop
  | start : Reachable b start 0 start
  | step {o o' : Nat} {m m' : Machine} :
    Reachable b start o m → Step b o m o' m' → Reachable b start o' m'
  | fails {o : Nat} {m m' : Machine} {e : RuntimeError} :
    Reachable b start o m → Fails b o m e m' → Reachable b start 0 m'
  | again {o : Nat} {m : Machine} : Reachable b start o m → Reachable b start 0 m

/-- What the instruction at an offset does to the globals when it succeeds: to set a global
is to write the topmost value into its slot, and nothing else changes a global. -/
inductive Stores (b : Bytecode) (o : Nat) (m m' : Machine) : Prop
  | set {slot : UInt16} {value : Value} :
    b.code.entryAt? o = some (.instr (.setGlobal slot)) → m.topValue? = some value →
    slot.toNat < m.globals.size → m'.globals = m.globals.setIfInBounds slot.toNat value →
    Stores b o m m'
  | keep :
    (∀ slot, b.code.entryAt? o ≠ some (.instr (.setGlobal slot))) → m'.globals = m.globals →
    Stores b o m m'

/-- What holds of a state from which a run goes on at an offset. -/
structure Safe (b : Bytecode) (stackSize globalsSize o : Nat) (m : Machine) : Prop where
  top_le : m.top ≤ m.stack.size
  stack_size : m.stack.size = stackSize
  globals_size : m.globals.size = globalsSize
  /-- However far the run goes on, it makes no access out of bounds. -/
  inBounds : ∀ steps v, Guarded.runFrom steps o ⟨b, m⟩ ≠ .error .outOfBounds v
  /-- It comes to the same with all accesses guarded, and leaves code and constants as they
  are. -/
  guarded : ∀ steps, Guarded.runFrom steps o ⟨b, m⟩ = Guarded.carry b (runFrom b steps o m)
  /-- The cell of the topmost value exists. -/
  topValue : Guarded.topValue? ⟨b, m⟩ = .ok m.topValue? ⟨b, m⟩
  stores : ∀ o' m', Step b o m o' m' → Stores b o m m'
  /-- A failing instruction changes no global, so setting one that does not exist or from an
  empty stack changes none. -/
  failures : ∀ e m', Fails b o m e m' → m'.globals = m.globals

/-! ## Single instructions -/

section Instructions

variable {b : Bytecode} {constants : Array Value} {next o o' : Nat} {i : Instr} {m m' : Machine}
  {e : RuntimeError}

theorem Step.stores (fits : m.Fits) (step : Step b o m o' m') : Stores b o m m' := by
  obtain @⟨i, entry, executed⟩ := step
  have enough := pops_le_of_ok executed
  have globals := execute_globals enough executed
  by_cases sets : ∃ slot, i = .setGlobal slot
  · obtain ⟨slot, rfl⟩ := sets
    refine .set entry (topValue?_of_pos fits enough) ?_ globals
    rw [execute_eq enough, Instr.outcome_of_setGlobal] at executed
    by_cases inStore : slot.toNat < m.globals.size
    · exact inStore
    · rw [if_neg inStore] at executed
      cases executed
  · refine .keep (fun slot entry' => ?_) ?_
    · rw [entry] at entry'
      cases entry'
      exact sets ⟨slot, rfl⟩
    · cases i with
      | setGlobal slot => exact (sets ⟨slot, rfl⟩).elim
      | _ => exact globals

end Instructions

/-! ## Reachable states -/

/-- A machine with as many cells and globals as there were, and no more values than cells. -/
structure Sized (stackSize globalsSize : Nat) (m : Machine) : Prop where
  fits : m.Fits
  stack : m.stack.size = stackSize
  globals : m.globals.size = globalsSize

section Reachable

variable {b : Bytecode} {stackSize globalsSize o o' : Nat} {start m m' : Machine}
  {e : RuntimeError}

theorem Sized.step (sized : Sized stackSize globalsSize m) (step : Step b o m o' m') :
    Sized stackSize globalsSize m' := by
  obtain @⟨i, entry, executed⟩ := step
  have moves := (execute_ok (pops_le_of_ok executed) executed).1
  exact ⟨(Guarded.secures_perform i _).fits sized.fits executed,
    moves.stackSize.trans sized.stack, moves.globalsSize.trans sized.globals⟩

theorem Sized.fails (sized : Sized stackSize globalsSize m) (fails : Fails b o m e m') :
    Sized stackSize globalsSize m' := by
  obtain @⟨i, entry, executed⟩ := fails
  rw [execute_error_eq executed]
  exact ⟨Nat.le_trans (Nat.sub_le ..) sized.fits, sized.stack, sized.globals⟩

theorem Reachable.sized (reachable : Reachable b start o m)
    (sized : Sized stackSize globalsSize start) : Sized stackSize globalsSize m := by
  induction reachable with
  | start => exact sized
  | step _ step ih => exact ih.step step
  | fails _ fails ih => exact ih.fails fails
  | again _ ih => exact ih

theorem Sized.safe (sized : Sized stackSize globalsSize m) (b : Bytecode) (o : Nat) :
    Safe b stackSize globalsSize o m where
  top_le := sized.fits
  stack_size := sized.stack
  globals_size := sized.globals
  inBounds steps v outside := by
    rw [(Guarded.secures_runFrom steps o).same sized.fits] at outside
    cases outcome : runFrom b steps o m <;> rw [outcome] at outside <;> cases outside
  guarded steps := (Guarded.secures_runFrom steps o).same sized.fits
  topValue := Guarded.topValue?_eq sized.fits
  stores _ _ step := step.stores sized.fits
  failures e m' fails := by
    obtain @⟨i, entry, executed⟩ := fails
    rw [execute_error_eq executed]
    rfl

theorem Reachable.steps {visited : List Nat} (reachable : Reachable b start o m)
    (steps : Steps b visited o m o' m') : Reachable b start o' m' := by
  induction steps with
  | refl => exact reachable
  | head step _ ih => exact ih (.step reachable step)

/-- What a run leaves is reachable, however the run ends. -/
theorem Reachable.run (reachable : Reachable b start 0 m) :
    Reachable b start 0 (run b m).2 := by
  obtain ⟨visited, o, m', steps, ending⟩ := runFrom_cases b (patience b) 0 m
  have before := reachable.steps steps
  rcases ending with ⟨_, same⟩ | ⟨e, m'', fails, same⟩ | ⟨_, _, _, _, same⟩ | ⟨_, _, same⟩
  · rw [run_of_ok same]
    exact .again before
  · rw [run_of_error same]
    exact .fails before fails
  · rw [run_of_error same]
    exact .again before
  · rw [run_of_error same]
    exact .again before

end Reachable

/-- Whatever the byte code, the constants, the height of the stack and the globals are, and
however often it is run: all states that are reached are safe. -/
theorem runs_safe (b : Bytecode) (stackSize : Nat) (globals : Array Value) :
    (∀ runs, Reachable b (withGlobals stackSize globals) 0
      (afterRuns b (withGlobals stackSize globals) runs)) ∧
    ∀ o m, Reachable b (withGlobals stackSize globals) o m →
      Safe b stackSize globals.size o m := by
  refine ⟨fun runs => ?_, fun o m reachable => ?_⟩
  · induction runs with
    | zero => exact .start
    | succ runs ih => exact ih.run
  · have sized : Sized stackSize globals.size (withGlobals stackSize globals) :=
      ⟨Nat.zero_le _, Array.size_replicate .., rfl⟩
    exact (reachable.sized sized).safe b o

/-- Code that stores true in the first global and then jumps into the operand of the
instruction that stored it. The byte there asks for a constant that does not exist. -/
def jumpInside : Bytecode := ⟨#[6, 17, 0, 0, 15, 0, 2], #[]⟩

/-- A single cell and a single global are enough for it. -/
theorem runs_safe_jumpInside :
    Reachable jumpInside (withGlobals 1 #[.null]) 2 ⟨#[.boolean true], 0, #[.boolean true]⟩ ∧
      Safe jumpInside 1 1 2 ⟨#[.boolean true], 0, #[.boolean true]⟩ ∧
      run jumpInside (withGlobals 1 #[.null]) =
        (.error (.constantOutOfRange 15), ⟨#[.boolean true], 0, #[.boolean true]⟩) := by
  have entries : jumpInside.code.entryAt? 0 = some (.instr .pushTrue) ∧
      jumpInside.code.entryAt? 1 = some (.instr (.setGlobal 0)) ∧
      jumpInside.code.entryAt? 4 = some (.instr (.jump 2)) ∧
      jumpInside.code.entryAt? 2 = some (.instr (.constant 15)) := by decide
  obtain ⟨first, second, third, last⟩ := entries
  have pushed : Step jumpInside 0 (withGlobals 1 #[.null]) 1 ⟨#[.boolean true], 1, #[.null]⟩ :=
    ⟨first, rfl⟩
  have stored : Step jumpInside 1 ⟨#[.boolean true], 1, #[.null]⟩ 4
      ⟨#[.boolean true], 0, #[.boolean true]⟩ := ⟨second, rfl⟩
  have jumped : Step jumpInside 4 ⟨#[.boolean true], 0, #[.boolean true]⟩ 2
      ⟨#[.boolean true], 0, #[.boolean true]⟩ := ⟨third, rfl⟩
  have fails : Fails jumpInside 2 ⟨#[.boolean true], 0, #[.boolean true]⟩
      (.constantOutOfRange 15) ⟨#[.boolean true], 0, #[.boolean true]⟩ := ⟨last, rfl⟩
  have reachable := Reachable.step (.step (.step .start pushed) stored) jumped
  refine ⟨reachable, (runs_safe jumpInside 1 #[.null]).2 2 _ reachable, ?_⟩
  exact Steps.run_of_fails (.head pushed (.head stored jumped.steps)) (by decide) fails

end Stacklet.Machine
