import Stacklet.Proofs.Machine.Execution
import Stacklet.Proofs.Machine.Steps

/-!
# Higher stacks

All that the height of a stack decides is whether a run overflows it. Whatever the byte
code is, a run that ends on some stack with anything but an overflow ends the same on
every higher one, and no look at the machine tells afterwards which stack it was
(`terminates_higher`). An overflow does not carry over: what overflows a stack may well
end on a higher one.

The stacks are compared by `Wider`, which one instruction keeps and then all steps of a
run. Popped values stay in their cells and can be seen, so the relation is about all
cells, also those above the top and those that only the higher stack has.
-/

namespace Stacklet.Machine

/-- What can be seen of a machine: the height of its stack, the topmost value, the value
popped last, and the globals. -/
structure View where
  top : Nat
  topValue? : Option Value
  lastPopped : Value
  globals : Array Value
  deriving DecidableEq

/-- What can be seen of the machine. -/
def view (m : Machine) : View := ⟨m.top, m.topValue?, m.lastPopped, m.globals⟩

/-! ## The relation -/

/-- The second machine has as many cells or more, and the same values. A cell that a
stack does not have counts as null, which is what a fresh cell holds. -/
structure Wider (m n : Machine) : Prop where
  top : n.top = m.top
  fits : m.top ≤ m.stack.size
  size : m.stack.size ≤ n.stack.size
  cells : ∀ k, n.stack.getD k .null = m.stack.getD k .null
  globals : n.globals = m.globals

namespace Wider

variable {m n m' : Machine} {i : Instr} {constants : Array Value} {next o o' : Nat} {b : Bytecode}
  {e : RuntimeError} {result : Except RuntimeError Unit}

/-- Fresh machines. -/
theorem fresh {low high : Nat} (le : low ≤ high) (globals : Array Value) :
    Wider (withGlobals low globals) (withGlobals high globals) where
  top := rfl
  fits := Nat.zero_le _
  size := by
    change (Array.replicate low Value.null).size ≤ (Array.replicate high Value.null).size
    rw [Array.size_replicate, Array.size_replicate]
    exact le
  cells k := by rw [getD_withGlobals, getD_withGlobals]
  globals := rfl

theorem cell_eq (wider : Wider m n) (depth : Nat) : n.cell depth = m.cell depth := by
  rw [cell, cell, wider.top]
  exact wider.cells _

theorem lastPopped_eq (wider : Wider m n) : n.lastPopped = m.lastPopped := by
  rw [lastPopped, lastPopped, wider.top]
  exact wider.cells _

theorem topValue?_eq (wider : Wider m n) : n.topValue? = m.topValue? := by
  have fits' : n.top ≤ n.stack.size := wider.top ▸ Nat.le_trans wider.fits wider.size
  rcases Nat.eq_zero_or_pos m.top with empty | positive
  · rw [topValue?, topValue?, wider.top, empty]
  · rw [topValue?_of_pos wider.fits positive, topValue?_of_pos fits' (wider.top ▸ positive),
      wider.cell_eq]

/-! ## Instructions -/

theorem dropped (wider : Wider m n) (count : Nat) : Wider (m.dropped count) (n.dropped count) where
  top := congrArg (· - count) wider.top
  fits := Nat.le_trans (Nat.sub_le ..) wider.fits
  size := wider.size
  cells := wider.cells
  globals := wider.globals

theorem pushed (wider : Wider m n) (value : Value) (room : m.top < m.stack.size) :
    Wider (m.pushed value) (n.pushed value) where
  top := congrArg (· + 1) wider.top
  fits := by
    change m.top + 1 ≤ (m.stack.setIfInBounds m.top value).size
    rw [Array.size_setIfInBounds]
    exact room
  size := by simpa [Machine.pushed] using wider.size
  cells := by
    intro k
    have room' := Nat.lt_of_lt_of_le room wider.size
    simp only [Machine.pushed, wider.top, Array.getD_eq_getD_getElem?]
    by_cases same : k = m.top
    · subst same
      rw [Array.getElem?_setIfInBounds_self_of_lt room,
        Array.getElem?_setIfInBounds_self_of_lt room']
    · rw [Array.getElem?_setIfInBounds_ne (Ne.symm same),
        Array.getElem?_setIfInBounds_ne (Ne.symm same), ← Array.getD_eq_getD_getElem?,
        ← Array.getD_eq_getD_getElem?]
      exact wider.cells k
  globals := wider.globals

/-- With enough values on both stacks an instruction computes the same on both. -/
theorem execute_eq (wider : Wider m n) (enough : i.pops ≤ m.top) :
    execute constants next i n = finish next i (m.cell 0) (n.dropped i.pops)
      (i.outcome constants m.globals (m.cell 1) (m.cell 0)) := by
  rw [Machine.execute_eq (wider.top.symm ▸ enough), wider.cell_eq, wider.cell_eq, wider.globals]

/-- An instruction that succeeds on a stack succeeds on a higher one. -/
theorem execute_ok (wider : Wider m n) (executed : execute constants next i m = .ok o m') :
    ∃ n', execute constants next i n = .ok o n' ∧ Wider m' n' := by
  have enough := pops_le_of_ok executed
  rw [Machine.execute_eq enough] at executed
  rw [wider.execute_eq enough]
  have less := wider.dropped i.pops
  cases computed : i.outcome constants m.globals (m.cell 1) (m.cell 0) with
  | error e => rw [computed] at executed; cases executed
  | ok found =>
    rw [computed] at executed
    cases found with
    | none =>
      cases executed
      exact ⟨_, rfl, less.top, less.fits, less.size, less.cells,
        congrArg (i.store · _) less.globals⟩
    | some value =>
      simp only [finish] at executed ⊢
      split at executed
      · rename_i room
        cases executed
        have room' : (n.dropped i.pops).top < (n.dropped i.pops).stack.size := by
          rw [less.top]
          exact Nat.lt_of_lt_of_le room less.size
        exact ⟨_, if_pos room', less.pushed value room⟩
      · cases executed

/-- An instruction that fails on a stack, but does not overflow it, fails on a higher one
with the same error. -/
theorem execute_error (wider : Wider m n) (failed : execute constants next i m = .error e m')
    (noOverflow : e ≠ .stackOverflow) :
    ∃ n', execute constants next i n = .error e n' ∧ Wider m' n' := by
  rw [execute_error_eq failed]
  refine ⟨n.dropped i.pops, ?_, wider.dropped i.pops⟩
  rcases Nat.lt_or_ge m.top i.pops with few | enough
  · rw [execute_of_few few] at failed
    rw [execute_of_few (wider.top.symm ▸ few)]
    cases failed
    rfl
  · rw [Machine.execute_eq enough] at failed
    rw [wider.execute_eq enough]
    unfold finish at failed
    split at failed
    · rename_i computed
      cases failed
      rw [computed]
      rfl
    · cases failed
    · split at failed
      · cases failed
      · cases failed
        exact (noOverflow rfl).elim

/-! ## Runs -/

theorem step (wider : Wider m n) (step : Step b o m o' m') :
    ∃ n', Step b o n o' n' ∧ Wider m' n' := by
  rcases step with ⟨entry, executed⟩
  obtain ⟨n', executed', wider'⟩ := wider.execute_ok executed
  exact ⟨n', ⟨entry, executed'⟩, wider'⟩

theorem fails (wider : Wider m n) (fails : Fails b o m e m') (noOverflow : e ≠ .stackOverflow) :
    ∃ n', Fails b o n e n' ∧ Wider m' n' := by
  rcases fails with ⟨entry, executed⟩
  obtain ⟨n', executed', wider'⟩ := wider.execute_error executed noOverflow
  exact ⟨n', ⟨entry, executed'⟩, wider'⟩

/-- Two runs go on side by side, unless the lower stack overflows. -/
theorem runFrom (wider : Wider m n) {steps : Nat}
    (ends : ended (runFrom b steps o m) = (result, m'))
    (noOverflow : result ≠ .error .stackOverflow) :
    ∃ n', ended (Machine.runFrom b steps o n) = (result, n') ∧ Wider m' n' := by
  induction steps generalizing o m n with
  | zero =>
    cases found : b.code.entryAt? o with
    | none =>
      rw [runFrom_of_end _ found] at ends ⊢
      cases ends
      exact ⟨n, rfl, wider⟩
    | some entry =>
      rw [runFrom_zero found] at ends ⊢
      cases ends
      exact ⟨n, rfl, wider⟩
  | succ steps ih =>
    rcases offset_cases b o m with stops | ⟨entry, error, found, decoded⟩ | ⟨o', m₁, step⟩ |
      ⟨e, m₁, fails⟩
    · rw [runFrom_of_end _ stops] at ends ⊢
      cases ends
      exact ⟨n, rfl, wider⟩
    · rw [runFrom_of_broken found decoded] at ends ⊢
      cases ends
      exact ⟨n, rfl, wider⟩
    · obtain ⟨n₁, step', wider₁⟩ := wider.step step
      rw [runFrom_of_step step] at ends
      rw [runFrom_of_step step']
      exact ih wider₁ ends
    · rw [fails.runFrom_eq] at ends
      cases ends
      obtain ⟨n₁, fails', wider₁⟩ := wider.fails fails fun same => noOverflow (same ▸ rfl)
      rw [fails'.runFrom_eq]
      exact ⟨n₁, rfl, wider₁⟩

theorem run (wider : Wider m n) (ends : run b m = (result, m'))
    (noOverflow : result ≠ .error .stackOverflow) :
    ∃ n', Machine.run b n = (result, n') ∧ Wider m' n' :=
  wider.runFrom ends noOverflow

theorem view_eq (wider : Wider m n) : n.view = m.view := by
  simp only [view, wider.top, wider.topValue?_eq, wider.lastPopped_eq, wider.globals]

end Wider

/-! ## Runs that come to an end -/

/-- A run that starts on that machine comes to an end by itself, so and with this machine.
Code may jump back, and then no number of steps is enough for all runs. -/
def Terminates (b : Bytecode) (m : Machine) (result : Except RuntimeError Unit) (m' : Machine) :
    Prop :=
  ∃ steps, ended (runFrom b steps 0 m) = (result, m') ∧ result ≠ .error .stepLimit

/-- A run comes to one end only. -/
theorem Terminates.unique {b : Bytecode} {m m₁ m₂ : Machine}
    {result₁ result₂ : Except RuntimeError Unit}
    (first : Terminates b m result₁ m₁) (second : Terminates b m result₂ m₂) :
    result₁ = result₂ ∧ m₁ = m₂ := by
  obtain ⟨steps, ends, own⟩ := first
  obtain ⟨steps', ends', own'⟩ := second
  have same := runFrom_add ends own steps'
  rw [Nat.add_comm, runFrom_add ends' own' steps] at same
  exact ⟨(Prod.mk.inj same).1.symm, (Prod.mk.inj same).2.symm⟩

/-- Whatever the byte code and the globals are, a run that ends on a fresh stack with
anything but an overflow ends the same on a higher one, and the machines that are left
look the same. The runs also take the same steps, so `run` does not tell them apart either. -/
theorem terminates_higher (b : Bytecode) (globals : Array Value) {low high : Nat} (le : low ≤ high)
    {result : Except RuntimeError Unit} {m : Machine}
    (noOverflow : result ≠ .error .stackOverflow) :
    (Terminates b (withGlobals low globals) result m →
      ∃ n, Terminates b (withGlobals high globals) result n ∧ n.view = m.view) ∧
    (run b (withGlobals low globals) = (result, m) →
      ∃ n, run b (withGlobals high globals) = (result, n) ∧ n.view = m.view) := by
  have wider := Wider.fresh le globals
  constructor
  · rintro ⟨steps, ends, own⟩
    obtain ⟨n, ends', wider'⟩ := wider.runFrom ends noOverflow
    exact ⟨n, ⟨steps, ends', own⟩, wider'.view_eq⟩
  · intro ends
    obtain ⟨n, ends', wider'⟩ := wider.run ends noOverflow
    exact ⟨n, ends', wider'.view_eq⟩

/-- Code that jumps back once: as long as the first global counts as true it is set to false.
At the end it leaves a value on the stack. -/
def loopOnce : Bytecode := ⟨#[16, 0, 0, 14, 0, 13, 7, 17, 0, 0, 15, 0, 0, 6], #[]⟩

/-- A single cell is enough for it. It is full at the end, so no cell is left above the top to
look at, and what a higher stack has there is null. -/
theorem terminates_higher_loopOnce :
    1 ≤ 3 ∧ Terminates loopOnce (withGlobals 1 #[.null]) (.ok ()) ⟨#[.boolean true], 1, #[.null]⟩ ∧
      Terminates loopOnce (withGlobals 1 #[.boolean true]) (.ok ())
        ⟨#[.boolean true], 1, #[.boolean false]⟩ ∧
      ∃ n, Terminates loopOnce (withGlobals 3 #[.boolean true]) (.ok ()) n ∧
        n.view = ⟨1, some (.boolean true), .null, #[.boolean false]⟩ := by
  have ends : Terminates loopOnce (withGlobals 1 #[.boolean true]) (.ok ())
      ⟨#[.boolean true], 1, #[.boolean false]⟩ := ⟨8, rfl, by simp⟩
  obtain ⟨n, ends', same⟩ :=
    (terminates_higher loopOnce #[.boolean true] (show 1 ≤ 3 by decide) (by simp)).1 ends
  exact ⟨by decide, ⟨3, rfl, by simp⟩, ends, n, ends', same.trans (by decide)⟩

end Stacklet.Machine
