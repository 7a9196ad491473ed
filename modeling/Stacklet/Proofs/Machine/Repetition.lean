import Stacklet.Proofs.Compile.Nesting
import Stacklet.Proofs.Machine.Mirror
import Stacklet.Proofs.Machine.Safety

/-!
# Running code again

A run of compiled code that has succeeded can be repeated on the machine that it has
left, and nothing is different afterwards (`Program.run_again`), although the second run
starts from globals that the first one has set.

Compiled code accesses no slot in front of an instruction that sets it, and it only jumps
forward. So from an access on, a slot has the value that it has at the end of the run, and
the same run could have been made over the globals that it leaves behind
(`WellFormed.steps_settled`). What lies in the cells of an empty stack does not matter, as
always (`WellFormed.run_behind`).
-/

namespace Stacklet

/-- The machine `n` is what a run has left as `m`. Only cells of the stack that nobody asks
for may hold different values. -/
structure Machine.Rested (m n : Machine) : Prop where
  top : n.top = m.top
  stackSize : n.stack.size = m.stack.size
  globals : n.globals = m.globals
  lastPopped : n.lastPopped = m.lastPopped

/-! ## Globals that are settled -/

/-- No instruction of the row accesses a slot that one behind it sets. -/
def Instr.Settled (code : List Instr) : Prop :=
  (accesses code).Pairwise fun access later => later ≠ .write access.slot

theorem Instr.Settled.unset {front back : List Instr} {i : Instr} {access : Access}
    (settled : Settled (front ++ i :: back)) (found : i.access? = some access) :
    .write access.slot ∉ accesses back := by
  have behind : accesses (i :: back) = access :: accesses back :=
    List.filterMap_cons_some found
  rw [Settled, accesses_append, behind] at settled
  have first := (List.pairwise_cons.mp (List.pairwise_append.mp settled).2.1).1
  exact fun set => first _ set rfl

namespace Machine

variable {i : Instr} {constants globals : Array Value} {next o o' : Nat} {m m' : Machine}

/-- The global that an instruction sets has that value afterwards. -/
theorem store_settled (executed : execute constants next i m = .ok o m')
    (size : globals.size = m.globals.size)
    (settled : ∀ access, i.access? = some access →
      globals[access.slot]? = m'.globals[access.slot]?) :
    i.store globals (m.cell 0) = globals := by
  have stored := execute_globals (pops_le_of_ok executed) executed
  cases i with
  | setGlobal slot =>
    have there := settled _ rfl
    rw [stored] at there
    apply Array.ext_getElem?
    intro k
    by_cases same : slot.toNat = k
    · subst same
      simp only [Instr.store, Access.slot, Array.getElem?_setIfInBounds, size, if_true] at there ⊢
      rw [there]
    · exact Array.getElem?_setIfInBounds_ne same
  | _ => rfl

theorem outcome_settled (executed : execute constants next i m = .ok o m')
    (size : globals.size = m.globals.size)
    (settled : ∀ access, i.access? = some access →
      globals[access.slot]? = m'.globals[access.slot]?) (under top : Value) :
    i.outcome constants globals under top = i.outcome constants m.globals under top := by
  have stored := execute_globals (pops_le_of_ok executed) executed
  cases i with
  | getGlobal slot =>
    have there := settled _ rfl
    rw [stored] at there
    simp only [Instr.store, Access.slot] at there
    rw [Instr.outcome_of_getGlobal, Instr.outcome_of_getGlobal, there, size]
  | setGlobal slot => rw [Instr.outcome_of_setGlobal, Instr.outcome_of_setGlobal, size]
  | _ => rfl

/-- An instruction does the same over globals in which the one that it accesses has the
value that it leaves behind. -/
theorem execute_settled (executed : execute constants next i m = .ok o m')
    (size : globals.size = m.globals.size)
    (settled : ∀ access, i.access? = some access →
      globals[access.slot]? = m'.globals[access.slot]?) :
    execute constants next i { m with globals := globals } =
      .ok o { m' with globals := globals } := by
  have enough := pops_le_of_ok executed
  have stored := store_settled executed size settled
  have same := outcome_settled executed size settled (m.cell 1) (m.cell 0)
  have anew : execute constants next i { m with globals := globals } =
      finish next i (m.cell 0) { m.dropped i.pops with globals := globals }
        (i.outcome constants globals (m.cell 1) (m.cell 0)) :=
    execute_eq (m := { m with globals := globals }) enough
  rw [execute_eq enough] at executed
  rw [anew, same]
  cases computed : i.outcome constants m.globals (m.cell 1) (m.cell 0) with
  | error e => rw [computed] at executed; cases executed
  | ok found =>
    rw [computed] at executed
    cases found with
    | none =>
      cases executed
      simp only [finish, stored]
    | some value =>
      simp only [finish] at executed ⊢
      split at executed
      · rename_i room
        cases executed
        exact if_pos room
      · cases executed

end Machine

/-! ## Runs over settled globals -/

open Machine

namespace WellFormed

variable {b : Bytecode} {slots stackSize : Nat} {code : List Instr} {height : Nat → Nat}
  {visited : List Nat} {o o' : Nat} {m m' n : Machine}

/-- Behind an instruction no step changes the global that it accesses. -/
theorem slot_settled (wellFormed : WellFormed b slots code height)
    (settled : Instr.Settled code) (boundary : Instr.Boundary code o) (top : m.top = height o)
    {i : Instr} {access : Access} (entry : b.code.entryAt? o = some (.instr i))
    (found : i.access? = some access) {o₁ : Nat} {m₁ : Machine} (first : Step b o m o₁ m₁)
    (rest : Steps b visited o₁ m₁ o' m') :
    m'.globals[access.slot]? = m₁.globals[access.slot]? := by
  obtain ⟨⟨front, back, rfl, place⟩, _⟩ := wellFormed.placed_of_entry boundary entry
  obtain ⟨_, forward, ⟨front', back', split, place'⟩, top₁⟩ := wellFormed.step boundary top first
  obtain ⟨events, _, recounts, sublist⟩ := wellFormed.steps_events split place' top₁ rest
  have suffix : back' <:+ back := Instr.suffix_of_lt split (by rw [place, place']; exact forward)
  apply recounts.getElem?_of_not_written
  intro set
  obtain ⟨access', member, isWrite⟩ := List.mem_filterMap.mp set
  obtain rfl : access' = .write access.slot := by
    cases access' with
    | read _ => cases isWrite
    | write _ => cases isWrite; rfl
  exact settled.unset found ((suffix.sublist.filterMap _).subset (sublist.subset member))

/-- Steps could as well be made over the globals that they lead to. -/
theorem steps_settled (wellFormed : WellFormed b slots code height)
    (settled : Instr.Settled code) (boundary : Instr.Boundary code o) (top : m.top = height o)
    (steps : Steps b visited o m o' m') :
    Steps b visited o { m with globals := m'.globals } o' m' := by
  induction steps with
  | refl => exact .refl
  | @head visited o o₁ o₂ m m₁ m₂ first rest ih =>
    obtain ⟨_, _, boundary₁, top₁⟩ := wellFormed.step boundary top first
    have same : ∀ i access, b.code.entryAt? o = some (.instr i) → i.access? = some access →
        m₂.globals[access.slot]? = m₁.globals[access.slot]? := fun _ _ entry found =>
      wellFormed.slot_settled settled boundary top entry found first rest
    have size := (wellFormed.steps boundary top (.head first rest)).2.2.1
    rcases first with ⟨entry, executed⟩
    exact .head ⟨entry, execute_settled executed size fun access => same _ access entry⟩
      (ih boundary₁ top₁)

/-- A run that succeeds comes to the end of the code, with an empty stack. -/
theorem steps_of_ok (wellFormed : WellFormed b slots code height) (top : m.top = 0)
    (room : 65536 ≤ m.globals.size) (done : run b m = (.ok (), m')) :
    ∃ visited, Steps b visited 0 m b.code.size m' ∧ m'.top = 0 ∧
      m'.stack.size = m.stack.size ∧ m'.globals.size = m.globals.size := by
  obtain ⟨visited, o, m₁, steps, ⟨rfl, done'⟩ | ⟨e, m'', _, _, _, failed⟩⟩ :=
    wellFormed.run_cases top room
  · rw [done] at done'
    cases done'
    have start := Instr.boundary_zero code
    have height₀ := top.trans wellFormed.start.symm
    obtain ⟨_, top', size, _⟩ := wellFormed.steps start height₀ steps
    exact ⟨visited, steps, top'.trans wellFormed.stop,
      wellFormed.steps_stackSize start height₀ steps, size⟩
  · rw [done] at failed
    cases failed

/-- A run that succeeds succeeds in the same way over the globals that it leaves. -/
theorem run_settled (wellFormed : WellFormed b slots code height)
    (settled : Instr.Settled code) (top : m.top = 0) (room : 65536 ≤ m.globals.size)
    (done : run b m = (.ok (), m')) : run b { m with globals := m'.globals } = (.ok (), m') := by
  obtain ⟨visited, steps, _⟩ := wellFormed.steps_of_ok top room done
  exact wellFormed.run_of_end (m := { m with globals := m'.globals }) top
    (wellFormed.steps_settled settled (Instr.boundary_zero code)
      (top.trans wellFormed.start.symm) steps)

/-- On a machine that a run has left the run can be made again, and leaves the machine as it
has found it. -/
theorem run_rested (wellFormed : WellFormed b slots code height) (settled : Instr.Settled code)
    (top : m.top = 0) (room : 65536 ≤ m.globals.size) (done : run b m = (.ok (), m'))
    (rested : Rested m' n) : ∃ n', run b n = (.ok (), n') ∧ Rested m' n' := by
  obtain ⟨_, _, top', stackSize, globalsSize⟩ := wellFormed.steps_of_ok top room done
  have room' : 65536 ≤ n.globals.size := by
    rw [rested.globals, globalsSize]
    exact room
  rcases eq_or_ne code [] with rfl | nonempty
  · have nothing : b.code.size = 0 := wellFormed.size_eq
    have steps : Steps b [] 0 n b.code.size n := by
      rw [nothing]
      exact .refl
    exact ⟨n, wellFormed.run_of_end (rested.top.trans top') steps, rested⟩
  -- The run over the settled globals and the one on the machine that is left differ only in
  -- what the cells of the empty stack hold.
  have anew := wellFormed.run_settled settled top room done
  have mirrors : Mirrors 0 { m with globals := m'.globals } n :=
    { top := rested.top.trans (top'.trans top.symm)
      inside := Nat.le_of_eq top
      cells := fun k below => (Nat.not_lt_zero k below).elim
      size := rested.stackSize.trans stackSize
      globals := rested.globals }
  have whole : b.code.toList = Instr.bytesOf (code ++ []) := by
    rw [List.append_nil]
    exact wellFormed.bytes
  obtain ⟨result, m₁, n', ran, ran', globals, answer⟩ := wellFormed.run_behind
    (m := { m with globals := m'.globals }) wellFormed (.front whole (List.prefix_refl _))
    (Nat.add_zero _) top (globalsSize ▸ room) mirrors (rested.top.trans top') .refl
  cases anew.symm.trans ran
  obtain ⟨_, _, emptied, stackSize', _⟩ :=
    wellFormed.steps_of_ok (rested.top.trans top') room' ran'
  exact ⟨n', ran', emptied.trans top'.symm, stackSize'.trans rested.stackSize, globals,
    answer nonempty rfl⟩

end WellFormed

/-! ## Compiled programs -/

namespace Program

/-- Once a run of compiled code has succeeded, it succeeds however often it is made again on
the same machine, and always leaves an empty stack, the same value popped last and the same
globals. -/
theorem run_again {program : Program} {env env' : Env} {b : Bytecode} {stackSize : Nat}
    {globals : Array Value} {m : Machine} (compiled : program.compile env = .ok (b, env'))
    (room : 65536 ≤ globals.size)
    (done : run b (withGlobals stackSize globals) = (.ok (), m)) (runs : Nat) :
    ∃ m', run b (afterRuns b (withGlobals stackSize globals) runs) = (.ok (), m') ∧
      m'.top = 0 ∧ m'.lastPopped = m.lastPopped ∧ m'.globals = m.globals := by
  obtain ⟨code, q, lowers, bytes, pool, _⟩ := program.lowers compiled
  have wellFormed := lowers.wellFormed bytes pool
  obtain ⟨_, _, top, _⟩ := wellFormed.steps_of_ok (m := withGlobals stackSize globals) rfl room done
  -- However many runs have been made, the last one has left what the first one has.
  have all : ∀ runs, ∃ m', run b (afterRuns b (withGlobals stackSize globals) runs) = (.ok (), m') ∧
      Rested m m' := by
    intro runs
    induction runs with
    | zero => exact ⟨m, done, rfl, rfl, rfl, rfl⟩
    | succ runs ih =>
      obtain ⟨m', ran, rested⟩ := ih
      rw [afterRuns, ran]
      exact wellFormed.run_rested lowers.resolves.settled rfl room done rested
  obtain ⟨m', ran, rested⟩ := all runs
  exact ⟨m', ran, rested.top.trans top, rested.lastPopped, rested.globals⟩

/-- The program `let x = 1; if (false) { let y = x; } y`, whose last name is read although it
has not been set. -/
def leftUnset : Program :=
  [.define "x" (.integer 1),
    .expr (.conditional (.boolean false) [.define "y" (.name "x")] none), .expr (.name "y")]

/-- What has been in the slot is read again each time. -/
theorem run_again_leftUnset :
    ∃ b env, leftUnset.compile .empty = .ok (b, env) ∧
      ∃ m, run b (afterRuns b (withGlobals 4 (.replicate 65536 (.integer 7))) 3) = (.ok (), m) ∧
        m.top = 0 ∧ m.lastPopped = .integer 7 := by
  have compiled : leftUnset.compile .empty = .ok (_, _) := rfl
  have size : (Array.replicate 65536 (Value.integer 7)).size = 65536 := Array.size_replicate ..
  have room : ∀ globals, leftUnset.peak .empty globals ≤ 4 := fun _ =>
    Nat.le_of_ble_eq_true rfl
  have evaluated : ∀ globals, leftUnset.eval .empty globals =
      .ok ((globals.setIfInBounds 0 (.integer 1)).getD 1 .null)
        (globals.setIfInBounds 0 (.integer 1)) := fun _ => rfl
  obtain ⟨m, done, popped, _⟩ := Program.run_of_eval compiled size (room _) (evaluated _)
  obtain ⟨m', ran, top, same, _⟩ := run_again compiled (Nat.le_of_eq size.symm) done 3
  refine ⟨_, _, compiled, m', ran, top, same.trans (popped.trans ?_)⟩
  simp

end Program

end Stacklet
