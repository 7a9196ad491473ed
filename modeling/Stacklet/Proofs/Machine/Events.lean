import Stacklet.Proofs.Compile.Resolution

/-!
# What a run does with the globals

`events` lists the globals that a run reads and sets, with their values. It is
taken off the run step by step. The globals that a run leaves behind can be told
from it (`Recounts`), and since accepted code only jumps forward, its accesses are
some of those in the code, in the order of the code (`WellFormed.run_events`).
-/

namespace Stacklet

/-- An access to a global, with the value that is read or set. -/
abbrev Event := Access × Value

/-- The slots that are set. -/
def Event.written (events : List Event) : List Nat :=
  (events.map Prod.fst).filterMap Access.write?

namespace Machine

/-- What an instruction does with the globals of a machine. -/
def event (i : Instr) (m : Machine) : List Event :=
  match i.access? with
  | none => []
  | some (.read slot) => [(.read slot, m.globals.getD slot .null)]
  | some (.write slot) => [(.write slot, m.cell 0)]

/-- What a run does with the globals, from an offset on and for at most `steps`
instructions. -/
def eventsFrom (b : Bytecode) : (steps : Nat) → (offset : Nat) → Machine → List Event
  | 0, _, _ => []
  | steps + 1, offset, m =>
    match b.code.entryAt? offset with
    | some (.instr i) =>
      match execute b.constants (offset + i.size) i m with
      | .ok next m' => event i m ++ eventsFrom b steps next m'
      | .error .. => []
    | _ => []

/-- What a run does with the globals. -/
def events (b : Bytecode) (m : Machine) : List Event := eventsFrom b (patience b) 0 m

/-! ## Globals and events -/

/-- From these globals on the events lead to those globals, and show the values
that are there. -/
inductive Recounts : Array Value → List Event → Array Value → Prop
  | nil {globals : Array Value} : Recounts globals [] globals
  | read {globals globals' : Array Value} {slot : Nat} {events : List Event} :
    Recounts globals events globals' →
    Recounts globals ((.read slot, globals.getD slot .null) :: events) globals'
  | write {globals globals' : Array Value} {slot : Nat} {value : Value} {events : List Event} :
    Recounts (globals.setIfInBounds slot value) events globals' →
    Recounts globals ((.write slot, value) :: events) globals'

namespace Recounts

variable {globals globals' globals'' : Array Value} {events events' : List Event} {slot : Nat}

theorem append (first : Recounts globals events globals')
    (second : Recounts globals' events' globals'') :
    Recounts globals (events ++ events') globals'' := by
  induction first with
  | nil => exact second
  | read _ ih => exact .read (ih second)
  | write _ ih => exact .write (ih second)

/-- What is recounted can be broken off anywhere. -/
theorem split {events events' : List Event}
    (recounts : Recounts globals (events ++ events') globals'') :
    ∃ globals', Recounts globals events globals' ∧ Recounts globals' events' globals'' := by
  induction events generalizing globals with
  | nil => exact ⟨globals, .nil, recounts⟩
  | cons event events ih =>
    cases recounts with
    | read rest =>
      obtain ⟨globals', before, behind⟩ := ih rest
      exact ⟨globals', .read before, behind⟩
    | write rest =>
      obtain ⟨globals', before, behind⟩ := ih rest
      exact ⟨globals', .write before, behind⟩

theorem size_eq (recounts : Recounts globals events globals') : globals'.size = globals.size := by
  induction recounts with
  | nil => rfl
  | read _ ih => exact ih
  | write _ ih => rw [ih, Array.size_setIfInBounds]

/-- A slot that is not set keeps its value. -/
theorem getElem?_of_not_written (recounts : Recounts globals events globals')
    (kept : slot ∉ Event.written events) : globals'[slot]? = globals[slot]? := by
  induction recounts with
  | nil => rfl
  | read _ ih => exact ih kept
  | @write globals _ other value _ _ ih =>
    have kept : slot ∉ other :: Event.written _ := kept
    have apart : other ≠ slot := fun same => kept (same ▸ List.mem_cons_self)
    rw [ih fun later => kept (List.mem_cons_of_mem _ later), Array.getElem?_setIfInBounds_ne apart]

end Recounts

variable {b : Bytecode} {i : Instr} {constants : Array Value} {next o o' : Nat} {m m' : Machine}

theorem execute_globals (enough : i.pops ≤ m.top)
    (success : execute constants next i m = .ok o m') :
    m'.globals = i.store m.globals (m.cell 0) := by
  rw [execute_eq enough] at success
  cases computed : i.outcome constants m.globals (m.cell 1) (m.cell 0) with
  | error e => rw [computed] at success; cases success
  | ok found =>
    rw [computed] at success
    cases found with
    | none =>
      cases success
      rfl
    | some value =>
      have pushes := (outcome_some computed).1
      simp only [finish] at success
      split at success
      · cases success
        cases i with
        | setGlobal slot => cases pushes
        | _ => rfl
      · cases success

/-- The event of an instruction shows what it does. -/
theorem execute_recounts (enough : i.pops ≤ m.top)
    (success : execute constants next i m = .ok o m') :
    Recounts m.globals (event i m) m'.globals := by
  rw [execute_globals enough success]
  cases i with
  | getGlobal slot => exact .read .nil
  | setGlobal slot => exact .write .nil
  | _ => exact .nil

theorem event_accesses (i : Instr) (m : Machine) :
    (event i m).map Prod.fst = Instr.accesses [i] := by
  cases i <;> rfl

theorem eventsFrom_succ (steps : Nat) :
    eventsFrom b (steps + 1) o m =
      match b.code.entryAt? o with
      | some (.instr i) =>
        match execute b.constants (o + i.size) i m with
        | .ok next m' => event i m ++ eventsFrom b steps next m'
        | .error .. => []
      | _ => [] := rfl

theorem eventsFrom_of_ok (entry : b.code.entryAt? o = some (.instr i))
    (executed : execute b.constants (o + i.size) i m = .ok next m') (more : Nat) :
    eventsFrom b (more + 1) o m = event i m ++ eventsFrom b more next m' := by
  simp only [eventsFrom_succ, entry, executed]

/-- What happens along some steps comes in front of what happens behind them. -/
theorem Steps.eventsFrom_add {visited : List Nat} (steps : Steps b visited o m o' m')
    (more : Nat) :
    eventsFrom b (visited.length + more) o m =
      eventsFrom b visited.length o m ++ eventsFrom b more o' m' := by
  induction steps with
  | refl =>
    rw [List.length_nil, Nat.zero_add]
    rfl
  | head step _ ih =>
    rcases step with ⟨entry, executed⟩
    rw [List.length_cons, Nat.add_right_comm, eventsFrom_of_ok entry executed,
      eventsFrom_of_ok entry executed, ih, List.append_assoc]

/-- Nothing happens behind the end of the code. -/
theorem eventsFrom_of_end (steps : Nat) (stops : b.code.entryAt? o = none) :
    eventsFrom b steps o m = [] := by
  cases steps with
  | zero => rfl
  | succ steps => simp only [eventsFrom_succ, stops]

/-- A failing instruction does nothing with the globals. -/
theorem Fails.eventsFrom_eq {e : RuntimeError} (fails : Fails b o m e m') (steps : Nat) :
    eventsFrom b steps o m = [] := by
  rcases fails with ⟨entry, executed⟩
  cases steps with
  | zero => rfl
  | succ steps => simp only [eventsFrom_succ, entry, executed]

end Machine

/-! ## Runs of accepted code -/

open Machine

/-- What follows a later boundary follows the instruction at an earlier one. -/
theorem Instr.suffix_of_lt {front rest front' back : List Instr} {i : Instr}
    (same : front ++ i :: rest = front' ++ back)
    (later : Instr.extent front < Instr.extent front') :
    back <:+ rest := by
  rcases List.append_eq_append_iff.mp same with ⟨between, rfl, behind⟩ | ⟨between, rfl, _⟩
  · cases between with
    | nil => simp at later
    | cons j between =>
      cases behind
      exact List.suffix_append ..
  · rw [Instr.extent_append] at later
    omega

namespace WellFormed

variable {b : Bytecode} {slots : Nat} {code : List Instr} {height : Nat → Nat}
  {visited : List Nat} {o o' : Nat} {m m' : Machine}

/-- What a run has done with the globals on its way to an offset. -/
theorem steps_events (wellFormed : WellFormed b slots code height) {front back : List Instr}
    (split : code = front ++ back) (place : Instr.extent front = o) (top : m.top = height o)
    (steps : Steps b visited o m o' m') :
    ∃ events,
      (∀ more, eventsFrom b (visited.length + more) o m = events ++ eventsFrom b more o' m') ∧
      Recounts m.globals events m'.globals ∧
      (events.map Prod.fst).Sublist (Instr.accesses back) := by
  induction steps generalizing front back with
  | refl => exact ⟨[], fun more => by simp, .nil, List.nil_sublist _⟩
  | @head visited o o₁ o₂ m m₁ m₂ first rest ih =>
    obtain ⟨_, forward, ⟨front', back', split', place'⟩, top₁⟩ :=
      wellFormed.step ⟨front, back, split, place⟩ top first
    obtain ⟨events, taken, recounts, sublist⟩ := ih split' place' top₁
    cases first with | @intro i entry executed =>
    -- The instruction executed is the first one behind the offset.
    cases back with
    | nil =>
      have stop : o = b.code.size := by rw [wellFormed.size_eq, split, ← place, List.append_nil]
      rw [stop, Code.entryAt?_size] at entry
      cases entry
    | cons j back =>
      have placed : Instr.PlacedAt code o j := ⟨front, back, split, place⟩
      have found := wellFormed.entryAt?_eq placed
      rw [entry] at found
      cases found
      have enough : i.pops ≤ m.top := top ▸ wellFormed.enough o i placed
      have recounts₁ := execute_recounts enough executed
      refine ⟨event i m ++ events, fun more => ?_, recounts₁.append recounts, ?_⟩
      · rw [List.length_cons, Nat.add_right_comm, eventsFrom_of_ok entry executed, taken,
          List.append_assoc]
      · have suffix : back' <:+ back :=
          Instr.suffix_of_lt (split.symm.trans split') (by rw [place, place']; exact forward)
        rw [List.map_append, event_accesses]
        change List.Sublist _ (Instr.accesses ([i] ++ back))
        rw [Instr.accesses_append]
        exact (List.Sublist.refl _).append (sublist.trans (suffix.sublist.filterMap _))

/-- A run leaves the globals behind that its events tell of, and the accesses are some
of those in the code, in order. -/
theorem run_events (wellFormed : WellFormed b slots code height) (top : m.top = 0)
    (room : 65536 ≤ m.globals.size) :
    Recounts m.globals (events b m) (run b m).2.globals ∧
      ((events b m).map Prod.fst).Sublist (Instr.accesses code) := by
  obtain ⟨visited, o, m', steps, ending⟩ := wellFormed.run_cases top room
  have start : m.top = height 0 := top.trans wellFormed.start.symm
  obtain ⟨boundary, _, _, count, _, _⟩ := wellFormed.steps (Instr.boundary_zero code) start steps
  obtain ⟨seen, taken, recounts, sublist⟩ :=
    wellFormed.steps_events (List.nil_append code).symm Instr.extent_nil start steps
  -- The run is given more steps than it takes.
  obtain ⟨more, patient⟩ : ∃ more, patience b = visited.length + more := by
    refine Nat.exists_eq_add_of_le ?_
    have inCode := wellFormed.boundary_le boundary
    have patient := size_lt_patience b
    omega
  have whole : events b m = seen ++ eventsFrom b more o m' := by
    rw [events, patient, taken]
  rcases ending with ⟨stop, done⟩ | ⟨e, m'', _, same, fails, failed⟩
  · rw [whole, eventsFrom_of_end more (stop ▸ Code.entryAt?_size _), List.append_nil, done]
    exact ⟨recounts, sublist⟩
  · rw [whole, fails.eventsFrom_eq, List.append_nil, failed]
    exact ⟨same ▸ recounts, sublist⟩

end WellFormed

end Stacklet
