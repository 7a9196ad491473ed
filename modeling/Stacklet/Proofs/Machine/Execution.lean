import Stacklet.Machine.Run
import Stacklet.Proofs.Effects

/-!
# What single instructions do

Every instruction takes some values from the stack (`Instr.pops`), computes at
most one new value or an error from the two topmost cells, the constants and the
globals (`Instr.outcome`), and pushes what it has computed. `execute_eq` says that
execution is nothing but this, so later statements about all instructions speak
of three cases and not of eighteen.
-/

namespace Stacklet

namespace Instr

/-- The number of values that an instruction takes from the stack. -/
def pops : Instr → Nat
  | .add | .sub | .mul | .div | .equal | .notEqual | .greaterThan => 2
  | .minus | .bang | .pop | .jumpNotTruthy _ | .setGlobal _ => 1
  | _ => 0

/-- The number of values that an instruction leaves on the stack. -/
def pushes : Instr → Nat
  | .pop | .jumpNotTruthy _ | .jump _ | .setGlobal _ => 0
  | _ => 1

/-- What an instruction computes, given the two topmost values of the stack: an
error, nothing, or a value that it pushes. -/
def outcome (constants globals : Array Value) (under top : Value) :
    Instr → Except RuntimeError (Option Value)
  | .constant index =>
    match constants[index.toNat]? with
    | some value => .ok (some value)
    | none => .error (.constantOutOfRange index.toNat)
  | .getGlobal slot =>
    match globals[slot.toNat]? with
    | some value => .ok (some value)
    | none => .error (.globalOutOfRange slot.toNat globals.size)
  | .setGlobal slot =>
    if slot.toNat < globals.size then .ok none
    else .error (.globalOutOfRange slot.toNat globals.size)
  | .pushTrue => .ok (some (.boolean true))
  | .pushFalse => .ok (some (.boolean false))
  | .pushNull => .ok (some .null)
  | .bang => .ok (some (.boolean !top.isTruthy))
  | .minus => some <$> Machine.negated top
  | .pop | .jump _ | .jumpNotTruthy _ => .ok none
  | i@.add | i@.sub | i@.mul | i@.div | i@.equal | i@.notEqual | i@.greaterThan =>
    some <$> Machine.binaryValue i.opcode under top

section Outcomes

variable {constants globals : Array Value} {under top : Value}

theorem outcome_of_constant (index : UInt16) :
    (constant index).outcome constants globals under top =
      match constants[index.toNat]? with
      | some value => .ok (some value)
      | none => .error (.constantOutOfRange index.toNat) := rfl

theorem outcome_of_getGlobal (slot : UInt16) :
    (getGlobal slot).outcome constants globals under top =
      match globals[slot.toNat]? with
      | some value => .ok (some value)
      | none => .error (.globalOutOfRange slot.toNat globals.size) := rfl

theorem outcome_of_setGlobal (slot : UInt16) :
    (setGlobal slot).outcome constants globals under top =
      if slot.toNat < globals.size then .ok none
      else .error (.globalOutOfRange slot.toNat globals.size) := rfl

theorem outcome_of_minus :
    minus.outcome constants globals under top = some <$> Machine.negated top := rfl

end Outcomes

/-- Where a run goes on behind an instruction that pushes nothing. -/
def goto (next : Nat) (top : Value) : Instr → Nat
  | .jump target => target.toNat
  | .jumpNotTruthy target => if top.isTruthy then next else target.toNat
  | _ => next

/-- The globals behind an instruction that pushes nothing. -/
def store (globals : Array Value) (top : Value) : Instr → Array Value
  | .setGlobal slot => globals.setIfInBounds slot.toNat top
  | _ => globals

/-- The offsets at which a run can go on behind an instruction. -/
def successors (next : Nat) : Instr → List Nat
  | .jump target => [target.toNat]
  | .jumpNotTruthy target => [next, target.toNat]
  | _ => [next]

/-- The constant or global that an instruction refers to exists. -/
def InRange (constants globals : Nat) : Instr → Prop
  | .constant index => index.toNat < constants
  | .getGlobal slot | .setGlobal slot => slot.toNat < globals
  | _ => True

end Instr

/-- The errors that a program can cause. All others are those of broken code. -/
def RuntimeError.OfProgram : RuntimeError → Prop
  | .stackOverflow | .unsupportedOperands .. | .unsupportedNegation _ | .divisionByZero => True
  | _ => False

namespace Machine

variable {m : Machine}

/-! ## Stack operations -/

/-- A machine with one more value on its stack. -/
def pushed (m : Machine) (value : Value) : Machine :=
  { m with stack := m.stack.setIfInBounds m.top value, top := m.top + 1 }

/-- A machine without its topmost values. -/
def dropped (m : Machine) (count : Nat) : Machine := { m with top := m.top - count }

/-- The value that lies `depth` cells under the topmost one. -/
def cell (m : Machine) (depth : Nat) : Value := m.stack.getD (m.top - 1 - depth) .null

theorem push_of_room {value : Value} (room : m.top < m.stack.size) :
    push value m = .ok () (m.pushed value) := by
  change (if m.top < m.stack.size then _ else _ : Exec Unit) m = _
  rw [if_pos room]
  rfl

theorem push_of_full {value : Value} (full : ¬ m.top < m.stack.size) :
    push value m = .error .stackOverflow m := by
  change (if m.top < m.stack.size then _ else _ : Exec Unit) m = _
  rw [if_neg full]
  rfl

theorem pop_of_pos (positive : 0 < m.top) : pop m = .ok (m.cell 0) (m.dropped 1) := by
  unfold pop
  rw [get_bind]
  cases top : m.top with
  | zero => omega
  | succ n =>
    simp only [cell, dropped, top]
    rfl

theorem pop_of_zero (empty : m.top = 0) : pop m = .error .stackUnderflow m := by
  unfold pop
  rw [get_bind, empty]
  rfl

/-- The topmost value is in the cell under the top, if the stack has that cell. -/
theorem topValue?_of_pos (fits : m.top ≤ m.stack.size) (positive : 0 < m.top) :
    m.topValue? = some (m.cell 0) := by
  obtain ⟨n, top⟩ := Nat.exists_eq_succ_of_ne_zero (Nat.pos_iff_ne_zero.mp positive)
  have inside : n < m.stack.size := by omega
  simp only [topValue?, cell, top, Array.getD_eq_getD_getElem?]
  change m.stack[n]? = some (m.stack[n]?.getD .null)
  rw [Array.getElem?_eq_getElem inside, Option.getD_some]

/-- A fresh stack holds nothing but nulls. -/
theorem getD_withGlobals (stackSize : Nat) (globals : Array Value) (k : Nat) :
    (withGlobals stackSize globals).stack.getD k .null = .null := by
  change (Array.replicate stackSize Value.null).getD k .null = _
  rw [Array.getD_eq_getD_getElem?, Array.getElem?_replicate]
  split <;> rfl

/-! ## Execution -/

/-- What is left to do when the values that an instruction takes are popped. -/
def finish (next : Nat) (i : Instr) (top : Value) (rest : Machine) :
    Except RuntimeError (Option Value) → EStateM.Result RuntimeError Machine Nat
  | .error e => .error e rest
  | .ok none => .ok (i.goto next top) { rest with globals := i.store rest.globals top }
  | .ok (some value) =>
    if rest.top < rest.stack.size then .ok next (rest.pushed value)
    else .error .stackOverflow rest

/-- Pushing a value is the last thing that an instruction does. -/
theorem push_then (next : Nat) (value : Value) (m : Machine) :
    (do push value; return next : Exec Nat) m =
      if m.top < m.stack.size then .ok next (m.pushed value) else .error .stackOverflow m := by
  split
  · rename_i room
    exact bind_of_ok (push_of_room room)
  · rename_i full
    exact bind_of_error (push_of_full full)

theorem ofExcept_then {α β : Type} {f : α → Exec β} (result : Except RuntimeError α) :
    (ofExcept result >>= f) m = match result with
      | .ok value => f value m
      | .error e => .error e m := by
  cases result <;> rfl

theorem binary_then {next : Nat} {i : Instr} (op : Opcode) (enough : 2 ≤ m.top) :
    (do binary op; return next : Exec Nat) m =
      finish next i (m.cell 0) (m.dropped 2) (some <$> binaryValue op (m.cell 1) (m.cell 0)) := by
  have second : (m.dropped 1).cell 0 = m.cell 1 := by
    simp only [cell, dropped]
    congr 1
  have twice : (m.dropped 1).dropped 1 = m.dropped 2 := by
    simp only [dropped, Nat.sub_sub]
  unfold binary
  simp only [bind_assoc]
  rw [bind_of_ok (pop_of_pos (by omega)), bind_of_ok (pop_of_pos (by simp only [dropped]; omega)),
    second, twice, ofExcept_then]
  cases binaryValue op (m.cell 1) (m.cell 0) with
  | error e => rfl
  | ok value => exact push_then next value _

theorem execute_eq {constants : Array Value} {next : Nat} {i : Instr} (enough : i.pops ≤ m.top) :
    execute constants next i m =
      finish next i (m.cell 0) (m.dropped i.pops)
        (i.outcome constants m.globals (m.cell 1) (m.cell 0)) := by
  cases i with
  | add | sub | mul | div | equal | notEqual | greaterThan => exact binary_then _ enough
  | pushTrue | pushFalse | pushNull => exact push_then next _ m
  | constant index =>
    change (do pushConstant constants index.toNat; return next : Exec Nat) m = _
    simp only [pushConstant, Instr.outcome_of_constant]
    cases constants[index.toNat]? with
    | none => rfl
    | some value => exact push_then next value m
  | getGlobal slot =>
    change (do pushGlobal slot.toNat; return next : Exec Nat) m = _
    simp only [pushGlobal, Instr.outcome_of_getGlobal, bind_assoc]
    rw [get_bind]
    cases m.globals[slot.toNat]? with
    | none => rfl
    | some value => exact push_then next value m
  | setGlobal slot =>
    change (do popGlobal slot.toNat; return next : Exec Nat) m = _
    simp only [popGlobal, Instr.outcome_of_setGlobal, bind_assoc]
    rw [bind_of_ok (pop_of_pos enough), get_bind]
    by_cases inStore : slot.toNat < m.globals.size
    · rw [if_pos inStore, if_pos (show slot.toNat < (m.dropped 1).globals.size from inStore)]
      rfl
    · rw [if_neg inStore, if_neg (show ¬ slot.toNat < (m.dropped 1).globals.size from inStore)]
      rfl
  | bang =>
    change (do invert; return next : Exec Nat) m = _
    unfold invert
    simp only [bind_assoc]
    rw [bind_of_ok (pop_of_pos enough)]
    exact push_then next _ _
  | minus =>
    change (do negate; return next : Exec Nat) m = _
    simp only [negate, Instr.outcome_of_minus, bind_assoc]
    rw [bind_of_ok (pop_of_pos enough), ofExcept_then]
    cases negated (m.cell 0) with
    | error e => rfl
    | ok value => exact push_then next value _
  | pop =>
    change (do let _ ← pop; return next : Exec Nat) m = _
    rw [bind_of_ok (pop_of_pos enough)]
    rfl
  | jump target => rfl
  | jumpNotTruthy target =>
    change (do return if (← pop).isTruthy then next else target.toNat : Exec Nat) m = _
    rw [bind_of_ok (pop_of_pos enough)]
    rfl

/-! ## What can be computed -/

/-- A value that an operation can compute from nothing. -/
def IsScalar : Value → Prop
  | .integer _ | .boolean _ | .null => True
  | _ => False

section Outcome

variable {i : Instr} {op : Opcode} {constants globals : Array Value} {left right value : Value}
  {e : RuntimeError}

theorem map_some_eq_ok {result : Except RuntimeError Value} {found : Option Value}
    (success : some <$> result = .ok found) : ∃ value, result = .ok value ∧ found = some value := by
  cases result with
  | error e => cases success
  | ok value =>
    cases success
    exact ⟨value, rfl, rfl⟩

theorem map_some_eq_error {result : Except RuntimeError Value}
    (failed : some <$> result = .error e) : result = .error e := by
  cases result with
  | error e => cases failed; rfl
  | ok value => cases failed

theorem binaryValue_isScalar (success : binaryValue op left right = .ok value) :
    IsScalar value := by
  unfold binaryValue at success
  split at success
  case h_6 a b _ _ _ =>
    cases computed : arithmetic _ a b with
    | error e => rw [computed] at success; cases success
    | ok n => rw [computed] at success; cases success; trivial
  all_goals cases success
  all_goals trivial

theorem binaryValue_ofProgram (failed : binaryValue op left right = .error e) : e.OfProgram := by
  unfold binaryValue at failed
  split at failed
  case h_6 a b _ _ _ =>
    unfold arithmetic at failed
    split at failed
    all_goals try cases failed
    split at failed <;> cases failed
    trivial
  all_goals cases failed
  trivial

/-- An instruction that computes nothing pushes nothing. -/
theorem outcome_none (nothing : i.outcome constants globals left right = .ok none) :
    i.pushes = 0 := by
  cases i with
  | pop | jump _ | jumpNotTruthy _ | setGlobal _ => rfl
  | pushTrue | pushFalse | pushNull | bang => cases nothing
  | constant index =>
    rw [Instr.outcome_of_constant] at nothing
    split at nothing <;> cases nothing
  | getGlobal slot =>
    rw [Instr.outcome_of_getGlobal] at nothing
    split at nothing <;> cases nothing
  | _ =>
    rcases map_some_eq_ok nothing with ⟨_, _, impossible⟩
    cases impossible

/-- An instruction that computes a value pushes it and goes on behind itself. -/
theorem outcome_some (found : i.outcome constants globals left right = .ok (some value)) :
    i.pushes = 1 ∧ ∀ next, i.successors next = [next] := by
  cases i with
  | pop | jump _ | jumpNotTruthy _ => cases found
  | setGlobal slot =>
    rw [Instr.outcome_of_setGlobal] at found
    split at found <;> cases found
  | _ => exact ⟨rfl, fun _ => rfl⟩

/-- A computed value is new, or a constant, or the value of a global. -/
theorem outcome_source (found : i.outcome constants globals left right = .ok (some value)) :
    IsScalar value ∨ value ∈ constants ∨ value ∈ globals := by
  cases i with
  | pop | jump _ | jumpNotTruthy _ => cases found
  | setGlobal slot =>
    rw [Instr.outcome_of_setGlobal] at found
    split at found <;> cases found
  | pushTrue | pushFalse | pushNull | bang =>
    cases found
    exact .inl trivial
  | constant index =>
    rw [Instr.outcome_of_constant] at found
    split at found
    · rename_i present
      cases found
      exact .inr (.inl (Array.mem_of_getElem? present))
    · cases found
  | getGlobal slot =>
    rw [Instr.outcome_of_getGlobal] at found
    split at found
    · rename_i present
      cases found
      exact .inr (.inr (Array.mem_of_getElem? present))
    · cases found
  | minus =>
    rcases map_some_eq_ok found with ⟨_, success, same⟩
    cases same
    cases right <;> cases success
    exact .inl trivial
  | _ =>
    rcases map_some_eq_ok found with ⟨_, success, same⟩
    cases same
    exact .inl (binaryValue_isScalar success)

/-- Instructions that refer to existing constants and globals fail only with
errors of the program. -/
theorem outcome_error (inRange : i.InRange constants.size globals.size)
    (failed : i.outcome constants globals left right = .error e) : e.OfProgram := by
  cases i with
  | pop | jump _ | jumpNotTruthy _ | pushTrue | pushFalse | pushNull | bang => cases failed
  | constant index =>
    rw [Instr.outcome_of_constant, Array.getElem?_eq_getElem inRange] at failed
    cases failed
  | getGlobal slot =>
    rw [Instr.outcome_of_getGlobal, Array.getElem?_eq_getElem inRange] at failed
    cases failed
  | setGlobal slot =>
    rw [Instr.outcome_of_setGlobal, if_pos (show slot.toNat < globals.size from inRange)] at failed
    cases failed
  | minus =>
    have failed := map_some_eq_error failed
    cases right <;> cases failed <;> trivial
  | _ => exact binaryValue_ofProgram (map_some_eq_error failed)

end Outcome

/-! ## What all instructions have in common -/

/-- What an instruction does to a machine when it succeeds. -/
structure Moves (i : Instr) (m m' : Machine) : Prop where
  top : m'.top + i.pops = m.top + i.pushes
  stackSize : m'.stack.size = m.stack.size
  globalsSize : m'.globals.size = m.globals.size
  /-- Only a global that is set changes. -/
  globals : ∀ k, (∀ slot, i = .setGlobal slot → slot.toNat ≠ k) → m'.globals[k]? = m.globals[k]?

section Execute

variable {i : Instr} {constants : Array Value} {next o : Nat} {m' : Machine} {e : RuntimeError}

/-- With too few values on the stack, all of them are popped. -/
theorem execute_of_few (few : m.top < i.pops) :
    execute constants next i m = .error .stackUnderflow (m.dropped i.pops) := by
  -- What takes one value finds none.
  have first {f : Value → Exec Nat} (empty : m.top = 0) (count : Nat) :
      (pop >>= f) m = .error .stackUnderflow (m.dropped count) := by
    rw [bind_of_error (pop_of_zero empty), dropped, empty, Nat.zero_sub, ← empty]
  -- What takes two values finds one at most.
  have both {op : Opcode} (few : m.top < 2) :
      (do binary op; return next : Exec Nat) m = .error .stackUnderflow (m.dropped 2) := by
    unfold binary
    simp only [bind_assoc]
    rcases Nat.eq_zero_or_pos m.top with empty | positive
    · exact first empty 2
    · have one : (m.dropped 1).top = 0 := by
        simp only [dropped]
        omega
      have same : m.dropped 1 = m.dropped 2 := by
        simp only [dropped, Machine.mk.injEq, true_and, and_true]
        omega
      rw [bind_of_ok (pop_of_pos positive), bind_of_error (pop_of_zero one), same]
  cases i with
  | add | sub | mul | div | equal | notEqual | greaterThan => exact both few
  | minus =>
    change (do negate; return next : Exec Nat) m = _
    simp only [negate, bind_assoc]
    exact first (Nat.lt_one_iff.mp few) 1
  | bang =>
    change (do invert; return next : Exec Nat) m = _
    simp only [invert, bind_assoc]
    exact first (Nat.lt_one_iff.mp few) 1
  | setGlobal slot =>
    change (do popGlobal slot.toNat; return next : Exec Nat) m = _
    simp only [popGlobal, bind_assoc]
    exact first (Nat.lt_one_iff.mp few) 1
  | pop | jumpNotTruthy _ => exact first (Nat.lt_one_iff.mp few) 1
  | _ => exact (Nat.not_lt_zero _ few).elim

theorem pops_le_of_ok (success : execute constants next i m = .ok o m') : i.pops ≤ m.top := by
  rcases Nat.lt_or_ge m.top i.pops with few | enough
  · rw [execute_of_few few] at success
    cases success
  · exact enough

/-- A failing instruction has popped the values that it takes, and nothing else. -/
theorem execute_error_eq (failed : execute constants next i m = .error e m') :
    m' = m.dropped i.pops := by
  rcases Nat.lt_or_ge m.top i.pops with few | enough
  · rw [execute_of_few few] at failed
    cases failed
    rfl
  · rw [execute_eq enough] at failed
    unfold finish at failed
    split at failed
    · cases failed
      rfl
    · cases failed
    · split at failed <;> cases failed
      rfl

theorem goto_mem_successors (top : Value) (nothing : i.pushes = 0) :
    i.goto next top ∈ i.successors next := by
  cases i with
  | jumpNotTruthy target =>
    simp only [Instr.goto, Instr.successors]
    split <;> simp
  | pop | jump _ | setGlobal _ => simp [Instr.goto, Instr.successors]
  | _ => cases nothing

theorem execute_ok (enough : i.pops ≤ m.top) (success : execute constants next i m = .ok o m') :
    Moves i m m' ∧ o ∈ i.successors next := by
  rw [execute_eq enough] at success
  cases computed : i.outcome constants m.globals (m.cell 1) (m.cell 0) with
  | error e => rw [computed] at success; cases success
  | ok found =>
    rw [computed] at success
    cases found with
    | none =>
      cases success
      have nothing := outcome_none computed
      refine ⟨⟨?_, rfl, ?_, ?_⟩, goto_mem_successors _ nothing⟩
      · simp only [dropped, nothing]
        omega
      · cases i <;> simp [Instr.store, dropped]
      · intro k untouched
        cases i with
        | setGlobal slot =>
          exact Array.getElem?_setIfInBounds_ne (untouched slot rfl)
        | _ => rfl
    | some value =>
      simp only [finish] at success
      split at success
      · cases success
        obtain ⟨pushes, successors⟩ := outcome_some computed
        refine ⟨⟨?_, ?_, rfl, fun k _ => rfl⟩, ?_⟩
        · simp only [dropped, pushed, pushes]
          omega
        · simp [pushed, dropped]
        · rw [successors]
          exact List.mem_singleton.mpr rfl
      · cases success

theorem execute_error (enough : i.pops ≤ m.top)
    (inRange : i.InRange constants.size m.globals.size)
    (failed : execute constants next i m = .error e m') :
    e.OfProgram ∧ m'.globals = m.globals := by
  rw [execute_eq enough] at failed
  cases computed : i.outcome constants m.globals (m.cell 1) (m.cell 0) with
  | error e =>
    rw [computed] at failed
    cases failed
    exact ⟨outcome_error inRange computed, rfl⟩
  | ok found =>
    rw [computed] at failed
    cases found with
    | none => cases failed
    | some value =>
      simp only [finish] at failed
      split at failed
      · cases failed
      · cases failed
        exact ⟨trivial, rfl⟩

end Execute

/-! ## Kinds of values -/

/-- All cells of the stack, also those above the top, and all globals hold values
of one kind. -/
structure Only (kind : Value → Prop) (m : Machine) : Prop where
  stack : ∀ value ∈ m.stack, kind value
  globals : ∀ value ∈ m.globals, kind value

section Only

variable {kind : Value → Prop} {i : Instr} {constants : Array Value} {next o : Nat} {m' : Machine}

theorem Only.cell (scalar : ∀ value, IsScalar value → kind value) (only : m.Only kind)
    (depth : Nat) : kind (m.cell depth) := by
  unfold Machine.cell
  rw [Array.getD_eq_getD_getElem?]
  cases found : m.stack[m.top - 1 - depth]? with
  | none => exact scalar .null trivial
  | some value => exact only.stack value (Array.mem_of_getElem? found)

/-- A kind that has all values computed from nothing and all constants is kept:
nothing else is ever computed. -/
theorem execute_only (scalar : ∀ value, IsScalar value → kind value)
    (pool : ∀ value ∈ constants, kind value) (only : m.Only kind) (enough : i.pops ≤ m.top)
    (success : execute constants next i m = .ok o m') : m'.Only kind := by
  rw [execute_eq enough] at success
  cases computed : i.outcome constants m.globals (m.cell 1) (m.cell 0) with
  | error e => rw [computed] at success; cases success
  | ok found =>
    rw [computed] at success
    cases found with
    | none =>
      cases success
      refine ⟨only.stack, fun value member => ?_⟩
      cases i with
      | setGlobal slot =>
        rcases Array.mem_or_eq_of_mem_setIfInBounds member with old | rfl
        · exact only.globals value old
        · exact only.cell scalar 0
      | _ => exact only.globals value member
    | some pushed =>
      simp only [finish] at success
      split at success
      · cases success
        refine ⟨fun value member => ?_, only.globals⟩
        rcases Array.mem_or_eq_of_mem_setIfInBounds member with old | rfl
        · exact only.stack value old
        · rcases outcome_source computed with new | constant | global
          · exact scalar value new
          · exact pool value constant
          · exact only.globals value global
      · cases success

end Only

end Machine

end Stacklet
