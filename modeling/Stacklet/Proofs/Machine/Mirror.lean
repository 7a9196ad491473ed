import Stacklet.Proofs.Compile.Relocation
import Stacklet.Proofs.Compile.WellFormed

/-!
# Runs that mirror one another

Code may be run further on in longer code, above cells of the stack in which other
code has left something. `Mirrors` relates the machines of two such runs: what has
been pushed since their start is the same in both, and so are the globals. Each
instruction keeps the relation, or fails on both sides with the same error
(`Mirrors.execute_ok`, `Mirrors.execute_error`); so does a run of accepted code
(`WellFormed.mirrored_steps`, `WellFormed.mirrored_fails`).
-/

namespace Stacklet

/-! ## Shifted instructions -/

namespace Instr

variable {constants constants' globals : Array Value} {under under' top top' : Value} {next : Nat}

theorem pops_shifted (distance : Nat) (i : Instr) : (i.shifted distance).pops = i.pops := by
  cases i <;> rfl

theorem store_shifted {i : Instr} (distance : Nat) (sameTop : 1 ≤ i.pops → top' = top) :
    (i.shifted distance).store globals top' = i.store globals top := by
  cases i with
  | setGlobal slot => rw [sameTop (Nat.le_refl _)]; rfl
  | _ => rfl

theorem goto_shifted {distance : Nat} {i : Instr} (shifts : i.Shifts distance)
    (sameTop : 1 ≤ i.pops → top' = top) :
    (i.shifted distance).goto (next + distance) top' = i.goto next top + distance := by
  cases i with
  | jump target => exact UInt16.toNat_ofNat_of_lt' (shifts _ rfl)
  | jumpNotTruthy target =>
    have there : (UInt16.ofNat (target.toNat + distance)).toNat = target.toNat + distance :=
      UInt16.toNat_ofNat_of_lt' (shifts _ rfl)
    simp only [shifted, goto, there, sameTop (Nat.le_refl _)]
    split <;> rfl
  | _ => rfl

/-- What is computed depends only on the values that are popped, and on the constant
that is loaded. -/
theorem outcome_congr {i : Instr} (distance : Nat) (inRange : i.InRange constants.size globals.size)
    (pool : constants.toList <+: constants'.toList) (sameTop : 1 ≤ i.pops → top' = top)
    (sameUnder : 2 ≤ i.pops → under' = under) :
    (i.shifted distance).outcome constants' globals under' top' =
      i.outcome constants globals under top := by
  cases i with
  | constant index =>
    have inRange' : index.toNat < constants.toList.length := inRange
    have same : constants'[index.toNat]? = constants[index.toNat]? := by
      rw [← Array.getElem?_toList, ← Array.getElem?_toList]
      exact (List.prefix_iff_getElem?.mp pool index.toNat inRange).trans
        (List.getElem?_eq_getElem inRange').symm
    simp only [shifted, outcome, same]
  | pop | jump _ | jumpNotTruthy _ | setGlobal _ | getGlobal _ | pushTrue | pushFalse | pushNull =>
    rfl
  | bang | minus => rw [sameTop (Nat.le_refl _)]; rfl
  | _ => rw [sameTop (by decide), sameUnder (Nat.le_refl _)]; rfl

end Instr

namespace Machine

/-- The second machine mirrors the first one: the cells that have been used since the
start have the same values. -/
structure Mirrors (used : Nat) (m m' : Machine) : Prop where
  top : m'.top = m.top
  inside : m.top ≤ used
  cells : ∀ k < used, m'.stack[k]? = m.stack[k]?
  size : m'.stack.size = m.stack.size
  globals : m'.globals = m.globals

namespace Mirrors

variable {used distance next o stackSize : Nat} {m m' m₁ : Machine} {i : Instr}
  {constants constants' : Array Value} {e : RuntimeError}

theorem refl (m : Machine) : Mirrors m.top m m :=
  ⟨rfl, Nat.le_refl _, fun _ _ => rfl, rfl, rfl⟩

/-- What an empty stack has held does not matter. -/
theorem restarted (mirrors : Mirrors used m m') (size : m.stack.size = stackSize)
    (empty : m.top = 0) : Mirrors 0 (withGlobals stackSize m.globals) m' where
  top := mirrors.top.trans empty
  inside := Nat.le_refl _
  cells k below := (Nat.not_lt_zero k below).elim
  size := (mirrors.size.trans size).trans (Array.size_replicate ..).symm
  globals := mirrors.globals

theorem cell_eq (mirrors : Mirrors used m m') {depth : Nat} (enough : depth + 1 ≤ m.top) :
    m'.cell depth = m.cell depth := by
  have inside := mirrors.inside
  rw [cell, cell, Array.getD_eq_getD_getElem?, Array.getD_eq_getD_getElem?, mirrors.top,
    mirrors.cells _ (by omega)]

theorem lastPopped_eq (mirrors : Mirrors used m m') (above : m.top < used) :
    m'.lastPopped = m.lastPopped := by
  rw [lastPopped, lastPopped, Array.getD_eq_getD_getElem?, Array.getD_eq_getD_getElem?,
    mirrors.top, mirrors.cells _ above]

theorem dropped (mirrors : Mirrors used m m') (count : Nat) :
    Mirrors used (m.dropped count) (m'.dropped count) where
  top := congrArg (· - count) mirrors.top
  inside := Nat.le_trans (Nat.sub_le ..) mirrors.inside
  cells := mirrors.cells
  size := mirrors.size
  globals := mirrors.globals

theorem pushed (mirrors : Mirrors used m m') (value : Value) (room : m.top < m.stack.size) :
    Mirrors (max used (m.top + 1)) (m.pushed value) (m'.pushed value) where
  top := congrArg (· + 1) mirrors.top
  inside := Nat.le_max_right ..
  cells := by
    intro k inside
    have low := mirrors.inside
    have room' := mirrors.size ▸ room
    simp only [Machine.pushed, mirrors.top]
    by_cases same : k = m.top
    · subst same
      rw [Array.getElem?_setIfInBounds_self_of_lt room,
        Array.getElem?_setIfInBounds_self_of_lt room']
    · rw [Array.getElem?_setIfInBounds_ne (Ne.symm same),
        Array.getElem?_setIfInBounds_ne (Ne.symm same)]
      exact mirrors.cells k (by omega)
  size := by simpa [Machine.pushed] using mirrors.size
  globals := mirrors.globals

/-- Both machines compute the same. -/
theorem outcome_eq (mirrors : Mirrors used m m') (enough : i.pops ≤ m.top)
    (inRange : i.InRange constants.size m.globals.size)
    (pool : constants.toList <+: constants'.toList) :
    (i.shifted distance).outcome constants' m'.globals (m'.cell 1) (m'.cell 0) =
      i.outcome constants m.globals (m.cell 1) (m.cell 0) := by
  rw [mirrors.globals]
  exact Instr.outcome_congr distance inRange pool
    (fun one => mirrors.cell_eq (Nat.le_trans one enough))
    (fun two => mirrors.cell_eq (Nat.le_trans two enough))

theorem top_eq (mirrors : Mirrors used m m') (enough : i.pops ≤ m.top)
    (one : 1 ≤ i.pops) : m'.cell 0 = m.cell 0 :=
  mirrors.cell_eq (Nat.le_trans one enough)

theorem execute_eq (mirrors : Mirrors used m m') (enough : i.pops ≤ m.top)
    (inRange : i.InRange constants.size m.globals.size)
    (pool : constants.toList <+: constants'.toList) :
    execute constants' (next + distance) (i.shifted distance) m' =
      finish (next + distance) (i.shifted distance) (m'.cell 0) (m'.dropped i.pops)
        (i.outcome constants m.globals (m.cell 1) (m.cell 0)) := by
  have enough' : (i.shifted distance).pops ≤ m'.top := by
    rw [i.pops_shifted, mirrors.top]
    exact enough
  rw [Machine.execute_eq enough', i.pops_shifted, mirrors.outcome_eq enough inRange pool]

/-- What succeeds on the first machine succeeds on the second. -/
theorem execute_ok (mirrors : Mirrors used m m') (enough : i.pops ≤ m.top)
    (inRange : i.InRange constants.size m.globals.size)
    (pool : constants.toList <+: constants'.toList) (shifts : i.Shifts distance)
    (success : execute constants next i m = .ok o m₁) :
    ∃ m₁', execute constants' (next + distance) (i.shifted distance) m' = .ok (o + distance) m₁' ∧
      Mirrors (max used m₁.top) m₁ m₁' := by
  rw [Machine.execute_eq enough] at success
  rw [mirrors.execute_eq enough inRange pool]
  have rest := mirrors.dropped i.pops
  cases computed : i.outcome constants m.globals (m.cell 1) (m.cell 0) with
  | error e => rw [computed] at success; cases success
  | ok found =>
    rw [computed] at success
    cases found with
    | none =>
      cases success
      simp only [finish]
      rw [Instr.goto_shifted shifts (mirrors.top_eq enough),
        Instr.store_shifted distance (mirrors.top_eq enough), rest.globals]
      have low := rest.inside
      exact ⟨_, rfl, rest.top, Nat.le_max_right .., fun k inside => rest.cells k (by
        simp only [Machine.dropped] at low inside
        omega), rest.size, rfl⟩
    | some value =>
      simp only [finish] at success ⊢
      split at success
      · rename_i room
        cases success
        have room' : (m'.dropped i.pops).top < (m'.dropped i.pops).stack.size := by
          rw [rest.top, rest.size]
          exact room
        rw [if_pos room']
        exact ⟨_, rfl, rest.pushed value room⟩
      · cases success

/-- What fails on the first machine fails on the second with the same error. -/
theorem execute_error (mirrors : Mirrors used m m') (enough : i.pops ≤ m.top)
    (inRange : i.InRange constants.size m.globals.size)
    (pool : constants.toList <+: constants'.toList)
    (failed : execute constants next i m = .error e m₁) :
    ∃ m₁', execute constants' (next + distance) (i.shifted distance) m' = .error e m₁' ∧
      m₁'.globals = m₁.globals := by
  rw [Machine.execute_eq enough] at failed
  rw [mirrors.execute_eq enough inRange pool]
  have rest := mirrors.dropped i.pops
  cases computed : i.outcome constants m.globals (m.cell 1) (m.cell 0) with
  | error e' =>
    rw [computed] at failed
    cases failed
    exact ⟨_, rfl, rest.globals⟩
  | ok found =>
    rw [computed] at failed
    cases found with
    | none => cases failed
    | some value =>
      simp only [finish] at failed ⊢
      split at failed
      · cases failed
      · rename_i full
        cases failed
        have full' : ¬ (m'.dropped i.pops).top < (m'.dropped i.pops).stack.size := by
          rw [rest.top, rest.size]
          exact full
        rw [if_neg full']
        exact ⟨_, rfl, rest.globals⟩

end Mirrors

end Machine

/-! ## Runs further on -/

open Machine

/-- The code of `b`, a row of instructions, stands `distance` further on in `b'`. -/
structure Embedded (b b' : Bytecode) (code : List Instr) (distance : Nat) : Prop where
  holds : b'.code.Holds distance (code.map (Instr.shifted distance))
  shifts : ∀ i ∈ code, i.Shifts distance
  pool : b.constants.toList <+: b'.constants.toList

variable {b b' : Bytecode} {code code' : List Instr} {slots slots' distance used : Nat}
  {height height' : Nat → Nat} {visited : List Nat} {o o₁ : Nat} {m m₁ m' start : Machine}
  {e : RuntimeError}

/-- Code stands in front of other code as it does on its own. -/
theorem Embedded.front {back : List Instr} (bytes : b'.code.toList = Instr.bytesOf (code ++ back))
    (pool : b.constants.toList <+: b'.constants.toList) : Embedded b b' code 0 where
  holds := by
    rw [List.map_id'' Instr.shifted_zero]
    exact (Code.Holds.of_toList bytes).left
  shifts i _ := i.shifts_zero
  pool := pool

theorem Embedded.entryAt?_eq (embedded : Embedded b b' code distance) {i : Instr}
    (placed : Instr.PlacedAt code o i) :
    b'.code.entryAt? (o + distance) = some (.instr (i.shifted distance)) := by
  rcases placed with ⟨front, back, rfl, rfl⟩
  have holds := embedded.holds
  rw [List.map_append, List.map_cons] at holds
  exact (holds.right (by rw [Instr.extent_shifted, Nat.add_comm])).entryAt?_eq

namespace WellFormed

/-- The end of the code is not reached but over an instruction that pushes or pops. -/
theorem pushed_of_end (wellFormed : WellFormed b slots code height) {i : Instr}
    (placed : Instr.PlacedAt code o i) (leads : b.code.size ∈ i.successors (o + i.size)) :
    0 < i.pops + i.pushes := by
  cases i with
  | jump target =>
    have same := List.mem_singleton.mp leads
    obtain ⟨_, inCode, _⟩ := wellFormed.jumps o _ _ placed rfl
    omega
  | jumpNotTruthy _ | getGlobal _ | setGlobal _ | constant _ => exact Nat.one_pos
  | _ => decide

/-- One step is mirrored. -/
theorem mirrored_step (wellFormed : WellFormed b slots code height)
    (embedded : Embedded b b' code distance) (boundary : Instr.Boundary code o)
    (top : m.top = height o) (room : 65536 ≤ m.globals.size) (mirrors : Mirrors used m m')
    (step : Step b o m o₁ m₁) :
    ∃ m₁', Step b' (o + distance) m' (o₁ + distance) m₁' ∧ Mirrors (max used m₁.top) m₁ m₁' ∧
      (o₁ = b.code.size → 0 < max used m₁.top) := by
  rcases step with @⟨i, entry, executed⟩
  obtain ⟨placed, enough⟩ := wellFormed.placed_of_entry boundary entry
  rw [← top] at enough
  obtain ⟨m₁', executed', mirrors'⟩ := mirrors.execute_ok enough
    (wellFormed.inStore room placed.mem) embedded.pool (embedded.shifts i placed.mem) executed
  refine ⟨m₁', ⟨embedded.entryAt?_eq placed, ?_⟩, mirrors', ?_⟩
  · rw [Instr.size_shifted, Nat.add_right_comm]
    exact executed'
  · rintro rfl
    obtain ⟨moves, leads⟩ := execute_ok enough executed
    have busy := wellFormed.pushed_of_end placed leads
    have total := moves.top
    have low := mirrors.inside
    omega

/-- A run is mirrored; if it comes to the end of the code, some cell has been used. -/
theorem mirrored_steps (wellFormed : WellFormed b slots code height)
    (embedded : Embedded b b' code distance) (boundary : Instr.Boundary code o)
    (top : m.top = height o) (room : 65536 ≤ m.globals.size) (mirrors : Mirrors used m m')
    (steps : Steps b visited o m o₁ m₁) :
    ∃ used' m₁', Steps b' (visited.map (· + distance)) (o + distance) m' (o₁ + distance) m₁' ∧
      Mirrors used' m₁ m₁' ∧ used ≤ used' ∧ (o < o₁ → o₁ = b.code.size → 0 < used') := by
  induction steps generalizing used m' with
  | refl => exact ⟨used, m', .refl, mirrors, Nat.le_refl _, fun lt => (Nat.lt_irrefl _ lt).elim⟩
  | @head visited o o₁ o₂ m m₁ m₂ first rest ih =>
    obtain ⟨⟨i, _, enough, executed⟩, _, boundary₁, top₁⟩ := wellFormed.step boundary top first
    have size₁ := (execute_ok enough executed).1.globalsSize
    obtain ⟨m₁', step', mirrors₁, busy⟩ :=
      wellFormed.mirrored_step embedded boundary top room mirrors first
    obtain ⟨used', m₂', steps', mirrors₂, grows, busy'⟩ :=
      ih boundary₁ top₁ (size₁ ▸ room) mirrors₁
    have forward := (wellFormed.steps boundary₁ top₁ rest).2.2.2.1
    refine ⟨used', m₂', .head step' steps', mirrors₂, by omega, fun _ stop => ?_⟩
    rcases Nat.lt_or_ge o₁ o₂ with before | reached
    · exact busy' before stop
    · have used₁ := busy (by omega)
      omega

/-- A failure is mirrored. -/
theorem mirrored_fails (wellFormed : WellFormed b slots code height)
    (embedded : Embedded b b' code distance) (boundary : Instr.Boundary code o)
    (top : m.top = height o) (room : 65536 ≤ m.globals.size) (mirrors : Mirrors used m m')
    (fails : Fails b o m e m₁) :
    ∃ m₁', Fails b' (o + distance) m' e m₁' ∧ m₁'.globals = m₁.globals := by
  rcases fails with @⟨i, entry, executed⟩
  obtain ⟨placed, enough⟩ := wellFormed.placed_of_entry boundary entry
  rw [← top] at enough
  obtain ⟨m₁', executed', same⟩ := mirrors.execute_error enough
    (wellFormed.inStore room placed.mem) embedded.pool executed
  refine ⟨m₁', ⟨embedded.entryAt?_eq placed, ?_⟩, same⟩
  rw [Instr.size_shifted, Nat.add_right_comm]
  exact executed'

/-- A run that comes to the code of `b`, the last thing in its own code, ends as the run
of `b` does. -/
theorem run_behind (wellFormed : WellFormed b slots code height)
    (whole : WellFormed b' slots' code' height') (embedded : Embedded b b' code distance)
    (last : b.code.size + distance = b'.code.size) (top : m.top = 0)
    (room : 65536 ≤ m.globals.size) (mirrors : Mirrors 0 m m') (empty : start.top = 0)
    (reached : Steps b' visited 0 start distance m') :
    ∃ result m₁ m₁', run b m = (result, m₁) ∧ run b' start = (result, m₁') ∧
      m₁'.globals = m₁.globals ∧
      (code ≠ [] → result = .ok () → m₁'.lastPopped = m₁.lastPopped) := by
  have here := Instr.boundary_zero code
  obtain ⟨visited', o, m₁, steps, ending⟩ := wellFormed.run_cases top room
  have height₀ : m.top = height 0 := top.trans wellFormed.start.symm
  obtain ⟨boundary, top₁, size₁, _⟩ := wellFormed.steps here height₀ steps
  obtain ⟨used, m₁', steps', mirrors₁, _, busy⟩ :=
    wellFormed.mirrored_steps embedded here height₀ room mirrors steps
  rw [Nat.zero_add] at steps'
  have all := reached.trans steps'
  rcases ending with ⟨rfl, done⟩ | ⟨e, m₂, _, _, fails, failed⟩
  · have done' := whole.run_of_end empty (last ▸ all)
    refine ⟨_, _, _, done, done', mirrors₁.globals, fun nonempty _ => mirrors₁.lastPopped_eq ?_⟩
    rw [top₁, wellFormed.stop]
    refine busy ?_ rfl
    rw [wellFormed.size_eq]
    exact Instr.extent_pos nonempty
  · obtain ⟨m₂', fails', same⟩ := wellFormed.mirrored_fails embedded boundary top₁
      (size₁ ▸ room) mirrors₁ fails
    exact ⟨_, _, _, failed, whole.run_of_fails empty all fails', same, by simp⟩

end WellFormed

end Stacklet
