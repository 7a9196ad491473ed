import Stacklet.Proofs.Compile.Heights
import Stacklet.Proofs.Machine.Steps

/-!
# Compiled programs are well-formed byte code

`WellFormed` is what a verifier of byte code would accept: the bytes are whole
instructions, operands refer to what exists, jumps lead forward to instructions,
and a table gives one height of the stack for each offset. It says nothing about
runs. `WellFormed.step` and `WellFormed.steps` draw the consequences for them,
and `WellFormed.run_cases` rules out every error of broken code.
-/

namespace Stacklet

/-! ## Operands -/

/-- The operand of an instruction refers to an existing constant or global, or to
an offset below a limit. -/
def Instr.Within (constants slots limit : Nat) (i : Instr) : Prop :=
  i.InRange constants slots ∧ ∀ target, i.target? = some target → target < limit

theorem Instr.Within.mono {i : Instr} {c c' s s' l l' : Nat} (within : i.Within c s l)
    (constants : c ≤ c') (slots : s ≤ s') (limit : l ≤ l') : i.Within c' s' l' := by
  refine ⟨?_, fun target same => Nat.lt_of_lt_of_le (within.2 target same) limit⟩
  have inRange := within.1
  cases i with
  | constant index => exact Nat.lt_of_lt_of_le inRange constants
  | getGlobal slot | setGlobal slot => exact Nat.lt_of_lt_of_le inRange slots
  | _ => trivial

namespace Lowers

variable {f : Fragment} {p q : Progress} {code : List Instr}

theorem size_constants_le (lowers : Lowers f p code q) : p.constants.size ≤ q.constants.size := by
  simpa using lowers.constants_prefix.length_le

theorem position_le (lowers : Lowers f p code q) : p.position ≤ q.position := by
  rw [lowers.position_eq]
  exact Nat.le_add_right ..

/-- What was within the bounds of one part is within those of a later one. -/
theorem within_mono {i : Instr} {limit limit' : Nat} (lowers : Lowers f p code q)
    (within : i.Within p.constants.size p.slots.count limit) (le : limit ≤ limit') :
    i.Within q.constants.size q.slots.count limit' :=
  within.mono lowers.size_constants_le lowers.count_le le

/-- An instruction without an operand is within any bounds. -/
theorem within_plain {i : Instr} {c s l : Nat} (plain : i.operand? = none) : i.Within c s l := by
  cases i with
  | constant _ | getGlobal _ | setGlobal _ | jump _ | jumpNotTruthy _ => cases plain
  | _ => exact ⟨trivial, by simp [Instr.target?]⟩

/-- The code of two operands and an operator behind it. -/
theorem within_operator (op : BinaryOp) {r : Progress} {e : Expr} {limit : Nat}
    {first second : List Instr} (lower : Lowers (.expr e) q second r)
    (inFirst : ∀ i ∈ first, i.Within q.constants.size q.slots.count (q.position + limit))
    (inSecond : ∀ i ∈ second, i.Within r.constants.size r.slots.count (r.position + limit)) :
    ∀ i ∈ first ++ second ++ [op.instr],
      i.Within r.constants.size r.slots.count (r.position + 1 + limit) := by
  intro i member
  have grows := lower.position_le
  rcases List.mem_append.mp member with inside | last
  · rcases List.mem_append.mp inside with before | behind
    · exact lower.within_mono (inFirst i before) (by omega)
    · exact (inSecond i behind).mono (Nat.le_refl _) (Nat.le_refl _) (by omega)
  · rcases List.mem_singleton.mp last with rfl
    cases op <;> exact within_plain rfl

/-- All operands of compiled code are in range. The code of a statement does not
jump behind itself. -/
theorem within (lowers : Lowers f p code q) :
    ∀ i ∈ code, i.Within q.constants.size q.slots.count (q.position + f.leaves) := by
  induction lowers with
  | @integer p n room | @text p s room =>
    intro i member
    rcases List.mem_singleton.mp member with rfl
    refine ⟨?_, by simp [Instr.target?]⟩
    simp only [Instr.InRange, UInt16.toNat_ofNat_of_lt' room]
    simp
  | @boolean p b =>
    intro i member
    rcases List.mem_singleton.mp member with rfl
    cases b <;> exact within_plain rfl
  | @name p name slot found fits =>
    intro i member
    rcases List.mem_singleton.mp member with rfl
    refine ⟨?_, by simp [Instr.target?]⟩
    simp only [Instr.InRange, UInt16.toNat_ofNat_of_lt' fits]
    exact Slots.lt_count found
  | valueless | absent =>
    intro i member
    rcases List.mem_singleton.mp member with rfl
    exact within_plain rfl
  | @unary p q op e code lower ih =>
    intro i member
    rcases List.mem_append.mp member with inside | last
    · exact (ih i inside).mono (Nat.le_refl _) (Nat.le_refl _) (Nat.le_succ _)
    · rcases List.mem_singleton.mp last with rfl
      cases op <;> exact within_plain rfl
  | @binary _ _ _ op _ _ _ _ _ _ lower' ih ih' => exact lower'.within_operator op ih ih'
  | less _ lower' ih ih' => exact lower'.within_operator .less ih ih'
  | @conditional p q r s condition consequence alternative test whenTrue whenFalse
      lower lower' fits lower'' fits' ih ih' ih'' =>
    have grows := lower'.position_le
    have grows' := lower''.position_le
    simp only [Progress.position_advance] at grows grows'
    intro i member
    simp only [List.mem_append, List.mem_singleton] at member
    rcases member with (((inTest | rfl) | inTrue) | rfl) | inFalse
    · refine lower''.within_mono (lower'.within_mono (ih i inTest) (Nat.le_refl _)) ?_
      simp only [Fragment.leaves]
      omega
    · refine ⟨trivial, fun target same => ?_⟩
      cases same
      rw [UInt16.toNat_ofNat_of_lt' fits]
      simp only [Fragment.leaves]
      omega
    · refine lower''.within_mono (ih' i inTrue) ?_
      simp only [Fragment.leaves]
      omega
    · refine ⟨trivial, fun target same => ?_⟩
      cases same
      rw [UInt16.toNat_ofNat_of_lt' fits']
      exact Nat.lt_succ_self _
    · exact ih'' i inFalse
  | @define p q name value code lower fits ih =>
    intro i member
    rcases List.mem_append.mp member with inside | last
    · refine (ih i inside).mono (Nat.le_refl _) (Nat.le_succ _) ?_
      exact Nat.add_le_add_left (show 1 ≤ 3 by decide) _
    · rcases List.mem_singleton.mp last with rfl
      refine ⟨?_, by simp [Instr.target?]⟩
      simp only [Instr.InRange, UInt16.toNat_ofNat_of_lt' fits]
      exact Nat.lt_succ_self _
  | @dropped p q e code lower ih =>
    intro i member
    rcases List.mem_append.mp member with inside | last
    · exact ih i inside
    · rcases List.mem_singleton.mp last with rfl
      exact within_plain rfl
  | done => simp
  | next lower lower' ih ih' | before _ lower lower' ih ih' =>
    intro i member
    rcases List.mem_append.mp member with inHead | inTail
    · exact lower'.within_mono (ih i inHead) (Nat.le_add_right_of_le lower'.position_le)
    · exact ih' i inTail
  | kept _ ih | present _ ih => exact ih

end Lowers

/-! ## What a verifier accepts -/

/-- An instruction of a row starts at an offset. -/
def Instr.PlacedAt (code : List Instr) (offset : Nat) (i : Instr) : Prop :=
  ∃ front back, code = front ++ i :: back ∧ Instr.extent front = offset

/-- Code that a verifier accepts, with the table of heights that it has found. -/
structure WellFormed (b : Bytecode) (slots : Nat) (code : List Instr) (height : Nat → Nat) :
    Prop where
  /-- The bytes split into complete instructions. -/
  bytes : b.code.toList = Instr.bytesOf code
  inRange : ∀ i ∈ code, i.InRange b.constants.size slots
  /-- Jumps lead forward to instructions. -/
  jumps : ∀ o i target, Instr.PlacedAt code o i → i.target? = some target →
    o < target ∧ target < b.code.size ∧ Instr.Boundary code target
  start : height 0 = 0
  stop : height b.code.size = 0
  enough : ∀ o i, Instr.PlacedAt code o i → i.pops ≤ height o
  /-- The height is the same whatever way leads to an offset. -/
  balance : ∀ o i next, Instr.PlacedAt code o i → next ∈ i.successors (o + i.size) →
    height next + i.pops = height o + i.pushes

section Rows

variable {code : List Instr} {i : Instr} {o : Nat} {height : Nat → Nat} {boundary : Nat → Prop}

theorem Instr.boundary_zero (code : List Instr) : Instr.Boundary code 0 := ⟨[], code, rfl, rfl⟩

theorem Instr.PlacedAt.mem (placed : Instr.PlacedAt code o i) : i ∈ code := by
  rcases placed with ⟨front, back, rfl, _⟩
  simp

/-- The instruction behind one starts where that one ends. -/
theorem Instr.PlacedAt.boundary_behind (placed : Instr.PlacedAt code o i) :
    Instr.Boundary code (o + i.size) := by
  rcases placed with ⟨front, back, rfl, rfl⟩
  exact ⟨front ++ [i], back, by simp, by simp⟩

/-- At a boundary either an instruction starts or the row ends. -/
theorem Instr.Boundary.cases (boundary : Instr.Boundary code o) :
    o = Instr.extent code ∨ ∃ i, Instr.PlacedAt code o i := by
  rcases boundary with ⟨front, back, rfl, rfl⟩
  cases back with
  | nil => exact .inl (by simp)
  | cons i back => exact .inr ⟨i, front, back, rfl, rfl⟩

theorem Scanned.heightBehind_eq (scanned : Scanned height boundary 0 code)
    (placed : Instr.PlacedAt code o i) : height (o + i.size) = i.heightBehind (height o) := by
  rcases placed with ⟨front, back, rfl, rfl⟩
  exact (scanned.right (Nat.zero_add _).symm).2.1

theorem Checked.at_placed (checked : Checked height boundary 0 code)
    (placed : Instr.PlacedAt code o i) :
    i.pops ≤ height o ∧ ∀ target, i.target? = some target →
      o < target ∧ boundary target ∧ height target + i.pops = height o + i.pushes := by
  rcases placed with ⟨front, back, rfl, rfl⟩
  have there := checked.right (Nat.zero_add _).symm
  exact ⟨there.1, there.2.1⟩

end Rows

/-! ## Compiled code is accepted -/

/-- The code of a program, from the names and constants of earlier ones on. -/
theorem Lowers.wellFormed {program : Program} {env : Env} {q : Progress} {code : List Instr}
    {b : Bytecode} (lowers : Lowers (.block program) ⟨env, 0⟩ code q)
    (bytes : b.code.toList = Instr.bytesOf code) (constants : b.constants = q.constants) :
    WellFormed b q.slots.count code (Instr.heightAt code 0) := by
  have size : b.code.size = q.position := by
    rw [lowers.position_eq, ← Array.length_toList, bytes, Instr.length_bytesOf]
    exact (Nat.zero_add _).symm
  have scanned : Scanned (Instr.heightAt code 0) (Instr.Boundary code) 0 code :=
    scanned_heightAt [] code 0
  have start : Instr.heightAt code 0 0 = 0 := by cases code <;> rfl
  obtain ⟨rises, checked⟩ := lowers.checked scanned
  have within := lowers.within
  refine ⟨bytes, ?_, ?_, start, ?_, ?_, ?_⟩
  · intro i member
    rw [constants]
    exact (within i member).1
  · intro o i target placed jumps
    obtain ⟨forward, boundary, _⟩ := (checked.at_placed placed).2 target jumps
    rw [size]
    exact ⟨forward, (within i placed.mem).2 target jumps, boundary⟩
  · rw [size, rises]
    exact start
  · exact fun o i placed => (checked.at_placed placed).1
  · intro o i next placed leads
    have enough := (checked.at_placed placed).1
    have falls := scanned.heightBehind_eq placed
    have jumps := (checked.at_placed placed).2
    cases i with
    | jump target =>
      rcases List.mem_singleton.mp leads with rfl
      exact (jumps _ rfl).2.2
    | jumpNotTruthy target =>
      rcases List.mem_cons.mp leads with rfl | leads
      · rw [falls]
        exact Nat.sub_add_cancel enough
      · rcases List.mem_singleton.mp leads with rfl
        exact (jumps _ rfl).2.2
    | _ =>
      rcases List.mem_singleton.mp leads with rfl
      rw [falls, Instr.heightBehind_eq (by simp)]
      omega

/-! ## Runs of accepted code -/

namespace WellFormed

open Machine

variable {b : Bytecode} {slots : Nat} {code : List Instr} {height : Nat → Nat}
  {visited : List Nat} {o o' : Nat} {m m' : Machine}

theorem size_eq (wellFormed : WellFormed b slots code height) :
    b.code.size = Instr.extent code := by
  rw [← Array.length_toList, wellFormed.bytes, Instr.length_bytesOf]

theorem entryAt?_eq (wellFormed : WellFormed b slots code height) {i : Instr}
    (placed : Instr.PlacedAt code o i) : b.code.entryAt? o = some (.instr i) := by
  rcases placed with ⟨front, back, rfl, rfl⟩
  have holds := (Code.Holds.of_toList wellFormed.bytes).right (Nat.zero_add _).symm
  exact holds.entryAt?_eq

/-- Wherever a run can go on behind an instruction, it goes on forward and to a
boundary. -/
theorem successor (wellFormed : WellFormed b slots code height) {i : Instr}
    (placed : Instr.PlacedAt code o i) (leads : o' ∈ i.successors (o + i.size)) :
    o < o' ∧ Instr.Boundary code o' := by
  have positive := i.size_pos
  have behind : o < o + i.size ∧ Instr.Boundary code (o + i.size) :=
    ⟨by omega, placed.boundary_behind⟩
  cases i with
  | jump target =>
    rcases List.mem_singleton.mp leads with rfl
    obtain ⟨forward, _, boundary⟩ := wellFormed.jumps o _ _ placed rfl
    exact ⟨forward, boundary⟩
  | jumpNotTruthy target =>
    rcases List.mem_cons.mp leads with rfl | leads
    · exact behind
    · rcases List.mem_singleton.mp leads with rfl
      obtain ⟨forward, _, boundary⟩ := wellFormed.jumps o _ _ placed rfl
      exact ⟨forward, boundary⟩
  | _ =>
    rcases List.mem_singleton.mp leads with rfl
    exact behind

/-- What stands at a boundary is the end of the code or an instruction that finds
enough values on a stack of the right height. -/
theorem entry_cases (wellFormed : WellFormed b slots code height)
    (boundary : Instr.Boundary code o) :
    (o = b.code.size ∧ b.code.entryAt? o = none) ∨
      ∃ i, Instr.PlacedAt code o i ∧ i.pops ≤ height o ∧ b.code.entryAt? o = some (.instr i) := by
  rcases boundary.cases with rfl | ⟨i, placed⟩
  · rw [← wellFormed.size_eq]
    exact .inl ⟨rfl, Code.entryAt?_size _⟩
  · exact .inr ⟨i, placed, wellFormed.enough o i placed, wellFormed.entryAt?_eq placed⟩

/-- An instruction that a run finds at a boundary is one of the row. -/
theorem placed_of_entry (wellFormed : WellFormed b slots code height)
    (boundary : Instr.Boundary code o) {i : Instr} (entry : b.code.entryAt? o = some (.instr i)) :
    Instr.PlacedAt code o i ∧ i.pops ≤ height o := by
  rcases wellFormed.entry_cases boundary with ⟨_, stops⟩ | ⟨_, placed, enough, found⟩
  · rw [stops] at entry
    cases entry
  · rw [entry] at found
    cases found
    exact ⟨placed, enough⟩

/-- One step goes on to a later boundary at its height. -/
theorem step (wellFormed : WellFormed b slots code height) (boundary : Instr.Boundary code o)
    (top : m.top = height o) (step : Step b o m o' m') :
    (∃ i ∈ code, i.pops ≤ m.top ∧ execute b.constants (o + i.size) i m = .ok o' m') ∧
      o < o' ∧ Instr.Boundary code o' ∧ m'.top = height o' := by
  rcases step with @⟨i, entry, executed⟩
  obtain ⟨placed, enough⟩ := wellFormed.placed_of_entry boundary entry
  rw [← top] at enough
  obtain ⟨moves, leads⟩ := execute_ok enough executed
  have balance := wellFormed.balance o i o' placed leads
  have total := moves.top
  obtain ⟨forward, boundary'⟩ := wellFormed.successor placed leads
  exact ⟨⟨i, placed.mem, enough, executed⟩, forward, boundary', by omega⟩

/-- Whatever way a run has taken to an offset, the stack has the height of that
offset, and the offsets on the way were met in order. -/
theorem steps (wellFormed : WellFormed b slots code height) (boundary : Instr.Boundary code o)
    (top : m.top = height o) (steps : Steps b visited o m o' m') :
    Instr.Boundary code o' ∧ m'.top = height o' ∧ m'.globals.size = m.globals.size ∧
      o + visited.length ≤ o' ∧ (∀ v ∈ visited ++ [o'], o ≤ v) ∧
      (visited ++ [o']).Pairwise (· < ·) := by
  induction steps with
  | refl =>
    refine ⟨boundary, top, rfl, Nat.le_refl _, ?_, List.pairwise_singleton ..⟩
    intro v member
    exact Nat.le_of_eq (List.mem_singleton.mp member).symm
  | @head visited o o₁ o₂ m m₁ m₂ first rest ih =>
    obtain ⟨⟨i, _, enough, executed⟩, forward, boundary₁, top₁⟩ :=
      wellFormed.step boundary top first
    obtain ⟨boundary₂, top₂, size, count, above, increasing⟩ := ih boundary₁ top₁
    have later : ∀ v ∈ visited ++ [o₂], o < v := fun v member =>
      Nat.lt_of_lt_of_le forward (above v member)
    refine ⟨boundary₂, top₂, size.trans (execute_ok enough executed).1.globalsSize, ?_, ?_,
      List.pairwise_cons.mpr ⟨later, increasing⟩⟩
    · rw [List.length_cons]
      omega
    · intro v member
      rcases List.mem_cons.mp member with rfl | member
      · exact Nat.le_refl _
      · exact Nat.le_of_lt (later v member)

theorem steps_stackSize (wellFormed : WellFormed b slots code height)
    (boundary : Instr.Boundary code o) (top : m.top = height o)
    (steps : Steps b visited o m o' m') :
    m'.stack.size = m.stack.size := by
  induction steps with
  | refl => rfl
  | head first rest ih =>
    obtain ⟨⟨i, _, enough, executed⟩, _, boundary', top'⟩ := wellFormed.step boundary top first
    exact (ih boundary' top').trans (execute_ok enough executed).1.stackSize

theorem boundary_le (wellFormed : WellFormed b slots code height)
    (boundary : Instr.Boundary code o) : o ≤ b.code.size := by
  rcases boundary with ⟨front, back, rfl, rfl⟩
  rw [wellFormed.size_eq, Instr.extent_append]
  exact Nat.le_add_right ..

/-- A run from the start has steps enough for any way through the code. -/
theorem short (wellFormed : WellFormed b slots code height) (top : m.top = 0)
    (steps : Steps b visited 0 m o m') : visited.length ≤ b.code.size := by
  obtain ⟨boundary, _, _, count, _⟩ :=
    wellFormed.steps (Instr.boundary_zero code) (top.trans wellFormed.start.symm) steps
  have inCode := wellFormed.boundary_le boundary
  omega

theorem run_of_end (wellFormed : WellFormed b slots code height) (top : m.top = 0)
    (steps : Steps b visited 0 m b.code.size m') : run b m = (.ok (), m') :=
  steps.run_of_end (wellFormed.short top steps) (Code.entryAt?_size _)

theorem run_of_fails (wellFormed : WellFormed b slots code height) {e : RuntimeError}
    {m'' : Machine} (top : m.top = 0) (steps : Steps b visited 0 m o m')
    (fails : Fails b o m' e m'') : run b m = (.error e, m'') :=
  steps.run_of_fails (wellFormed.short top steps) fails

/-- An instruction of accepted code refers to what a machine has. -/
theorem inStore (wellFormed : WellFormed b slots code height) (room : 65536 ≤ m.globals.size)
    {i : Instr} (member : i ∈ code) : i.InRange b.constants.size m.globals.size := by
  have inPool := wellFormed.inRange i member
  -- An operand has two bytes, whatever the number of slots.
  cases i with
  | getGlobal slot | setGlobal slot => exact Nat.lt_of_lt_of_le slot.toNat_lt room
  | _ => exact inPool

/-- A run from the start of the code comes to its end or to an error of the
program. -/
theorem run_cases (wellFormed : WellFormed b slots code height) (top : m.top = 0)
    (room : 65536 ≤ m.globals.size) :
    ∃ visited o m', Steps b visited 0 m o m' ∧
      ((o = b.code.size ∧ run b m = (.ok (), m')) ∨
        ∃ e m'', e.OfProgram ∧ m''.globals = m'.globals ∧ Fails b o m' e m'' ∧
          run b m = (.error e, m'')) := by
  obtain ⟨visited, o, m', steps, ending⟩ := runFrom_cases b (patience b) 0 m
  obtain ⟨boundary, top', globals, count, _, _⟩ :=
    wellFormed.steps (Instr.boundary_zero code) (top.trans wellFormed.start.symm) steps
  refine ⟨visited, o, m', steps, ?_⟩
  rcases wellFormed.entry_cases boundary with ⟨stop, stops⟩ | ⟨i, placed, enough, found⟩
  · rcases ending with ⟨_, done⟩ | ⟨e, m'', ⟨entry, _⟩, _⟩ | ⟨_, _, entry, _⟩ | ⟨_, entry, _⟩
    · exact .inl ⟨stop, run_of_ok done⟩
    · rw [stops] at entry
      cases entry
    · rw [stops] at entry
      cases entry
    · exact (entry stops).elim
  · rcases ending with ⟨entry, _⟩ | ⟨e, m'', fails, failed⟩ | ⟨_, _, entry, decoded, _⟩ | ⟨long, _⟩
    · rw [found] at entry
      cases entry
    · rcases fails with ⟨entry, executed⟩
      rw [found] at entry
      cases entry
      rw [← top'] at enough
      have inStore := wellFormed.inStore (globals ▸ room : 65536 ≤ m'.globals.size) placed.mem
      obtain ⟨ofProgram, same⟩ := execute_error enough inStore executed
      exact .inr ⟨e, m'', ofProgram, same, ⟨found, executed⟩, run_of_error failed⟩
    · rw [found] at entry
      cases entry
      cases decoded
    · have bound := wellFormed.boundary_le boundary
      have patient := size_lt_patience b
      omega

end WellFormed

/-! ## Compiled programs -/

section Compiled

open Machine

variable {program : Program} {env env' : Env} {b : Bytecode}

/-- Compiled programs are well-formed, and their runs keep to it: on a stack of
any height and with any globals a run meets each instruction at most once and at
one height, comes to an end, and fails only with errors of the program. -/
theorem Program.compile_wellFormed (compiled : program.compile env = .ok (b, env')) :
    ∃ code height, WellFormed b env'.slots.count code height ∧
      ∀ m : Machine, m.top = 0 → m.globals.size = 65536 →
        (∀ visited o m', Steps b visited 0 m o m' →
          Instr.Boundary code o ∧ m'.top = height o ∧ (visited ++ [o]).Pairwise (· < ·)) ∧
        ∃ visited o m', Steps b visited 0 m o m' ∧
          ((o = b.code.size ∧ run b m = (.ok (), m')) ∨
            ∃ e m'', e.OfProgram ∧ Fails b o m' e m'' ∧ run b m = (.error e, m'')) := by
  obtain ⟨code, q, lowers, bytes, constants, rfl⟩ := program.lowers compiled
  have wellFormed := lowers.wellFormed bytes constants
  refine ⟨code, _, wellFormed, fun m top size => ⟨?_, ?_⟩⟩
  · intro visited o m' steps
    obtain ⟨boundary, top', _, _, _, increasing⟩ :=
      wellFormed.steps (Instr.boundary_zero code) (top.trans wellFormed.start.symm) steps
    exact ⟨boundary, top', increasing⟩
  · obtain ⟨visited, o, m', steps, done | ⟨e, m'', ofProgram, _, failed⟩⟩ :=
      wellFormed.run_cases top (Nat.le_of_eq size.symm)
    · exact ⟨visited, o, m', steps, .inl done⟩
    · exact ⟨visited, o, m', steps, .inr ⟨e, m'', ofProgram, failed⟩⟩

theorem Program.compile_wellFormed_conditional :
    ∃ b env', Program.compile
        [.define "a" (.boolean true), .expr (.conditional (.name "a") [.expr (.integer 1)] none)]
        .empty = .ok (b, env') ∧
      ∃ code height, WellFormed b env'.slots.count code height ∧
        ∀ visited o m', Steps b visited 0 (withGlobals 1 (freshGlobals 65536)) o m' →
          Instr.Boundary code o ∧ m'.top = height o ∧ (visited ++ [o]).Pairwise (· < ·) := by
  refine ⟨_, _, rfl, ?_⟩
  obtain ⟨code, height, wellFormed, runs⟩ := Program.compile_wellFormed (show Program.compile
        [.define "a" (.boolean true), .expr (.conditional (.name "a") [.expr (.integer 1)] none)]
        .empty = .ok (_, _) from rfl)
  exact ⟨code, height, wellFormed, (runs _ rfl (Array.size_replicate ..)).1⟩

end Compiled

end Stacklet
