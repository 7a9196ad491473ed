import Stacklet.Proofs.Compile.WellFormed
import Stacklet.Proofs.Machine.Performance
import Stacklet.Proofs.Program.Cells

/-!
# Compiled programs do what they mean

The machine on compiled code simulates the evaluator on the syntax tree.
`Simulates` is what one fragment promises, wherever its code stands, whatever
lies on the stack below, and whatever constants and code come later, as long as
there is room for what the evaluation takes; `Lowers.simulates` is the induction
over the rules of compilation. A fragment leaves its value one cell above where
the stack ended, and a statement pops it from there, so the value of the last
statement is the value popped last. `Realizes` asks for room for the whole tree,
which can be told without evaluating it.
-/

namespace Stacklet

open Machine

/-! ## Operators -/

theorem ofInt_tdiv_toInt (a b : Int64) : Int64.ofInt (a.toInt.tdiv b.toInt) = a / b := by
  rw [Int64.ofInt_tdiv a.minValue_le_toInt a.toInt_le b.minValue_le_toInt b.toInt_le]
  simp

theorem BinaryOp.binaryValue_integers {op : BinaryOp} (notLess : op ≠ .less) (a b : Int64) :
    binaryValue op.instr.opcode (.integer a) (.integer b) = op.ofIntegers a.toInt b.toInt := by
  cases op with
  | add | subtract | multiply =>
    simp only [BinaryOp.ofIntegers, Int64.ofInt_add, Int64.ofInt_sub, Int64.ofInt_mul,
      Int64.ofInt_toInt]
    rfl
  | divide =>
    simp only [BinaryOp.ofIntegers, ofInt_tdiv_toInt, ← Int64.toInt_zero, Int64.toInt_inj]
    change Value.integer <$>
      ite (b = 0) (Except.error RuntimeError.divisionByZero) (Except.ok (a / b)) = _
    split <;> rfl
  | less => exact (notLess rfl).elim
  | greater =>
    simp only [BinaryOp.ofIntegers, ← Int64.lt_iff_toInt_lt]
    rfl
  | equal | notEqual =>
    simp only [BinaryOp.ofIntegers, Int64.toInt_inj, ne_eq]
    rfl

/-- The machine applies every operator but "less" to its operands as they stand. -/
theorem BinaryOp.binaryValue_eq {op : BinaryOp} (notLess : op ≠ .less) (left right : Value) :
    binaryValue op.instr.opcode left right = op.apply left right := by
  cases op with
  | less => exact (notLess rfl).elim
  | _ =>
    cases left with
    | integer a =>
      cases right with
      | integer b => exact binaryValue_integers notLess a b
      | _ => rfl
    | _ => cases right <;> rfl

/-- It applies "greater" to swapped operands in place of "less". -/
theorem BinaryOp.binaryValue_less (left right : Value) :
    binaryValue .greaterThan right left = BinaryOp.less.apply left right := by
  cases left with
  | integer a =>
    cases right with
    | integer b =>
      simp only [BinaryOp.apply, BinaryOp.ofIntegers, ← Int64.lt_iff_toInt_lt]
      rfl
    | _ => rfl
  | _ => cases right <;> rfl

theorem BinaryOp.outcome_eq {op : BinaryOp} (notLess : op ≠ .less)
    (constants globals : Array Value) (left right : Value) :
    op.instr.outcome constants globals left right = some <$> op.apply left right := by
  rw [← binaryValue_eq notLess]
  cases op <;> rfl

theorem UnaryOp.outcome_eq (op : UnaryOp) (constants globals : Array Value) (under value : Value) :
    op.instr.outcome constants globals under value = some <$> op.apply value := by
  cases op with
  | not => rfl
  | negate =>
    cases value with
    | integer n =>
      simp only [UnaryOp.apply, Int64.ofInt_neg, Int64.ofInt_toInt]
      rfl
    | _ => rfl

/-! ## Fragments -/

namespace Fragment

/-- The names behind a fragment. -/
def scope : Fragment → Slots → Slots
  | .expr e => e.scope
  | .stmt s => s.scope
  | .block statements | .branch statements => Stmt.scopeAll statements
  | .alternative second => Stmt.scopeAlternative second

/-- The value of a fragment, given the value that was there last. -/
def eval : Fragment → Slots → Value → Eval Value
  | .expr e, slots, _ => e.eval slots
  | .stmt s, slots, _ => s.eval slots
  | .block statements, slots, last => Stmt.evalAll statements slots last
  | .branch statements, slots, _ => Stmt.evalBranch statements slots
  | .alternative second, slots, _ => Stmt.evalAlternative second slots

/-- A number of stack cells that is enough for a fragment. -/
def cells : Fragment → Nat
  | .expr e => e.nodes
  | .stmt s => s.nodes
  | .block statements => Stmt.nodesAll statements
  | .branch statements => Stmt.nodesAll statements + 1
  | .alternative second => Stmt.nodesAlternative second + 1

/-- The stack cells that a fragment takes. -/
def peak : Fragment → Slots → Array Value → Nat
  | .expr e => e.peak
  | .stmt s => s.peak
  | .block statements => Stmt.peakAll statements
  | .branch statements => fun slots globals => max 1 (Stmt.peakAll statements slots globals)
  | .alternative second => Stmt.peakAlternative second

theorem peak_le_cells (f : Fragment) (slots : Slots) (globals : Array Value) :
    f.peak slots globals ≤ f.cells := by
  cases f with
  | expr e => exact e.peak_le_nodes slots globals
  | stmt s => exact s.peak_le_nodes slots globals
  | block statements => exact Stmt.peakAll_le_nodes statements slots globals
  | branch statements =>
    have taken := Stmt.peakAll_le_nodes statements slots globals
    simp only [peak, cells]
    omega
  | alternative second => exact Stmt.peakAlternative_le_nodes second slots globals

end Fragment

/-- The compiler defines names where the evaluator takes them to be defined. -/
theorem Lowers.slots_eq {f : Fragment} {p q : Progress} {code : List Instr}
    (lowers : Lowers f p code q) : q.slots = f.scope p.slots := by
  induction lowers with
  | integer | text | boolean | name | valueless | absent => rfl
  | done => rfl
  | unary _ ih | dropped _ ih | kept _ ih | present _ ih => exact ih
  | @binary _ _ _ op _ _ _ _ notLess _ _ ih ih' =>
    change _ = Expr.scope _ _
    rw [Expr.scope, if_neg notLess]
    exact ih'.trans (congrArg _ ih)
  | less _ _ ih ih' => exact ih'.trans (congrArg _ ih)
  | conditional _ _ _ _ _ ih ih' ih'' =>
    exact ih''.trans (congrArg _ (ih'.trans (congrArg _ ih)))
  | @define _ _ name _ _ _ _ ih => exact congrArg (Slots.define · name) ih
  | next _ _ ih ih' | before _ _ _ ih ih' => exact ih'.trans (congrArg _ ih)

/-- How the blocks of a conditional yield a value, statement by statement. -/
theorem Stmt.evalBranch_cons {s : Stmt} {rest : List Stmt} (inner : rest = [] → ¬ s.IsExpr)
    (slots : Slots) :
    Stmt.evalBranch (s :: rest) slots =
      (do let _ ← s.eval slots; Stmt.evalBranch rest (s.scope slots)) := by
  unfold Stmt.evalBranch
  rw [Stmt.evalAll, bind_assoc]
  congr 1
  funext value
  cases rest with
  | nil =>
    cases s with
    | expr e => exact (inner rfl ⟨e, rfl⟩).elim
    | define name e => rfl
    | «return» e => rfl
  | cons t rest => rfl

theorem Stmt.evalBranch_expr (e : Expr) (slots : Slots) :
    Stmt.evalBranch [.expr e] slots = e.eval slots := by
  unfold Stmt.evalBranch
  rw [Stmt.evalAll, bind_assoc]
  exact bind_pure _

/-! ## The simulation -/

/-- The last constant that was added is there for the instruction that loads it. -/
theorem outcome_constant {constants pool globals : Array Value} {under top value : Value}
    (room : constants.size < 65536) (front : (constants.push value).toList <+: pool.toList) :
    (Instr.constant (.ofNat constants.size)).outcome pool globals under top =
      .ok (some value) := by
  have inPool : pool[constants.size]? = some value := by
    rw [← Array.getElem?_toList]
    have last := List.prefix_iff_getElem?.mp front constants.size (by simp)
    simpa using last
  simp only [Instr.outcome_of_constant, UInt16.toNat_ofNat_of_lt' room, inPool]

theorem outcome_getGlobal {constants globals : Array Value} {under top : Value} {slot : Nat}
    (fits : slot < 65536) (room : 65536 ≤ globals.size) :
    (Instr.getGlobal (.ofNat slot)).outcome constants globals under top =
      .ok (some (globals.getD slot .null)) := by
  have inStore : slot < globals.size := Nat.lt_of_lt_of_le fits room
  simp only [Instr.outcome_of_getGlobal, UInt16.toNat_ofNat_of_lt' fits,
    Array.getElem?_eq_getElem inStore, Array.getD_eq_getD_getElem?, Option.getD_some]

theorem outcome_setGlobal {constants globals : Array Value} {under top : Value} {slot : Nat}
    (fits : slot < 65536) (room : 65536 ≤ globals.size) :
    (Instr.setGlobal (.ofNat slot)).outcome constants globals under top = .ok none := by
  have inStore : slot < globals.size := Nat.lt_of_lt_of_le fits room
  simp only [Instr.outcome_of_setGlobal, UInt16.toNat_ofNat_of_lt' fits, if_pos inStore]

/-- Wherever the code of a fragment stands, it does what the fragment means, on
every machine with room for the cells that are taken. -/
def Simulates (f : Fragment) (p : Progress) (code : List Instr) (q : Progress) : Prop :=
  ∀ {b : Bytecode} {m : Machine}, b.code.Holds p.position code →
    q.constants.toList <+: b.constants.toList → 65536 ≤ m.globals.size →
    m.top + f.peak p.slots m.globals ≤ m.stack.size →
    Performs b (Left f.leaves m) p.position m q.position (f.eval p.slots m.lastPopped m.globals)

section Simulates

variable {f : Fragment} {p q : Progress} {code : List Instr} {b : Bytecode} {m m₁ : Machine}
  {value : Value} {globals : Array Value} {leaves : Nat}

/-- Code behind code that has left a value. -/
theorem Simulates.above (simulates : Simulates f p code q) (left : Left leaves m value globals m₁)
    (holds : b.code.Holds p.position code) (pool : q.constants.toList <+: b.constants.toList)
    (size : 65536 ≤ m.globals.size)
    (room : m.top + leaves + f.peak p.slots globals ≤ m.stack.size) :
    Performs b (Left f.leaves m₁) p.position m₁ q.position
      (f.eval p.slots m₁.lastPopped globals) := by
  obtain rfl := left.globals
  apply simulates holds pool
  · rw [left.globalsSize]
    exact size
  · rw [left.top, left.stackSize]
    exact room

/-- Code behind code that has left nothing on the stack. -/
theorem Simulates.behind (simulates : Simulates f p code q) (left : Left 0 m value globals m₁)
    (holds : b.code.Holds p.position code) (pool : q.constants.toList <+: b.constants.toList)
    (size : 65536 ≤ m.globals.size) (room : m.top + f.peak p.slots globals ≤ m.stack.size) :
    Performs b (Left f.leaves m) p.position m₁ q.position (f.eval p.slots value globals) := by
  have performs := simulates.above left holds pool size room
  have last : m₁.lastPopped = value := by
    rw [← left.value, lastPopped, left.top]
    rfl
  rw [last] at performs
  exact performs.mono fun _ _ _ left' => left'.above left.toKept left.top

/-- The code of two operands and an operator behind it. -/
theorem Simulates.operator {r : Progress} {left right : Expr} {first second : List Instr}
    {i : Instr} {compute : Value → Value → Except RuntimeError Value}
    (simulates : Simulates (.expr left) p first q) (simulates' : Simulates (.expr right) q second r)
    (lower : Lowers (.expr left) p first q) (lower' : Lowers (.expr right) q second r)
    (pops : i.pops = 2)
    (outcome : ∀ constants globals under top,
      i.outcome constants globals under top = some <$> compute under top)
    (holds : b.code.Holds p.position (first ++ second ++ [i]))
    (pool : r.constants.toList <+: b.constants.toList) (size : 65536 ≤ m.globals.size)
    (room : m.top + peakThen (left.peak p.slots m.globals)
      (fun _ globals => right.peak (left.scope p.slots) globals + 1)
      (left.eval p.slots m.globals) ≤ m.stack.size) :
    Performs b (Left 1 m) p.position m (r.position + i.size)
      ((do
        let under ← left.eval p.slots
        let top ← right.eval (left.scope p.slots)
        Eval.ofExcept (compute under top)) m.globals) := by
  have last : b.code.Holds r.position [i] := holds.right (lower.position_append lower')
  have some := left.peak_pos p.slots m.globals
  obtain ⟨inFirst, inSecond⟩ := peakThen_room room
  have start := simulates holds.left.left (lower'.constants_prefix.trans pool) size inFirst
  have same : q.slots = left.scope p.slots := lower.slots_eq
  rw [← same] at inSecond ⊢
  refine performs_operator last pops (by omega) outcome start
    fun value globals m₁ computed kept => ?_
  have waits := inSecond value globals computed
  apply simulates'.above kept (holds.left.right lower.position_eq) pool size
  change m.top + 1 + right.peak q.slots globals ≤ _
  omega

/-- The code of a statement and of those behind it. -/
theorem Simulates.statement {g : Fragment} {r : Progress} {s : Stmt} {first : List Instr}
    (simulates : Simulates (.stmt s) p first q) (simulates' : Simulates g q code r)
    (lower : Lowers (.stmt s) p first q) (lower' : Lowers g q code r)
    (holds : b.code.Holds p.position (first ++ code))
    (pool : r.constants.toList <+: b.constants.toList) (size : 65536 ≤ m.globals.size)
    (room : m.top + s.peak p.slots m.globals ≤ m.stack.size)
    (room' : ∀ value globals, s.eval p.slots m.globals = .ok value globals →
      m.top + g.peak (s.scope p.slots) globals ≤ m.stack.size) :
    Performs b (Left g.leaves m) p.position m r.position
      ((s.eval p.slots >>= fun value => g.eval (s.scope p.slots) value) m.globals) := by
  have start := simulates holds.left (lower'.constants_prefix.trans pool) size room
  refine start.bind fun value globals m₁ computed left => ?_
  have same : q.slots = s.scope p.slots := lower.slots_eq
  rw [← same] at room' ⊢
  exact simulates'.behind left (holds.right lower.position_eq) pool size
    (room' value globals computed)

/-- The code of a condition and of two branches, of which it chooses one. -/
theorem Simulates.conditional {r s : Progress} {condition : Expr} {consequence : List Stmt}
    {alternative : Option (List Stmt)} {test whenTrue whenFalse : List Instr}
    (lower : Lowers (.expr condition) p test q)
    (lower' : Lowers (.branch consequence) (q.advance 3) whenTrue r) (fits : r.position + 3 < 65536)
    (lower'' : Lowers (.alternative alternative) (r.advance 3) whenFalse s)
    (fits' : s.position < 65536) (simulates : Simulates (.expr condition) p test q)
    (simulates' : Simulates (.branch consequence) (q.advance 3) whenTrue r)
    (simulates'' : Simulates (.alternative alternative) (r.advance 3) whenFalse s) :
    Simulates (.expr (.conditional condition consequence alternative)) p
      (test ++ [.jumpNotTruthy (.ofNat (r.position + 3))] ++ whenTrue ++
        [.jump (.ofNat s.position)] ++ whenFalse) s := by
  intro b m holds pool size room
  simp only [Fragment.eval, Expr.eval]
  simp only [Fragment.peak, Expr.peak] at room
  -- Where each part of the code stands.
  obtain ⟨atTrue, atJump, atFalse⟩ :=
    lower.branch_positions lower' (.ofNat (r.position + 3)) (.ofNat s.position)
  have poolTrue := lower''.constants_prefix.trans pool
  obtain ⟨inCondition, inBranches⟩ := peakThen_room room
  have start := simulates holds.left.left.left.left (lower'.constants_prefix.trans poolTrue) size
    inCondition
  refine start.bind fun value globals m₁ computed left => ?_
  have inBranch := inBranches value globals computed
  have some := condition.peak_pos p.slots m.globals
  -- The jump pops the condition.
  have enough : 1 ≤ m₁.top := by rw [left.top]; exact Nat.le_add_left ..
  have step := step_instr (holds.left.left.left.right lower.position_eq) enough rfl
  obtain rfl := left.globals
  have popped := left.popped rfl
  rw [left.cell] at step
  cases truth : value.isTruthy with
  | true =>
    simp only [Instr.goto, truth, if_true] at step inBranch
    have branch := simulates'.behind popped (holds.left.left.right atTrue) poolTrue size (by
      simp only [Fragment.peak, Progress.slots_advance, lower.slots_eq, Fragment.scope]
      omega)
    rw [Progress.slots_advance, lower.slots_eq] at branch
    refine (branch.after step.steps).before fun value globals m₂ left' => ?_
    -- The jump over the other branch changes nothing.
    have jump := step_instr (m := m₂) (holds.left.right atJump) (Nat.zero_le _) rfl
    simp only [Instr.goto, UInt16.toNat_ofNat_of_lt' fits'] at jump
    exact ⟨_, _, jump.steps, left'⟩
  | false =>
    simp only [Instr.goto, truth, Bool.false_eq_true, if_false,
      UInt16.toNat_ofNat_of_lt' fits] at step inBranch
    have same : (r.advance 3).slots = Stmt.scopeAll consequence (condition.scope p.slots) := by
      rw [Progress.slots_advance, lower'.slots_eq, Progress.slots_advance, lower.slots_eq]
      rfl
    rw [← same] at inBranch ⊢
    have branch := simulates''.behind popped (holds.right atFalse) pool size inBranch
    exact branch.after step.steps

end Simulates

/-- Compiled code does what its fragment means. -/
theorem Lowers.simulates {f : Fragment} {p q : Progress} {code : List Instr}
    (lowers : Lowers f p code q) : Simulates f p code q := by
  induction lowers with
  | integer inPool | text inPool =>
    intro b m holds pool size room
    simp only [Fragment.eval, Expr.eval]
    exact performs_value holds rfl room (outcome_constant inPool pool)
  | @boolean p t =>
    intro b m holds pool size room
    simp only [Fragment.eval, Expr.eval]
    cases t with
    | true => exact performs_value holds rfl room rfl
    | false => exact performs_value holds rfl room rfl
  | @name p name slot found fits =>
    intro b m holds pool size room
    simp only [Fragment.eval, Expr.eval, found]
    exact performs_value holds rfl room (outcome_getGlobal fits size)
  | valueless | absent =>
    intro b m holds pool size room
    exact performs_value holds rfl room rfl
  | @unary p q op e code lower ih =>
    intro b m holds pool size room
    simp only [Fragment.eval, Expr.eval]
    simp only [Fragment.peak, Expr.peak] at room
    have some := e.peak_pos p.slots m.globals
    refine (ih holds.left pool size room).bind fun value globals m' _ left => ?_
    obtain ⟨_, pops, _⟩ := op.balance
    have performs := performs_instr (holds.right lower.position_eq) left.toKept
      (by rw [pops]; exact left.top) (by omega) left.globals (by rw [op.outcome_eq, left.cell])
    rw [op.size_instr] at performs
    exact performs
  | @binary p q r op left right first second notLess lower lower' ih ih' =>
    intro b m holds pool size room
    simp only [Fragment.eval, Expr.eval, if_neg notLess]
    simp only [Fragment.peak, Expr.peak, if_neg notLess] at room
    obtain ⟨_, pops, _⟩ := op.balance
    have performs := ih.operator ih' lower lower' pops (op.outcome_eq notLess) holds pool size room
    rw [op.size_instr] at performs
    exact performs
  | @less p q r left right first second lower lower' ih ih' =>
    intro b m holds pool size room
    simp only [Fragment.eval, Expr.eval, if_true]
    simp only [Fragment.peak, Expr.peak, if_true] at room
    have outcome : ∀ constants globals under top,
        Instr.greaterThan.outcome constants globals under top =
          some <$> BinaryOp.less.apply top under := by
      intro constants globals under top
      rw [← BinaryOp.binaryValue_less]
      rfl
    exact ih.operator ih' lower lower' rfl outcome holds pool size room
  | conditional lower lower' fits lower'' fits' ih ih' ih'' =>
    exact Simulates.conditional lower lower' fits lower'' fits' ih ih' ih''
  | @define p q name value code lower fits ih =>
    intro b m holds pool size room
    simp only [Fragment.eval, Stmt.eval]
    refine (ih holds.left pool size room).bind fun result globals m₁ _ left => ?_
    have enough : 1 ≤ m₁.top := by rw [left.top]; exact Nat.le_add_left ..
    have inStore : 65536 ≤ m₁.globals.size := by rw [left.globalsSize]; exact size
    have step := step_instr (holds.right lower.position_eq) enough (outcome_setGlobal fits inStore)
    have same : q.slots = value.scope p.slots := lower.slots_eq
    obtain rfl := left.globals
    rw [same] at step fits
    simp only [Instr.store, UInt16.toNat_ofNat_of_lt' fits, left.cell] at step
    exact ⟨_, _, step.steps, left.popped (Array.size_setIfInBounds ..)⟩
  | @dropped p q e code lower ih =>
    intro b m holds pool size room
    simp only [Fragment.eval, Stmt.eval]
    have start := ih holds.left pool size room
    refine start.before fun value globals m₁ left => ?_
    have enough : 1 ≤ m₁.top := by rw [left.top]; exact Nat.le_add_left ..
    have step := step_instr (holds.right lower.position_eq) enough rfl
    obtain rfl := left.globals
    exact ⟨_, _, step.steps, left.popped rfl⟩
  | done =>
    intro b m holds pool size room
    exact ⟨[], m, .refl, .refl m, rfl, rfl, rfl⟩
  | next lower lower' ih ih' =>
    intro b m holds pool size room
    simp only [Fragment.eval, Stmt.evalAll]
    obtain ⟨inFirst, inRest⟩ := peakThen_room room
    exact ih.statement ih' lower lower' holds pool size inFirst inRest
  | @before p q r s rest first code inner lower lower' ih ih' =>
    intro b m holds pool size room
    simp only [Fragment.eval, Stmt.evalBranch_cons inner]
    simp only [Fragment.peak] at room
    have inBlock : m.top + Stmt.peakAll (s :: rest) p.slots m.globals ≤ m.stack.size := by omega
    obtain ⟨inFirst, inRest⟩ := peakThen_room inBlock
    apply ih.statement ih' lower lower' holds pool size inFirst
    intro value globals computed
    have taken := inRest value globals computed
    simp only [Fragment.peak]
    omega
  | @kept p q e code lower ih =>
    intro b m holds pool size room
    simp only [Fragment.eval, Stmt.evalBranch_expr]
    simp only [Fragment.peak] at room
    apply ih holds pool size
    have inBlock : e.peak p.slots m.globals ≤ Stmt.peakAll [.expr e] p.slots m.globals :=
      first_le_peakThen
    change m.top + e.peak p.slots m.globals ≤ _
    omega
  | present lower ih =>
    intro b m holds pool size room
    exact ih holds pool size room

/-- Wherever the code of a fragment stands, it does what the fragment means, on
every machine with room for it. -/
def Realizes (f : Fragment) (p : Progress) (code : List Instr) (q : Progress) : Prop :=
  ∀ {b : Bytecode} {m : Machine}, b.code.Holds p.position code →
    q.constants.toList <+: b.constants.toList → 65536 ≤ m.globals.size →
    m.top + f.cells ≤ m.stack.size →
    Performs b (Left f.leaves m) p.position m q.position (f.eval p.slots m.lastPopped m.globals)

theorem Lowers.realizes {f : Fragment} {p q : Progress} {code : List Instr}
    (lowers : Lowers f p code q) : Realizes f p code q := by
  intro b m holds pool size cells
  apply lowers.simulates holds pool size
  exact Nat.le_trans (Nat.add_le_add_left (f.peak_le_cells p.slots m.globals) _) cells

/-! ## Compiled programs -/

theorem lastPopped_withGlobals (stackSize : Nat) (globals : Array Value) :
    (withGlobals stackSize globals).lastPopped = .null := getD_withGlobals stackSize globals 0

/-- A compiled program does what the program means. On a fresh stack with a cell
for each node of the program, a run ends as the evaluator does: with an empty
stack, the value of the program popped last and the same globals, or with the
same error, which is one of the program, and the same globals. No program that
compiles is without a meaning. -/
theorem Program.compile_correct {program : Program} {env env' : Env} {b : Bytecode}
    {globals : Array Value} {stackSize : Nat}
    (compiled : program.compile env = .ok (b, env')) (size : globals.size = 65536)
    (cells : program.nodes ≤ stackSize) :
    match program.eval env.slots globals with
    | .ok value globals' => ∃ m, run b (withGlobals stackSize globals) = (.ok (), m) ∧
        m.top = 0 ∧ m.lastPopped = value ∧ m.globals = globals'
    | .error (.runtime e) globals' => ∃ m, run b (withGlobals stackSize globals) = (.error e, m) ∧
        e.OfProgram ∧ m.globals = globals'
    | .error .meaningless _ => False := by
  obtain ⟨code, q, lowers, bytes, constants, rfl⟩ := program.lowers compiled
  have wellFormed := lowers.wellFormed bytes constants
  have pool : q.constants.toList <+: b.constants.toList := constants ▸ List.prefix_refl _
  have performs := lowers.realizes (m := withGlobals stackSize globals)
    (Code.Holds.of_toList bytes) pool
    (Nat.le_of_eq size.symm) (by
      change 0 + program.nodes ≤ (Array.replicate stackSize Value.null).size
      rw [Nat.zero_add, Array.size_replicate]
      exact cells)
  rw [lastPopped_withGlobals] at performs
  have top : (withGlobals stackSize globals).top = Instr.heightAt code 0 0 := wellFormed.start.symm
  have short : ∀ {visited : List Nat} {o : Nat} {m : Machine},
      Steps b visited 0 (withGlobals stackSize globals) o m → visited.length ≤ b.code.size := by
    intro visited o m steps
    obtain ⟨boundary, _, _, count, _, _⟩ :=
      wellFormed.steps (Instr.boundary_zero code) top steps
    have inCode := wellFormed.boundary_le boundary
    omega
  have ends : b.code.entryAt? q.position = none := by
    rw [lowers.position_eq, Nat.zero_add, ← wellFormed.size_eq]
    exact Code.entryAt?_size _
  have means : Performs b (Left 0 (withGlobals stackSize globals)) 0
    (withGlobals stackSize globals) q.position (program.eval env.slots globals) := performs
  cases computed : program.eval env.slots globals with
  | ok value globals' =>
    rw [computed] at means
    rcases means with ⟨visited, m, steps, left⟩
    refine ⟨m, steps.run_of_end (short steps) ends, left.top, ?_, left.globals⟩
    rw [lastPopped, left.top]
    exact left.value
  | error failure globals' =>
    rw [computed] at means
    cases failure with
    | runtime e =>
      rcases means with ⟨visited, o, m, m', steps, fails, same⟩
      have failed := steps.run_of_fails (short steps) fails
      refine ⟨m', failed, ?_, same⟩
      obtain ⟨_, _, _, _, ⟨_, done⟩ | ⟨_, _, ofProgram, _, _, failed'⟩⟩ :=
        wellFormed.run_cases (m := withGlobals stackSize globals) rfl (Nat.le_of_eq size.symm)
      · rw [failed] at done
        cases done
      · rw [failed] at failed'
        cases failed'
        exact ofProgram
    | meaningless => exact means

/-- The program `let a = a + 1; if (true) { let a = a + 1 }; a`. -/
def Program.twiceRedefined : Program :=
  [.define "a" (.binary .add (.name "a") (.integer 1)),
    .expr (.conditional (.boolean true) [.define "a" (.binary .add (.name "a") (.integer 1))] none),
    .expr (.name "a")]

theorem Program.compile_correct_redefinition :
    ∃ b env' m,
      twiceRedefined.compile ⟨Slots.empty.define "a", #[.integer 41]⟩ = .ok (b, env') ∧
      run b (withGlobals 13 (#[.integer 41, .null, .null] ++ freshGlobals 65533)) = (.ok (), m) ∧
      m.top = 0 ∧ m.lastPopped = .integer 43 ∧
      m.globals = #[.integer 41, .integer 42, .integer 43] ++ freshGlobals 65533 := by
  have compiled : twiceRedefined.compile ⟨Slots.empty.define "a", #[.integer 41]⟩ = .ok (_, _) :=
    rfl
  have cells : twiceRedefined.nodes ≤ 13 := by decide
  -- The definition in the block takes a slot of its own, and the name means it behind the block.
  have evaluated (others : List Value) :
      twiceRedefined.eval (Slots.empty.define "a") ⟨.integer 41 :: .null :: .null :: others⟩ =
        .ok (.integer 43) ⟨.integer 41 :: .integer 42 :: .integer 43 :: others⟩ := rfl
  obtain ⟨globals, same⟩ :
      ∃ globals, #[.integer 41, .null, .null] ++ freshGlobals 65533 = globals := ⟨_, rfl⟩
  have size : globals.size = 65536 := by
    rw [← same, Array.size_append, freshGlobals, Array.size_replicate, List.size_toArray]
    decide
  have computed : twiceRedefined.eval (Slots.empty.define "a") globals = .ok (.integer 43)
      (#[.integer 41, .integer 42, .integer 43] ++ freshGlobals 65533) := by
    rw [← same, freshGlobals, ← List.toArray_replicate, List.append_toArray, List.append_toArray]
    exact evaluated _
  have ends := Program.compile_correct compiled size cells
  rw [computed] at ends
  rw [same]
  obtain ⟨m, ends⟩ := ends
  exact ⟨_, _, m, compiled, ends⟩

end Stacklet
