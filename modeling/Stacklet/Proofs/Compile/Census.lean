import Mathlib.Data.List.Count
import Stacklet.Proofs.Code.Views
import Stacklet.Proofs.Compile.Lowering

/-!
# How often operations occur in compiled code

How often an operation occurs in the code of a program can be told from its syntax tree.
Every subtree adds operations of its own (`Subtree.emitted`), and a block of a conditional
that ends in an expression takes away the one that would drop the value of this expression
(`Subtree.withheld`). Both are kept in balance by every rule of the lowering
(`Lowers.balance`), and the counts of the single operations follow (`Program.compile_census`).
-/

namespace Stacklet

/-! ## Subtrees -/

/-- A part of a syntax tree: an expression, a statement, or a block of a conditional. -/
inductive Subtree
  | expr (e : Expr)
  | stmt (s : Stmt)
  | branch (statements : List Stmt)

mutual

/-- The subtrees of an expression, and the expression itself behind them. They are in the
order in which they are compiled: as written, apart from the operands of "less", of which
the right one comes first. -/
def Expr.subtrees : Expr → List Subtree
  | .name name => [.expr (.name name)]
  | .integer value => [.expr (.integer value)]
  | .text value => [.expr (.text value)]
  | .boolean value => [.expr (.boolean value)]
  | .unary op operand => operand.subtrees ++ [.expr (.unary op operand)]
  | .binary op left right =>
    (if op = .less then right.subtrees ++ left.subtrees else left.subtrees ++ right.subtrees) ++
      [.expr (.binary op left right)]
  | .conditional condition consequence alternative =>
    condition.subtrees ++ (Stmt.subtreesAll consequence ++ [.branch consequence]) ++
      Stmt.subtreesAlternative alternative ++
      [.expr (.conditional condition consequence alternative)]
  | .function parameters body => Stmt.subtreesAll body ++ [.expr (.function parameters body)]
  | .call callee arguments =>
    callee.subtrees ++ Expr.subtreesAll arguments ++ [.expr (.call callee arguments)]
  | .array items => Expr.subtreesAll items ++ [.expr (.array items)]
  | .index base subscript => base.subtrees ++ subscript.subtrees ++ [.expr (.index base subscript)]

/-- The subtrees of expressions. -/
def Expr.subtreesAll : List Expr → List Subtree
  | [] => []
  | e :: others => e.subtrees ++ Expr.subtreesAll others

/-- The subtrees of a statement, and the statement itself behind them. -/
def Stmt.subtrees : Stmt → List Subtree
  | .define name value => value.subtrees ++ [.stmt (.define name value)]
  | .return value => value.subtrees ++ [.stmt (.return value)]
  | .expr value => value.subtrees ++ [.stmt (.expr value)]

/-- The subtrees of statements. -/
def Stmt.subtreesAll : List Stmt → List Subtree
  | [] => []
  | s :: rest => s.subtrees ++ Stmt.subtreesAll rest

/-- The subtrees of the second block of a conditional, and the block itself behind them, if
there is one. -/
def Stmt.subtreesAlternative : Option (List Stmt) → List Subtree
  | none => []
  | some block => Stmt.subtreesAll block ++ [.branch block]

end

/-- The subtrees of a fragment. -/
def Fragment.subtrees : Fragment → List Subtree
  | .expr e => e.subtrees
  | .stmt s => s.subtrees
  | .block statements => Stmt.subtreesAll statements
  | .branch statements => Stmt.subtreesAll statements ++ [.branch statements]
  | .alternative second => Stmt.subtreesAlternative second

/-- The constant for a literal. -/
def Expr.literal? : Expr → Option Value
  | .integer value => some (.integer value)
  | .text value => some (.string value)
  | _ => none

namespace Subtree

def expression? : Subtree → Option Expr
  | .expr e => some e
  | _ => none

def statement? : Subtree → Option Stmt
  | .stmt s => some s
  | _ => none

def branch? : Subtree → Option (List Stmt)
  | .branch block => some block
  | _ => none

/-- The constants for the literals among some trees. -/
def literals (trees : List Subtree) : List Value :=
  (trees.filterMap expression?).filterMap Expr.literal?

theorem literals_append (trees trees' : List Subtree) :
    literals (trees ++ trees') = literals trees ++ literals trees' := by
  rw [literals, List.filterMap_append, List.filterMap_append]
  rfl

theorem literals_own {trees : List Subtree} {tree : Subtree}
    (plain : literals [tree] = []) : literals (trees ++ [tree]) = literals trees := by
  rw [literals_append, plain, List.append_nil]

end Subtree

namespace Program

/-- The expressions at any depth of a program, in the order in which they are compiled. -/
def expressions (program : Program) : List Expr :=
  (Stmt.subtreesAll program).filterMap Subtree.expression?

/-- The statements at any depth of a program. -/
def statements (program : Program) : List Stmt :=
  (Stmt.subtreesAll program).filterMap Subtree.statement?

/-- The blocks of conditionals at any depth of a program. -/
def branches (program : Program) : List (List Stmt) :=
  (Stmt.subtreesAll program).filterMap Subtree.branch?

end Program

/-- An expression of this form adds the operation to compiled code, once. -/
def Opcode.addedBy : Opcode → Expr → Bool
  | .constant, .integer _ | .constant, .text _ => true
  | .pushTrue, .boolean true | .pushFalse, .boolean false => true
  | .getGlobal, .name _ => true
  | .bang, .unary .not _ | .minus, .unary .negate _ => true
  | .add, .binary .add .. | .sub, .binary .subtract .. | .mul, .binary .multiply .. => true
  | .div, .binary .divide .. | .equal, .binary .equal .. | .notEqual, .binary .notEqual .. => true
  | .greaterThan, .binary .less .. | .greaterThan, .binary .greater .. => true
  | .jumpNotTruthy, .conditional .. | .jump, .conditional .. => true
  | .pushNull, .conditional _ _ none => true
  | _, _ => false

namespace Stmt

/-- A block ends in an expression. -/
def endInExpr (block : List Stmt) : Bool := block.getLast? matches some (.expr _)

/-- A block is empty or ends in a definition. -/
def endInDefine (block : List Stmt) : Bool := block.getLast? matches none | some (.define ..)

end Stmt

/-- The index of the constant that a decoded instruction loads. -/
def loadedConstant? : Except DecodeError (Opcode × List Nat) → Option Nat
  | .ok (.constant, [index]) => some index
  | _ => none

/-- How often each operation occurs in the code of a program, told from its syntax tree. -/
structure Program.Census (program : Program) (b : Bytecode) : Prop where
  /-- A statement that is an expression drops its value, unless a block leaves this value. -/
  pop : b.code.countOf .pop + program.branches.countP Stmt.endInExpr =
    program.statements.countP (· matches .expr _)
  setGlobal : b.code.countOf .setGlobal = program.statements.countP (· matches .define ..)
  /-- A block that is missing, and one that has no value to leave, leaves null. -/
  pushNull : b.code.countOf .pushNull =
    program.expressions.countP (Opcode.addedBy .pushNull) +
      program.branches.countP Stmt.endInDefine
  others (op : Opcode) : op ≠ .pop → op ≠ .setGlobal → op ≠ .pushNull →
    b.code.countOf op = program.expressions.countP op.addedBy
  /-- Every literal is a constant of its own, and they are loaded one after the other. -/
  constants : b.constants.toList = program.expressions.filterMap Expr.literal?
  loads : (b.code.decoded fun _ found => found).filterMap loadedConstant? =
    List.range b.constants.size

/-! ## The balance of operations -/

/-- The operations that a tree adds to compiled code, besides those of its subtrees. -/
def Subtree.emitted : Subtree → List Opcode
  | .expr (.integer _) | .expr (.text _) => [.constant]
  | .expr (.boolean value) => [if value then .pushTrue else .pushFalse]
  | .expr (.name _) => [.getGlobal]
  | .expr (.unary op _) => [op.instr.opcode]
  | .expr (.binary op _ _) => [op.instr.opcode]
  | .expr (.conditional _ _ none) => [.pushNull, .jumpNotTruthy, .jump]
  | .expr (.conditional _ _ (some _)) => [.jumpNotTruthy, .jump]
  | .stmt (.define ..) => [.setGlobal]
  | .stmt (.expr _) => [.pop]
  | .branch block => if Stmt.endInDefine block then [.pushNull] else []
  | _ => []

/-- The operations that a tree takes away. -/
def Subtree.withheld : Subtree → List Opcode
  | .branch block => if Stmt.endInExpr block then [.pop] else []
  | _ => []

namespace Subtree

/-- How often an operation is among those of some trees. -/
def tally (of : Subtree → List Opcode) (wanted : Opcode) (trees : List Subtree) : Nat :=
  (trees.flatMap of).count wanted

/-- An operation occurs in code as often as some trees add it, less how often they take it
away. -/
def Balance (wanted : Opcode) (code : List Instr) (trees : List Subtree) : Prop :=
  (code.map Instr.opcode).count wanted + tally withheld wanted trees = tally emitted wanted trees

variable {of : Subtree → List Opcode} {wanted : Opcode} {code code' : List Instr}
  {trees trees' : List Subtree}

theorem tally_append (of : Subtree → List Opcode) (wanted : Opcode) (trees trees' : List Subtree) :
    tally of wanted (trees ++ trees') = tally of wanted trees + tally of wanted trees' := by
  rw [tally, List.flatMap_append, List.count_append]
  rfl

theorem tally_singleton (of : Subtree → List Opcode) (wanted : Opcode) (tree : Subtree) :
    tally of wanted [tree] = (of tree).count wanted := by
  rw [tally, List.flatMap_singleton]

theorem Balance.append (first : Balance wanted code trees) (second : Balance wanted code' trees') :
    Balance wanted (code ++ code') (trees ++ trees') := by
  unfold Balance at first second ⊢
  rw [List.map_append, List.count_append, tally_append, tally_append]
  omega

/-- A tree with instructions of its own. -/
theorem Balance.own {tree : Subtree} (emitted : tree.emitted = code.map Instr.opcode)
    (withheld : tree.withheld = []) : Balance wanted code [tree] := by
  rw [Balance, tally_singleton, tally_singleton, emitted, withheld]
  rfl

theorem Balance.perm (balance : Balance wanted code trees) (same : code'.Perm code) :
    Balance wanted code' trees := by
  rw [Balance, (same.map Instr.opcode).count_eq]
  exact balance

theorem Balance.last {tree tree' : Subtree} (balance : Balance wanted code (trees ++ [tree]))
    (emitted : tree'.emitted = tree.emitted) (withheld : tree'.withheld = tree.withheld) :
    Balance wanted code (trees ++ [tree']) := by
  unfold Balance at balance ⊢
  rw [tally_append, tally_append, tally_singleton, tally_singleton] at balance ⊢
  rw [emitted, withheld]
  exact balance

end Subtree

/-- The code of a fragment is in balance with its trees. A block that is missing is no subtree,
and has a null in its place. -/
def Fragment.Balance (wanted : Opcode) (code : List Instr) : Fragment → Prop
  | .alternative none => code = [.pushNull]
  | f => Subtree.Balance wanted code f.subtrees

namespace Lowers

open Subtree

variable {f : Fragment} {p q : Progress} {code first : List Instr} {s : Stmt} {rest : List Stmt}
  {wanted : Opcode}

/-- A statement in front of the last one makes no difference to how a block ends. -/
theorem ends_eq (inner : rest = [] → ¬ s.IsExpr) (head : Lowers (.stmt s) p first q) :
    Stmt.endInExpr (s :: rest) = Stmt.endInExpr rest ∧
      Stmt.endInDefine (s :: rest) = Stmt.endInDefine rest := by
  cases rest with
  | cons t rest =>
    rw [Stmt.endInExpr, Stmt.endInDefine, List.getLast?_cons_cons]
    exact ⟨rfl, rfl⟩
  | nil =>
    cases head with
    | define => exact ⟨rfl, rfl⟩
    | dropped => exact (inner rfl ⟨_, rfl⟩).elim

theorem balance_kept {e : Expr} (inner : Balance wanted code e.subtrees) :
    Balance wanted code (Stmt.subtreesAll [.expr e] ++ [.branch [.expr e]]) := by
  unfold Balance at inner ⊢
  simp only [Stmt.subtreesAll, Stmt.subtrees, tally_append, tally_singleton, List.append_nil,
    emitted, withheld]
  change _ + (_ + 0 + [Opcode.pop].count wanted) = _ + [Opcode.pop].count wanted + 0
  omega

theorem balance_before (exprs : Stmt.endInExpr (s :: rest) = Stmt.endInExpr rest)
    (defines : Stmt.endInDefine (s :: rest) = Stmt.endInDefine rest)
    (head : Balance wanted first s.subtrees)
    (tail : Balance wanted code (Stmt.subtreesAll rest ++ [.branch rest])) :
    Balance wanted (first ++ code) (Stmt.subtreesAll (s :: rest) ++ [.branch (s :: rest)]) := by
  have both := head.append tail
  rw [← List.append_assoc] at both
  refine both.last ?_ ?_
  · rw [emitted, emitted, defines]
  · rw [withheld, withheld, exprs]

theorem perm_jumps (test whenTrue whenFalse : List Instr) (i j : Instr) :
    (test ++ [i] ++ whenTrue ++ [j] ++ whenFalse).Perm
      (test ++ whenTrue ++ whenFalse ++ [i, j]) := by
  simp only [List.append_assoc, List.cons_append, List.nil_append]
  refine .append_left test ((List.perm_middle.cons i).trans ?_)
  rw [← List.append_assoc]
  exact (List.perm_append_comm : ([i, j] ++ (whenTrue ++ whenFalse)).Perm _)

theorem balance_conditional {condition : Expr} {consequence : List Stmt}
    {alternative : Option (List Stmt)} {test whenTrue whenFalse : List Instr}
    {target target' : UInt16} (first : Balance wanted test condition.subtrees)
    (second : Balance wanted whenTrue (Stmt.subtreesAll consequence ++ [.branch consequence]))
    (third : Fragment.Balance wanted whenFalse (.alternative alternative)) :
    Balance wanted
      (test ++ [.jumpNotTruthy target] ++ whenTrue ++ [.jump target'] ++ whenFalse)
      (Expr.conditional condition consequence alternative).subtrees := by
  refine Balance.perm ?_ (perm_jumps ..)
  have tests := first.append second
  cases alternative with
  | none =>
    cases third
    rw [List.append_assoc (test ++ whenTrue), Expr.subtrees, Stmt.subtreesAlternative,
      List.append_nil]
    exact tests.append (.own rfl rfl)
  | some block => exact (tests.append third).append (.own rfl rfl)

/-- Compiled code is in balance. -/
theorem balance (lowers : Lowers f p code q) (wanted : Opcode) : f.Balance wanted code := by
  induction lowers with
  | integer | text | name => exact Balance.own rfl rfl
  | @boolean _ value => cases value <;> exact Balance.own rfl rfl
  | unary _ ih | define _ _ ih | dropped _ ih => exact Balance.append ih (.own rfl rfl)
  | binary notLess _ _ ih ih' =>
    change Balance wanted _ (Expr.subtrees _)
    rw [Expr.subtrees, if_neg notLess]
    exact (Balance.append ih ih').append (.own rfl rfl)
  | less _ _ ih ih' => exact (Balance.append ih ih').append (.own rfl rfl)
  | conditional _ _ _ _ _ ih ih' ih'' => exact balance_conditional ih ih' ih''
  | done | valueless => rfl
  | next _ _ ih ih' => exact Balance.append ih ih'
  | kept _ ih => exact balance_kept ih
  | before inner head _ ih ih' =>
    obtain ⟨exprs, defines⟩ := ends_eq inner head
    exact balance_before exprs defines ih ih'
  | absent => rfl
  | present _ ih => exact ih

/-! ## Constants -/

theorem literals_branch (block : List Stmt) :
    literals (Fragment.branch block).subtrees = literals (Stmt.subtreesAll block) :=
  literals_own rfl

/-- Every literal becomes a constant, in the order of the trees. -/
theorem constants_eq (lowers : Lowers f p code q) :
    q.constants.toList = p.constants.toList ++ Subtree.literals f.subtrees := by
  induction lowers with
  | integer | text => exact Array.toList_push
  | boolean | name | done | valueless | absent => exact (List.append_nil _).symm
  | unary _ ih | define _ _ ih | dropped _ ih =>
    exact ih.trans (congrArg _ (literals_own rfl).symm)
  | binary notLess _ _ ih ih' =>
    rw [Progress.constants_advance, ih', ih, List.append_assoc, ← literals_append]
    change _ = _ ++ literals (Expr.subtrees _)
    rw [Expr.subtrees, if_neg notLess]
    exact congrArg _ (literals_own rfl).symm
  | less _ _ ih ih' =>
    rw [Progress.constants_advance, ih', ih, List.append_assoc, ← literals_append]
    exact congrArg _ (literals_own rfl).symm
  | conditional _ _ _ _ _ ih ih' ih'' =>
    rw [ih'', Progress.constants_advance, ih', Progress.constants_advance, ih, List.append_assoc,
      List.append_assoc, ← literals_append, ← literals_append, ← List.append_assoc]
    exact congrArg _ (literals_own rfl).symm
  | next _ _ ih ih' =>
    rw [ih', ih, List.append_assoc, ← literals_append]
    rfl
  | kept _ ih =>
    rw [ih, literals_branch, Stmt.subtreesAll, Stmt.subtreesAll, List.append_nil, Stmt.subtrees]
    exact congrArg _ (literals_own rfl).symm
  | before _ _ _ ih ih' =>
    rw [ih', ih, List.append_assoc, literals_branch, literals_branch, ← literals_append]
    rfl
  | present _ ih => exact ih

end Lowers

/-- The index of the constant that an instruction loads. -/
def Instr.loaded? : Instr → Option Nat
  | .constant index => some index.toNat
  | _ => none

namespace Lowers

/-- Constants are loaded in the order in which they are numbered. -/
theorem loads_eq (lowers : Lowers f p code q) :
    List.range q.constants.size = List.range p.constants.size ++ code.filterMap Instr.loaded? := by
  induction lowers with
  | integer room | text room =>
    rw [Progress.constants_advance, Progress.constants_addConstant, Array.size_push,
      List.range_succ, List.filterMap_cons, Instr.loaded?, UInt16.toNat_ofNat_of_lt' room]
    rfl
  | @boolean _ value => cases value <;> exact (List.append_nil _).symm
  | name | done | valueless | absent => exact (List.append_nil _).symm
  | @unary _ _ op _ _ _ ih =>
    rw [List.filterMap_append, ← List.append_assoc, ← ih]
    cases op <;> exact (List.append_nil _).symm
  | define _ _ ih | dropped _ ih =>
    rw [List.filterMap_append, ← List.append_assoc, ← ih]
    exact (List.append_nil _).symm
  | @binary _ _ _ op _ _ _ _ _ _ _ ih ih' =>
    rw [List.filterMap_append, List.filterMap_append, ← List.append_assoc, ← List.append_assoc,
      ← ih, ← ih']
    cases op <;> exact (List.append_nil _).symm
  | less _ _ ih ih' =>
    rw [List.filterMap_append, List.filterMap_append, ← List.append_assoc, ← List.append_assoc,
      ← ih, ← ih']
    exact (List.append_nil _).symm
  | conditional _ _ _ _ _ ih ih' ih'' =>
    rw [List.filterMap_append, List.filterMap_append, List.filterMap_append,
      List.filterMap_append, ← List.append_assoc, ← List.append_assoc, ← List.append_assoc,
      ← List.append_assoc, ← ih]
    change _ = _ ++ [] ++ _ ++ [] ++ _
    rw [List.append_nil, List.append_nil]
    exact ih''.trans (congrArg (· ++ _) ih')
  | next _ _ ih ih' | before _ _ _ ih ih' =>
    rw [List.filterMap_append, ← List.append_assoc, ← ih, ← ih']
  | kept _ ih | present _ ih => exact ih

end Lowers

/-! ## The census -/

namespace Subtree

theorem count_emitted_expr (wanted : Opcode) (e : Expr) :
    (emitted (.expr e)).count wanted = (wanted.addedBy e).toNat := by
  cases e with
  | boolean value => cases value <;> cases wanted <;> rfl
  | unary op => cases op <;> cases wanted <;> rfl
  | binary op => cases op <;> cases wanted <;> rfl
  | conditional _ _ alternative => cases alternative <;> cases wanted <;> rfl
  | _ => cases wanted <;> rfl

theorem count_emitted_branch {wanted : Opcode} (other : wanted ≠ .pushNull) (block : List Stmt) :
    (emitted (.branch block)).count wanted = 0 := by
  rw [emitted]
  split
  · exact List.count_eq_zero.mpr fun member => other (List.mem_singleton.mp member)
  · rfl

/-- Counting operations of trees is counting trees, if no tree has more than one of them. -/
theorem tally_eq {of : Subtree → List Opcode} {wanted : Opcode} {expr : Expr → Bool}
    {stmt : Stmt → Bool} {branch : List Stmt → Bool}
    (exprs : ∀ e, (of (.expr e)).count wanted = (expr e).toNat)
    (stmts : ∀ s, (of (.stmt s)).count wanted = (stmt s).toNat)
    (branches : ∀ block, (of (.branch block)).count wanted = (branch block).toNat)
    (trees : List Subtree) :
    tally of wanted trees = (trees.filterMap expression?).countP expr +
      ((trees.filterMap statement?).countP stmt + (trees.filterMap branch?).countP branch) := by
  have number (test : Bool) : test.toNat = if test then 1 else 0 := by cases test <;> rfl
  induction trees with
  | nil => rfl
  | cons tree trees ih =>
    have first : tally of wanted (tree :: trees) =
        (of tree).count wanted + tally of wanted trees := by
      rw [tally, List.flatMap_cons, List.count_append]
      rfl
    rw [first, ih]
    simp only [List.filterMap_cons]
    cases tree with
    | expr e =>
      simp only [expression?, statement?, branch?, List.countP_cons, exprs, number]
      omega
    | stmt s =>
      simp only [expression?, statement?, branch?, List.countP_cons, stmts, number]
      omega
    | branch block =>
      simp only [expression?, statement?, branch?, List.countP_cons, branches, number]
      omega

end Subtree

section Census

variable {program : Program} {b : Bytecode} {env : Env}

/-- Compiled code is cut into the instructions that have been laid out. -/
theorem Program.exists_cut (compiled : program.compile .empty = .ok (b, env)) :
    ∃ row q, Lowers (.block program) ⟨.empty, 0⟩ row q ∧ b.constants = q.constants ∧
      Cut.Of ⟨row.map Instr.operation, []⟩ b.code.toList := by
  obtain ⟨row, q, lowers, bytes, constants, -⟩ := Program.lowers compiled
  refine ⟨row, q, lowers, constants, Cut.of_iff.mpr ⟨row, rfl, ?_, .nothing⟩⟩
  rw [bytes, List.append_nil]

/-- How often an operation occurs in the code of a program. -/
theorem Program.countOf_eq (compiled : program.compile .empty = .ok (b, env)) (wanted : Opcode) :
    b.code.countOf wanted + Subtree.tally Subtree.withheld wanted (Stmt.subtreesAll program) =
      Subtree.tally Subtree.emitted wanted (Stmt.subtreesAll program) := by
  obtain ⟨row, q, lowers, -, cut⟩ := Program.exists_cut compiled
  have opcodes : Cut.opcodes ⟨row.map Instr.operation, []⟩ = row.map Instr.opcode := by
    rw [Cut.opcodes, List.map_map]
    exact List.append_nil _
  rw [Code.countOf_eq cut, opcodes]
  exact lowers.balance wanted

/-- Only values are not dropped after all. -/
theorem Program.countOf_of_ne_pop (compiled : program.compile .empty = .ok (b, env))
    {wanted : Opcode} (other : wanted ≠ .pop) :
    b.code.countOf wanted = Subtree.tally Subtree.emitted wanted (Stmt.subtreesAll program) := by
  have none : Subtree.tally Subtree.withheld wanted (Stmt.subtreesAll program) = 0 := by
    refine List.count_eq_zero.mpr fun member => ?_
    obtain ⟨tree, -, withheld⟩ := List.mem_flatMap.mp member
    cases tree with
    | branch block =>
      rw [Subtree.withheld] at withheld
      split at withheld
      · exact other (List.mem_singleton.mp withheld)
      · cases withheld
    | expr | stmt => cases withheld
  rw [← countOf_eq compiled wanted, none, Nat.add_zero]

/-- How often each operation occurs in compiled code can be told from the program. -/
theorem Program.compile_census (compiled : program.compile .empty = .ok (b, env)) :
    program.Census b where
  pop := by
    have added : Subtree.tally Subtree.emitted .pop (Stmt.subtreesAll program) =
        program.expressions.countP (fun _ => false) +
          (program.statements.countP (· matches .expr _) +
            program.branches.countP fun _ => false) := by
      refine Subtree.tally_eq (fun e => ?_) (fun s => ?_) (fun block => ?_) _
      · exact (Subtree.count_emitted_expr .pop e).trans (by cases e <;> rfl)
      · cases s <;> rfl
      · exact Subtree.count_emitted_branch (by decide) block
    have taken : Subtree.tally Subtree.withheld .pop (Stmt.subtreesAll program) =
        program.expressions.countP (fun _ => false) +
          (program.statements.countP (fun _ => false) +
            program.branches.countP Stmt.endInExpr) := by
      refine Subtree.tally_eq (fun _ => rfl) (fun _ => rfl) (fun block => ?_) _
      rw [Subtree.withheld]
      cases Stmt.endInExpr block <;> rfl
    have balance := countOf_eq compiled .pop
    rw [added, taken] at balance
    simpa using balance
  setGlobal := by
    have added : Subtree.tally Subtree.emitted .setGlobal (Stmt.subtreesAll program) =
        program.expressions.countP (fun _ => false) +
          (program.statements.countP (· matches .define ..) +
            program.branches.countP fun _ => false) := by
      refine Subtree.tally_eq (fun e => ?_) (fun s => ?_) (fun block => ?_) _
      · exact (Subtree.count_emitted_expr .setGlobal e).trans (by cases e <;> rfl)
      · cases s <;> rfl
      · exact Subtree.count_emitted_branch (by decide) block
    rw [countOf_of_ne_pop compiled (by decide), added]
    simp
  pushNull := by
    have added : Subtree.tally Subtree.emitted .pushNull (Stmt.subtreesAll program) =
        program.expressions.countP (Opcode.addedBy .pushNull) +
          (program.statements.countP (fun _ => false) +
            program.branches.countP Stmt.endInDefine) := by
      refine Subtree.tally_eq (Subtree.count_emitted_expr .pushNull) (fun s => ?_)
        (fun block => ?_) _
      · cases s <;> rfl
      · rw [Subtree.emitted]
        cases Stmt.endInDefine block <;> rfl
    rw [countOf_of_ne_pop compiled (by decide), added]
    simp
  others op notPop notSetGlobal notPushNull := by
    have added : Subtree.tally Subtree.emitted op (Stmt.subtreesAll program) =
        program.expressions.countP op.addedBy +
          (program.statements.countP (fun _ => false) +
            program.branches.countP fun _ => false) := by
      refine Subtree.tally_eq (Subtree.count_emitted_expr op) (fun s => ?_) (fun block => ?_) _
      · cases s with
        | define => exact List.count_singleton.trans (by simp [Ne.symm notSetGlobal])
        | «return» => rfl
        | expr => exact List.count_singleton.trans (by simp [Ne.symm notPop])
      · exact Subtree.count_emitted_branch notPushNull block
    rw [countOf_of_ne_pop compiled notPop, added]
    simp
  constants := by
    obtain ⟨row, q, lowers, constants, -⟩ := Program.exists_cut compiled
    rw [constants, lowers.constants_eq]
    rfl
  loads := by
    obtain ⟨row, q, lowers, constants, cut⟩ := Program.exists_cut compiled
    have found (i : Instr) : loadedConstant? (.ok (i.opcode, i.operands)) = i.loaded? := by
      cases i <;> rfl
    rw [Code.decoded_eq _ cut, Cut.said_const _ (fun found => found), constants, lowers.loads_eq,
      List.map_map, List.filterMap_append, List.filterMap_map]
    change List.filterMap _ row ++ [] = [] ++ _
    rw [List.append_nil, List.nil_append]
    exact congrArg (List.filterMap · row) (funext found)

end Census

/-- Blocks that end in an expression, in a definition and in nothing, and one that is missing. -/
def mixedBlocks : Program :=
  [.define "a" (.conditional (.binary .less (.integer 1) (.integer 2))
      [.expr (.integer 3), .expr (.text "x")] (some [.define "b" (.integer 4)])),
    .expr (.conditional (.name "a") [] none)]

theorem Program.compile_census_mixedBlocks : ∃ b env,
    mixedBlocks.compile .empty = .ok (b, env) ∧ mixedBlocks.Census b ∧
      b.code.countOf .pop = 2 ∧ b.code.countOf .pushNull = 3 ∧
      b.constants = #[.integer 2, .integer 1, .integer 3, .string "x", .integer 4] := by
  have compiled : mixedBlocks.compile .empty = .ok (_, _) := rfl
  exact ⟨_, _, compiled, compile_census compiled, by decide, by decide, rfl⟩

end Stacklet
