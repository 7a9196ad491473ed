import Stacklet.Proofs.Compile.Lowering

/-!
# Failing compilation as a relation

`Refused f p e q` holds when fragment `f`, compiled at progress `p`, is refused with
error `e`, and `q` is the progress that is left behind. There is a rule for each
place where a compilation can fail; what comes before that place has been compiled
by then. Every failure of the compiler satisfies the relation (`Expr.refused`,
`Program.refused`), so with `Lowers` it says all about what the compiler does.
-/

namespace Stacklet

/-- There is code for expressions of this form. -/
def Expr.hasCode : Expr → Bool
  | .function .. | .call .. | .array _ | .index .. => false
  | _ => true

/-- `Refused f p e q`: compiling `f` at progress `p` fails with `e` and leaves `q`. -/
inductive Refused : Fragment → Progress → CompileError → Progress → Prop
  | integer {p : Progress} {n : Int64} :
    65536 ≤ p.constants.size →
    Refused (.expr (.integer n)) p (.tooManyConstants p.constants.size) p
  | text {p : Progress} {s : String} :
    65536 ≤ p.constants.size →
    Refused (.expr (.text s)) p (.tooManyConstants p.constants.size) p
  | undefined {p : Progress} {name : String} :
    p.slots.find? name = none →
    Refused (.expr (.name name)) p (.undefinedVariable name) p
  | unreachable {p : Progress} {name : String} {slot : Nat} :
    p.slots.find? name = some slot → 65536 ≤ slot →
    Refused (.expr (.name name)) p (.encode (.operandOutOfRange .getGlobal slot 2)) p
  | unary {p q : Progress} {op : UnaryOp} {operand : Expr} {e : CompileError} :
    Refused (.expr operand) p e q → Refused (.expr (.unary op operand)) p e q
  | left {p q : Progress} {op : BinaryOp} {left right : Expr} {e : CompileError} :
    op ≠ .less → Refused (.expr left) p e q → Refused (.expr (.binary op left right)) p e q
  | right {p q r : Progress} {op : BinaryOp} {left right : Expr} {code : List Instr}
      {e : CompileError} :
    op ≠ .less → Lowers (.expr left) p code q → Refused (.expr right) q e r →
    Refused (.expr (.binary op left right)) p e r
  | lessRight {p q : Progress} {left right : Expr} {e : CompileError} :
    Refused (.expr right) p e q → Refused (.expr (.binary .less left right)) p e q
  | lessLeft {p q r : Progress} {left right : Expr} {code : List Instr} {e : CompileError} :
    Lowers (.expr right) p code q → Refused (.expr left) q e r →
    Refused (.expr (.binary .less left right)) p e r
  | condition {p q : Progress} {condition : Expr} {consequence : List Stmt}
      {alternative : Option (List Stmt)} {e : CompileError} :
    Refused (.expr condition) p e q →
    Refused (.expr (.conditional condition consequence alternative)) p e q
  | consequence {p q r : Progress} {condition : Expr} {consequence : List Stmt}
      {alternative : Option (List Stmt)} {test : List Instr} {e : CompileError} :
    Lowers (.expr condition) p test q → Refused (.branch consequence) (q.advance 3) e r →
    Refused (.expr (.conditional condition consequence alternative)) p e r
  | otherwise {p q r : Progress} {condition : Expr} {consequence : List Stmt}
      {alternative : Option (List Stmt)} {test whenTrue : List Instr} :
    Lowers (.expr condition) p test q → Lowers (.branch consequence) (q.advance 3) whenTrue r →
    65536 ≤ r.position + 3 →
    Refused (.expr (.conditional condition consequence alternative)) p
      (.encode (.operandOutOfRange .jumpNotTruthy (r.position + 3) 2)) (r.advance 3)
  | alternative {p q r s : Progress} {condition : Expr} {consequence : List Stmt}
      {alternative : Option (List Stmt)} {test whenTrue : List Instr} {e : CompileError} :
    Lowers (.expr condition) p test q → Lowers (.branch consequence) (q.advance 3) whenTrue r →
    r.position + 3 < 65536 → Refused (.alternative alternative) (r.advance 3) e s →
    Refused (.expr (.conditional condition consequence alternative)) p e s
  | after {p q r s : Progress} {condition : Expr} {consequence : List Stmt}
      {alternative : Option (List Stmt)} {test whenTrue whenFalse : List Instr} :
    Lowers (.expr condition) p test q → Lowers (.branch consequence) (q.advance 3) whenTrue r →
    r.position + 3 < 65536 → Lowers (.alternative alternative) (r.advance 3) whenFalse s →
    65536 ≤ s.position →
    Refused (.expr (.conditional condition consequence alternative)) p
      (.encode (.operandOutOfRange .jump s.position 2)) s
  | unsupported {p : Progress} {e : Expr} :
    e.hasCode = false → Refused (.expr e) p (.unsupported e.kindName) p
  | value {p q : Progress} {name : String} {value : Expr} {e : CompileError} :
    Refused (.expr value) p e q → Refused (.stmt (.define name value)) p e q
  | slot {p q : Progress} {name : String} {value : Expr} {code : List Instr} :
    Lowers (.expr value) p code q → 65536 ≤ q.slots.count →
    Refused (.stmt (.define name value)) p (.tooManyGlobals q.slots.count) (q.define name)
  | return {p : Progress} {value : Expr} :
    Refused (.stmt (.return value)) p (.unsupported (Stmt.return value).kindName) p
  | dropped {p q : Progress} {value : Expr} {e : CompileError} :
    Refused (.expr value) p e q → Refused (.stmt (.expr value)) p e q
  | first {p q : Progress} {s : Stmt} {rest : List Stmt} {e : CompileError} :
    Refused (.stmt s) p e q → Refused (.block (s :: rest)) p e q
  | later {p q r : Progress} {s : Stmt} {rest : List Stmt} {code : List Instr}
      {e : CompileError} :
    Lowers (.stmt s) p code q → Refused (.block rest) q e r → Refused (.block (s :: rest)) p e r
  | branch {p q : Progress} {block : List Stmt} {e : CompileError} :
    Refused (.block block) p e q → Refused (.branch block) p e q
  | present {p q : Progress} {block : List Stmt} {e : CompileError} :
    Refused (.branch block) p e q → Refused (.alternative (some block)) p e q

/-! ## The steps of the compiler -/

namespace Compile

variable {p q : Progress} {e : CompileError}

theorem operand_eq_error {op : Opcode} {number : Nat} (failed : operand op number p = .error e q) :
    65536 ≤ number ∧ e = .encode (.operandOutOfRange op number 2) ∧ q = p := by
  unfold operand at failed
  split at failed
  · exact (pure_ne_error failed).elim
  · rename_i wide
    rcases throw_eq_error.mp failed with ⟨rfl, rfl⟩
    exact ⟨Nat.le_of_not_lt wide, rfl, rfl⟩

theorem here_eq_error {op : Opcode} (failed : here op p = .error e q) :
    65536 ≤ p.position ∧ e = .encode (.operandOutOfRange op p.position 2) ∧ q = p :=
  operand_eq_error failed

theorem emit_ne_error {i : Instr} : emit i p ≠ .error e q := by
  rw [emit_eq]
  nofun

theorem constant_eq_error {value : Value} (failed : constant value p = .error e q) :
    65536 ≤ p.constants.size ∧ e = .tooManyConstants p.constants.size ∧ q = p := by
  unfold constant at failed
  rw [get_bind] at failed
  split at failed
  · rename_i full
    rcases throw_eq_error.mp failed with ⟨rfl, rfl⟩
    exact ⟨full, rfl, rfl⟩
  · rename_i room
    rw [modify_bind] at failed
    rcases bind_eq_error.mp failed with number | ⟨word, r, _, emitted⟩
    · exact (room (operand_eq_error number).1).elim
    · exact (emit_ne_error emitted).elim

theorem load_eq_error {name : String} (failed : load name p = .error e q) :
    Refused (.expr (.name name)) p e q := by
  unfold load at failed
  rw [get_bind] at failed
  cases found : p.slots.find? name with
  | none =>
    rw [found] at failed
    rcases throw_eq_error.mp failed with ⟨rfl, rfl⟩
    exact .undefined found
  | some slot =>
    rw [found] at failed
    rcases bind_eq_error.mp failed with number | ⟨word, r, _, emitted⟩
    · rcases operand_eq_error number with ⟨wide, rfl, rfl⟩
      exact .unreachable found wide
    · exact (emit_ne_error emitted).elim

theorem store_eq_error {name : String} (failed : store name p = .error e q) :
    65536 ≤ p.slots.count ∧ e = .tooManyGlobals p.slots.count ∧ q = p.define name := by
  unfold store at failed
  rw [get_bind] at failed
  rw [modify_bind] at failed
  split at failed
  · rename_i full
    rcases throw_eq_error.mp failed with ⟨rfl, rfl⟩
    exact ⟨full, rfl, rfl⟩
  · rename_i room
    rcases bind_eq_error.mp failed with number | ⟨word, r, _, emitted⟩
    · exact (room (operand_eq_error number).1).elim
    · exact (emit_ne_error emitted).elim

theorem yieldValue_ne_error {code : Segment} : yieldValue code p ≠ .error e q := by
  intro failed
  unfold yieldValue at failed
  cases parts : code.unsnoc? with
  | none =>
    rw [parts] at failed
    cases failed
  | some part =>
    rcases part with ⟨init, final⟩
    rw [parts] at failed
    cases final <;> cases failed

end Compile

/-! ## The compiler satisfies the relation -/

open Compile in
mutual

/-- Why an expression does not compile. -/
theorem Expr.refused : (x : Expr) → ∀ {p q : Progress} {e : CompileError},
    x.compile p = .error e q → Refused (.expr x) p e q
  | .integer n, p, q, e, failed => by
    rw [Expr.compile] at failed
    rcases constant_eq_error failed with ⟨full, rfl, rfl⟩
    exact .integer full
  | .text s, p, q, e, failed => by
    rw [Expr.compile] at failed
    rcases constant_eq_error failed with ⟨full, rfl, rfl⟩
    exact .text full
  | .boolean b, p, q, e, failed => by
    rw [Expr.compile] at failed
    exact (emit_ne_error failed).elim
  | .name name, p, q, e, failed => by
    rw [Expr.compile] at failed
    exact load_eq_error failed
  | .unary op operand, p, q, e, failed => by
    rw [Expr.compile] at failed
    rcases bind_eq_error.mp failed with inside | ⟨code, r, _, rest⟩
    · exact .unary (operand.refused inside)
    · rw [bind_of_ok (emit_eq _ _)] at rest
      exact (pure_ne_error rest).elim
  | .binary op left right, p, q, e, failed => by
    rw [Expr.compile] at failed
    split at failed
    · rename_i isLess
      subst isLess
      rcases bind_eq_error.mp failed with inside | ⟨first, r, compiledRight, rest⟩
      · exact .lessRight (right.refused inside)
      rcases bind_eq_error.mp rest with inside | ⟨second, r', _, rest⟩
      · exact .lessLeft (right.lowers compiledRight) (left.refused inside)
      · rw [bind_of_ok (emit_eq _ _)] at rest
        exact (pure_ne_error rest).elim
    · rename_i notLess
      rcases bind_eq_error.mp failed with inside | ⟨first, r, compiledLeft, rest⟩
      · exact .left notLess (left.refused inside)
      rcases bind_eq_error.mp rest with inside | ⟨second, r', _, rest⟩
      · exact .right notLess (left.lowers compiledLeft) (right.refused inside)
      · rw [bind_of_ok (emit_eq _ _)] at rest
        exact (pure_ne_error rest).elim
  | .conditional condition consequence alternative, p, q, e, failed => by
    rw [Expr.compile] at failed
    rcases bind_eq_error.mp failed with inside | ⟨test, r, compiledTest, rest⟩
    · exact .condition (condition.refused inside)
    have lower := condition.lowers compiledTest
    rw [bind_of_ok (reserve_eq _ _)] at rest
    rcases bind_eq_error.mp rest with inside | ⟨whenTrue, t, compiledTrue, rest⟩
    · rcases bind_eq_error.mp inside with inside | ⟨_, _, _, yielded⟩
      · exact .consequence lower (.branch (Stmt.refusedAll consequence inside))
      · exact (yieldValue_ne_error yielded).elim
    rcases bind_eq_ok.mp compiledTrue with ⟨block, v, compiledBlock, yielded⟩
    obtain ⟨more, row, lowers⟩ := Stmt.lowersAll consequence compiledBlock
    rw [Segment.toList_empty, List.nil_append] at row
    have lower' := yieldValue_lowers (row ▸ lowers) yielded
    rw [bind_of_ok (reserve_eq _ _)] at rest
    rcases bind_eq_error.mp rest with placed | ⟨otherwise, t', placed, rest⟩
    · rcases here_eq_error placed with ⟨wide, rfl, rfl⟩
      exact .otherwise lower lower' wide
    rcases here_eq_ok placed with ⟨fits, rfl, rfl⟩
    rcases bind_eq_error.mp rest with inside | ⟨whenFalse, u, compiledFalse, rest⟩
    · exact .alternative lower lower' fits (Stmt.refusedAlternative alternative inside)
    have lower'' := Stmt.lowersAlternative alternative compiledFalse
    rcases bind_eq_error.mp rest with placed | ⟨after, u', placed, rest⟩
    · rcases here_eq_error placed with ⟨wide, rfl, rfl⟩
      exact .after lower lower' fits lower'' wide
    · exact (pure_ne_error rest).elim
  | .function .., p, q, e, failed | .call .., p, q, e, failed | .array _, p, q, e, failed
  | .index .., p, q, e, failed => by
    rw [Expr.compile] at failed
    rcases throw_eq_error.mp failed with ⟨rfl, rfl⟩
    exact .unsupported rfl

/-- Why a statement does not compile. -/
theorem Stmt.refused : (s : Stmt) → ∀ {p q : Progress} {e : CompileError},
    s.compile p = .error e q → Refused (.stmt s) p e q
  | .define name value, p, q, e, failed => by
    rw [Stmt.compile] at failed
    rcases bind_eq_error.mp failed with inside | ⟨code, r, compiled, rest⟩
    · exact .value (value.refused inside)
    rcases bind_eq_error.mp rest with stored | ⟨_, _, _, rest⟩
    · rcases store_eq_error stored with ⟨full, rfl, rfl⟩
      exact .slot (value.lowers compiled) full
    · exact (pure_ne_error rest).elim
  | .return value, p, q, e, failed => by
    rw [Stmt.compile] at failed
    rcases throw_eq_error.mp failed with ⟨rfl, rfl⟩
    exact .return
  | .expr value, p, q, e, failed => by
    rw [Stmt.compile] at failed
    rcases bind_eq_error.mp failed with inside | ⟨code, r, _, rest⟩
    · exact .dropped (value.refused inside)
    · rw [bind_of_ok (emit_eq _ _)] at rest
      exact (pure_ne_error rest).elim

/-- Why statements do not compile. -/
theorem Stmt.refusedAll : (block : List Stmt) → ∀ {p q : Progress} {front : Segment}
    {e : CompileError}, Stmt.compileAll block front p = .error e q → Refused (.block block) p e q
  | [], p, q, front, e, failed => by
    rw [Stmt.compileAll] at failed
    exact (pure_ne_error failed).elim
  | s :: rest, p, q, front, e, failed => by
    rw [Stmt.compileAll] at failed
    rcases bind_eq_error.mp failed with inside | ⟨first, r, compiled, later⟩
    · exact .first (s.refused inside)
    · exact .later (s.lowers compiled) (Stmt.refusedAll rest later)

/-- Why the second block of a conditional does not compile. -/
theorem Stmt.refusedAlternative : (alternative : Option (List Stmt)) → ∀ {p q : Progress}
    {e : CompileError}, Stmt.compileAlternative alternative p = .error e q →
      Refused (.alternative alternative) p e q
  | none, p, q, e, failed => by
    rw [Stmt.compileAlternative] at failed
    exact (emit_ne_error failed).elim
  | some block, p, q, e, failed => by
    rw [Stmt.compileAlternative] at failed
    rcases bind_eq_error.mp failed with inside | ⟨_, _, _, yielded⟩
    · exact .present (.branch (Stmt.refusedAll block inside))
    · exact (yieldValue_ne_error yielded).elim

end

/-- Why a program does not compile. -/
theorem Program.refused {program : Program} {env : Env} {e : CompileError}
    (failed : program.compile env = .error e) :
    ∃ q, Refused (.block program) ⟨env, 0⟩ e q := by
  unfold Program.compile Compiler.compile at failed
  dsimp only [Compiler.ofEnv] at failed
  cases outcome : Stmt.compileAll program .empty ⟨env, (#[] : Code).size⟩ with
  | ok code q =>
    rw [outcome] at failed
    cases failed
  | error e' q =>
    rw [outcome] at failed
    cases failed
    exact ⟨q, Stmt.refusedAll program outcome⟩

end Stacklet
