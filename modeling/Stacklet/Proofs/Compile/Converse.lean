import Stacklet.Proofs.Compile.Lowering

/-!
# The relation is the compiler

Whatever `Lowers` holds of, the compiler does (`Program.compile_of_lowers`). So both
say the same, and a program that was taken apart or put together by the rules of the
relation is known to compile.
-/

namespace Stacklet

open Compile

/-! ## Branches -/

/-- The code of a branch is that of its block, without the last instruction if it
drops a value, and else with a null behind it. -/
theorem Lowers.block_of_branch {block : List Stmt} {p q : Progress} {code : List Instr}
    (lowers : Lowers (.branch block) p code q) :
    ∃ whole r, Lowers (.block block) p whole r ∧
      ((whole = code ++ [.pop] ∧ r = q.advance 1) ∨
        ((∀ kept, whole ≠ kept ++ [.pop]) ∧ code = whole ++ [.pushNull] ∧ q = r.advance 1)) := by
  induction block generalizing p code with
  | nil =>
    cases lowers with
    | valueless => exact ⟨[], p, .done, .inr ⟨by simp, rfl, rfl⟩⟩
  | cons s rest ih =>
    cases lowers with
    | @kept _ _ e code value =>
      refine ⟨code ++ [.pop] ++ [], _, .next (.dropped value) .done, .inl ⟨List.append_nil _, rfl⟩⟩
    | @before _ middle _ _ _ first code inner head tail =>
      obtain ⟨whole, r, block, shape⟩ := ih tail
      refine ⟨first ++ whole, r, .next head block, ?_⟩
      rcases shape with ⟨rfl, rfl⟩ | ⟨noPop, rfl, rfl⟩
      · exact .inl ⟨(List.append_assoc ..).symm, rfl⟩
      · refine .inr ⟨fun kept same => ?_, (List.append_assoc ..).symm, rfl⟩
        rcases List.eq_nil_or_concat whole with rfl | ⟨init, last, rfl⟩
        · -- Nothing but the first statement has code, and it is a definition.
          cases rest with
          | nil =>
            cases head with
            | dropped value => exact inner rfl ⟨_, rfl⟩
            | define value fits => simp at same
          | cons t rest => exact (block.code_ne_nil rfl).elim
        · rw [List.concat_eq_append, ← List.append_assoc] at same
          have last := (List.append_inj' same rfl).2
          exact noPop init (by rw [List.concat_eq_append, last])

namespace Compile

theorem yieldValue_of_pop {code : Segment} {row : List Instr} {q : Progress}
    (pops : code.toList = row ++ [.pop]) :
    ∃ branch, yieldValue code (q.advance 1) = .ok branch q ∧ branch.toList = row := by
  unfold yieldValue
  cases parts : code.unsnoc? with
  | none =>
    rw [Segment.unsnoc?_eq_none parts] at pops
    simp at pops
  | some part =>
    rcases part with ⟨init, last⟩
    rw [Segment.toList_of_unsnoc? parts] at pops
    obtain ⟨same, pop⟩ := List.append_inj' pops rfl
    cases pop
    exact ⟨init, rfl, same⟩

theorem yieldValue_of_no_pop {code : Segment} {q : Progress}
    (noPop : ∀ row, code.toList ≠ row ++ [.pop]) :
    ∃ branch, yieldValue code q = .ok branch (q.advance 1) ∧
      branch.toList = code.toList ++ [.pushNull] := by
  unfold yieldValue
  cases parts : code.unsnoc? with
  | none => exact ⟨_, rfl, Segment.toList_append ..⟩
  | some part =>
    rcases part with ⟨init, last⟩
    have row := Segment.toList_of_unsnoc? parts
    have other : last ≠ .pop := fun same => noPop _ (same ▸ row)
    refine ⟨code ++ .one .pushNull, ?_, Segment.toList_append ..⟩
    cases last <;> first | exact (other rfl).elim | rfl

/-- The branch of a conditional compiles if its block does. -/
theorem branch_of_lowers {block : List Stmt} {p q : Progress} {row : List Instr}
    (lowers : Lowers (.branch block) p row q)
    (compiles : ∀ {whole r}, Lowers (.block block) p whole r →
      ∃ code, Stmt.compileAll block .empty p = .ok code r ∧ code.toList = whole) :
    ∃ code, branch (Stmt.compileAll block .empty) p = .ok code q ∧ code.toList = row := by
  obtain ⟨whole, r, block, ⟨pops, rfl⟩ | ⟨noPop, rfl, rfl⟩⟩ := lowers.block_of_branch
  · obtain ⟨code, compiled, same⟩ := compiles block
    obtain ⟨branch, yielded, row⟩ := yieldValue_of_pop (same.trans pops)
    exact ⟨branch, (bind_of_ok compiled).trans yielded, row⟩
  · obtain ⟨code, compiled, rfl⟩ := compiles block
    obtain ⟨branch, yielded, row⟩ := yieldValue_of_no_pop noPop
    exact ⟨branch, (bind_of_ok compiled).trans yielded, row⟩

theorem operand_of_fits {op : Opcode} {number : Nat} {p : Progress} (fits : number < 65536) :
    operand op number p = .ok (.ofNat number) p := by
  unfold operand
  rw [if_pos fits]
  rfl

theorem here_of_fits {op : Opcode} {p : Progress} (fits : p.position < 65536) :
    here op p = .ok (.ofNat p.position) p := operand_of_fits fits

theorem constant_of_room {value : Value} {p : Progress} (room : p.constants.size < 65536) :
    constant value p = .ok (.one (.constant (.ofNat p.constants.size)))
      ((p.addConstant value).advance 3) := by
  unfold constant
  rw [get_bind, if_neg (Nat.not_lt.mpr (Nat.le_of_lt_succ room)), modify_bind,
    bind_of_ok (operand_of_fits room)]
  rfl

theorem load_of_find? {name : String} {p : Progress} {slot : Nat}
    (found : p.slots.find? name = some slot) (fits : slot < 65536) :
    load name p = .ok (.one (.getGlobal (.ofNat slot))) (p.advance 3) := by
  unfold load
  rw [get_bind, found]
  exact bind_of_ok (operand_of_fits fits)

theorem store_of_room {name : String} {p : Progress} (room : p.slots.count < 65536) :
    store name p = .ok (.one (.setGlobal (.ofNat p.slots.count))) ((p.define name).advance 3) := by
  unfold store
  rw [get_bind, modify_bind, if_neg (Nat.not_lt.mpr (Nat.le_of_lt_succ room)),
    bind_of_ok (operand_of_fits room)]
  rfl

end Compile

/-! ## The relation satisfies the compiler -/

mutual

theorem Expr.compile_of_lowers : (e : Expr) → ∀ {p q : Progress} {row : List Instr},
    Lowers (.expr e) p row q → ∃ code, e.compile p = .ok code q ∧ code.toList = row
  | .integer n, p, q, row, lowers => by
    cases lowers with
    | integer room => exact ⟨_, constant_of_room room, rfl⟩
  | .text s, p, q, row, lowers => by
    cases lowers with
    | text room => exact ⟨_, constant_of_room room, rfl⟩
  | .boolean b, p, q, row, lowers => by
    cases lowers with
    | boolean =>
      have size : (if b then Instr.pushTrue else .pushFalse).size = 1 := by cases b <;> rfl
      rw [Expr.compile, emit_eq, size]
      exact ⟨_, rfl, rfl⟩
  | .name name, p, q, row, lowers => by
    cases lowers with
    | name found fits => exact ⟨_, load_of_find? found fits, rfl⟩
  | .unary op e, p, q, row, lowers => by
    cases lowers with
    | unary lower =>
      obtain ⟨code, compiled, rfl⟩ := e.compile_of_lowers lower
      rw [Expr.compile, bind_of_ok compiled, bind_of_ok (emit_eq _ _), op.size_instr]
      exact ⟨_, rfl, Segment.toList_append ..⟩
  | .binary op left right, p, q, row, lowers => by
    cases lowers with
    | binary notLess lower lower' =>
      obtain ⟨first, compiled, rfl⟩ := left.compile_of_lowers lower
      obtain ⟨second, compiled', rfl⟩ := right.compile_of_lowers lower'
      rw [Expr.compile, if_neg notLess, bind_of_ok compiled, bind_of_ok compiled',
        bind_of_ok (emit_eq _ _), op.size_instr]
      exact ⟨_, rfl, by rw [Segment.toList_append, Segment.toList_append]; rfl⟩
    | less lower lower' =>
      obtain ⟨first, compiled, rfl⟩ := right.compile_of_lowers lower
      obtain ⟨second, compiled', rfl⟩ := left.compile_of_lowers lower'
      rw [Expr.compile, if_pos rfl, bind_of_ok compiled, bind_of_ok compiled',
        bind_of_ok (emit_eq _ _)]
      exact ⟨_, rfl, by rw [Segment.toList_append, Segment.toList_append]; rfl⟩
  | .conditional condition consequence alternative, p, q, row, lowers => by
    cases lowers with
    | conditional lower lower' fits lower'' fits' =>
      obtain ⟨test, compiled, rfl⟩ := condition.compile_of_lowers lower
      obtain ⟨whenTrue, compiled', rfl⟩ := branch_of_lowers lower' fun block => by
        obtain ⟨code, compiled, same⟩ := Stmt.compileAll_of_lowers consequence block .empty
        exact ⟨code, compiled, same⟩
      obtain ⟨whenFalse, compiled'', rfl⟩ := Stmt.compileAlternative_of_lowers alternative lower''
      rw [Expr.compile, bind_of_ok compiled, bind_of_ok (reserve_eq _ _), bind_of_ok compiled',
        bind_of_ok (reserve_eq _ _), bind_of_ok (here_of_fits fits), bind_of_ok compiled'',
        bind_of_ok (here_of_fits fits')]
      exact ⟨_, rfl, by simp only [Segment.toList_append, Segment.toList_one]; rfl⟩
  | .function .., p, q, row, lowers | .call .., p, q, row, lowers | .array _, p, q, row, lowers
  | .index .., p, q, row, lowers => by cases lowers

theorem Stmt.compile_of_lowers : (s : Stmt) → ∀ {p q : Progress} {row : List Instr},
    Lowers (.stmt s) p row q → ∃ code, s.compile p = .ok code q ∧ code.toList = row
  | .define name value, p, q, row, lowers => by
    cases lowers with
    | define lower fits =>
      obtain ⟨code, compiled, rfl⟩ := value.compile_of_lowers lower
      rw [Stmt.compile, bind_of_ok compiled, bind_of_ok (store_of_room fits)]
      exact ⟨_, rfl, Segment.toList_append ..⟩
  | .expr value, p, q, row, lowers => by
    cases lowers with
    | dropped lower =>
      obtain ⟨code, compiled, rfl⟩ := value.compile_of_lowers lower
      rw [Stmt.compile, bind_of_ok compiled, bind_of_ok (emit_eq _ _)]
      exact ⟨_, rfl, Segment.toList_append ..⟩
  | .return value, p, q, row, lowers => by cases lowers

theorem Stmt.compileAll_of_lowers : (block : List Stmt) → ∀ {p q : Progress} {row : List Instr},
    Lowers (.block block) p row q → ∀ front,
      ∃ code, Stmt.compileAll block front p = .ok code q ∧ code.toList = front.toList ++ row
  | [], p, q, row, lowers, front => by
    cases lowers with
    | done => exact ⟨front, rfl, (List.append_nil _).symm⟩
  | s :: rest, p, q, row, lowers, front => by
    cases lowers with
    | next head tail =>
      obtain ⟨first, compiled, rfl⟩ := s.compile_of_lowers head
      obtain ⟨code, compiled', same⟩ := Stmt.compileAll_of_lowers rest tail (front ++ first)
      rw [Stmt.compileAll, bind_of_ok compiled]
      exact ⟨code, compiled', by rw [same, Segment.toList_append, List.append_assoc]⟩

theorem Stmt.compileAlternative_of_lowers : (alternative : Option (List Stmt)) →
    ∀ {p q : Progress} {row : List Instr}, Lowers (.alternative alternative) p row q →
      ∃ code, Stmt.compileAlternative alternative p = .ok code q ∧ code.toList = row
  | none, p, q, row, lowers => by
    cases lowers with
    | absent => exact ⟨_, rfl, rfl⟩
  | some block, p, q, row, lowers => by
    cases lowers with
    | present lower =>
      exact branch_of_lowers lower fun block' => by
        obtain ⟨code, compiled, same⟩ := Stmt.compileAll_of_lowers block block' .empty
        exact ⟨code, compiled, same⟩

end

/-! ## Programs -/

namespace Compiler

variable {c : Compiler} {program : Program} {q : Progress}

theorem compile_of_ok {code : Segment}
    (outcome : Stmt.compileAll program .empty ⟨c.env, c.code.size⟩ = .ok code q) :
    c.compile program = (.ok (), ⟨Code.append c.code code.toList, q.toEnv⟩) := by
  rw [compile, outcome]

theorem compile_of_error {e : CompileError}
    (outcome : Stmt.compileAll program .empty ⟨c.env, c.code.size⟩ = .error e q) :
    c.compile program = (.error e, ⟨#[], q.toEnv⟩) := by
  rw [compile, outcome]

/-- A program is compiled behind the code so far if the relation holds of it there. -/
theorem compile_of_lowers {code : List Instr}
    (lowers : Lowers (.block program) ⟨c.env, c.code.size⟩ code q) :
    ∃ c', c.compile program = (.ok (), c') ∧
      c'.code.toList = c.code.toList ++ Instr.bytesOf code ∧ c'.env = q.toEnv := by
  obtain ⟨segment, compiled, row⟩ := Stmt.compileAll_of_lowers program lowers .empty
  refine ⟨_, compile_of_ok compiled, ?_, rfl⟩
  rw [Code.toList_append, row]
  rfl

end Compiler

/-- A program compiles if the relation holds of it. -/
theorem Program.compile_of_lowers {program : Program} {env : Env} {code : List Instr} {q : Progress}
    (lowers : Lowers (.block program) ⟨env, 0⟩ code q) :
    ∃ b, program.compile env = .ok (b, q.toEnv) ∧ b.code.toList = Instr.bytesOf code ∧
      b.constants = q.constants := by
  obtain ⟨c', compiled, bytes, same⟩ := Compiler.compile_of_lowers (c := .ofEnv env) lowers
  refine ⟨c'.bytecode, ?_, bytes, congrArg Env.constants same⟩
  rw [Program.compile, compiled, ← same]

end Stacklet
