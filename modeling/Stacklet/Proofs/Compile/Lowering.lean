import Stacklet.Compile.Compiler
import Stacklet.Proofs.Code.Layout
import Stacklet.Proofs.Effects

/-!
# Successful compilation as a relation

The compiler is a family of functions with a state and errors. What a success
says is easier to reason about as one inductive relation with a rule for each
shape of code: `Lowers f p code q` holds when fragment `f`, compiled at progress
`p`, yields the row `code` and progress `q`. Every success of the compiler
satisfies it (`Expr.lowers`, `Stmt.lowersAll`), so a fact about compiled code is
one induction over its rules.

The rules for the branches of a conditional follow the statements of the branch
and not the row of instructions: no rule cuts off an instruction that another
one has laid out.
-/

namespace Stacklet

/-! ## Progress -/

/-- Progress with more bytes laid out. -/
def Progress.advance (p : Progress) (size : Nat) : Progress :=
  { p with position := p.position + size }

/-- Progress with one more constant. -/
def Progress.addConstant (p : Progress) (value : Value) : Progress :=
  { p with constants := p.constants.push value }

/-- Progress with one more name. -/
def Progress.define (p : Progress) (name : String) : Progress :=
  { p with slots := p.slots.define name }

namespace Progress

variable (p : Progress) (size : Nat) (value : Value) (name : String)

@[simp] theorem position_advance : (p.advance size).position = p.position + size := rfl
@[simp] theorem slots_advance : (p.advance size).slots = p.slots := rfl
@[simp] theorem constants_advance : (p.advance size).constants = p.constants := rfl
@[simp] theorem position_addConstant : (p.addConstant value).position = p.position := rfl
@[simp] theorem slots_addConstant : (p.addConstant value).slots = p.slots := rfl
@[simp] theorem constants_addConstant :
    (p.addConstant value).constants = p.constants.push value := rfl
@[simp] theorem position_define : (p.define name).position = p.position := rfl
@[simp] theorem slots_define : (p.define name).slots = p.slots.define name := rfl
@[simp] theorem constants_define : (p.define name).constants = p.constants := rfl

end Progress

@[simp] theorem UnaryOp.size_instr (op : UnaryOp) : op.instr.size = 1 := by
  cases op <;> rfl

@[simp] theorem BinaryOp.size_instr (op : BinaryOp) : op.instr.size = 1 := by
  cases op <;> rfl

/-- A value that a literal of a program stands for. -/
def Value.IsLiteral : Value → Prop
  | .integer _ | .string _ => True
  | _ => False

/-! ## The relation -/

/-- A part of a program that has code of its own. -/
inductive Fragment
  | expr (e : Expr)
  | stmt (s : Stmt)
  | block (statements : List Stmt)
  /-- A block of a conditional, which leaves a value. -/
  | branch (statements : List Stmt)
  /-- The second block of a conditional, if there is one. -/
  | alternative (block : Option (List Stmt))

/-- A statement that is nothing but an expression. -/
def Stmt.IsExpr (s : Stmt) : Prop := ∃ e, s = .expr e

/-- `Lowers f p code q`: the code of `f`, laid out from progress `p` on, is `code`,
and `q` is the progress behind it. -/
inductive Lowers : Fragment → Progress → List Instr → Progress → Prop
  | integer {p : Progress} {n : Int64} :
    p.constants.size < 65536 →
    Lowers (.expr (.integer n)) p [.constant (.ofNat p.constants.size)]
      ((p.addConstant (.integer n)).advance 3)
  | text {p : Progress} {s : String} :
    p.constants.size < 65536 →
    Lowers (.expr (.text s)) p [.constant (.ofNat p.constants.size)]
      ((p.addConstant (.string s)).advance 3)
  | boolean {p : Progress} {b : Bool} :
    Lowers (.expr (.boolean b)) p [if b then .pushTrue else .pushFalse] (p.advance 1)
  | name {p : Progress} {name : String} {slot : Nat} :
    p.slots.find? name = some slot → slot < 65536 →
    Lowers (.expr (.name name)) p [.getGlobal (.ofNat slot)] (p.advance 3)
  | unary {p q : Progress} {op : UnaryOp} {e : Expr} {code : List Instr} :
    Lowers (.expr e) p code q →
    Lowers (.expr (.unary op e)) p (code ++ [op.instr]) (q.advance 1)
  | binary {p q r : Progress} {op : BinaryOp} {left right : Expr} {first second : List Instr} :
    op ≠ .less → Lowers (.expr left) p first q → Lowers (.expr right) q second r →
    Lowers (.expr (.binary op left right)) p (first ++ second ++ [op.instr]) (r.advance 1)
  | less {p q r : Progress} {left right : Expr} {first second : List Instr} :
    Lowers (.expr right) p first q → Lowers (.expr left) q second r →
    Lowers (.expr (.binary .less left right)) p (first ++ second ++ [.greaterThan]) (r.advance 1)
  | conditional {p q r s : Progress} {condition : Expr} {consequence : List Stmt}
      {alternative : Option (List Stmt)} {test whenTrue whenFalse : List Instr} :
    Lowers (.expr condition) p test q →
    Lowers (.branch consequence) (q.advance 3) whenTrue r → r.position + 3 < 65536 →
    Lowers (.alternative alternative) (r.advance 3) whenFalse s → s.position < 65536 →
    Lowers (.expr (.conditional condition consequence alternative)) p
      (test ++ [.jumpNotTruthy (.ofNat (r.position + 3))] ++ whenTrue ++
        [.jump (.ofNat s.position)] ++ whenFalse) s
  | define {p q : Progress} {name : String} {value : Expr} {code : List Instr} :
    Lowers (.expr value) p code q → q.slots.count < 65536 →
    Lowers (.stmt (.define name value)) p (code ++ [.setGlobal (.ofNat q.slots.count)])
      ((q.define name).advance 3)
  | dropped {p q : Progress} {e : Expr} {code : List Instr} :
    Lowers (.expr e) p code q →
    Lowers (.stmt (.expr e)) p (code ++ [.pop]) (q.advance 1)
  | done {p : Progress} : Lowers (.block []) p [] p
  | next {p q r : Progress} {s : Stmt} {rest : List Stmt} {first code : List Instr} :
    Lowers (.stmt s) p first q → Lowers (.block rest) q code r →
    Lowers (.block (s :: rest)) p (first ++ code) r
  | valueless {p : Progress} : Lowers (.branch []) p [.pushNull] (p.advance 1)
  | kept {p q : Progress} {e : Expr} {code : List Instr} :
    Lowers (.expr e) p code q → Lowers (.branch [.expr e]) p code q
  | before {p q r : Progress} {s : Stmt} {rest : List Stmt} {first code : List Instr} :
    (rest = [] → ¬ s.IsExpr) → Lowers (.stmt s) p first q → Lowers (.branch rest) q code r →
    Lowers (.branch (s :: rest)) p (first ++ code) r
  | absent {p : Progress} : Lowers (.alternative none) p [.pushNull] (p.advance 1)
  | present {p q : Progress} {block : List Stmt} {code : List Instr} :
    Lowers (.branch block) p code q → Lowers (.alternative (some block)) p code q

/-! ## The steps of the compiler -/

namespace Compile

variable {p q : Progress} {code : Segment}

theorem reserve_eq (size : Nat) (p : Progress) : reserve size p = .ok () (p.advance size) := rfl

theorem emit_eq (i : Instr) (p : Progress) : emit i p = .ok (.one i) (p.advance i.size) := rfl

theorem operand_eq_ok {op : Opcode} {number : Nat} {word : UInt16}
    (success : operand op number p = .ok word q) :
    number < 65536 ∧ word = .ofNat number ∧ q = p := by
  unfold operand at success
  split at success
  · rename_i fits
    rcases pure_eq_ok.mp success with ⟨same, rfl⟩
    exact ⟨fits, same.symm, rfl⟩
  · exact (throw_ne_ok success).elim

theorem here_eq_ok {op : Opcode} {word : UInt16} (success : here op p = .ok word q) :
    p.position < 65536 ∧ word = .ofNat p.position ∧ q = p :=
  operand_eq_ok success

theorem constant_eq_ok {value : Value} (success : constant value p = .ok code q) :
    p.constants.size < 65536 ∧ code = .one (.constant (.ofNat p.constants.size)) ∧
      q = (p.addConstant value).advance 3 := by
  unfold constant at success
  rw [get_bind] at success
  split at success
  · exact (throw_ne_ok success).elim
  · rename_i room
    rw [modify_bind] at success
    rcases bind_eq_ok.mp success with ⟨word, r, number, emitted⟩
    rcases operand_eq_ok number with ⟨fits, rfl, rfl⟩
    rw [emit_eq] at emitted
    cases emitted
    exact ⟨fits, rfl, rfl⟩

theorem load_eq_ok {name : String} (success : load name p = .ok code q) :
    ∃ slot, p.slots.find? name = some slot ∧ slot < 65536 ∧
      code = .one (.getGlobal (.ofNat slot)) ∧ q = p.advance 3 := by
  unfold load at success
  rw [get_bind] at success
  cases found : p.slots.find? name with
  | none =>
    rw [found] at success
    exact (throw_ne_ok success).elim
  | some slot =>
    rw [found] at success
    rcases bind_eq_ok.mp success with ⟨word, r, number, emitted⟩
    rcases operand_eq_ok number with ⟨fits, rfl, rfl⟩
    rw [emit_eq] at emitted
    cases emitted
    exact ⟨slot, rfl, fits, rfl, rfl⟩

theorem store_eq_ok {name : String} (success : store name p = .ok code q) :
    p.slots.count < 65536 ∧ code = .one (.setGlobal (.ofNat p.slots.count)) ∧
      q = (p.define name).advance 3 := by
  unfold store at success
  rw [get_bind] at success
  rw [modify_bind] at success
  split at success
  · exact (throw_ne_ok success).elim
  · rename_i room
    rcases bind_eq_ok.mp success with ⟨word, r, number, emitted⟩
    rcases operand_eq_ok number with ⟨fits, rfl, rfl⟩
    rw [emit_eq] at emitted
    cases emitted
    exact ⟨fits, rfl, rfl⟩

end Compile

/-! ## Branches -/

/-- No block but the empty one has empty code. -/
theorem Lowers.code_ne_nil {p q : Progress} {s : Stmt} {rest : List Stmt} {code : List Instr}
    (lowers : Lowers (.block (s :: rest)) p code q) : code ≠ [] := by
  cases lowers with
  | next head tail => cases head <;> simp

/-- The code of a block ends in the instruction that drops a value exactly where
the block ends in an expression. Without that instruction, or else with a null
behind it, it is the code of a branch. -/
theorem Lowers.branch_of_block {block : List Stmt} {p q : Progress} {code : List Instr}
    (lowers : Lowers (.block block) p code q) :
    (∃ kept r, code = kept ++ [.pop] ∧ q = r.advance 1 ∧ Lowers (.branch block) p kept r) ∨
      ((∀ kept, code ≠ kept ++ [.pop]) ∧
        Lowers (.branch block) p (code ++ [.pushNull]) (q.advance 1)) := by
  induction block generalizing p code with
  | nil =>
    cases lowers with
    | done => exact .inr ⟨by simp, .valueless⟩
  | cons s rest ih =>
    cases lowers with
    | @next _ middle _ _ _ first code head tail =>
    cases rest with
    | nil =>
      cases tail with
      | done =>
      cases head with
      | define value fits =>
        refine .inr ⟨by simp, ?_⟩
        rw [List.append_nil]
        exact .before (fun _ ⟨_, same⟩ => by cases same) (.define value fits) .valueless
      | @dropped _ r e kept value =>
        exact .inl ⟨kept, r, by simp, rfl, .kept value⟩
    | cons t rest =>
      rcases ih tail with ⟨kept, r, rfl, rfl, branch⟩ | ⟨noPop, branch⟩
      · refine .inl ⟨first ++ kept, r, by simp, rfl, ?_⟩
        exact .before (by simp) head branch
      · refine .inr ⟨fun kept same => ?_, ?_⟩
        · obtain ⟨init, last, rfl⟩ := (List.eq_nil_or_concat code).resolve_left tail.code_ne_nil
          rw [List.concat_eq_append, ← List.append_assoc] at same
          have lasts := (List.append_inj' same rfl).2
          exact noPop init (by rw [List.concat_eq_append, lasts])
        · rw [List.append_assoc]
          exact .before (by simp) head branch

/-! ## The compiler satisfies the relation -/

namespace Compile

/-- Making the code of a block leave a value. -/
theorem yieldValue_lowers {p q r : Progress} {block : List Stmt} {code branch : Segment}
    (lowers : Lowers (.block block) p code.toList q)
    (success : yieldValue code q = .ok branch r) :
    Lowers (.branch block) p branch.toList r := by
  unfold yieldValue at success
  have last := lowers.branch_of_block
  cases parts : code.unsnoc? with
  | none =>
    rw [parts] at success
    rw [Segment.unsnoc?_eq_none parts] at last
    cases success
    rcases last with ⟨kept, _, same, _⟩ | ⟨_, branched⟩
    · simp at same
    · rw [Segment.toList_append, Segment.unsnoc?_eq_none parts]
      exact branched
  | some part =>
    rcases part with ⟨init, final⟩
    rw [parts] at success
    have row := Segment.toList_of_unsnoc? parts
    rw [row] at last
    by_cases dropped : final = .pop
    · subst dropped
      cases success
      rcases last with ⟨kept, r', same, rfl, branched⟩ | ⟨noPop, _⟩
      · rw [(List.append_inj' same rfl).1]
        exact branched
      · exact (noPop _ rfl).elim
    · have emitted : branch = code ++ .one .pushNull ∧ r = q.advance 1 := by
        cases final <;> first | exact (dropped rfl).elim | (cases success; exact ⟨rfl, rfl⟩)
      rcases emitted with ⟨rfl, rfl⟩
      rcases last with ⟨kept, _, same, _⟩ | ⟨_, branched⟩
      · exact (dropped (List.cons.inj (List.append_inj' same rfl).2).1).elim
      · rw [Segment.toList_append, row]
        exact branched

end Compile

open Compile in
mutual

/-- The code of an expression that compiles. -/
theorem Expr.lowers : (e : Expr) → ∀ {p q : Progress} {code : Segment},
    e.compile p = .ok code q → Lowers (.expr e) p code.toList q
  | .integer n, p, q, code, success => by
    rw [Expr.compile] at success
    rcases constant_eq_ok success with ⟨room, rfl, rfl⟩
    exact .integer room
  | .text s, p, q, code, success => by
    rw [Expr.compile] at success
    rcases constant_eq_ok success with ⟨room, rfl, rfl⟩
    exact .text room
  | .boolean b, p, q, code, success => by
    rw [Expr.compile, emit_eq] at success
    cases success
    have size : (if b then Instr.pushTrue else .pushFalse).size = 1 := by cases b <;> rfl
    rw [size]
    exact .boolean
  | .name name, p, q, code, success => by
    rw [Expr.compile] at success
    rcases load_eq_ok success with ⟨slot, found, fits, rfl, rfl⟩
    exact .name found fits
  | .unary op e, p, q, code, success => by
    rw [Expr.compile] at success
    rcases bind_eq_ok.mp success with ⟨operand, r, compiled, rest⟩
    rw [bind_of_ok (emit_eq _ _)] at rest
    rcases pure_eq_ok.mp rest with ⟨rfl, rfl⟩
    rw [Segment.toList_append, op.size_instr]
    exact .unary (e.lowers compiled)
  | .binary op left right, p, q, code, success => by
    rw [Expr.compile] at success
    split at success
    · rename_i isLess
      subst isLess
      rcases bind_eq_ok.mp success with ⟨first, r, compiledRight, rest⟩
      rcases bind_eq_ok.mp rest with ⟨second, r', compiledLeft, rest⟩
      rw [bind_of_ok (emit_eq _ _)] at rest
      rcases pure_eq_ok.mp rest with ⟨rfl, rfl⟩
      rw [Segment.toList_append, Segment.toList_append]
      exact .less (right.lowers compiledRight) (left.lowers compiledLeft)
    · rename_i notLess
      rcases bind_eq_ok.mp success with ⟨first, r, compiledLeft, rest⟩
      rcases bind_eq_ok.mp rest with ⟨second, r', compiledRight, rest⟩
      rw [bind_of_ok (emit_eq _ _)] at rest
      rcases pure_eq_ok.mp rest with ⟨rfl, rfl⟩
      rw [Segment.toList_append, Segment.toList_append, op.size_instr]
      exact .binary notLess (left.lowers compiledLeft) (right.lowers compiledRight)
  | .conditional condition consequence alternative, p, q, code, success => by
    rw [Expr.compile] at success
    rcases bind_eq_ok.mp success with ⟨test, r, compiledTest, rest⟩
    rw [bind_of_ok (reserve_eq _ _)] at rest
    rcases bind_eq_ok.mp rest with ⟨whenTrue, t, compiledTrue, rest⟩
    rw [bind_of_ok (reserve_eq _ _)] at rest
    rcases bind_eq_ok.mp rest with ⟨otherwise, t', placed, rest⟩
    rcases here_eq_ok placed with ⟨fitsOtherwise, rfl, rfl⟩
    rcases bind_eq_ok.mp rest with ⟨whenFalse, u, compiledFalse, rest⟩
    rcases bind_eq_ok.mp rest with ⟨after, u', placed, rest⟩
    rcases here_eq_ok placed with ⟨fitsAfter, rfl, rfl⟩
    rcases pure_eq_ok.mp rest with ⟨rfl, rfl⟩
    unfold branch at compiledTrue
    rcases bind_eq_ok.mp compiledTrue with ⟨block, v, compiledBlock, yielded⟩
    obtain ⟨more, row, lowers⟩ := Stmt.lowersAll consequence compiledBlock
    rw [Segment.toList_empty, List.nil_append] at row
    simp only [Segment.toList_append, Segment.toList_one]
    exact .conditional (condition.lowers compiledTest)
      (yieldValue_lowers (row ▸ lowers) yielded) fitsOtherwise
      (Stmt.lowersAlternative alternative compiledFalse) fitsAfter
  | .function parameters body, p, q, code, success => by
    rw [Expr.compile] at success
    exact (throw_ne_ok success).elim
  | .call callee arguments, p, q, code, success => by
    rw [Expr.compile] at success
    exact (throw_ne_ok success).elim
  | .array items, p, q, code, success => by
    rw [Expr.compile] at success
    exact (throw_ne_ok success).elim
  | .index base subscript, p, q, code, success => by
    rw [Expr.compile] at success
    exact (throw_ne_ok success).elim

/-- The code of a statement that compiles. -/
theorem Stmt.lowers : (s : Stmt) → ∀ {p q : Progress} {code : Segment},
    s.compile p = .ok code q → Lowers (.stmt s) p code.toList q
  | .define name value, p, q, code, success => by
    rw [Stmt.compile] at success
    rcases bind_eq_ok.mp success with ⟨first, r, compiled, rest⟩
    rcases bind_eq_ok.mp rest with ⟨last, r', stored, rest⟩
    rcases pure_eq_ok.mp rest with ⟨rfl, rfl⟩
    rcases store_eq_ok stored with ⟨fits, rfl, rfl⟩
    rw [Segment.toList_append]
    exact .define (value.lowers compiled) fits
  | .return value, p, q, code, success => by
    rw [Stmt.compile] at success
    exact (throw_ne_ok success).elim
  | .expr value, p, q, code, success => by
    rw [Stmt.compile] at success
    rcases bind_eq_ok.mp success with ⟨first, r, compiled, rest⟩
    rw [bind_of_ok (emit_eq _ _)] at rest
    rcases pure_eq_ok.mp rest with ⟨rfl, rfl⟩
    rw [Segment.toList_append]
    exact .dropped (value.lowers compiled)

/-- The code of statements that compile, behind the code before them. -/
theorem Stmt.lowersAll : (block : List Stmt) → ∀ {p q : Progress} {front code : Segment},
    Stmt.compileAll block front p = .ok code q →
      ∃ more, code.toList = front.toList ++ more ∧ Lowers (.block block) p more q
  | [], p, q, front, code, success => by
    rw [Stmt.compileAll] at success
    rcases pure_eq_ok.mp success with ⟨rfl, rfl⟩
    exact ⟨[], by simp, .done⟩
  | s :: rest, p, q, front, code, success => by
    rw [Stmt.compileAll] at success
    rcases bind_eq_ok.mp success with ⟨first, r, compiled, later⟩
    obtain ⟨more, row, lowers⟩ := Stmt.lowersAll rest later
    refine ⟨first.toList ++ more, ?_, .next (s.lowers compiled) lowers⟩
    rw [row, Segment.toList_append, List.append_assoc]

/-- The code of the second block of a conditional, if it compiles. -/
theorem Stmt.lowersAlternative : (alternative : Option (List Stmt)) →
    ∀ {p q : Progress} {code : Segment},
      Stmt.compileAlternative alternative p = .ok code q →
        Lowers (.alternative alternative) p code.toList q
  | none, p, q, code, success => by
    rw [Stmt.compileAlternative, emit_eq] at success
    cases success
    exact .absent
  | some block, p, q, code, success => by
    rw [Stmt.compileAlternative] at success
    rcases bind_eq_ok.mp success with ⟨first, r, compiled, yielded⟩
    obtain ⟨more, row, lowers⟩ := Stmt.lowersAll block compiled
    rw [Segment.toList_empty, List.nil_append] at row
    exact .present (yieldValue_lowers (row ▸ lowers) yielded)

end

/-- The byte code of a program that compiles. -/
theorem Program.lowers {program : Program} {env env' : Env} {b : Bytecode}
    (compiled : program.compile env = .ok (b, env')) :
    ∃ code q, Lowers (.block program) ⟨env, 0⟩ code q ∧
      b.code.toList = Instr.bytesOf code ∧ b.constants = q.constants ∧ env' = q.toEnv := by
  unfold Program.compile Compiler.compile at compiled
  dsimp only [Compiler.ofEnv] at compiled
  cases outcome : Stmt.compileAll program .empty ⟨env, (#[] : Code).size⟩ with
  | error e q =>
    rw [outcome] at compiled
    cases compiled
  | ok code q =>
    rw [outcome] at compiled
    cases compiled
    obtain ⟨more, row, lowers⟩ := Stmt.lowersAll program outcome
    rw [Segment.toList_empty, List.nil_append] at row
    refine ⟨more, q, lowers, ?_, rfl, rfl⟩
    change (Code.append #[] code.toList).toList = _
    rw [Code.toList_append, row]
    rfl

/-! ## What grows -/

namespace Lowers

variable {f : Fragment} {p q : Progress} {code : List Instr}

/-- Progress counts the bytes of the code laid out. -/
theorem position_eq (lowers : Lowers f p code q) :
    q.position = p.position + Instr.extent code := by
  induction lowers with
  | integer | text | name | done | valueless | absent => rfl
  | @boolean p b => cases b <;> rfl
  | unary _ ih =>
    rw [Progress.position_advance, ih]
    simp [Nat.add_assoc]
  | dropped _ ih | define _ _ ih =>
    rw [Instr.extent_append, ← Nat.add_assoc, ← ih]
    rfl
  | binary _ _ _ ih ih' =>
    rw [Progress.position_advance, ih', ih]
    simp [Nat.add_assoc]
  | less _ _ ih ih' =>
    rw [Instr.extent_append, Instr.extent_append, ← Nat.add_assoc, ← Nat.add_assoc, ← ih, ← ih']
    rfl
  | next _ _ ih ih' | before _ _ _ ih ih' => rw [ih', ih, Instr.extent_append, Nat.add_assoc]
  | conditional _ _ _ _ _ ih ih' ih'' =>
    simp only [Progress.position_advance, Instr.extent_append, Instr.extent_cons,
      Instr.extent_nil, ih, ih', ih'', Instr.size, Instr.operand?]
    omega
  | kept _ ih | present _ ih => exact ih

theorem position_append {g : Fragment} {r : Progress} {code' : List Instr}
    (lowers : Lowers f p code q) (lowers' : Lowers g q code' r) :
    r.position = p.position + Instr.extent (code ++ code') := by
  rw [lowers'.position_eq, lowers.position_eq, Instr.extent_append, Nat.add_assoc]

/-- Where the branches of a conditional and the jump between them start. -/
theorem branch_positions {g : Fragment} {r : Progress} {whenTrue : List Instr}
    (lowers : Lowers f p code q) (lowers' : Lowers g (q.advance 3) whenTrue r)
    (target target' : UInt16) :
    (q.advance 3).position = p.position + Instr.extent (code ++ [.jumpNotTruthy target]) ∧
    r.position = p.position + Instr.extent (code ++ [.jumpNotTruthy target] ++ whenTrue) ∧
    (r.advance 3).position = p.position +
      Instr.extent (code ++ [.jumpNotTruthy target] ++ whenTrue ++ [.jump target']) := by
  have atTrue : (q.advance 3).position =
      p.position + Instr.extent (code ++ [.jumpNotTruthy target]) := by
    rw [Instr.extent_append, ← Nat.add_assoc, ← lowers.position_eq]
    rfl
  have atJump : r.position =
      p.position + Instr.extent (code ++ [.jumpNotTruthy target] ++ whenTrue) := by
    rw [Instr.extent_append, ← Nat.add_assoc, ← atTrue]
    exact lowers'.position_eq
  refine ⟨atTrue, atJump, ?_⟩
  rw [Instr.extent_append, ← Nat.add_assoc, ← atJump]
  rfl

/-- No constant is dropped or renumbered. -/
theorem constants_prefix (lowers : Lowers f p code q) :
    p.constants.toList <+: q.constants.toList := by
  induction lowers with
  | integer | text => simp
  | boolean | name | done | valueless | absent => exact List.prefix_refl _
  | unary _ ih | define _ _ ih | dropped _ ih | kept _ ih | present _ ih => exact ih
  | binary _ _ _ ih ih' | less _ _ ih ih' | next _ _ ih ih' | before _ _ _ ih ih' =>
    exact ih.trans ih'
  | conditional _ _ _ _ _ ih ih' ih'' => exact ih.trans (ih'.trans ih'')

/-- No slot is taken back. -/
theorem count_le (lowers : Lowers f p code q) : p.slots.count ≤ q.slots.count := by
  induction lowers with
  | integer | text | boolean | name | done | valueless | absent => exact Nat.le_refl _
  | unary _ ih | dropped _ ih | kept _ ih | present _ ih => exact ih
  | define _ _ ih => exact Nat.le_succ_of_le ih
  | binary _ _ _ ih ih' | less _ _ ih ih' | next _ _ ih ih' | before _ _ _ ih ih' =>
    exact Nat.le_trans ih ih'
  | conditional _ _ _ _ _ ih ih' ih'' => exact Nat.le_trans ih (Nat.le_trans ih' ih'')

/-! ## What stays within bounds -/

/-- The constants that programs have are literals. -/
theorem constants_literal (lowers : Lowers f p code q)
    (literals : ∀ value ∈ p.constants, value.IsLiteral) :
    ∀ value ∈ q.constants, value.IsLiteral := by
  induction lowers with
  | integer | text =>
    intro value member
    rcases Array.mem_push.mp member with old | rfl
    · exact literals value old
    · trivial
  | boolean | name | done | valueless | absent => exact literals
  | unary _ ih | define _ _ ih | dropped _ ih | kept _ ih | present _ ih => exact ih literals
  | binary _ _ _ ih ih' | less _ _ ih ih' | next _ _ ih ih' | before _ _ _ ih ih' =>
    exact ih' (ih literals)
  | conditional _ _ _ _ _ ih ih' ih'' => exact ih'' (ih' (ih literals))

/-- The constants stay so few that an operand can number them. -/
theorem constants_room (lowers : Lowers f p code q) (room : p.constants.size ≤ 65536) :
    q.constants.size ≤ 65536 := by
  induction lowers with
  | integer more | text more =>
    rw [Progress.constants_advance, Progress.constants_addConstant, Array.size_push]
    exact more
  | boolean | name | done | valueless | absent => exact room
  | unary _ ih | define _ _ ih | dropped _ ih | kept _ ih | present _ ih => exact ih room
  | binary _ _ _ ih ih' | less _ _ ih ih' | next _ _ ih ih' | before _ _ _ ih ih' =>
    exact ih' (ih room)
  | conditional _ _ _ _ _ ih ih' ih'' => exact ih'' (ih' (ih room))

/-- The slots stay so few that an operand can number them. -/
theorem slots_room (lowers : Lowers f p code q) (room : p.slots.count ≤ 65536) :
    q.slots.count ≤ 65536 := by
  induction lowers with
  | define _ more _ => exact more
  | integer | text | boolean | name | done | valueless | absent => exact room
  | unary _ ih | dropped _ ih | kept _ ih | present _ ih => exact ih room
  | binary _ _ _ ih ih' | less _ _ ih ih' | next _ _ ih ih' | before _ _ _ ih ih' =>
    exact ih' (ih room)
  | conditional _ _ _ _ _ ih ih' ih'' => exact ih'' (ih' (ih room))

end Lowers

end Stacklet
