import Stacklet.Proofs.Compile.Composition

/-!
# What a branch cuts off

A branch keeps the value of the expression it ends in, so the instruction that would drop
the value is cut off again. Which one that is the patcher does not read off the
statements: it goes by what it remembers of the instruction written last. Whenever it
does, that instruction is indeed the one that ends the buffer
(`Patcher.branch_drops`).

The memory is not kept right for this at all times. A cut leaves both of its entries the
same, and an instruction that is written again is not noted. But a statement writes its
last instruction itself, after all branches inside it are done; and in front of an empty
block there is a jump, which has been written after the cuts of other branches
(`Patch.Enters.sound`).
-/

namespace Stacklet

/-! ## Rows in the buffer -/

namespace Patcher

/-- The buffer holds these instructions and no other bytes. -/
def Holds (p : Patcher) (row : List Instr) : Prop :=
  p.buffer.bytes.toList = Instr.bytesOf row

/-- What is remembered of the instruction written last is the operation and the place of
the one that ends the row. -/
def Recalls (p : Patcher) (row : List Instr) : Prop :=
  ∃ front i, row = front ++ [i] ∧ p.last? = some ⟨i.opcode, Instr.extent front⟩

section

variable {p p' : Patcher} {row code : List Instr} {q : Progress}

theorem Holds.size_eq (holds : p.Holds row) : p.buffer.size = Instr.extent row := by
  rw [← Buffer.length_toList, holds, Instr.length_bytesOf]

theorem Holds.wrote (holds : p.Holds row) (wrote : Wrote p code q p') : p'.Holds (row ++ code) := by
  rw [Holds, wrote.bytes, holds, Instr.bytesOf_append]

theorem Holds.write (holds : p.Holds row) (i : Instr) : (p.write i).Holds (row ++ [i]) :=
  holds.wrote ((Wrote.refl p).write i)

theorem Holds.recalls_write (holds : p.Holds row) (i : Instr) :
    (p.write i).Recalls (row ++ [i]) := by
  refine ⟨row, i, rfl, ?_⟩
  rw [Patcher.write, holds.size_eq]

end

end Patcher

/-! ## Fragments that have been written -/

/-- Each fragment is compiled or refused. -/
theorem Fragment.lowers_or_refused (f : Fragment) (p : Progress) :
    (∃ code q, Lowers f p code q) ∨ ∃ e q, Refused f p e q := by
  have block (statements : List Stmt) : (∃ code q, Lowers (.block statements) p code q) ∨
      ∃ e q, Refused (.block statements) p e q := by
    cases outcome : Stmt.compileAll statements .empty p with
    | ok code q =>
      obtain ⟨more, _, lowers⟩ := Stmt.lowersAll statements outcome
      exact .inl ⟨more, q, lowers⟩
    | error e q => exact .inr ⟨e, q, Stmt.refusedAll statements outcome⟩
  cases f with
  | expr x =>
    cases outcome : x.compile p with
    | ok code q => exact .inl ⟨_, q, x.lowers outcome⟩
    | error e q => exact .inr ⟨e, q, x.refused outcome⟩
  | stmt s =>
    cases outcome : s.compile p with
    | ok code q => exact .inl ⟨_, q, s.lowers outcome⟩
    | error e q => exact .inr ⟨e, q, s.refused outcome⟩
  | block statements => exact block statements
  | branch statements =>
    obtain ⟨code, q, lowers⟩ | ⟨e, q, refused⟩ := block statements
    · obtain ⟨kept, r, _, _, branch⟩ | ⟨_, branch⟩ := lowers.branch_of_block
      · exact .inl ⟨kept, r, branch⟩
      · exact .inl ⟨_, _, branch⟩
    · exact .inr ⟨e, q, .branch refused⟩
  | alternative second =>
    cases outcome : Stmt.compileAlternative second p with
    | ok code q => exact .inl ⟨_, q, Stmt.lowersAlternative second outcome⟩
    | error e q => exact .inr ⟨e, q, Stmt.refusedAlternative second outcome⟩

/-- A fragment that has been written has only added instructions. -/
theorem Fragment.wrote {f : Fragment} {p p' : Patcher} (done : f.patch p = .ok () p')
    (clear : f.Clear p) : ∃ code q, Wrote p code q p' := by
  obtain ⟨code, q, lowers⟩ | ⟨e, q, refused⟩ := f.lowers_or_refused p.progress
  · obtain ⟨_, done', wrote, _⟩ := lowers.patched rfl clear
    cases done'.symm.trans done
    exact ⟨code, q, wrote⟩
  · obtain ⟨_, failed, _⟩ := refused.patched rfl
    cases failed.symm.trans done

theorem Expr.wrote {e : Expr} {p p' : Patcher} (done : e.patch p = .ok () p') :
    ∃ code q, Wrote p code q p' :=
  Fragment.wrote (f := .expr e) done trivial

theorem Stmt.wrote {s : Stmt} {p p' : Patcher} (done : s.patch p = .ok () p') :
    ∃ code q, Wrote p code q p' :=
  Fragment.wrote (f := .stmt s) done trivial

/-! ## The states in which fragments are begun -/

namespace Patch

/-- `Enters f p g p'`: while fragment `f` is written from state `p` on, the writing of
fragment `g` begins in state `p'`. -/
inductive Enters : Fragment → Patcher → Fragment → Patcher → Prop
  | here {f : Fragment} {p : Patcher} : Enters f p f p
  | operand {op : UnaryOp} {e : Expr} {g : Fragment} {p p' : Patcher} :
    Enters (.expr e) p g p' → Enters (.expr (.unary op e)) p g p'
  | left {op : BinaryOp} {left right : Expr} {g : Fragment} {p p' : Patcher} :
    op ≠ .less → Enters (.expr left) p g p' → Enters (.expr (.binary op left right)) p g p'
  | right {op : BinaryOp} {left right : Expr} {g : Fragment} {p p₁ p' : Patcher} :
    op ≠ .less → left.patch p = .ok () p₁ → Enters (.expr right) p₁ g p' →
    Enters (.expr (.binary op left right)) p g p'
  | lessRight {left right : Expr} {g : Fragment} {p p' : Patcher} :
    Enters (.expr right) p g p' → Enters (.expr (.binary .less left right)) p g p'
  | lessLeft {left right : Expr} {g : Fragment} {p p₁ p' : Patcher} :
    right.patch p = .ok () p₁ → Enters (.expr left) p₁ g p' →
    Enters (.expr (.binary .less left right)) p g p'
  | condition {condition : Expr} {consequence : List Stmt} {alternative : Option (List Stmt)}
      {g : Fragment} {p p' : Patcher} :
    Enters (.expr condition) p g p' →
    Enters (.expr (.conditional condition consequence alternative)) p g p'
  | consequence {condition : Expr} {consequence : List Stmt} {alternative : Option (List Stmt)}
      {g : Fragment} {p p₁ p₂ p' : Patcher} {toElse : Nat} :
    condition.patch p = .ok () p₁ → emit .jumpNotTruthy [placeholder] p₁ = .ok toElse p₂ →
    Enters (.branch consequence) p₂ g p' →
    Enters (.expr (.conditional condition consequence alternative)) p g p'
  | alternative {condition : Expr} {consequence : List Stmt} {alternative : Option (List Stmt)}
      {g : Fragment} {p p₁ p₂ p₃ p₄ p₅ p' : Patcher} {toElse toEnd : Nat} :
    condition.patch p = .ok () p₁ → emit .jumpNotTruthy [placeholder] p₁ = .ok toElse p₂ →
    branch (Stmt.patchAll consequence) p₂ = .ok () p₃ →
    emit .jump [placeholder] p₃ = .ok toEnd p₄ →
    changeOperand toElse .jumpNotTruthy p₄.buffer.size p₄ = .ok () p₅ →
    Enters (.alternative alternative) p₅ g p' →
    Enters (.expr (.conditional condition consequence alternative)) p g p'
  | value {name : String} {e : Expr} {g : Fragment} {p p' : Patcher} :
    Enters (.expr e) p g p' → Enters (.stmt (.define name e)) p g p'
  | dropped {e : Expr} {g : Fragment} {p p' : Patcher} :
    Enters (.expr e) p g p' → Enters (.stmt (.expr e)) p g p'
  | first {s : Stmt} {rest : List Stmt} {g : Fragment} {p p' : Patcher} :
    Enters (.stmt s) p g p' → Enters (.block (s :: rest)) p g p'
  | later {s : Stmt} {rest : List Stmt} {g : Fragment} {p p₁ p' : Patcher} :
    s.patch p = .ok () p₁ → Enters (.block rest) p₁ g p' → Enters (.block (s :: rest)) p g p'
  | block {statements : List Stmt} {g : Fragment} {p p' : Patcher} :
    Enters (.block statements) p g p' → Enters (.branch statements) p g p'
  | present {statements : List Stmt} {g : Fragment} {p p' : Patcher} :
    Enters (.branch statements) p g p' → Enters (.alternative (some statements)) p g p'

end Patch

/-- Either block of a conditional. -/
def Fragment.IsChoice : Fragment → Prop
  | .branch _ | .alternative _ => True
  | _ => False

/-- The buffer holds a row of instructions. In front of a block of a conditional it ends
in a jump, and that one is remembered. -/
def Fragment.Sound (f : Fragment) (p : Patcher) : Prop :=
  ∃ row, p.Holds row ∧ (f.IsChoice → p.Recalls row ∧ ¬ p.EndsIn .pop)

namespace Fragment.Sound

variable {f g : Fragment} {p p' : Patcher} {row : List Instr}

theorem of_row (holds : p.Holds row) (other : ¬ f.IsChoice) : f.Sound p :=
  ⟨row, holds, fun choice => (other choice).elim⟩

/-- What is remembered does not matter to other fragments. -/
theorem forget (sound : f.Sound p) (other : ¬ g.IsChoice) : g.Sound p := by
  obtain ⟨row, holds, _⟩ := sound
  exact of_row holds other

theorem wrote {code : List Instr} {q : Progress} (sound : f.Sound p) (wrote : Wrote p code q p')
    (other : ¬ g.IsChoice) : g.Sound p' := by
  obtain ⟨row, holds, _⟩ := sound
  exact of_row (holds.wrote wrote) other

end Fragment.Sound

namespace Patch

variable {f g : Fragment} {p p' p₁ p₂ p₃ p₄ p₅ : Patcher} {condition : Expr}
  {consequence : List Stmt} {toElse toEnd : Nat}

theorem sound_consequence (sound : (Fragment.expr condition).Sound p)
    (done : condition.patch p = .ok () p₁)
    (jump : emit .jumpNotTruthy [placeholder] p₁ = .ok toElse p₂) :
    (Fragment.branch consequence).Sound p₂ := by
  obtain ⟨row, holds, _⟩ := sound
  obtain ⟨code, q, wrote⟩ := condition.wrote done
  cases (emit_wide rfl (by decide) p₁).symm.trans jump
  have holds₁ := holds.wrote wrote
  refine ⟨_, holds₁.write _, fun _ => ⟨holds₁.recalls_write _, fun isPop => ?_⟩⟩
  cases isPop.op_eq (p₁.endsIn_write _)

/-- The jump over the first block gets its target, but the jump behind that block is the
last instruction all the same. -/
theorem sound_alternative (sound : (Fragment.expr condition).Sound p)
    (done : condition.patch p = .ok () p₁)
    (jump : emit .jumpNotTruthy [placeholder] p₁ = .ok toElse p₂)
    (done' : branch (Stmt.patchAll consequence) p₂ = .ok () p₃)
    (jump' : emit .jump [placeholder] p₃ = .ok toEnd p₄)
    (changed : changeOperand toElse .jumpNotTruthy p₄.buffer.size p₄ = .ok () p₅)
    (second : Option (List Stmt)) : (Fragment.alternative second).Sound p₅ := by
  obtain ⟨row, holds, _⟩ := sound
  obtain ⟨test, q, wrote⟩ := condition.wrote done
  cases (emit_wide rfl (by decide) p₁).symm.trans jump
  obtain ⟨whenTrue, r, wrote'⟩ := Fragment.wrote (f := .branch consequence) done'
    (Fragment.clear_branch _ (p₁.endsIn_write _) (by decide))
  cases (emit_wide rfl (by decide) p₃).symm.trans jump'
  have holds₃ := (holds.wrote wrote).write (.jumpNotTruthy (.ofNat placeholder)) |>.wrote wrote'
  have all := ((wrote.write (.jumpNotTruthy (.ofNat placeholder))).trans wrote').write
    (.jump (.ofNat placeholder))
  rw [List.append_assoc, List.append_assoc, List.singleton_append] at all
  have fits : (p₃.write (.jump (.ofNat placeholder))).buffer.size < 65536 := by
    refine Nat.lt_of_not_le fun large => ?_
    cases (changeOperand_error rfl large _).symm.trans changed
  obtain ⟨_, changed', wrote₅, last⟩ := changeOperand_eq .jumpNotTruthy rfl fits all
  rw [← wrote.size_eq] at changed'
  cases changed'.symm.trans changed
  rw [← List.cons_append, ← List.append_assoc] at wrote₅
  refine ⟨_, holds.wrote wrote₅, fun _ => ⟨⟨_, _, (List.append_assoc ..).symm, ?_⟩, ?_⟩⟩
  · rw [last, Patcher.write, holds₃.size_eq]
    simp [Instr.size, Instr.operand?]
  · rintro ⟨_, isPop⟩
    cases isPop.symm.trans last

/-- Wherever a fragment is begun, the buffer is as it should be. -/
theorem Enters.sound (enters : Enters f p g p') (sound : f.Sound p) : g.Sound p' := by
  induction enters with
  | here => exact sound
  | operand _ ih | left _ _ ih | lessRight _ ih | condition _ ih | value _ ih | dropped _ ih
  | first _ ih | block _ ih => exact ih (sound.forget id)
  | right _ done _ ih | lessLeft done _ ih =>
    obtain ⟨_, _, wrote⟩ := Expr.wrote done
    exact ih (sound.wrote wrote id)
  | consequence done jump _ ih => exact ih (sound_consequence (sound.forget id) done jump)
  | alternative done jump done' jump' changed _ ih =>
    exact ih (sound_alternative (sound.forget id) done jump done' jump' changed _)
  | later done _ ih =>
    obtain ⟨_, _, wrote⟩ := Stmt.wrote done
    exact ih (sound.wrote wrote id)
  | present _ ih => exact ih sound

end Patch

/-- The compiler is about to write a fragment of some program in this state. Other
programs may have been compiled or refused before. -/
def Patcher.Reached (p : Patcher) (f : Fragment) : Prop :=
  ∃ env actions program, Patch.Enters (.block program) (.after env actions) f p

namespace Patcher

/-- Between programs, the buffer holds a row of instructions. -/
theorem holds_after (env : Env) (actions : List Action) : ∃ row, (after env actions).Holds row := by
  rw [after]
  refine List.foldlRecOn (motive := fun p : Patcher => ∃ row, p.Holds row) actions _ ⟨[], rfl⟩ ?_
  intro p holds action _
  cases action with
  | carry => exact ⟨[], rfl⟩
  | compile program =>
    obtain ⟨row, holds⟩ := holds
    rw [act, compile]
    cases outcome : Stmt.patchAll program p with
    | error => exact ⟨[], rfl⟩
    | ok value p' =>
      obtain ⟨code, q, wrote⟩ := Fragment.wrote (f := .block program) outcome trivial
      exact ⟨_, holds.wrote wrote⟩

theorem Reached.sound {p : Patcher} {f : Fragment} (reached : p.Reached f) : f.Sound p := by
  obtain ⟨env, actions, program, enters⟩ := reached
  obtain ⟨row, holds⟩ := holds_after env actions
  exact enters.sound (.of_row holds id)

end Patcher

/-! ## The last instruction of a block -/

/-- The last statement of a block is an expression. -/
def Stmt.EndsInExpr (block : List Stmt) : Prop := ∃ e, block.getLast? = some (.expr e)

open Patch

/-- A statement writes one more instruction behind all others, which drops a value if the
statement is an expression. -/
theorem Stmt.last_written {s : Stmt} {p p' : Patcher} (done : s.patch p = .ok () p') :
    ∃ code q p₁ i, Wrote p code q p₁ ∧ p' = p₁.write i ∧ (i = .pop ↔ s.IsExpr) := by
  cases s with
  | «return» => cases done
  | expr e =>
    obtain ⟨_, p₁, first, last⟩ := bind_eq_ok.mp done
    obtain ⟨code, q, wrote⟩ := e.wrote first
    cases (bind_of_ok (emit_eq .pop rfl p₁)).symm.trans last
    exact ⟨code, q, p₁, .pop, wrote, rfl, ⟨fun _ => ⟨e, rfl⟩, fun _ => rfl⟩⟩
  | define name e =>
    obtain ⟨_, p₁, first, last⟩ := bind_eq_ok.mp done
    obtain ⟨code, q, wrote⟩ := e.wrote first
    have room : p₁.progress.slots.count < 65536 := by
      refine Nat.lt_of_not_le fun full => ?_
      cases (store_full full).symm.trans last
    cases (store_eq room).symm.trans last
    refine ⟨code, _, _, _, wrote.define _, rfl, ?_⟩
    constructor
    · exact nofun
    · rintro ⟨_, same⟩
      cases same

/-- So does a block that is not empty, by its last statement. -/
theorem Stmt.last_written_all {block : List Stmt} (nonempty : block ≠ []) {p p' : Patcher}
    (done : Stmt.patchAll block p = .ok () p') :
    ∃ code q p₁ i, Wrote p code q p₁ ∧ p' = p₁.write i ∧ (i = .pop ↔ EndsInExpr block) := by
  induction block generalizing p with
  | nil => exact (nonempty rfl).elim
  | cons s rest ih =>
    obtain ⟨_, p₁, first, later⟩ := bind_eq_ok.mp done
    cases rest with
    | nil =>
      cases later
      obtain ⟨code, q, p₁, i, wrote, written, pops⟩ := last_written first
      refine ⟨code, q, p₁, i, wrote, written, pops.trans ?_⟩
      simp [EndsInExpr, IsExpr]
    | cons t rest =>
      obtain ⟨code, q, wrote⟩ := Stmt.wrote first
      obtain ⟨code', q', p₂, i, wrote', written, pops⟩ := ih nofun later
      refine ⟨code ++ code', q', p₂, i, wrote.trans wrote', written, pops.trans ?_⟩
      rw [EndsInExpr, EndsInExpr, List.getLast?_cons_cons]

theorem Stmt.not_endsInExpr_nil : ¬ EndsInExpr [] := nofun

/-! ## Branches -/

theorem Instr.opcode_eq_pop {i : Instr} : i.opcode = .pop ↔ i = .pop := by
  cases i <;> simp [opcode]

namespace Patcher

/-- The test that decides how a branch ends. -/
theorem any_pop {p : Patcher} : p.last?.any (·.op = .pop) = true ↔ p.EndsIn .pop := by
  rw [Option.any_eq_true_iff_get, EndsIn]
  cases p.last? with
  | none => simp
  | some last =>
    cases last
    simp

theorem endsIn_pop_write {p : Patcher} {i : Instr} : (p.write i).EndsIn .pop ↔ i = .pop := by
  rw [← Instr.opcode_eq_pop]
  constructor
  · exact fun ends => (p.endsIn_write i).op_eq ends
  · exact fun pops => pops ▸ p.endsIn_write i

/-- Whenever a branch is written, in any state in which a compiler comes to a fragment of a
program, the code of its block stands behind the instructions that were there, and what is
remembered of the last instruction is that of the one that ends the buffer. So the test for an
instruction that drops a value tells whether the block ends in an expression. If it does,
that instruction and nothing else is cut off, and otherwise a null is added.

A block that is empty has written nothing. What is remembered then is from before, and it is right
where a block of a conditional is begun. -/
theorem branch_drops {p p' : Patcher} {f : Fragment} {block : List Stmt} (reached : p.Reached f)
    (called : block = [] → f.IsChoice) (done : branch (Stmt.patchAll block) p = .ok () p') :
    ∃ row code p₁, p.Holds row ∧ Stmt.patchAll block p = .ok () p₁ ∧ p₁.Holds (row ++ code) ∧
      p₁.Recalls (row ++ code) ∧
      (p₁.last?.any (·.op = .pop) = true ↔ Stmt.EndsInExpr block) ∧
      (Stmt.EndsInExpr block → ∃ kept, code = kept ++ [.pop] ∧ p'.Holds (row ++ kept)) ∧
      (¬ Stmt.EndsInExpr block → p'.Holds (row ++ code ++ [.pushNull])) := by
  obtain ⟨row, holds, recalls⟩ := reached.sound
  obtain ⟨_, p₁, first, _⟩ := bind_eq_ok.mp done
  simp only [any_pop]
  by_cases nonempty : block = []
  · subst nonempty
    obtain ⟨recalls, noPop⟩ := recalls (called rfl)
    cases first
    cases (branch_of_no_pop noPop rfl).symm.trans done
    refine ⟨row, [], p, holds, rfl, ?_, ?_, ?_, ?_, ?_⟩
    · rwa [List.append_nil]
    · rwa [List.append_nil]
    · exact iff_of_false noPop Stmt.not_endsInExpr_nil
    · exact fun ends => (Stmt.not_endsInExpr_nil ends).elim
    · intro _
      rw [List.append_nil]
      exact holds.write _
  · obtain ⟨code, q, p₂, i, wrote, rfl, pops⟩ := Stmt.last_written_all nonempty first
    have holds₂ := holds.wrote wrote
    refine ⟨row, code ++ [i], _, holds, first, ?_, ?_, endsIn_pop_write.trans pops, ?_, ?_⟩
    · rw [← List.append_assoc]
      exact holds₂.write i
    · rw [← List.append_assoc]
      exact holds₂.recalls_write i
    · intro ends
      obtain rfl := pops.mpr ends
      obtain ⟨_, done', wrote'⟩ := branch_of_pop wrote first
      cases done'.symm.trans done
      exact ⟨code, rfl, holds.wrote wrote'⟩
    · intro ends
      have noPop : ¬ (p₂.write i).EndsIn .pop := fun isPop =>
        ends (pops.mp (endsIn_pop_write.mp isPop))
      cases (branch_of_no_pop noPop first).symm.trans done
      rw [← List.append_assoc]
      exact (holds₂.write i).write _

/-- The state in front of the first block of `if (true) { .. }`. -/
def insideConditional : Patcher :=
  ((ofEnv .empty).write .pushTrue).write (.jumpNotTruthy (.ofNat placeholder))

/-- The block `{ if (false) { } }` is written there. The branch inside it adds a null, the one
outside cuts off the last byte. -/
theorem branch_drops_nested :
    let block : List Stmt := [.expr (.conditional (.boolean false) [] none)]
    insideConditional.Reached (.branch block) ∧
      ∃ p', branch (Stmt.patchAll block) insideConditional = .ok () p' ∧
        p'.buffer.bytes = #[6, 14, 39, 15, 7, 14, 0, 12, 8, 15, 0, 13, 8] ∧
        ∃ row kept, insideConditional.Holds row ∧ p'.Holds (row ++ kept) := by
  intro block
  have reached : insideConditional.Reached (.branch block) :=
    ⟨.empty, [], [.expr (.conditional (.boolean true) block none)],
      .first (.dropped (.consequence rfl rfl .here))⟩
  have bytes : (match branch (Stmt.patchAll block) insideConditional with
      | .ok _ p' => p'.buffer.bytes
      | .error _ _ => #[]) = #[6, 14, 39, 15, 7, 14, 0, 12, 8, 15, 0, 13, 8] := by decide +kernel
  cases done : branch (Stmt.patchAll block) insideConditional with
  | error =>
    rw [done] at bytes
    cases bytes
  | ok _ p' =>
    rw [done] at bytes
    obtain ⟨row, _, _, holds, _, _, _, _, dropped, _⟩ :=
      branch_drops reached (fun _ => trivial) done
    obtain ⟨kept, _, holds'⟩ := dropped ⟨_, rfl⟩
    exact ⟨reached, p', rfl, bytes, row, kept, holds, holds'⟩

end Patcher

end Stacklet
