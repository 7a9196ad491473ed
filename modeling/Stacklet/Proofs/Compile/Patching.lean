import Stacklet.Compile.Patcher
import Stacklet.Proofs.Code.Encoding
import Stacklet.Proofs.Compile.Converse
import Stacklet.Proofs.Compile.Refusal

/-!
# Writing code into a buffer

A `Patcher` writes jumps before it knows their targets, and takes written instructions
back. Nevertheless it leaves the bytes that the compiler lays out, behind whatever it has
found in the buffer, and it never writes past the end of the buffer
(`Lowers.patched`, `Refused.patched`). What it remembers of the instructions in front of
a program does not matter: both compilers agree from any state on (`Patcher.compile_eq`).

The memory is consulted in one place, where a branch ends. A block that is not empty has
written its last instruction itself then; in front of an empty one there is always a jump
(`Fragment.Clear`).
-/

namespace Stacklet

/-! ## Buffers -/

namespace Buffer

theorem length_toList (b : Buffer) : b.bytes.toList.length = b.size := Array.length_toList

theorem toList_append (b : Buffer) (bytes : List UInt8) :
    (b.append bytes).bytes.toList = b.bytes.toList ++ bytes := by
  simp [append]

theorem size_append (b : Buffer) (bytes : List UInt8) :
    (b.append bytes).size = b.size + bytes.length := by
  rw [← length_toList, toList_append, List.length_append, length_toList]

/-- What has been written last can be cut off. -/
theorem truncate_append (b : Buffer) (bytes : List UInt8) :
    (b.append bytes).truncate b.size = b := by
  apply congrArg Buffer.mk
  apply Array.ext'
  simp [append, size, Array.take]

/-- Bytes inside the buffer are overwritten by as many others. -/
theorem overwrite?_eq {b : Buffer} {front old new back : List UInt8}
    (bytes : b.bytes.toList = front ++ old ++ back) (length : new.length = old.length) :
    ∃ b', b.overwrite? front.length new = some b' ∧ b'.bytes.toList = front ++ new ++ back := by
  have size : b.size = front.length + old.length + back.length := by
    rw [← b.length_toList, bytes, List.length_append, List.length_append]
  exact ⟨_, if_pos (by omega), by simp [bytes, length, size]⟩

end Buffer

/-! ## States -/

namespace Patcher

/-- How far the program has been compiled. -/
def progress (p : Patcher) : Progress := ⟨p.env, p.buffer.size⟩

/-- The patcher with one more instruction. -/
def write (p : Patcher) (i : Instr) : Patcher :=
  ⟨p.buffer.append i.bytes, p.env, some ⟨i.opcode, p.buffer.size⟩, p.last?⟩

/-- The instruction written last is of this operation. -/
def EndsIn (p : Patcher) (op : Opcode) : Prop := ∃ position, p.last? = some ⟨op, position⟩

end Patcher

/-- From the first state to the second one, a row of instructions has been written behind
the bytes that were there. -/
structure Wrote (p : Patcher) (code : List Instr) (q : Progress) (p' : Patcher) : Prop where
  bytes : p'.buffer.bytes.toList = p.buffer.bytes.toList ++ Instr.bytesOf code
  progress : p'.progress = q

section States

variable {p p₁ p₂ : Patcher} {code code' : List Instr} {q r : Progress} {i : Instr} {op : Opcode}

theorem Patcher.EndsIn.op_eq {op' : Opcode} (ends : p.EndsIn op) (ends' : p.EndsIn op') :
    op = op' := by
  obtain ⟨_, last⟩ := ends
  obtain ⟨_, last'⟩ := ends'
  cases last.symm.trans last'
  rfl

theorem Patcher.endsIn_write (p : Patcher) (i : Instr) : (p.write i).EndsIn i.opcode := ⟨_, rfl⟩

theorem Patcher.progress_write (p : Patcher) (i : Instr) :
    (p.write i).progress = p.progress.advance i.size := by
  rw [progress, write, Buffer.size_append, i.length_bytes]
  rfl

namespace Wrote

theorem refl (p : Patcher) : Wrote p [] p.progress p := ⟨(List.append_nil _).symm, rfl⟩

theorem trans (first : Wrote p code q p₁) (second : Wrote p₁ code' r p₂) :
    Wrote p (code ++ code') r p₂ where
  bytes := by rw [second.bytes, first.bytes, Instr.bytesOf_append, List.append_assoc]
  progress := second.progress

theorem write (wrote : Wrote p code q p₁) (i : Instr) :
    Wrote p (code ++ [i]) (q.advance i.size) (p₁.write i) where
  bytes := by
    rw [Patcher.write, Buffer.toList_append, wrote.bytes, Instr.bytesOf_append, List.append_assoc]
    simp [Instr.bytesOf]
  progress := by rw [p₁.progress_write, wrote.progress]

/-- What is defined changes no byte. -/
theorem define (wrote : Wrote p code q p₁) (env : Env) :
    Wrote p code { q with toEnv := env } { p₁ with env } where
  bytes := wrote.bytes
  progress := by rw [← wrote.progress]; rfl

theorem position_eq (wrote : Wrote p code q p₁) : p₁.buffer.size = q.position :=
  congrArg Progress.position wrote.progress

theorem size_write (wrote : Wrote p code q p₁) (i : Instr) :
    (p₁.write i).buffer.size = q.position + i.size := (wrote.write i).position_eq

theorem size_eq (wrote : Wrote p code q p₁) :
    p₁.buffer.size = p.buffer.size + Instr.extent code := by
  rw [← Buffer.length_toList, wrote.bytes, List.length_append, Instr.length_bytesOf,
    Buffer.length_toList]

end Wrote

end States

/-! ## Steps -/

namespace Patch

variable {p p₁ : Patcher} {code back : List Instr} {q : Progress} {i : Instr} {op : Opcode}
  {make : UInt16 → Instr} {number : Nat}

theorem encode_eq {operands : List Nat} {bytes : List UInt8} (made : op.make operands = .ok bytes)
    (p : Patcher) : encode op operands p = .ok bytes p := by
  rw [encode, made]
  rfl

theorem encode_error (wide : op.form = .wide make) (large : 65536 ≤ number) (p : Patcher) :
    encode op [number] p = .error (.refused (.encode (.operandOutOfRange op number 2))) p := by
  rw [encode, Opcode.make_wide_error wide large]
  rfl

theorem emit_eq (i : Instr) (plain : i.operand? = none) (p : Patcher) :
    emit i.opcode [] p = .ok p.buffer.size (p.write i) :=
  bind_of_ok (encode_eq (Instr.make_opcode plain) p)

theorem emit_wide (wide : op.form = .wide make) (fits : number < 65536) (p : Patcher) :
    emit op [number] p = .ok p.buffer.size (p.write (make (.ofNat number))) := by
  rw [emit, bind_of_ok (encode_eq (Opcode.make_wide wide fits) p), Patcher.write,
    Opcode.opcode_wide wide]
  rfl

/-- A jump that has been written is written again. -/
theorem changeOperand_eq (op : Opcode) {word : UInt16} (wide : op.form = .wide make)
    (fits : number < 65536) (wrote : Wrote p (code ++ make word :: back) q p₁) :
    ∃ p₂, changeOperand (p.buffer.size + Instr.extent code) op number p₁ = .ok () p₂ ∧
      Wrote p (code ++ make (.ofNat number) :: back) q p₂ ∧ p₂.last? = p₁.last? := by
  have place : (p.buffer.bytes.toList ++ Instr.bytesOf code).length =
      p.buffer.size + Instr.extent code := by
    rw [List.length_append, Instr.length_bytesOf, p.buffer.length_toList]
  have length : (make (.ofNat number)).bytes.length = (make word).bytes.length := by
    rw [Instr.length_bytes, Instr.length_bytes, Opcode.size_wide wide, Opcode.size_wide wide]
  have bytes : p₁.buffer.bytes.toList = p.buffer.bytes.toList ++ Instr.bytesOf code ++
      (make word).bytes ++ Instr.bytesOf back := by
    rw [wrote.bytes, Instr.bytesOf_append]
    simp [Instr.bytesOf]
  obtain ⟨buffer, overwritten, bytes'⟩ := Buffer.overwrite?_eq bytes length
  refine ⟨{ p₁ with buffer }, ?_, ⟨?_, ?_⟩, rfl⟩
  · rw [changeOperand, bind_of_ok (encode_eq (Opcode.make_wide wide fits) p₁), get_bind, ← place,
      overwritten]
    rfl
  · rw [Instr.bytesOf_append, bytes']
    simp [Instr.bytesOf]
  · have size : buffer.size = p₁.buffer.size := by
      rw [← Buffer.length_toList, ← Buffer.length_toList, bytes, bytes']
      simp only [List.length_append, length]
    rw [← wrote.progress, Patcher.progress, Patcher.progress, size]

theorem changeOperand_error {position : Nat} (wide : op.form = .wide make) (large : 65536 ≤ number)
    (p : Patcher) : changeOperand position op number p =
      .error (.refused (.encode (.operandOutOfRange op number 2))) p :=
  bind_of_error (encode_error wide large p)

theorem constant_eq {value : Value} (room : p.progress.constants.size < 65536) :
    constant value p = .ok ()
      (Patcher.write { p with env.constants := p.env.constants.push value }
        (.constant (.ofNat p.progress.constants.size))) := by
  have few : ¬ p.env.constants.size > 65535 := Nat.not_lt.mpr (Nat.le_of_lt_succ room)
  have numbered : addConstant value p =
      .ok p.env.constants.size { p with env.constants := p.env.constants.push value } := by
    rw [addConstant, get_bind, if_neg few]
    rfl
  rw [constant, bind_of_ok numbered]
  exact bind_of_ok (emit_wide rfl room _)

theorem constant_full {value : Value} (full : 65536 ≤ p.progress.constants.size) :
    constant value p = .error (.refused (.tooManyConstants p.progress.constants.size)) p := by
  have many : p.env.constants.size > 65535 := full
  refine bind_of_error ?_
  rw [addConstant, get_bind, if_pos many]
  rfl

theorem load_eq {name : String} {slot : Nat} (found : p.progress.slots.find? name = some slot)
    (fits : slot < 65536) :
    load name p = .ok () (p.write (.getGlobal (.ofNat slot))) := by
  have here : p.env.slots.find? name = some slot := found
  rw [load, get_bind, here]
  exact bind_of_ok (emit_wide rfl fits p)

theorem load_unbound {name : String} (unbound : p.progress.slots.find? name = none) :
    load name p = .error (.refused (.undefinedVariable name)) p := by
  have here : p.env.slots.find? name = none := unbound
  rw [load, get_bind, here]
  rfl

theorem load_over {name : String} {slot : Nat} (found : p.progress.slots.find? name = some slot)
    (large : 65536 ≤ slot) :
    load name p = .error (.refused (.encode (.operandOutOfRange .getGlobal slot 2))) p := by
  have here : p.env.slots.find? name = some slot := found
  rw [load, get_bind, here]
  exact bind_of_error (bind_of_error (encode_error rfl large p))

theorem store_eq {name : String} (room : p.progress.slots.count < 65536) :
    store name p = .ok () (Patcher.write { p with env.slots := p.env.slots.define name }
      (.setGlobal (.ofNat p.progress.slots.count))) := by
  have few : ¬ p.env.slots.count > 65535 := Nat.not_lt.mpr (Nat.le_of_lt_succ room)
  rw [store, get_bind, modify_bind, if_neg few]
  exact bind_of_ok (emit_wide rfl room _)

theorem store_full {name : String} (full : 65536 ≤ p.progress.slots.count) :
    store name p = .error (.refused (.tooManyGlobals p.progress.slots.count))
      { p with env.slots := p.env.slots.define name } := by
  have many : p.env.slots.count > 65535 := full
  rw [store, get_bind, modify_bind, if_pos many]
  rfl

/-- Where the last instruction drops a value, a branch cuts it off. -/
theorem branch_of_pop {statements : Patch Unit} (wrote : Wrote p code q p₁)
    (first : statements p = .ok () (p₁.write .pop)) :
    ∃ p', branch statements p = .ok () p' ∧ Wrote p code q p' := by
  refine ⟨{ p₁ with previous? := p₁.last? }, ?_, wrote.bytes, wrote.progress⟩
  have cut : (p₁.write .pop).buffer.truncate p₁.buffer.size = p₁.buffer := Buffer.truncate_append ..
  have ends : (p₁.write .pop).last?.any (·.op = .pop) = true := rfl
  rw [branch, bind_of_ok first, get_bind, if_pos ends]
  change EStateM.Result.ok () { p₁.write .pop with
    buffer := (p₁.write .pop).buffer.truncate p₁.buffer.size, last? := p₁.last? } = _
  rw [cut]
  rfl

/-- Everywhere else a branch yields null. -/
theorem branch_of_no_pop {statements : Patch Unit} (noPop : ¬ p₁.EndsIn .pop)
    (first : statements p = .ok () p₁) :
    branch statements p = .ok () (p₁.write .pushNull) := by
  have other : ¬ p₁.last?.any (·.op = .pop) = true := by
    intro isPop
    cases found : p₁.last? with
    | none =>
      rw [found] at isPop
      cases isPop
    | some last =>
      rw [found] at isPop
      have same : last.op = .pop := of_decide_eq_true isPop
      exact noPop ⟨last.position, by rw [found, ← same]⟩
  rw [branch, bind_of_ok first, get_bind, if_neg other]
  exact bind_of_ok (emit_eq .pushNull rfl p₁)

end Patch

namespace Patch

variable {p p₁ p₂ p₃ p₄ : Patcher} {s : Stmt} {rest consequence : List Stmt} {condition : Expr}
  {q r : Progress} {test whenTrue : List Instr}

theorem branch_cons (first : s.patch p = .ok () p₁) :
    branch (Stmt.patchAll (s :: rest)) p = branch (Stmt.patchAll rest) p₁ := by
  rw [branch, branch, Stmt.patchAll, bind_assoc, bind_of_ok first]

/-- A conditional, once its first block has been written. -/
theorem patch_conditional (done : condition.patch p = .ok () p₁)
    (done' : branch (Stmt.patchAll consequence)
      (p₁.write (.jumpNotTruthy (.ofNat placeholder))) = .ok () p₂)
    (alternative : Option (List Stmt)) :
    (Expr.conditional condition consequence alternative).patch p =
      (do
        changeOperand p₁.buffer.size .jumpNotTruthy (← get).buffer.size
        Stmt.patchAlternative alternative
        changeOperand p₂.buffer.size .jump (← get).buffer.size)
      (p₂.write (.jump (.ofNat placeholder))) := by
  rw [Expr.patch, bind_of_ok done, bind_of_ok (emit_wide rfl (by decide) p₁), bind_of_ok done',
    bind_of_ok (emit_wide rfl (by decide) p₂)]

/-- The jump over the first block gets its target. -/
theorem changeOperand_otherwise (wrote : Wrote p test q p₁)
    (wrote' : Wrote (p₁.write (.jumpNotTruthy (.ofNat placeholder))) whenTrue r p₂)
    (fits : r.position + 3 < 65536) :
    ∃ p₃, changeOperand p₁.buffer.size .jumpNotTruthy (r.position + 3)
        (p₂.write (.jump (.ofNat placeholder))) = .ok () p₃ ∧
      Wrote p (test ++ [.jumpNotTruthy (.ofNat (r.position + 3))] ++ whenTrue ++
        [.jump (.ofNat placeholder)]) (r.advance 3) p₃ ∧ p₃.EndsIn .jump := by
  have all := ((wrote.write _).trans wrote').write (.jump (.ofNat placeholder))
  rw [List.append_assoc, List.append_assoc, List.singleton_append] at all
  obtain ⟨p₃, changed, wrote₃, last⟩ := changeOperand_eq .jumpNotTruthy rfl fits all
  rw [← wrote.size_eq] at changed
  refine ⟨p₃, changed, ?_, p₂.buffer.size, last.trans rfl⟩
  rw [List.append_assoc, List.append_assoc, List.singleton_append]
  exact wrote₃

/-- The jump over the second block gets its target. -/
theorem changeOperand_after {q' t : Progress} {target : UInt16} {whenFalse : List Instr}
    (wrote : Wrote p test q p₁)
    (wrote' : Wrote (p₁.write (.jumpNotTruthy (.ofNat placeholder))) whenTrue r p₂)
    (wrote₃ : Wrote p (test ++ [.jumpNotTruthy target] ++ whenTrue ++
      [.jump (.ofNat placeholder)]) q' p₃)
    (wrote'' : Wrote p₃ whenFalse t p₄) (fits : t.position < 65536) :
    ∃ p₅, changeOperand p₂.buffer.size .jump t.position p₄ = .ok () p₅ ∧
      Wrote p (test ++ [.jumpNotTruthy target] ++ whenTrue ++ [.jump (.ofNat t.position)] ++
        whenFalse) t p₅ := by
  have all := wrote₃.trans wrote''
  rw [List.append_assoc _ [_] whenFalse, List.singleton_append] at all ⊢
  obtain ⟨p₅, changed, wrote₅, _⟩ := changeOperand_eq .jump rfl fits all
  have place : p₂.buffer.size =
      p.buffer.size + Instr.extent (test ++ [.jumpNotTruthy target] ++ whenTrue) := by
    rw [((wrote.write _).trans wrote').size_eq]
    simp [Instr.size, Instr.operand?]
  exact ⟨p₅, place ▸ changed, wrote₅⟩

end Patch

theorem UnaryOp.operand?_instr (op : UnaryOp) : op.instr.operand? = none := by cases op <;> rfl

theorem BinaryOp.operand?_instr (op : BinaryOp) : op.instr.operand? = none := by cases op <;> rfl

/-! ## The patcher does what is compiled -/

/-- The code of a fragment, written into a buffer. -/
def Fragment.patch : Fragment → Patch Unit
  | .expr e => e.patch
  | .stmt s => s.patch
  | .block statements => Stmt.patchAll statements
  | .branch statements => Patch.branch (Stmt.patchAll statements)
  | .alternative second => Stmt.patchAlternative second

/-- No instruction that could be taken for one of an empty block of a conditional has been
written in front of it. -/
def Fragment.Clear : Fragment → Patcher → Prop
  | .branch [], p | .alternative _, p => ¬ p.EndsIn .pop
  | _, _ => True

/-- What is known about the last instruction behind a fragment. -/
def Fragment.Ends : Fragment → Patcher → Prop
  | .stmt (.define ..), p => p.EndsIn .setGlobal
  | _, _ => True

theorem Fragment.clear_branch {p : Patcher} {op : Opcode} (block : List Stmt) (ends : p.EndsIn op)
    (other : op ≠ .pop) : (Fragment.branch block).Clear p := by
  cases block with
  | nil => exact fun isPop => other (ends.op_eq isPop)
  | cons => trivial

open Patch

/-- What is compiled is written into the buffer, behind the bytes that are there. -/
theorem Lowers.patched {f : Fragment} {s q : Progress} {code : List Instr}
    (lowers : Lowers f s code q) {p : Patcher} (start : p.progress = s) (clear : f.Clear p) :
    ∃ p', f.patch p = .ok () p' ∧ Wrote p code q p' ∧ f.Ends p' := by
  induction lowers generalizing p with
  | integer room | text room =>
    subst start
    exact ⟨_, constant_eq room, ((Wrote.refl p).define _).write _, trivial⟩
  | @boolean s b =>
    subst start
    cases b with
    | true => exact ⟨_, bind_of_ok (emit_eq .pushTrue rfl p), (Wrote.refl p).write _, trivial⟩
    | false => exact ⟨_, bind_of_ok (emit_eq .pushFalse rfl p), (Wrote.refl p).write _, trivial⟩
  | name found fits =>
    subst start
    exact ⟨_, load_eq found fits, (Wrote.refl p).write _, trivial⟩
  | @unary _ _ op _ _ _ ih =>
    obtain ⟨p₁, done, wrote, _⟩ := ih start trivial
    have last := wrote.write op.instr
    rw [op.size_instr] at last
    exact ⟨_, (bind_of_ok done).trans (bind_of_ok (emit_eq op.instr op.operand?_instr p₁)), last,
      trivial⟩
  | @binary _ _ _ op _ _ _ _ notLess _ _ ih ih' =>
    obtain ⟨p₁, done, wrote, _⟩ := ih start trivial
    obtain ⟨p₂, done', wrote', _⟩ := ih' wrote.progress trivial
    have last := (wrote.trans wrote').write op.instr
    rw [op.size_instr] at last
    refine ⟨_, ?_, last, trivial⟩
    rw [Fragment.patch, Expr.patch, if_neg notLess]
    exact (bind_of_ok done).trans ((bind_of_ok done').trans
      (bind_of_ok (emit_eq op.instr op.operand?_instr p₂)))
  | less _ _ ih ih' =>
    obtain ⟨p₁, done, wrote, _⟩ := ih start trivial
    obtain ⟨p₂, done', wrote', _⟩ := ih' wrote.progress trivial
    exact ⟨_, (bind_of_ok done).trans ((bind_of_ok done').trans
      (bind_of_ok (emit_eq .greaterThan rfl p₂))), (wrote.trans wrote').write _, trivial⟩
  | conditional _ _ fits _ fits' ih ih' ih'' =>
    obtain ⟨p₁, done, wrote, _⟩ := ih start trivial
    have wroteJump := wrote.write (.jumpNotTruthy (.ofNat placeholder))
    obtain ⟨p₂, done', wrote', _⟩ := ih' wroteJump.progress
      (Fragment.clear_branch _ (p₁.endsIn_write _) (by decide))
    obtain ⟨p₃, changed, wrote₃, ends⟩ := changeOperand_otherwise wrote wrote' fits
    obtain ⟨p₄, done'', wrote'', _⟩ := ih'' wrote₃.progress fun isPop => by cases isPop.op_eq ends
    obtain ⟨p₅, changed', wrote₅⟩ := changeOperand_after wrote wrote' wrote₃ wrote'' fits'
    refine ⟨p₅, ?_, wrote₅, trivial⟩
    rw [Fragment.patch, patch_conditional done done', get_bind, wrote'.size_write]
    refine (bind_of_ok changed).trans ((bind_of_ok done'').trans ?_)
    rw [get_bind, wrote''.position_eq]
    exact changed'
  | define _ fits ih =>
    obtain ⟨p₁, done, wrote, _⟩ := ih start trivial
    obtain rfl := wrote.progress
    exact ⟨_, (bind_of_ok done).trans (store_eq fits), (wrote.define _).write _,
      Patcher.endsIn_write ..⟩
  | dropped _ ih =>
    obtain ⟨p₁, done, wrote, _⟩ := ih start trivial
    exact ⟨_, (bind_of_ok done).trans (bind_of_ok (emit_eq .pop rfl p₁)), wrote.write _, trivial⟩
  | done =>
    subst start
    exact ⟨p, rfl, .refl p, trivial⟩
  | next _ _ ih ih' =>
    obtain ⟨p₁, done, wrote, _⟩ := ih start trivial
    obtain ⟨p₂, done', wrote', _⟩ := ih' wrote.progress trivial
    exact ⟨p₂, (bind_of_ok done).trans done', wrote.trans wrote', trivial⟩
  | valueless =>
    subst start
    exact ⟨_, branch_of_no_pop clear rfl, (Wrote.refl p).write _, trivial⟩
  | @kept _ _ e _ _ ih =>
    obtain ⟨p₁, done, wrote, _⟩ := ih start trivial
    have dropped : (Stmt.expr e).patch p = .ok () (p₁.write .pop) :=
      (bind_of_ok done).trans (bind_of_ok (emit_eq .pop rfl p₁))
    obtain ⟨p', done', wrote'⟩ := branch_of_pop wrote (bind_of_ok dropped)
    exact ⟨p', done', wrote', trivial⟩
  | @before _ _ _ s rest _ _ inner lower _ ih ih' =>
    obtain ⟨p₁, done, wrote, ends⟩ := ih start trivial
    have clear' : (Fragment.branch rest).Clear p₁ := by
      cases rest with
      | cons => trivial
      | nil =>
        cases s with
        | define => exact fun isPop => by cases isPop.op_eq ends
        | expr value => exact (inner rfl ⟨value, rfl⟩).elim
        | «return» => cases lower
    obtain ⟨p₂, done', wrote', _⟩ := ih' wrote.progress clear'
    exact ⟨p₂, (branch_cons done).trans done', wrote.trans wrote', trivial⟩
  | absent =>
    subst start
    exact ⟨_, bind_of_ok (emit_eq .pushNull rfl p), (Wrote.refl p).write _, trivial⟩
  | @present _ _ block _ _ ih =>
    have clear' : (Fragment.branch block).Clear p := by
      cases block with
      | nil => exact clear
      | cons => trivial
    obtain ⟨p₁, done, wrote, _⟩ := ih start clear'
    exact ⟨p₁, done, wrote, trivial⟩

/-- A conditional up to the end of its first block. -/
theorem Lowers.patched_front {condition : Expr} {consequence : List Stmt} {s q r : Progress}
    {test whenTrue : List Instr} (lower : Lowers (.expr condition) s test q)
    (lower' : Lowers (.branch consequence) (q.advance 3) whenTrue r) {p : Patcher}
    (start : p.progress = s) :
    ∃ p₁ p₂, condition.patch p = .ok () p₁ ∧ Wrote p test q p₁ ∧
      branch (Stmt.patchAll consequence) (p₁.write (.jumpNotTruthy (.ofNat placeholder))) =
        .ok () p₂ ∧
      Wrote (p₁.write (.jumpNotTruthy (.ofNat placeholder))) whenTrue r p₂ := by
  obtain ⟨p₁, done, wrote, _⟩ := lower.patched start trivial
  have wroteJump := wrote.write (.jumpNotTruthy (.ofNat placeholder))
  obtain ⟨p₂, done', wrote', _⟩ := lower'.patched wroteJump.progress
    (Fragment.clear_branch _ (p₁.endsIn_write _) (by decide))
  exact ⟨p₁, p₂, done, wrote, done', wrote'⟩

/-- What is refused is refused with the same error, and the same is defined by then. -/
theorem Refused.patched {f : Fragment} {s q : Progress} {e : CompileError}
    (refused : Refused f s e q) {p : Patcher} (start : p.progress = s) :
    ∃ p', f.patch p = .error (.refused e) p' ∧ p'.env = q.toEnv := by
  induction refused generalizing p with
  | integer full | text full =>
    subst start
    exact ⟨_, constant_full full, rfl⟩
  | undefined unbound =>
    subst start
    exact ⟨_, load_unbound unbound, rfl⟩
  | unreachable found large =>
    subst start
    exact ⟨_, load_over found large, rfl⟩
  | unary _ ih | value _ ih | dropped _ ih | first _ ih | branch _ ih | condition _ ih
  | lessRight _ ih =>
    obtain ⟨p', failed, same⟩ := ih start
    exact ⟨p', bind_of_error failed, same⟩
  | left notLess _ ih =>
    obtain ⟨p', failed, same⟩ := ih start
    refine ⟨p', ?_, same⟩
    rw [Fragment.patch, Expr.patch, if_neg notLess]
    exact bind_of_error failed
  | right notLess lower _ ih =>
    obtain ⟨p₁, done, wrote, _⟩ := lower.patched start trivial
    obtain ⟨p', failed, same⟩ := ih wrote.progress
    refine ⟨p', ?_, same⟩
    rw [Fragment.patch, Expr.patch, if_neg notLess]
    exact (bind_of_ok done).trans (bind_of_error failed)
  | lessLeft lower _ ih =>
    obtain ⟨p₁, done, wrote, _⟩ := lower.patched start trivial
    obtain ⟨p', failed, same⟩ := ih wrote.progress
    exact ⟨p', (bind_of_ok done).trans (bind_of_error failed), same⟩
  | later lower _ ih =>
    obtain ⟨p₁, done, wrote, _⟩ := lower.patched start trivial
    obtain ⟨p', failed, same⟩ := ih wrote.progress
    exact ⟨p', (bind_of_ok done).trans failed, same⟩
  | consequence lower _ ih =>
    obtain ⟨p₁, done, wrote, _⟩ := lower.patched start trivial
    obtain ⟨p', failed, same⟩ := ih (wrote.write (.jumpNotTruthy (.ofNat placeholder))).progress
    refine ⟨p', (bind_of_ok done).trans ?_, same⟩
    rw [bind_of_ok (emit_wide rfl (by decide) p₁)]
    exact bind_of_error failed
  | otherwise lower lower' large =>
    obtain ⟨p₁, p₂, done, wrote, done', wrote'⟩ := lower.patched_front lower' start
    have last := wrote'.write (.jump (.ofNat placeholder))
    refine ⟨_, ?_, congrArg Progress.toEnv last.progress⟩
    rw [Fragment.patch, patch_conditional done done', get_bind, wrote'.size_write]
    exact bind_of_error (changeOperand_error rfl large _)
  | alternative lower lower' fits _ ih =>
    obtain ⟨p₁, p₂, done, wrote, done', wrote'⟩ := lower.patched_front lower' start
    obtain ⟨p₃, changed, wrote₃, _⟩ := changeOperand_otherwise wrote wrote' fits
    obtain ⟨p', failed, same⟩ := ih wrote₃.progress
    refine ⟨p', ?_, same⟩
    rw [Fragment.patch, patch_conditional done done', get_bind, wrote'.size_write]
    exact (bind_of_ok changed).trans (bind_of_error failed)
  | after lower lower' fits lower'' large =>
    obtain ⟨p₁, p₂, done, wrote, done', wrote'⟩ := lower.patched_front lower' start
    obtain ⟨p₃, changed, wrote₃, ends⟩ := changeOperand_otherwise wrote wrote' fits
    obtain ⟨p₄, done'', wrote'', _⟩ := lower''.patched wrote₃.progress
      fun isPop => by cases isPop.op_eq ends
    refine ⟨p₄, ?_, congrArg Progress.toEnv wrote''.progress⟩
    rw [Fragment.patch, patch_conditional done done', get_bind, wrote'.size_write]
    refine (bind_of_ok changed).trans ((bind_of_ok done'').trans ?_)
    rw [get_bind, wrote''.position_eq]
    exact changeOperand_error rfl large _
  | @unsupported s e noCode =>
    subst start
    cases e with
    | function | call | array | index => exact ⟨p, rfl, rfl⟩
    | _ => cases noCode
  | slot lower full =>
    obtain ⟨p₁, done, wrote, _⟩ := lower.patched start trivial
    obtain rfl := wrote.progress
    exact ⟨_, (bind_of_ok done).trans (store_full full), rfl⟩
  | «return» =>
    subst start
    exact ⟨p, rfl, rfl⟩
  | present _ ih =>
    obtain ⟨p', failed, same⟩ := ih start
    exact ⟨p', failed, same⟩

/-! ## Both compilers agree -/

namespace Patcher

/-- The compiler with the same code, names and constants. -/
def compiler (p : Patcher) : Compiler := ⟨p.buffer.bytes, p.env⟩

/-- From any state on, whatever is remembered of the instructions before, both compilers come
to the same. -/
theorem compile_eq (p : Patcher) (program : Program) :
    ∃ result p', p.compile program = (result.mapError .refused, p') ∧
      p.compiler.compile program = (result, p'.compiler) := by
  cases outcome : Stmt.compileAll program .empty p.progress with
  | ok code q =>
    obtain ⟨more, row, lowers⟩ := Stmt.lowersAll program outcome
    rw [Segment.toList_empty, List.nil_append] at row
    obtain ⟨p', done, wrote, _⟩ := lowers.patched rfl trivial
    have written : Stmt.patchAll program p = .ok () p' := done
    have bytes : p'.buffer.bytes = Code.append p.buffer.bytes code.toList := by
      apply Array.ext'
      rw [wrote.bytes, Code.toList_append, row]
    have env : p'.env = q.toEnv := congrArg Progress.toEnv wrote.progress
    refine ⟨.ok (), p', by rw [compile, written]; rfl, ?_⟩
    rw [Compiler.compile_of_ok (c := p.compiler) outcome, ← env]
    exact Prod.ext rfl (congrArg (Compiler.mk · p'.env) bytes.symm)
  | error e q =>
    obtain ⟨p', failed, same⟩ := (Stmt.refusedAll program outcome).patched rfl
    have stopped : Stmt.patchAll program p = .error (.refused e) p' := failed
    refine ⟨.error e, _, by rw [compile, stopped]; rfl, ?_⟩
    rw [Compiler.compile_of_error (c := p.compiler) outcome, ← same]
    rfl

end Patcher

end Stacklet
