import Stacklet.Code.Walk
import Stacklet.Proofs.Code.Layout

/-!
# Instructions as they are written and read

An instruction is written from an operation and its operands, which are numbers of any
size. What can be written at all are the instructions with their own operands
(`Opcode.make_eq_ok`), and an operation with the right number of operands that fit
(`Opcode.make_fits`). What was written is decoded to the same operation and operands,
whatever stands behind it (`Instr.decode_eq`).
-/

namespace Stacklet

/-! ## Writing -/

section Writing

variable {op : Opcode} {make : UInt16 → Instr} {number : Nat}

/-- The operands of an operation are those of its form. -/
theorem Opcode.form_cases (op : Opcode) :
    match op.form with
    | .plain i => op.widths = [] ∧ i.opcode = op ∧ i.operand? = none
    | .wide i =>
      op.widths = [2] ∧ ∀ word, (i word).opcode = op ∧ (i word).operand? = some word := by
  cases op <;> simp [Opcode.form, Opcode.widths, Instr.opcode, Instr.operand?]

theorem Instr.make_opcode {i : Instr} (plain : i.operand? = none) :
    i.opcode.make [] = .ok i.bytes := by
  cases i with
  | constant | jump | jumpNotTruthy | getGlobal | setGlobal => cases plain
  | _ => rfl

/-- An instruction with an operand of two bytes is written as soon as the operand is. -/
theorem Opcode.make_eq (wide : op.form = .wide make) (number : Nat) :
    op.make [number] = (op.operandBytes number 2).map (op.toByte :: ·) := by
  have widths : op.widths = [2] := by cases op <;> cases wide <;> rfl
  have length : [number].length = op.widths.length := by rw [widths]; rfl
  rw [Opcode.make, if_pos length, widths]
  change ((op.operandBytes number 2).bind fun bytes => .ok [bytes]).bind _ = _
  cases op.operandBytes number 2 with
  | error => rfl
  | ok bytes => exact congrArg (Except.ok <| op.toByte :: ·) (List.append_nil bytes)

theorem Opcode.make_wide (wide : op.form = .wide make) (fits : number < 65536) :
    op.make [number] = .ok (make (.ofNat number)).bytes := by
  rw [make_eq wide, operandBytes, if_pos fits]
  cases op <;> cases wide <;> rfl

theorem Opcode.make_wide_error (wide : op.form = .wide make) (large : 65536 ≤ number) :
    op.make [number] = .error (.operandOutOfRange op number 2) := by
  rw [make_eq wide, operandBytes, if_neg (Nat.not_lt.mpr large)]
  rfl

theorem Opcode.opcode_wide (wide : op.form = .wide make) (word : UInt16) :
    (make word).opcode = op := by
  cases op <;> cases wide <;> rfl

theorem Opcode.size_wide (wide : op.form = .wide make) (word : UInt16) : (make word).size = 3 := by
  cases op <;> cases wide <;> rfl

end Writing

namespace Instr

/-- The operands of an instruction, as numbers. -/
def operands (i : Instr) : List Nat := (i.operand?.map UInt16.toNat).toList

/-- The bytes of an instruction behind its operation. -/
def fields (i : Instr) : List UInt8 :=
  match i.operand? with
  | none => []
  | some word => bytesOfWord word

theorem bytes_eq (i : Instr) : i.bytes = i.opcode.toByte :: i.fields := by
  cases i <;> rfl

theorem size_eq (i : Instr) : i.size = i.fields.length + 1 := by
  rw [← i.length_bytes, i.bytes_eq, List.length_cons]

/-- An instruction is as long as its operation says. -/
theorem length_eq (i : Instr) : instructionLength i.opcode.widths = i.size := by
  cases i <;> rfl

/-- An instruction is known by its operation and its operands. -/
theorem eq_of_opcode_operands {i j : Instr} (opcode : i.opcode = j.opcode)
    (operands : i.operands = j.operands) : i = j := by
  have same (word word' : UInt16) (numbers : [word.toNat] = [word'.toNat]) : word = word' :=
    UInt16.toNat_inj.mp (List.cons.inj numbers).1
  cases i <;> cases j <;> first
    | cases opcode <;> done
    | rfl
    | exact congrArg _ (same _ _ operands)

/-- An instruction is written from its own operation and operands. -/
theorem make_operands (i : Instr) : i.opcode.make i.operands = .ok i.bytes := by
  cases plain : i.operand? with
  | none =>
    rw [operands, plain]
    exact make_opcode plain
  | some word =>
    have form : ∃ make, i.opcode.form = .wide make ∧ i = make word := by
      cases i <;> cases plain <;> exact ⟨_, rfl, rfl⟩
    obtain ⟨make, wide, same⟩ := form
    rw [operands, plain]
    refine (Opcode.make_wide wide word.toNat_lt).trans ?_
    rw [UInt16.ofNat_toNat, ← same]

end Instr

/-- The operands of an instruction are as many as its operation takes, and they fit. -/
theorem Instr.operands_fit (i : Instr) : i.operands.length = i.opcode.widths.length ∧
    ∀ field ∈ i.operands.zip i.opcode.widths, field.1 < Nat.pow 256 field.2 := by
  have wide (word : UInt16) : [word.toNat].length = [2].length ∧
      ∀ field ∈ [word.toNat].zip [2], field.1 < Nat.pow 256 field.2 := by
    refine ⟨rfl, fun field member => ?_⟩
    obtain rfl := List.mem_singleton.mp member
    exact word.toNat_lt
  cases i with
  | constant word | jump word | jumpNotTruthy word | getGlobal word | setGlobal word =>
    exact wide word
  | _ => exact ⟨rfl, nofun⟩

section Operands

variable {op : Opcode} {operands : List Nat} {bytes : List UInt8}

theorem Opcode.length_of_make (made : op.make operands = .ok bytes) :
    operands.length = op.widths.length := by
  unfold make at made
  split at made
  · assumption
  · cases made

/-- What is written is the bytes of an instruction, the one with these operands. -/
theorem Opcode.make_eq_ok : op.make operands = .ok bytes ↔
    ∃ i : Instr, i.opcode = op ∧ i.operands = operands ∧ i.bytes = bytes := by
  constructor
  · intro made
    have length := length_of_make made
    have form := op.form_cases
    cases same : op.form with
    | plain i =>
      rw [same] at form
      obtain ⟨widths, rfl, plain⟩ := form
      rw [widths] at length
      obtain rfl := List.length_eq_zero_iff.mp length
      have written := (Instr.make_opcode plain).symm.trans made
      exact ⟨i, rfl, by rw [Instr.operands, plain]; rfl, Except.ok.inj written⟩
    | wide make =>
      rw [same] at form
      obtain ⟨widths, each⟩ := form
      rw [widths] at length
      obtain ⟨number, rfl⟩ := List.length_eq_one_iff.mp length
      rcases Nat.lt_or_ge number 65536 with fits | large
      · obtain ⟨opcode, operand⟩ := each (.ofNat number)
        refine ⟨_, opcode, ?_, Except.ok.inj ((make_wide same fits).symm.trans made)⟩
        rw [Instr.operands, operand, Option.map_some, UInt16.toNat_ofNat_of_lt' fits]
        rfl
      · cases (make_wide_error same large).symm.trans made
  · rintro ⟨i, rfl, rfl, rfl⟩
    exact i.make_operands

/-- An operation can be written with as many operands as it takes, if each of them fits
into its width. -/
theorem Opcode.make_fits : (∃ bytes, op.make operands = .ok bytes) ↔
    operands.length = op.widths.length ∧
      ∀ field ∈ operands.zip op.widths, field.1 < Nat.pow 256 field.2 := by
  constructor
  · rintro ⟨bytes, made⟩
    obtain ⟨i, rfl, rfl, -⟩ := make_eq_ok.mp made
    exact i.operands_fit
  · rintro ⟨length, fits⟩
    have form := op.form_cases
    cases same : op.form with
    | plain i =>
      rw [same] at form
      obtain ⟨widths, rfl, plain⟩ := form
      rw [widths] at length
      obtain rfl := List.length_eq_zero_iff.mp length
      exact ⟨_, Instr.make_opcode plain⟩
    | wide make =>
      rw [same] at form
      obtain ⟨widths, -⟩ := form
      rw [widths] at length fits
      obtain ⟨number, rfl⟩ := List.length_eq_one_iff.mp length
      exact ⟨_, make_wide same (fits (number, 2) List.mem_cons_self)⟩

end Operands

/-! ## Reading -/

theorem readOperands_word (word : UInt16) (behind : List UInt8) :
    readOperands [2] (bytesOfWord word ++ behind) 0 = .ok ([word.toNat], 2) := by
  have enough : ¬ (bytesOfWord word ++ behind).length < 2 := by simp [bytesOfWord]
  have read : operandOf 2 (bytesOfWord word ++ behind) = word.toNat :=
    congrArg UInt16.toNat (wordOfBytes_bytesOfWord word)
  rw [readOperands, if_neg enough, readOperands, read]

theorem Instr.readOperands_fields (i : Instr) (behind : List UInt8) :
    readOperands i.opcode.widths (i.fields ++ behind) 0 = .ok (i.operands, i.fields.length) := by
  cases i with
  | constant word | jump word | jumpNotTruthy word | getGlobal word | setGlobal word =>
    exact readOperands_word word behind
  | _ => rfl

/-- An operation with its operands is read from the bytes that are written for it,
whatever stands behind them. -/
theorem Instr.decode_eq (i : Instr) (behind : List UInt8) :
    Opcode.decode i.opcode.toByte (i.fields ++ behind) =
      .ok (i.opcode, i.operands, i.fields.length) := by
  have known : Opcode.lookup i.opcode.toByte = .ok i.opcode := by
    rw [Opcode.lookup, Opcode.ofByte?_toByte]
  rw [Opcode.decode, known]
  change (readOperands i.opcode.widths (i.fields ++ behind) 0 >>= _) = _
  rw [i.readOperands_fields]
  rfl

/-- The operand of a wide instruction is also read as a word. -/
theorem Instr.readWord?_fields (i : Instr) (behind : List UInt8) {word : UInt16}
    (operand : i.operand? = some word) : readWord? (i.fields ++ behind) = some word := by
  rw [fields, operand]
  exact congrArg some (wordOfBytes_bytesOfWord word)

end Stacklet
