import Stacklet.Proofs.Code.Encoding

/-!
# Bytes as written operations

Any byte string is a row of written operations with a rest behind it at whose start no
instruction stands: the rest is empty, or starts with a byte that is no operation, or with
an operation whose operands are cut off (`Leftover`). There is one such cut and no other
(`Cut.exists_of`, `Cut.unique`).
-/

namespace Stacklet

/-- An operation with operands, as it may be written. -/
structure Operation where
  op : Opcode
  operands : List Nat
  deriving DecidableEq

/-- The number of bytes that an operation takes with its operands. -/
def Operation.length (o : Operation) : Nat := instructionLength o.op.widths

/-- The operands are as many as the operation takes, and each fits into its width. -/
def Operation.Fits (o : Operation) : Prop :=
  o.operands.length = o.op.widths.length ∧
    ∀ field ∈ o.operands.zip o.op.widths, field.1 < Nat.pow 256 field.2

/-- The bytes of operations that are written one behind the other. -/
def assemble : List Operation → Except EncodeError (List UInt8)
  | [] => .ok []
  | o :: others => do
    let first ← o.op.make o.operands
    let more ← assemble others
    return first ++ more

/-- Bytes at whose start no instruction stands. -/
inductive Leftover : List UInt8 → Prop
  | nothing : Leftover []
  | unknown {byte : UInt8} {behind : List UInt8} :
    Opcode.ofByte? byte = none → Leftover (byte :: behind)
  | truncated {op : Opcode} {behind : List UInt8} :
    (op.toByte :: behind).length < instructionLength op.widths → Leftover (op.toByte :: behind)

/-- Operations, and the bytes behind the last one. -/
structure Cut where
  operations : List Operation
  rest : List UInt8

namespace Cut

/-- The bytes are those of the operations and the rest, at whose start no instruction stands. -/
def Of (cut : Cut) (bytes : List UInt8) : Prop :=
  (∃ front, assemble cut.operations = .ok front ∧ bytes = front ++ cut.rest) ∧ Leftover cut.rest

/-- The offset of the rest. -/
def stop (cut : Cut) : Nat := (cut.operations.map Operation.length).foldr (· + ·) 0

/-- The operation at the start of the rest, if there is one. -/
def opcode? (cut : Cut) : Option Opcode := cut.rest.head?.bind Opcode.ofByte?

/-- Why no instruction stands at the start of the rest, if there is one. -/
def error? (cut : Cut) : Option DecodeError :=
  cut.rest.head?.map fun byte =>
    match Opcode.ofByte? byte with
    | none => .unknownOpcode byte
    | some _ => .truncated 0

end Cut

/-- An operation is written with as many bytes as it takes. -/
theorem Operation.length_of_make {o : Operation} {bytes : List UInt8}
    (made : o.op.make o.operands = .ok bytes) : bytes.length = o.length := by
  obtain ⟨i, opcode, -, rfl⟩ := Opcode.make_eq_ok.mp made
  rw [i.length_bytes, length, ← opcode, i.length_eq]

/-! ## Instructions in front of a rest -/

/-- An instruction as an operation with operands. -/
def Instr.operation (i : Instr) : Operation := ⟨i.opcode, i.operands⟩

theorem Instr.length_operation (i : Instr) : i.operation.length = i.size := i.length_eq

theorem assemble_eq_ok {operations : List Operation} {bytes : List UInt8} :
    assemble operations = .ok bytes ↔
      ∃ is : List Instr, is.map Instr.operation = operations ∧ Instr.bytesOf is = bytes := by
  induction operations generalizing bytes with
  | nil =>
    constructor
    · intro written
      exact ⟨[], rfl, Except.ok.inj written⟩
    · rintro ⟨is, none, rfl⟩
      rw [List.map_eq_nil_iff.mp none]
      rfl
  | cons o others ih =>
    constructor
    · intro written
      rw [assemble] at written
      cases first : o.op.make o.operands with
      | error => rw [first] at written; cases written
      | ok bytes' =>
        cases more : assemble others with
        | error => rw [first, more] at written; cases written
        | ok bytes'' =>
          rw [first, more] at written
          obtain ⟨i, opcode, operands, rfl⟩ := Opcode.make_eq_ok.mp first
          obtain ⟨is, rfl, rfl⟩ := ih.mp more
          refine ⟨i :: is, ?_, Except.ok.inj written⟩
          rw [List.map_cons, Instr.operation, opcode, operands]
    · rintro ⟨is, same, rfl⟩
      obtain ⟨i, is, rfl, rfl, rfl⟩ := List.map_eq_cons_iff.mp same
      rw [assemble, Instr.operation, i.make_operands, ih.mpr ⟨is, rfl, rfl⟩]
      rfl

namespace Leftover

variable {rest behind : List UInt8}

/-- An operation whose operands are cut off takes one word. -/
theorem widths_of_truncated {op : Opcode}
    (short : behind.length + 1 < instructionLength op.widths) : op.widths = [2] := by
  have form := op.form_cases
  cases same : op.form with
  | plain i =>
    rw [same] at form
    rw [form.1] at short
    exact (Nat.not_lt_zero _ (Nat.lt_of_succ_lt_succ short)).elim
  | wide i =>
    rw [same] at form
    exact form.1

theorem readOperands_of_truncated {op : Opcode}
    (short : behind.length + 1 < instructionLength op.widths) :
    readOperands op.widths behind 0 = .error (.truncated 0) := by
  have widths := widths_of_truncated short
  rw [widths] at short ⊢
  exact if_pos (Nat.lt_of_succ_lt_succ short)

/-- One of the two bytes of a word is missing at least. -/
theorem cases_of_truncated {op : Opcode} (short : behind.length + 1 < instructionLength op.widths) :
    behind = [] ∨ ∃ byte, behind = [byte] := by
  rw [widths_of_truncated short] at short
  rcases behind with _ | ⟨high, _ | ⟨low, behind⟩⟩
  · exact .inl rfl
  · exact .inr ⟨high, rfl⟩
  · have long : 3 ≤ (high :: low :: behind).length + 1 := Nat.le_add_left 3 _
    exact (Nat.not_lt.mpr long short).elim

/-- Where no instruction stands, none is decoded. -/
theorem decode_eq (operations : List Operation) {byte : UInt8}
    (leftover : Leftover (byte :: behind)) :
    ∃ error, Cut.error? ⟨operations, byte :: behind⟩ = some error ∧
      Opcode.decode byte behind = .error error := by
  cases leftover with
  | unknown unknown =>
    refine ⟨.unknownOpcode byte, ?_, ?_⟩
    · rw [Cut.error?, List.head?_cons, Option.map_some, unknown]
    · rw [Opcode.decode, Opcode.lookup, unknown]
      rfl
  | @truncated op _ short =>
    have known := Opcode.ofByte?_toByte op
    refine ⟨.truncated 0, ?_, ?_⟩
    · rw [Cut.error?, List.head?_cons, Option.map_some, known]
    · rw [Opcode.decode, Opcode.lookup, known]
      change (readOperands op.widths behind 0 >>= _) = _
      rw [readOperands_of_truncated short]
      rfl

end Leftover

/-- The first instruction of bytes can be told. -/
theorem Instr.bytes_append_inj {i j : Instr} {behind behind' : List UInt8}
    (same : i.bytes ++ behind = j.bytes ++ behind') : i = j ∧ behind = behind' := by
  obtain ⟨opcode, fields⟩ : i.opcode.toByte = j.opcode.toByte ∧
      i.fields ++ behind = j.fields ++ behind' := by
    rw [i.bytes_eq, j.bytes_eq] at same
    exact List.cons.inj same
  have decoded := i.decode_eq behind
  rw [opcode, fields, j.decode_eq] at decoded
  have instr : j = i := by
    injection decoded with parts
    exact Instr.eq_of_opcode_operands (congrArg Prod.fst parts)
      (congrArg (fun part => part.2.1) parts)
  subst instr
  exact ⟨rfl, List.append_cancel_left fields⟩

/-- What is left over starts with no instruction. -/
theorem Leftover.ne_bytes {rest behind : List UInt8} (leftover : Leftover rest) (i : Instr) :
    rest ≠ i.bytes ++ behind := by
  rintro rfl
  rw [i.bytes_eq, List.cons_append] at leftover
  obtain ⟨error, -, fails⟩ := leftover.decode_eq []
  cases (i.decode_eq behind).symm.trans fails

theorem Instr.bytesOf_cons (i : Instr) (is : List Instr) :
    bytesOf (i :: is) = i.bytes ++ bytesOf is := List.flatMap_cons

theorem Opcode.toByte_of_ofByte? {byte : UInt8} {op : Opcode} (known : ofByte? byte = some op) :
    op.toByte = byte := by
  have listed : all.toList[byte.toNat]? = all.toList[op.toByte.toNat]? := by
    rw [Array.getElem?_toList, Array.getElem?_toList]
    exact known.trans op.ofByte?_toByte.symm
  have inside : byte.toNat < all.toList.length := by
    rw [Array.length_toList]
    exact (Array.getElem?_eq_some_iff.mp known).1
  exact (UInt8.toNat_inj.mp ((List.getElem?_inj inside (by decide)).mp listed)).symm

theorem bytesOfWord_wordOfBytes (high low : UInt8) :
    bytesOfWord (wordOfBytes high low) = [high, low] := by
  have highBound := high.toNat_lt
  have lowBound := low.toNat_lt
  have word : (wordOfBytes high low).toNat = high.toNat * 256 + low.toNat := by
    simp only [wordOfBytes, UInt16.toNat_add, UInt16.toNat_mul, UInt8.toNat_toUInt16,
      UInt16.reduceToNat]
    omega
  have first : (wordOfBytes high low / 256).toUInt8 = high := by
    apply UInt8.toNat_inj.mp
    simp only [UInt16.toNat_toUInt8, UInt16.toNat_div, UInt16.reduceToNat, word]
    omega
  have second : (wordOfBytes high low).toUInt8 = low := by
    apply UInt8.toNat_inj.mp
    simp only [UInt16.toNat_toUInt8, word]
    omega
  rw [bytesOfWord, first, second]

/-- Bytes start with an instruction, unless they are left over. -/
theorem leftover_or_bytes (bytes : List UInt8) :
    Leftover bytes ∨ ∃ (i : Instr) (behind : List UInt8), bytes = i.bytes ++ behind := by
  cases bytes with
  | nil => exact .inl .nothing
  | cons byte behind =>
    cases known : Opcode.ofByte? byte with
    | none => exact .inl (.unknown known)
    | some op =>
      obtain rfl := Opcode.toByte_of_ofByte? known
      have form := op.form_cases
      cases same : op.form with
      | plain i =>
        rw [same] at form
        obtain ⟨-, rfl, plain⟩ := form
        refine .inr ⟨i, behind, ?_⟩
        rw [i.bytes_eq, Instr.fields, plain]
        rfl
      | wide make =>
        rw [same] at form
        obtain ⟨widths, each⟩ := form
        rcases behind with _ | ⟨high, _ | ⟨low, behind⟩⟩
        · exact .inl (.truncated (by rw [widths]; exact Nat.lt_add_of_pos_right Nat.zero_lt_two))
        · exact .inl (.truncated (by rw [widths]; exact Nat.lt_succ_self 2))
        · obtain ⟨opcode, operand⟩ := each (wordOfBytes high low)
          refine .inr ⟨make (wordOfBytes high low), behind, ?_⟩
          rw [Instr.bytes_eq, Instr.fields, opcode, operand]
          dsimp only
          rw [bytesOfWord_wordOfBytes]
          rfl

/-! ## The cut of a byte string -/

namespace Cut

theorem exists_rows (bytes : List UInt8) :
    ∃ (is : List Instr) (rest : List UInt8), bytes = Instr.bytesOf is ++ rest ∧ Leftover rest := by
  rcases leftover_or_bytes bytes with leftover | ⟨i, behind, rfl⟩
  · exact ⟨[], bytes, rfl, leftover⟩
  · have shorter : behind.length < (i.bytes ++ behind).length := by
      have positive := i.size_pos
      rw [List.length_append, i.length_bytes]
      omega
    obtain ⟨is, rest, same, leftover⟩ := exists_rows behind
    exact ⟨i :: is, rest, by rw [same, Instr.bytesOf_cons, List.append_assoc], leftover⟩
termination_by bytes.length

theorem rows_unique {is js : List Instr} {rest rest' : List UInt8}
    (same : Instr.bytesOf is ++ rest = Instr.bytesOf js ++ rest') (leftover : Leftover rest)
    (leftover' : Leftover rest') : is = js ∧ rest = rest' := by
  induction is generalizing js with
  | nil =>
    cases js with
    | nil => exact ⟨rfl, same⟩
    | cons j js =>
      rw [Instr.bytesOf_cons, List.append_assoc] at same
      exact (leftover.ne_bytes j same).elim
  | cons i is ih =>
    rw [Instr.bytesOf_cons, List.append_assoc] at same
    cases js with
    | nil => exact (leftover'.ne_bytes i same.symm).elim
    | cons j js =>
      rw [Instr.bytesOf_cons, List.append_assoc] at same
      obtain ⟨rfl, others⟩ := Instr.bytes_append_inj same
      obtain ⟨rfl, rfl⟩ := ih others
      exact ⟨rfl, rfl⟩

variable {cut other : Cut} {bytes : List UInt8}

/-- A cut into operations is one into instructions. -/
theorem of_iff : cut.Of bytes ↔ ∃ is : List Instr, is.map Instr.operation = cut.operations ∧
    bytes = Instr.bytesOf is ++ cut.rest ∧ Leftover cut.rest := by
  constructor
  · rintro ⟨⟨front, written, same⟩, leftover⟩
    obtain ⟨is, operations, rfl⟩ := assemble_eq_ok.mp written
    exact ⟨is, operations, same, leftover⟩
  · rintro ⟨is, operations, same, leftover⟩
    exact ⟨⟨_, assemble_eq_ok.mpr ⟨is, operations, rfl⟩, same⟩, leftover⟩

/-- An operation in front of bytes is the first one of their cut. -/
theorem Of.cons {o : Operation} {first : List UInt8} (made : o.op.make o.operands = .ok first)
    (of : cut.Of bytes) : Cut.Of ⟨o :: cut.operations, cut.rest⟩ (first ++ bytes) := by
  obtain ⟨i, opcode, operands, rfl⟩ := Opcode.make_eq_ok.mp made
  obtain ⟨is, operations, rfl, leftover⟩ := of_iff.mp of
  refine of_iff.mpr ⟨i :: is, ?_, ?_, leftover⟩
  · rw [List.map_cons, operations, Instr.operation, opcode, operands]
  · rw [Instr.bytesOf_cons, List.append_assoc]

theorem exists_of (bytes : List UInt8) : ∃ cut : Cut, cut.Of bytes := by
  obtain ⟨is, rest, same, leftover⟩ := exists_rows bytes
  exact ⟨⟨is.map Instr.operation, rest⟩, of_iff.mpr ⟨is, rfl, same, leftover⟩⟩

theorem unique (first : cut.Of bytes) (second : other.Of bytes) : other = cut := by
  obtain ⟨is, operations, same, leftover⟩ := of_iff.mp first
  obtain ⟨js, operations', same', leftover'⟩ := of_iff.mp second
  obtain ⟨rfl, rest⟩ := rows_unique (same'.symm.trans same) leftover' leftover
  cases cut
  cases other
  exact congr (congrArg Cut.mk (operations'.symm.trans operations)) rest

/-- The rest starts behind the operations. -/
theorem stop_eq {is : List Instr} (operations : is.map Instr.operation = cut.operations) :
    cut.stop = Instr.extent is := by
  rw [stop, ← operations]
  clear operations
  induction is with
  | nil => rfl
  | cons i is ih =>
    rw [List.map_cons, List.map_cons, List.foldr_cons, ih, i.length_operation, Instr.extent_cons]

end Cut

end Stacklet
