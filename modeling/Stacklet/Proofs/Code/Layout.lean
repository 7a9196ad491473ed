import Stacklet.Compile.Compiler

/-!
Where the instructions of a row lie in code.

A row of instructions takes `extent` bytes. `Code.Holds` places a row at an
offset of some code, whatever stands before and behind it; the decoder then
finds the first instruction of the row there (`Code.Holds.entryAt?_eq`), and the
rest of the row behind it.
-/

namespace Stacklet

/-! ## Rows of instructions -/

/-- The bytes of a row of instructions. -/
def Instr.bytesOf (is : List Instr) : List UInt8 := is.flatMap Instr.bytes

/-- The number of bytes that a row of instructions takes. -/
def Instr.extent : List Instr → Nat
  | [] => 0
  | i :: is => i.size + extent is

namespace Instr

@[simp] theorem extent_nil : extent [] = 0 := rfl

@[simp] theorem extent_cons (i : Instr) (is : List Instr) :
    extent (i :: is) = i.size + extent is := rfl

@[simp] theorem extent_append (is js : List Instr) :
    extent (is ++ js) = extent is + extent js := by
  induction is with
  | nil => exact (Nat.zero_add _).symm
  | cons i is ih => rw [List.cons_append, extent_cons, extent_cons, ih, Nat.add_assoc]

theorem extent_pos {is : List Instr} (nonempty : is ≠ []) : 0 < extent is := by
  cases is with
  | nil => exact (nonempty rfl).elim
  | cons i is => exact Nat.lt_of_lt_of_le i.size_pos (Nat.le_add_right ..)

theorem length_bytesOf (is : List Instr) : (bytesOf is).length = extent is := by
  induction is with
  | nil => rfl
  | cons i is ih =>
    rw [bytesOf, List.flatMap_cons, List.length_append, i.length_bytes, extent_cons]
    exact congrArg (i.size + ·) ih

theorem bytesOf_append (is js : List Instr) :
    bytesOf (is ++ js) = bytesOf is ++ bytesOf js := by
  simp [bytesOf]

end Instr

theorem Code.toList_append (code : Code) (is : List Instr) :
    (Code.append code is).toList = code.toList ++ Instr.bytesOf is := by
  induction is generalizing code with
  | nil => simp [Code.append, Instr.bytesOf]
  | cons i is ih =>
    change (Code.append (code.appendList i.bytes) is).toList = _
    rw [ih]
    simp [Instr.bytesOf]

/-! ## Rows inside code -/

/-- A row of instructions stands at an offset of the code. -/
def Code.Holds (code : Code) (offset : Nat) (is : List Instr) : Prop :=
  ∃ before behind, code.toList = before ++ Instr.bytesOf is ++ behind ∧ before.length = offset

namespace Code.Holds

variable {code : Code} {offset : Nat} {is js : List Instr}

theorem of_toList (bytes : code.toList = Instr.bytesOf is) : code.Holds 0 is :=
  ⟨[], [], by simp [bytes], rfl⟩

theorem left (holds : code.Holds offset (is ++ js)) : code.Holds offset is := by
  rcases holds with ⟨before, behind, bytes, length⟩
  refine ⟨before, Instr.bytesOf js ++ behind, ?_, length⟩
  rw [bytes, Instr.bytesOf_append]
  simp

theorem right {offset' : Nat} (holds : code.Holds offset (is ++ js))
    (there : offset' = offset + Instr.extent is) : code.Holds offset' js := by
  rcases holds with ⟨before, behind, bytes, length⟩
  refine ⟨before ++ Instr.bytesOf is, behind, ?_, ?_⟩
  · rw [bytes, Instr.bytesOf_append]
    simp
  · rw [List.length_append, length, Instr.length_bytesOf, there]

theorem tail {i : Instr} (holds : code.Holds offset (i :: is)) :
    code.Holds (offset + i.size) is :=
  Code.Holds.right (show code.Holds offset ([i] ++ is) from holds) rfl

end Code.Holds

/-! ## Decoding -/

/-- The bytes of an instruction decode to that instruction. -/
theorem Code.entryAt?_of_bytes {code : Code} {i : Instr} {before behind : List UInt8}
    (bytes : code.toList = before ++ (i.bytes ++ behind)) :
    code.entryAt? before.length = some (.instr i) := by
  have byteAt (k : Nat) : code[before.length + k]? = (i.bytes ++ behind)[k]? := by
    rw [← Array.getElem?_toList, bytes, List.getElem?_append_right (Nat.le_add_right ..)]
    simp
  have first := byteAt 0
  have second := byteAt 1
  have third := byteAt 2
  rw [Nat.add_zero] at first
  cases i <;>
    simp [Code.entryAt?, Instr.bytes, Instr.operand?, Instr.opcode, Opcode.form, bytesOfWord,
      first, second, third, Opcode.ofByte?_toByte, wordOfBytes_bytesOfWord]

theorem Code.Holds.entryAt?_eq {code : Code} {offset : Nat} {i : Instr} {is : List Instr}
    (holds : code.Holds offset (i :: is)) : code.entryAt? offset = some (.instr i) := by
  rcases holds with ⟨before, behind, bytes, rfl⟩
  refine Code.entryAt?_of_bytes
    (?_ : code.toList = before ++ (i.bytes ++ (Instr.bytesOf is ++ behind)))
  rw [bytes]
  simp [Instr.bytesOf]

/-- Nothing stands behind the last byte. -/
theorem Code.entryAt?_size (code : Code) : code.entryAt? code.size = none := by
  simp [Code.entryAt?]

theorem Instr.length_le_extent (is : List Instr) : is.length ≤ extent is := by
  induction is with
  | nil => exact Nat.le_refl _
  | cons i is ih =>
    have one := i.size_pos
    rw [List.length_cons, extent_cons]
    omega

theorem Code.entriesFrom_eq {code : Code} {offset budget : Nat} {is : List Instr}
    (holds : code.Holds offset is) (last : offset + Instr.extent is = code.size)
    (enough : is.length ≤ budget) (found : Array (Nat × Entry)) :
    (code.entriesFrom budget offset found).toList.map Prod.snd =
      found.toList.map Prod.snd ++ is.map .instr := by
  induction is generalizing offset budget found with
  | nil =>
    have stops : code.entryAt? offset = none := by
      rw [show offset = code.size from last]
      exact code.entryAt?_size
    cases budget <;> simp [entriesFrom, stops]
  | cons i is ih =>
    obtain ⟨budget, rfl⟩ := Nat.exists_eq_succ_of_ne_zero (Nat.ne_zero_of_lt enough)
    rw [entriesFrom, holds.entryAt?_eq]
    have rest := ih holds.tail (by rw [← last, Instr.extent_cons, Nat.add_assoc])
      (Nat.le_of_succ_le_succ enough) (found.push (offset, .instr i))
    simpa using rest

/-- The bytes of a row of instructions are cut into these instructions. -/
theorem Code.entries_eq {code : Code} {is : List Instr} (bytes : code.toList = Instr.bytesOf is) :
    code.entries.map Prod.snd = is.map .instr := by
  have size : Instr.extent is = code.size := by
    rw [← Instr.length_bytesOf, ← bytes, Array.length_toList]
  exact Code.entriesFrom_eq (.of_toList bytes) (by rw [Nat.zero_add, size])
    (size ▸ Instr.length_le_extent is) #[]

end Stacklet
