import Stacklet.Proofs.Code.Encoding
import Stacklet.Proofs.Machine.Execution
import Stacklet.Proofs.Machine.Steps

/-!
# Accesses and their bounds

A run reads its code, the operands of its instructions and the cells of its stack at
places that it computes. `Guarded` is the machine with every such access made explicit:
the byte code belongs to the state like everything else, instructions are decoded
byte by byte, and an access to a place where there is nothing stops the run in a way
that no other failure does (`Stop.outOfBounds`).

As long as there are no more values than cells on the stack, guarded runs come to the
same as runs that are not guarded (`secures_runFrom`). So no access is out of bounds,
and code and constants stay as they are.
-/

namespace Stacklet

/-- No more values than cells are on the stack. -/
def Machine.Fits (m : Machine) : Prop := m.top ≤ m.stack.size

/-- A machine and the byte code that is loaded into it. -/
structure Loaded where
  bytecode : Bytecode
  machine : Machine

namespace Guarded

/-- Why a guarded computation stops. -/
inductive Stop
  | failure (error : RuntimeError)
  /-- There is nothing at the place of an access. -/
  | outOfBounds

/-- Doing something on a machine and its byte code. -/
abbrev Exec := EStateM Stop Loaded

/-! ## Accesses -/

/-- What an access finds, which has to be there. -/
def present {α : Type} : Option α → Exec α
  | some found => pure found
  | none => throw .outOfBounds

/-- The bytes of code from a place on, which may not lie behind the end. -/
def sliceFrom (code : Code) (start : Nat) : Exec (List UInt8) :=
  if start ≤ code.size then pure (code.toList.drop start) else throw .outOfBounds

/-- Pops a value out of its cell. -/
def pop : Exec Value := do
  let v ← get
  match v.machine.top with
  | 0 => throw (.failure .stackUnderflow)
  | n + 1 =>
    set { v with machine := { v.machine with top := n } }
    present v.machine.stack[n]?

/-- The value on top of the stack, if there is one, out of its cell. -/
def topValue? : Exec (Option Value) := do
  let m := (← get).machine
  match m.top with
  | 0 => return none
  | n + 1 => return some (← present m.stack[n]?)

/-- The operand in a field of that width. -/
def operand (width : Nat) (field : List UInt8) : Exec Nat :=
  match width with
  | 2 => do
    let high ← present field[0]?
    let low ← present field[1]?
    return (wordOfBytes high low).toNat
  | _ => do
    let byte ← present field[0]?
    return byte.toNat

/-- The operands of the instruction at `offset`, from the bytes behind its operation code, and
the number of bytes that they take. -/
def operands (offset : Nat) (bytes : List UInt8) :
    (widths : List Nat) → (read : Nat) → Exec (List Nat × Nat)
  | [], read => return ([], read)
  | width :: widths, read =>
    if read + width ≤ bytes.length then do
      let first ← operand width ((bytes.drop read).take width)
      let (others, read) ← operands offset bytes widths (read + width)
      return (first :: others, read)
    else throw (.failure (.badInstruction offset (.truncated read)))

/-! ## Instructions -/

/-- What remains of a result when the byte code is beside it. -/
def carry {α : Type} (b : Bytecode) :
    EStateM.Result RuntimeError Machine α → EStateM.Result Stop Loaded α
  | .ok value m => .ok value ⟨b, m⟩
  | .error error m => .error (.failure error) ⟨b, m⟩

/-- Something that makes no access without looking whether there is anything. -/
def plain {α : Type} (x : Machine.Exec α) : Exec α := fun v => carry v.bytecode (x v.machine)

/-- Replaces the two topmost values by the value of an operation on them. -/
def binary (op : Opcode) : Exec Unit := do
  let right ← pop
  let left ← pop
  let value ← plain (Machine.ofExcept (Machine.binaryValue op left right))
  plain (Machine.push value)

/-- Replaces the topmost value by its negative. -/
def negate : Exec Unit := do
  let value ← pop
  let negative ← plain (Machine.ofExcept (Machine.negated value))
  plain (Machine.push negative)

/-- Replaces the topmost value by the opposite truth value. -/
def invert : Exec Unit := do
  let value ← pop
  plain (Machine.push (.boolean !value.isTruthy))

/-- Pops a value into the global that the first operand names. -/
def popGlobal (operands : List Nat) : Exec Unit := do
  let value ← pop
  let slot ← present operands[0]?
  let size := (← get).machine.globals.size
  if slot < size then
    plain (modify fun m => { m with globals := m.globals.setIfInBounds slot value })
  else throw (.failure (.globalOutOfRange slot size))

/-- Executes an operation with its operands and tells where to go on; `next` is the offset
behind it. -/
def perform (operands : List Nat) (next : Nat) : Opcode → Exec Nat
  | .constant => do
    let index ← present operands[0]?
    plain (Machine.pushConstant (← get).bytecode.constants index)
    return next
  | .pushTrue => do
    plain (Machine.push (.boolean true))
    return next
  | .pushFalse => do
    plain (Machine.push (.boolean false))
    return next
  | .pushNull => do
    plain (Machine.push .null)
    return next
  | .bang => do
    invert
    return next
  | .minus => do
    negate
    return next
  | .jump => present operands[0]?
  | .jumpNotTruthy => do
    if (← pop).isTruthy then return next else present operands[0]?
  | .setGlobal => do
    popGlobal operands
    return next
  | .getGlobal => do
    let slot ← present operands[0]?
    plain (Machine.pushGlobal slot)
    return next
  | .pop => do
    let _ ← pop
    return next
  | op => do
    binary op
    return next

/-- The operation that stands at an offset of the code, its operands, and the offset behind
it. -/
def decode (offset : Nat) : Exec (Opcode × List Nat × Nat) := do
  let code := (← get).bytecode.code
  let byte ← present code[offset]?
  match Opcode.ofByte? byte with
  | none => throw (.failure (.badInstruction offset (.unknownOpcode byte)))
  | some op => do
    let (values, read) ← operands offset (← sliceFrom code (offset + 1)) op.widths 0
    return (op, values, offset + 1 + read)

/-- Executes what stands at an offset of the code, and tells where to go on. -/
def step (offset : Nat) : Exec Nat := do
  let (op, values, next) ← decode offset
  perform values next op

/-- Goes on with a run at an offset, for at most `steps` instructions. -/
def runFrom : (steps : Nat) → (offset : Nat) → Exec Unit
  | 0, offset => do
    if offset < (← get).bytecode.code.size then throw (.failure .stepLimit)
  | steps + 1, offset => do
    if offset < (← get).bytecode.code.size then runFrom steps (← step offset)

/-! ## Guarded and not guarded -/

/-- On a stack that fits, the guarded computation does what the other one does, and if it
succeeds the stack fits again. -/
structure Secures {α : Type} (b : Bytecode) (x : Machine.Exec α) (g : Exec α) : Prop where
  same {m : Machine} : m.Fits → g ⟨b, m⟩ = carry b (x m)
  fits {m m' : Machine} {a : α} : m.Fits → x m = .ok a m' → m'.Fits

section Secures

variable {α β : Type} {b : Bytecode}

theorem Secures.bind {x : Machine.Exec α} {g : Exec α} {f : α → Machine.Exec β} {h : α → Exec β}
    (first : Secures b x g) (rest : ∀ a, Secures b (f a) (h a)) :
    Secures b (x >>= f) (g >>= h) where
  same := by
    intro m fits
    have same := first.same fits
    cases outcome : x m with
    | ok a m' =>
      rw [outcome] at same
      rw [bind_of_ok same, bind_of_ok outcome, (rest a).same (first.fits fits outcome)]
    | error e m' =>
      rw [outcome] at same
      rw [bind_of_error same, bind_of_error outcome]
      rfl
  fits := by
    intro m m'' c fits success
    obtain ⟨a, m', outcome, success⟩ := bind_eq_ok.mp success
    exact (rest a).fits (first.fits fits outcome) success

theorem secures_pure (a : α) : Secures b (pure a) (pure a) where
  same _ := rfl
  fits fits success := by
    cases success
    exact fits

theorem secures_throw (error : RuntimeError) :
    Secures b (throw error : Machine.Exec α) (throw (.failure error)) where
  same _ := rfl
  fits _ success := by cases success

theorem secures_ofExcept (result : Except RuntimeError α) :
    Secures b (Machine.ofExcept result) (plain (Machine.ofExcept result)) := by
  cases result with
  | ok value => exact secures_pure value
  | error error => exact secures_throw error

theorem secures_push (value : Value) :
    Secures b (Machine.push value) (plain (Machine.push value)) where
  same _ := rfl
  fits {m m' _} fits success := by
    by_cases room : m.top < m.stack.size
    · rw [Machine.push_of_room room] at success
      cases success
      change m.top + 1 ≤ (m.stack.setIfInBounds m.top value).size
      rwa [Array.size_setIfInBounds]
    · rw [Machine.push_of_full room] at success
      cases success

/-- The cell of the topmost value exists. -/
theorem secures_pop : Secures b Machine.pop pop where
  same {m} fits := by
    cases m with
    | mk stack top globals =>
      cases top with
      | zero => rfl
      | succ n =>
        have inside : n < stack.size := fits
        change present stack[n]? _ = .ok (stack.getD n .null) _
        rw [Array.getD_eq_getD_getElem?, Array.getElem?_eq_getElem inside]
        rfl
  fits {m m' _} fits success := by
    cases m with
    | mk stack top globals =>
      cases top with
      | zero => cases success
      | succ n =>
        cases success
        exact Nat.le_of_succ_le fits

theorem secures_binary (op : Opcode) : Secures b (Machine.binary op) (binary op) :=
  secures_pop.bind fun _ => secures_pop.bind fun _ => (secures_ofExcept _).bind secures_push

theorem secures_negate : Secures b Machine.negate negate :=
  secures_pop.bind fun _ => (secures_ofExcept _).bind secures_push

theorem secures_invert : Secures b Machine.invert invert :=
  secures_pop.bind fun _ => secures_push _

theorem secures_popGlobal (slot : Nat) : Secures b (Machine.popGlobal slot) (popGlobal [slot]) := by
  refine secures_pop.bind fun value => ?_
  have store (size : Nat) : Secures b
      (if slot < size then
        modify fun m => { m with globals := m.globals.setIfInBounds slot value }
      else throw (.globalOutOfRange slot size) : Machine.Exec Unit)
      (if slot < size then
        plain (modify fun m => { m with globals := m.globals.setIfInBounds slot value })
      else throw (.failure (.globalOutOfRange slot size))) := by
    split
    · exact ⟨fun _ => rfl, fun fits success => by cases success; exact fits⟩
    · exact secures_throw _
  exact ⟨fun {m} => (store m.globals.size).same, fun {m _ _} => (store m.globals.size).fits⟩

theorem secures_pushConstant (constants : Array Value) (index : Nat) :
    Secures b (Machine.pushConstant constants index)
      (plain (Machine.pushConstant constants index)) := by
  unfold Machine.pushConstant
  cases constants[index]? with
  | some value => exact secures_push value
  | none => exact secures_throw _

theorem secures_pushGlobal (slot : Nat) :
    Secures b (Machine.pushGlobal slot) (plain (Machine.pushGlobal slot)) where
  same _ := rfl
  fits {m m' _} fits success := by
    unfold Machine.pushGlobal at success
    rw [get_bind] at success
    cases found : m.globals[slot]? with
    | some value =>
      rw [found] at success
      exact (secures_push value : Secures b _ _).fits fits success
    | none =>
      rw [found] at success
      cases success

/-- The topmost value of the machine is out of its cell. -/
theorem topValue?_eq {m : Machine} (fits : m.Fits) :
    topValue? ⟨b, m⟩ = .ok m.topValue? ⟨b, m⟩ := by
  cases m with
  | mk stack top globals =>
    cases top with
    | zero => rfl
    | succ n =>
      have inside : n < stack.size := fits
      change (do return some (← present stack[n]?) : Exec _) _ = .ok stack[n]? _
      rw [Array.getElem?_eq_getElem inside]
      rfl

/-! ### Instructions -/

theorem secures_perform (i : Instr) (next : Nat) :
    Secures b (Machine.execute b.constants next i)
      (perform (i.operand?.map UInt16.toNat).toList next i.opcode) := by
  cases i with
  | constant index =>
    have pushes := (secures_pushConstant b.constants index.toNat).bind fun _ =>
      secures_pure (b := b) next
    exact ⟨pushes.same, pushes.fits⟩
  | getGlobal slot => exact (secures_pushGlobal _).bind fun _ => secures_pure next
  | setGlobal slot => exact (secures_popGlobal _).bind fun _ => secures_pure next
  | jump target => exact secures_pure _
  | jumpNotTruthy target =>
    refine secures_pop.bind fun value => ?_
    cases value.isTruthy with
    | true => exact secures_pure next
    | false => exact secures_pure _
  | pop => exact secures_pop.bind fun _ => secures_pure next
  | bang => exact secures_invert.bind fun _ => secures_pure next
  | minus => exact secures_negate.bind fun _ => secures_pure next
  | pushTrue | pushFalse | pushNull => exact (secures_push _).bind fun _ => secures_pure next
  | add | sub | mul | div | equal | notEqual | greaterThan =>
    exact (secures_binary _).bind fun _ => secures_pure next

/-! ### Decoding -/

/-- What stands at an offset whose byte is an operation. -/
theorem entryAt?_of_op {code : Code} {offset : Nat} {byte : UInt8} {op : Opcode}
    (first : code[offset]? = some byte) (known : Opcode.ofByte? byte = some op) :
    code.entryAt? offset =
      match op.form with
      | .plain i => some (.instr i)
      | .wide i =>
        match code.toList.drop (offset + 1) with
        | high :: low :: _ => some (.instr (i (wordOfBytes high low)))
        | _ => some (.truncated op) := by
  have behind (k : Nat) : code[offset + 1 + k]? = (code.toList.drop (offset + 1))[k]? := by
    rw [List.getElem?_drop, Array.getElem?_toList]
  have second := behind 0
  have third := behind 1
  simp only [Code.entryAt?, first, known]
  rw [show code[offset + 1]? = _ from second, show code[offset + 2]? = _ from third]
  rcases code.toList.drop (offset + 1) with _ | ⟨high, _ | ⟨low, rest⟩⟩ <;> rfl

theorem operands_word (offset : Nat) (high low : UInt8) (rest : List UInt8) :
    operands offset (high :: low :: rest) [2] 0 = pure ([(wordOfBytes high low).toNat], 2) := by
  rw [operands, if_pos (by simp)]
  rfl

/-- Decoding reads nothing but bytes of the code, and finds what stands there. -/
theorem decode_eq {offset : Nat} {entry : Entry} (found : b.code.entryAt? offset = some entry)
    (m : Machine) :
    decode offset ⟨b, m⟩ =
      match entry.decode with
      | .ok i =>
        .ok (i.opcode, (i.operand?.map UInt16.toNat).toList, offset + i.size) ⟨b, m⟩
      | .error e => .error (.failure (.badInstruction offset e)) ⟨b, m⟩ := by
  unfold decode
  rw [get_bind]
  cases first : b.code[offset]? with
  | none =>
    simp only [Code.entryAt?, first] at found
    cases found
  | some byte =>
    have inside : offset + 1 ≤ b.code.size := (Array.getElem?_eq_some_iff.mp first).1
    simp only [present, pure_bind, sliceFrom, if_pos inside]
    cases known : Opcode.ofByte? byte with
    | none =>
      simp only [Code.entryAt?, first, known] at found
      cases found
      rfl
    | some op =>
      rw [entryAt?_of_op first known] at found
      have form := op.form_cases
      cases same : op.form with
      | plain i =>
        rw [same] at found form
        obtain ⟨widths, rfl, operand⟩ := form
        cases found
        simp only [widths, Entry.decode, operand, Instr.size]
        rfl
      | wide i =>
        rw [same] at found form
        obtain ⟨widths, form⟩ := form
        simp only [widths]
        generalize b.code.toList.drop (offset + 1) = bytes at found
        rcases bytes with _ | ⟨high, _ | ⟨low, rest⟩⟩
        · cases found
          rfl
        · cases found
          rfl
        · cases found
          obtain ⟨opcode, operand⟩ := form (wordOfBytes high low)
          simp only [operands_word, Entry.decode, opcode, operand, Instr.size]
          rfl

/-! ### Runs -/

/-- Something stands at every offset inside of the code. -/
theorem lt_size_iff {code : Code} {offset : Nat} :
    offset < code.size ↔ ∃ entry, code.entryAt? offset = some entry := by
  constructor
  · intro inside
    rw [← Option.isSome_iff_exists, Code.entryAt?, Array.getElem?_eq_getElem inside]
    dsimp only
    split
    · rfl
    · split
      · rfl
      · split <;> rfl
  · rintro ⟨entry, found⟩
    rcases Nat.lt_or_ge offset code.size with inside | behind
    · exact inside
    · rw [Code.entryAt?, Array.getElem?_eq_none behind] at found
      cases found

theorem secures_step {offset : Nat} {i : Instr}
    (found : b.code.entryAt? offset = some (.instr i)) :
    Secures b (Machine.execute b.constants (offset + i.size) i) (step offset) where
  same {m} fits := by
    unfold step
    rw [bind_of_ok (decode_eq found m)]
    exact (secures_perform i _).same fits
  fits := (secures_perform i _).fits

theorem step_of_broken {offset : Nat} {entry : Entry} {e : DecodeError}
    (found : b.code.entryAt? offset = some entry) (broken : entry.decode = .error e)
    (m : Machine) : step offset ⟨b, m⟩ = .error (.failure (.badInstruction offset e)) ⟨b, m⟩ := by
  have decoded := decode_eq found m
  rw [broken] at decoded
  exact bind_of_error decoded

theorem runFrom_succ {offset : Nat} (inside : offset < b.code.size) (steps : Nat) (m : Machine) :
    runFrom (steps + 1) offset ⟨b, m⟩ = (step offset >>= runFrom steps) ⟨b, m⟩ := by
  rw [runFrom, get_bind, if_pos inside]

theorem runFrom_of_end {offset : Nat} (behind : ¬ offset < b.code.size) (steps : Nat)
    (m : Machine) : runFrom steps offset ⟨b, m⟩ = .ok () ⟨b, m⟩ := by
  cases steps <;> rw [runFrom, get_bind, if_neg behind] <;> rfl

theorem secures_end {offset : Nat} (stops : b.code.entryAt? offset = none) (steps : Nat) :
    Secures b (Machine.runFrom b steps offset) (runFrom steps offset) := by
  have behind : ¬ offset < b.code.size := fun inside => by
    obtain ⟨entry, found⟩ := lt_size_iff.mp inside
    rw [stops] at found
    cases found
  refine ⟨fun {m} _ => ?_, fun {m m' _} fits success => ?_⟩
  · rw [runFrom_of_end behind, Machine.runFrom_of_end steps stops]
    rfl
  · rw [Machine.runFrom_of_end steps stops] at success
    cases success
    exact fits

/-- A run makes no access out of bounds. -/
theorem secures_runFrom (steps offset : Nat) :
    Secures b (Machine.runFrom b steps offset) (runFrom steps offset) := by
  induction steps generalizing offset with
  | zero =>
    cases found : b.code.entryAt? offset with
    | none => exact secures_end found 0
    | some entry =>
      have inside := lt_size_iff.mpr ⟨entry, found⟩
      rw [Machine.runFrom, found]
      refine ⟨fun {m} _ => ?_, (secures_throw (b := b) _).fits⟩
      rw [runFrom, get_bind, if_pos inside]
      rfl
  | succ steps ih =>
    cases found : b.code.entryAt? offset with
    | none => exact secures_end found (steps + 1)
    | some entry =>
      have inside := lt_size_iff.mpr ⟨entry, found⟩
      rw [Machine.runFrom, found]
      dsimp only
      cases decoded : entry.decode with
      | error e =>
        refine ⟨fun {m} _ => ?_, (secures_throw (b := b) _).fits⟩
        rw [runFrom_succ inside, bind_of_error (step_of_broken found decoded m)]
        rfl
      | ok i =>
        obtain rfl := Machine.eq_instr_of_decode decoded
        have both := (secures_step found).bind ih
        refine ⟨fun {m} fits => ?_, both.fits⟩
        rw [runFrom_succ inside]
        exact both.same fits

end Secures

end Guarded

end Stacklet
