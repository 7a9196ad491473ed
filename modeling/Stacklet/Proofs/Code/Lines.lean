import Stacklet.Code.Census
import Stacklet.Code.Disassembly
import Stacklet.Proofs.Code.Cuts

/-!
# The lines in which byte code is shown

What a printed line holds is fixed here without the printers: its offset in four digits, its
mark, and an operation with its name and operands, or why no operation stands there. The
words of a line have one space between them (`Line.listed`, `Line.disassembled`).

A cut of the bytes has one line for each operation and one for a rest that is not empty
(`Cut.lines`). Whoever says something of each part of a cut says it in these lines as soon as
he does on every single one (`Cut.join_said`), so that a printer is compared with its lines
one at a time.
-/

namespace Stacklet

/-! ## The text of a line -/

/-- The names of the operations in the order of their codes. -/
def Opcode.mnemonics : List String :=
  ["OpConstant", "OpAdd", "OpSub", "OpMul", "OpDiv", "OpPop", "OpTrue", "OpFalse", "OpNull",
    "OpEqual", "OpNotEqual", "OpGreaterThan", "OpMinus", "OpBang", "OpJumpNotTruthy", "OpJump",
    "OpGetGlobal", "OpSetGlobal"]

/-- The name that the code of an operation has. -/
def Opcode.mnemonic (op : Opcode) : String := mnemonics.getD op.toByte.toNat ""

/-- Lines of text, each one ended. -/
def unlines (lines : List String) : String := String.join (lines.map (· ++ "\n"))

/-- A text in a column of that width. -/
def column (width : Nat) (text : String) : String := String.ofList (text.toList.rightpad width ' ')

/-- An offset, in four digits at least. -/
def offsetText (offset : Nat) : String := String.ofList ((toString offset).toList.leftpad 4 '0')

/-- Why no instruction stands at an offset. -/
def DecodeError.words : DecodeError → List String
  | .unknownOpcode byte => ["opcode", toString byte.toNat, "undefined"]
  | .truncated offset => ["instruction at", toString offset, "is truncated"]

/-- A constant beside the instructions that load it: only a string is quoted. -/
def Value.remark : Value → String
  | .string text => quoted text
  | other => other.render

/-- The constant that an operation loads. -/
def Operation.loaded? (o : Operation) (constants : Array Value) : Option Value :=
  if o.op = .constant then o.operands.head?.bind (constants[·]?) else none

/-- The words behind an operation that loads a constant. -/
def Operation.comment (o : Operation) (constants : Array Value) : List String :=
  match o.loaded? constants with
  | some value => ["   ;", value.remark]
  | none => []

/-- What is shown at an offset: an operation, or why none stands there. -/
structure Line where
  offset : Nat
  marked : Bool
  content : Except DecodeError Operation

namespace Line

/-- A line of the listing, which has no marks. -/
def listed (line : Line) : String :=
  " ".intercalate <| offsetText line.offset ::
    match line.content with
    | .ok o => o.op.mnemonic :: o.operands.map toString
    | .error error => "ERROR:" :: error.words

/-- A line of the disassembly, beside the constants. -/
def disassembled (constants : Array Value) (line : Line) : String :=
  " ".intercalate <| offsetText line.offset :: (if line.marked then "►" else " ") ::
    match line.content with
    | .ok o => column 16 o.op.mnemonic :: o.operands.map toString ++ o.comment constants
    | .error error => "!!" :: error.words

end Line

/-- The lines over the disassembly of code of that size. -/
def headingLines (size : Nat) : List String :=
  [String.ofList (List.replicate 40 '═'), " main", " " ++ toString size ++ " bytes",
    String.ofList (List.replicate 40 '═')]

/-- The lines under a disassembly, if there are constants to show. -/
def constantLines (constants : Array Value) : List String :=
  if constants.isEmpty then []
  else
    ["", " constants"] ++ constants.toList.zipIdx.map fun (value, index) =>
      "  [" ++ toString index ++ "] " ++ value.remark

/-- The lines of the statistics. -/
def statisticsLines (operations bytes constants : Nat) (table : List (String × Nat)) :
    List String :=
  ["=== BYTECODE STATS ===", "instructions: " ++ toString operations,
      "bytes:        " ++ toString bytes, "constants:    " ++ toString constants] ++
    table.map fun (name, count) => "  " ++ column 16 name ++ " " ++ toString count

/-! ## The lines of a cut -/

/-- Operations with the offsets at which they start, the first one at that offset. -/
def Operation.placed : (offset : Nat) → List Operation → List (Nat × Operation)
  | _, [] => []
  | offset, o :: others => (offset, o) :: placed (offset + o.length) others

namespace Cut

variable (cut : Cut)

/-- What is to be said of each operation at its offset, and of the rest if there is one. -/
def said {α : Type} (say : Nat → Except DecodeError (Opcode × List Nat) → α) : List α :=
  (Operation.placed 0 cut.operations).map
      (fun (offset, o) => say offset (.ok (o.op, o.operands))) ++
    (cut.error?.map fun error => say cut.stop (.error error)).toList

/-- What does not depend on the offsets is said of the operations in their order. -/
theorem said_const {α : Type} (say : Except DecodeError (Opcode × List Nat) → α) :
    cut.said (fun _ => say) = cut.operations.map (fun o => say (.ok (o.op, o.operands))) ++
      (cut.error?.map fun error => say (.error error)).toList := by
  have each (offset : Nat) (operations : List Operation) :
      (Operation.placed offset operations).map (fun (_, o) => say (.ok (o.op, o.operands))) =
        operations.map fun o => say (.ok (o.op, o.operands)) := by
    induction operations generalizing offset with
    | nil => rfl
    | cons o others ih => exact congrArg (_ :: ·) (ih _)
  rw [said, each]

/-- One of the operations is a jump to that offset. -/
def leadsTo (offset : Nat) : Bool :=
  cut.operations.any fun o => (o.op = .jump ∨ o.op = .jumpNotTruthy) ∧ o.operands = [offset]

/-- A line for each operation, and one for the rest if there is one. The offsets that a jump
leads to are marked. -/
def lines : List Line :=
  (Operation.placed 0 cut.operations).map
      (fun (offset, o) => ⟨offset, cut.leadsTo offset, .ok o⟩) ++
    (cut.error?.map fun error => ⟨cut.stop, cut.leadsTo cut.stop, .error error⟩).toList

end Cut

/-! ## What the printers print -/

theorem Opcode.name_eq_mnemonic (op : Opcode) : op.name = op.mnemonic := by
  cases op <;> rfl

theorem zeroPadded_eq_offsetText (offset : Nat) : zeroPadded 4 offset = offsetText offset := by
  have digits : (toString offset).toList = Nat.toDigits 10 offset := Nat.toList_repr
  rw [offsetText, digits]
  rfl

theorem leftAligned_eq_column (width : Nat) (text : String) :
    leftAligned width text = column width text := by
  rw [leftAligned, column, List.rightpad, String.ofList_append, String.ofList_toList,
    String.length_toList]

theorem Value.constantText_eq_remark (value : Value) : value.constantText = value.remark := by
  cases value <;> rfl

theorem unlines_nil : unlines [] = "" := rfl

theorem unlines_cons (line : String) (lines : List String) :
    unlines (line :: lines) = line ++ "\n" ++ unlines lines := String.join_cons

theorem unlines_append (lines more : List String) :
    unlines (lines ++ more) = unlines lines ++ unlines more := by
  rw [unlines, List.map_append, String.join_append]
  rfl

/-- What is said of the parts of a cut are its lines, if each is said in its line. -/
theorem Cut.join_said {cut : Cut} {say : Nat → Except DecodeError (Opcode × List Nat) → String}
    {text : Line → String}
    (ok : ∀ offset o, say offset (.ok (o.op, o.operands)) =
      text ⟨offset, cut.leadsTo offset, .ok o⟩ ++ "\n")
    (error : ∀ offset error, say offset (.error error) =
      text ⟨offset, cut.leadsTo offset, .error error⟩ ++ "\n") :
    String.join (cut.said say) = unlines (cut.lines.map text) := by
  rw [unlines, List.map_map, lines, said, List.map_append, List.map_map]
  simp only [ok, error]
  cases cut.error? <;> rfl

/-- Words with a space in front of each stand behind a first one. -/
theorem intercalate_cons_eq_join (first : String) (words : List String) :
    " ".intercalate (first :: words) = first ++ String.join (words.map (" " ++ ·)) := by
  induction words generalizing first with
  | nil => rw [String.intercalate_singleton, List.map_nil, String.join_nil, String.append_empty]
  | cons word words ih =>
    rw [String.intercalate_cons_cons, ih, List.map_cons, String.join_cons, String.append_assoc,
      String.append_assoc]

theorem operandsText_eq (operands : List Nat) :
    operandsText operands = String.join ((operands.map toString).map (" " ++ ·)) := by
  rw [List.map_map]
  rfl

theorem DecodeError.message_eq (error : DecodeError) :
    error.message = " ".intercalate error.words := by
  cases error <;> simp [message, words, String.append_assoc]

theorem DecodeError.intercalate_words (error : DecodeError) (first : String) :
    " ".intercalate (first :: error.words) = first ++ " " ++ error.message := by
  rw [error.message_eq, String.intercalate_cons_of_ne_nil]
  cases error <;> exact List.cons_ne_nil _ _

section Printers

variable (constants : Array Value) (marked : Nat → Bool) (offset : Nat)

theorem listingLine_ok (o : Operation) :
    listingLine offset (.ok (o.op, o.operands)) =
      Line.listed ⟨offset, marked offset, .ok o⟩ ++ "\n" := by
  rw [listingLine, Line.listed, intercalate_cons_eq_join, List.map_cons, String.join_cons,
    ← operandsText_eq, zeroPadded_eq_offsetText, o.op.name_eq_mnemonic]
  simp only [String.append_assoc]

theorem listingLine_error (error : DecodeError) :
    listingLine offset (.error error) =
      Line.listed ⟨offset, marked offset, .error error⟩ ++ "\n" := by
  have refused : " ERROR: " = " " ++ ("ERROR:" ++ " ") := rfl
  rw [listingLine, Line.listed, String.intercalate_cons_cons, error.intercalate_words,
    zeroPadded_eq_offsetText, refused]
  simp only [String.append_assoc]

theorem jumpMark_eq (mark : Bool) : jumpMark mark = (if mark then "►" else " ") ++ " " := by
  cases mark <;> rfl

theorem constantRemark_eq (o : Operation) :
    constantRemark constants o.op o.operands =
      String.join ((o.comment constants).map (" " ++ ·)) := by
  obtain ⟨op, operands⟩ := o
  rw [Operation.comment, Operation.loaded?]
  by_cases load : op = .constant
  · subst load
    dsimp only
    rw [if_pos rfl]
    cases operands with
    | nil => rfl
    | cons index _ =>
      rw [constantRemark, List.head?_cons, Option.bind_some]
      cases constants[index]? with
      | none => rfl
      | some value =>
        have comment : "    ; " = " " ++ "   ;" ++ " " := rfl
        dsimp only
        rw [value.constantText_eq_remark, comment, List.map_cons, List.map_singleton,
          String.join_cons, String.join_cons, String.join_nil, String.append_empty,
          String.append_assoc]
  · dsimp only
    rw [if_neg load, constantRemark]
    · rfl
    · intro _ _ load'
      exact (load load').elim

theorem disassemblyLine_ok (o : Operation) :
    disassemblyLine constants marked offset (.ok (o.op, o.operands)) =
      Line.disassembled constants ⟨offset, marked offset, .ok o⟩ ++ "\n" := by
  rw [disassemblyLine, Line.disassembled]
  dsimp only
  rw [List.cons_append, String.intercalate_cons_cons, String.intercalate_cons_cons,
    intercalate_cons_eq_join, List.map_append, String.join_append,
    ← operandsText_eq, ← constantRemark_eq, zeroPadded_eq_offsetText, leftAligned_eq_column,
    o.op.name_eq_mnemonic, jumpMark_eq]
  simp only [String.append_assoc]

theorem disassemblyLine_error (error : DecodeError) :
    disassemblyLine constants marked offset (.error error) =
      Line.disassembled constants ⟨offset, marked offset, .error error⟩ ++ "\n" := by
  have refused : "!! " = "!!" ++ " " := rfl
  rw [disassemblyLine, Line.disassembled, String.intercalate_cons_cons,
    String.intercalate_cons_cons, error.intercalate_words, zeroPadded_eq_offsetText, jumpMark_eq,
    refused]
  simp only [String.append_assoc]

end Printers

theorem Cut.join_said_listingLine (cut : Cut) :
    String.join (cut.said listingLine) = unlines (cut.lines.map Line.listed) :=
  join_said (listingLine_ok cut.leadsTo) (listingLine_error cut.leadsTo)

theorem Cut.join_said_disassemblyLine (cut : Cut) (constants : Array Value) :
    String.join (cut.said (disassemblyLine constants cut.leadsTo)) =
      unlines (cut.lines.map (Line.disassembled constants)) :=
  join_said (disassemblyLine_ok constants cut.leadsTo)
    (disassemblyLine_error constants cut.leadsTo)

example : Line.disassembled #[.integer 5] ⟨10, true, .ok ⟨.constant, [0]⟩⟩ =
    "0010 ► OpConstant       0    ; 5" := by
  decide +kernel

theorem disassemblyHeading_eq (size : Nat) :
    disassemblyHeading size = unlines (headingLines size) := by
  have named : " main\n" = " main" ++ "\n" := rfl
  have sized : " bytes\n" = " bytes" ++ "\n" := rfl
  unfold disassemblyHeading disassemblyRule headingLines
  generalize String.ofList (List.replicate 40 '═') = rule
  rw [named, sized]
  -- Two literals side by side would be joined to one again.
  simp only [unlines_cons, unlines_nil, String.append_assoc, String.append_empty,
    -String.reduceAppend]

theorem constantTable_eq (constants : Array Value) :
    constantTable constants = unlines (constantLines constants) := by
  rw [constantTable, constantLines]
  split
  · rfl
  · simp only [unlines_append, unlines_cons, unlines_nil, String.append_empty,
      Value.constantText_eq_remark]
    rw [unlines, List.map_map]
    rfl

theorem statisticsText_eq (operations bytes constants : Nat) (table : List (String × Nat)) :
    statisticsText operations bytes constants table =
      unlines (statisticsLines operations bytes constants table) := by
  have titled : "=== BYTECODE STATS ===\n" = "=== BYTECODE STATS ===" ++ "\n" := rfl
  have frequency : frequencyLine = (· ++ "\n") ∘ fun (name, count) =>
      "  " ++ column 16 name ++ " " ++ toString count := by
    funext entry
    rw [frequencyLine, leftAligned_eq_column]
    rfl
  unfold statisticsText statisticsLines
  rw [titled, frequency, unlines_append, ← List.map_map]
  simp only [unlines_cons, unlines_nil, String.append_assoc, String.append_empty,
    -String.reduceAppend]
  rfl

end Stacklet
