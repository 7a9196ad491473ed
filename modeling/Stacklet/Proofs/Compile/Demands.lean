import Stacklet.Proofs.Compile.Resolution

/-!
# What programs demand of the limits

A program can be laid out as if operands had no limit: every constant and every slot has
its number and every jump its target, however large (`Expr.laidOut`). What is compiled is
this layout, or nothing. On the way the compiler makes demands, one after the other, each
of them a number that has to have 16 bits or a name that has to have a slot
(`Expr.demands`), and the first demand that is not met is the reason of a failure
(`Lowers.demands_met`, `Refused.demand_unmet`).

So the limits are exact, and no number is ever cut (`Program.compile_limits`).
-/

namespace Stacklet

/-! ## Layouts without limits -/

/-- An instruction whose operand may be any number. -/
structure WideInstr where
  opcode : Opcode
  operand? : Option Nat
  deriving DecidableEq

/-- The place that an instruction may jump to. -/
def WideInstr.target? (i : WideInstr) : Option Nat :=
  match i.opcode with
  | .jump | .jumpNotTruthy => i.operand?
  | _ => none

/-- The instruction with its operand as a number. -/
def Instr.widened (i : Instr) : WideInstr := ⟨i.opcode, i.operand?.map UInt16.toNat⟩

/-- Where the layout of a program has come to: the slots and the number of constants so far,
and the offset of the next instruction. -/
structure Outline where
  slots : Slots
  constants : Nat
  position : Nat

/-- The outline of a progress. -/
def Progress.outline (p : Progress) : Outline := ⟨p.slots, p.constants.size, p.position⟩

namespace Outline

/-- The outline with more bytes laid out. -/
def advance (o : Outline) (size : Nat) : Outline := { o with position := o.position + size }

/-- The outline behind a fragment. -/
def behind (o : Outline) (f : Fragment) : Outline where
  slots := o.slots.behind f.mentions
  constants := o.constants + f.literals
  position := o.position + f.extent

/-- The outline in front of the first block of a conditional. -/
def whenTrue (o : Outline) (condition : Expr) : Outline :=
  (o.behind (.expr condition)).advance 3

/-- The outline in front of the second block of a conditional. -/
def whenFalse (o : Outline) (condition : Expr) (consequence : List Stmt) : Outline :=
  ((o.whenTrue condition).behind (.branch consequence)).advance 3

end Outline

mutual

/-- The code of an expression, with operands of any size. A name without a slot has none. -/
def Expr.laidOut : Expr → Outline → List WideInstr
  | .integer _, o | .text _, o => [⟨.constant, some o.constants⟩]
  | .boolean value, _ => [⟨if value then .pushTrue else .pushFalse, none⟩]
  | .name name, o => [⟨.getGlobal, o.slots.find? name⟩]
  | .unary op operand, o => operand.laidOut o ++ [op.instr.widened]
  | .binary op left right, o =>
    if op = .less then
      right.laidOut o ++ left.laidOut (o.behind (.expr right)) ++ [op.instr.widened]
    else left.laidOut o ++ right.laidOut (o.behind (.expr left)) ++ [op.instr.widened]
  | .conditional condition consequence alternative, o =>
    let whenFalse := o.whenFalse condition consequence
    condition.laidOut o ++ [⟨.jumpNotTruthy, some whenFalse.position⟩] ++
      Stmt.laidOutBranch consequence (o.whenTrue condition) ++
      [⟨.jump, some (whenFalse.behind (.alternative alternative)).position⟩] ++
      Stmt.laidOutAlternative alternative whenFalse
  | .function .., _ | .call .., _ | .array _, _ | .index .., _ => []

/-- The code of a statement, with operands of any size. -/
def Stmt.laidOut : Stmt → Outline → List WideInstr
  | .define _ value, o =>
    value.laidOut o ++ [⟨.setGlobal, some (o.behind (.expr value)).slots.count⟩]
  | .expr value, o => value.laidOut o ++ [⟨.pop, none⟩]
  | .return _, _ => []

/-- The code of a block, with operands of any size. -/
def Stmt.laidOutAll : List Stmt → Outline → List WideInstr
  | [], _ => []
  | s :: rest, o => s.laidOut o ++ Stmt.laidOutAll rest (o.behind (.stmt s))

/-- The code of a block of a conditional, with operands of any size. -/
def Stmt.laidOutBranch : List Stmt → Outline → List WideInstr
  | [], _ => [⟨.pushNull, none⟩]
  | [.expr value], o => value.laidOut o
  | s :: rest, o => s.laidOut o ++ Stmt.laidOutBranch rest (o.behind (.stmt s))

/-- The code of the second block of a conditional, with operands of any size. -/
def Stmt.laidOutAlternative : Option (List Stmt) → Outline → List WideInstr
  | none, _ => [⟨.pushNull, none⟩]
  | some block, o => Stmt.laidOutBranch block o

end

/-- The code of a fragment, with operands of any size. -/
def Fragment.laidOut : Fragment → Outline → List WideInstr
  | .expr e => e.laidOut
  | .stmt s => s.laidOut
  | .block statements => Stmt.laidOutAll statements
  | .branch statements => Stmt.laidOutBranch statements
  | .alternative second => Stmt.laidOutAlternative second

theorem Expr.laidOut_binary {op : BinaryOp} (notLess : op ≠ .less) (left right : Expr)
    (o : Outline) : (Expr.binary op left right).laidOut o =
      left.laidOut o ++ right.laidOut (o.behind (.expr left)) ++ [op.instr.widened] := by
  rw [Expr.laidOut, if_neg notLess]

theorem Stmt.laidOutBranch_cons {s : Stmt} {rest : List Stmt} (inner : rest = [] → ¬ s.IsExpr)
    (o : Outline) : Stmt.laidOutBranch (s :: rest) o =
      s.laidOut o ++ Stmt.laidOutBranch rest (o.behind (.stmt s)) := by
  rw [Stmt.laidOutBranch]
  rintro value rfl rfl
  exact inner rfl ⟨value, rfl⟩

/-! ## Demands -/

/-- What has to hold for a program to be compiled any further. -/
inductive Demand
  /-- There is code for parts of this kind. There never is. -/
  | code (kind : String)
  /-- A constant can be numbered. -/
  | constant (index : Nat)
  /-- A name has a slot, and an instruction can read it. -/
  | use (name : String) (number? : Option Nat)
  /-- A slot can be numbered. -/
  | slot (number : Nat)
  /-- An instruction can jump there. -/
  | jump (op : Opcode) (target : Nat)

/-- The error for a demand that is not met. -/
def Demand.error? : Demand → Option CompileError
  | .code kind => some (.unsupported kind)
  | .constant index => if index < 65536 then none else some (.tooManyConstants index)
  | .use name none => some (.undefinedVariable name)
  | .use _ (some number) =>
    if number < 65536 then none else some (.encode (.operandOutOfRange .getGlobal number 2))
  | .slot number => if number < 65536 then none else some (.tooManyGlobals number)
  | .jump op target =>
    if target < 65536 then none else some (.encode (.operandOutOfRange op target 2))

mutual

/-- The demands of an expression, in the order in which it is compiled. A jump is written
only when its target is known. -/
def Expr.demands : Expr → Outline → List Demand
  | .integer _, o | .text _, o => [.constant o.constants]
  | .boolean _, _ => []
  | .name name, o => [.use name (o.slots.find? name)]
  | .unary _ operand, o => operand.demands o
  | .binary op left right, o =>
    if op = .less then right.demands o ++ left.demands (o.behind (.expr right))
    else left.demands o ++ right.demands (o.behind (.expr left))
  | .conditional condition consequence alternative, o =>
    let whenFalse := o.whenFalse condition consequence
    condition.demands o ++ Stmt.demandsAll consequence (o.whenTrue condition) ++
      .jump .jumpNotTruthy whenFalse.position :: (Stmt.demandsAlternative alternative whenFalse ++
        [.jump .jump (whenFalse.behind (.alternative alternative)).position])
  | .function parameters body, _ => [.code (Expr.function parameters body).kindName]
  | .call callee arguments, _ => [.code (Expr.call callee arguments).kindName]
  | .array items, _ => [.code (Expr.array items).kindName]
  | .index base subscript, _ => [.code (Expr.index base subscript).kindName]

/-- The demands of a statement. -/
def Stmt.demands : Stmt → Outline → List Demand
  | .define _ value, o => value.demands o ++ [.slot (o.behind (.expr value)).slots.count]
  | .expr value, o => value.demands o
  | .return value, _ => [.code (Stmt.return value).kindName]

/-- The demands of a block. -/
def Stmt.demandsAll : List Stmt → Outline → List Demand
  | [], _ => []
  | s :: rest, o => s.demands o ++ Stmt.demandsAll rest (o.behind (.stmt s))

/-- The demands of the second block of a conditional. -/
def Stmt.demandsAlternative : Option (List Stmt) → Outline → List Demand
  | none, _ => []
  | some block, o => Stmt.demandsAll block o

end

/-- The demands of a fragment. That a block leaves a value takes no demand. -/
def Fragment.demands : Fragment → Outline → List Demand
  | .expr e => e.demands
  | .stmt s => s.demands
  | .block statements | .branch statements => Stmt.demandsAll statements
  | .alternative second => Stmt.demandsAlternative second

theorem Expr.demands_binary {op : BinaryOp} (notLess : op ≠ .less) (left right : Expr)
    (o : Outline) : (Expr.binary op left right).demands o =
      left.demands o ++ right.demands (o.behind (.expr left)) := by
  rw [Expr.demands, if_neg notLess]

namespace Demand

/-- The error of the first demand that is not met, if there is one. -/
def firstError (ds : List Demand) : Option CompileError := ds.findSome? error?

theorem firstError_append (ds es : List Demand) :
    firstError (ds ++ es) = (firstError ds).or (firstError es) := List.findSome?_append

theorem firstError_of_append {ds es : List Demand} (met : firstError ds = none) :
    firstError (ds ++ es) = firstError es := by
  rw [firstError_append, met, Option.none_or]

theorem firstError_of_left {ds es : List Demand} {e : CompileError}
    (unmet : firstError ds = some e) : firstError (ds ++ es) = some e := by
  rw [firstError_append, unmet, Option.some_or]

theorem firstError_jump {op : Opcode} {target : Nat} (fits : target < 65536) (ds : List Demand) :
    firstError (.jump op target :: ds) = firstError ds := by
  simp [firstError, error?, fits]

theorem firstError_wideJump {op : Opcode} {target : Nat} (wide : 65536 ≤ target)
    (ds : List Demand) :
    firstError (.jump op target :: ds) = some (.encode (.operandOutOfRange op target 2)) := by
  simp [firstError, error?, Nat.not_lt.mpr wide]

end Demand

/-! ## Compiled code is laid out without limits -/

section Compiled

variable {f : Fragment} {p q r s : Progress} {code : List Instr} {e : CompileError}

theorem Lowers.outline_eq (lowers : Lowers f p code q) : q.outline = p.outline.behind f := by
  have needed := lowers.needed
  rw [Progress.outline, needed.slots, needed.constants, needed.position]
  rfl

theorem Lowers.outline_whenTrue {condition : Expr} (lowers : Lowers (.expr condition) p code q) :
    (q.advance 3).outline = p.outline.whenTrue condition :=
  congrArg (Outline.advance · 3) lowers.outline_eq

theorem Lowers.outline_whenFalse {condition : Expr} {consequence : List Stmt}
    {whenTrue : List Instr} (lowers : Lowers (.expr condition) p code q)
    (lowers' : Lowers (.branch consequence) (q.advance 3) whenTrue r) :
    (r.advance 3).outline = p.outline.whenFalse condition consequence := by
  have behind := congrArg (Outline.advance · 3) lowers'.outline_eq
  rw [lowers.outline_whenTrue] at behind
  exact behind

theorem Lowers.count_behind (lowers : Lowers f p code q) :
    q.slots.count = (p.outline.behind f).slots.count :=
  congrArg (·.slots.count) lowers.outline_eq

/-- Where the jump over the first block of a conditional leads to. -/
theorem Lowers.position_whenFalse {condition : Expr} {consequence : List Stmt}
    {whenTrue : List Instr} (lowers : Lowers (.expr condition) p code q)
    (lowers' : Lowers (.branch consequence) (q.advance 3) whenTrue r) :
    r.position + 3 = (p.outline.whenFalse condition consequence).position :=
  congrArg Outline.position (lowers.outline_whenFalse lowers')

/-- Where the jump over the second block of a conditional leads to. -/
theorem Lowers.position_after {condition : Expr} {consequence : List Stmt}
    {alternative : Option (List Stmt)} {whenTrue whenFalse : List Instr}
    (lowers : Lowers (.expr condition) p code q)
    (lowers' : Lowers (.branch consequence) (q.advance 3) whenTrue r)
    (lowers'' : Lowers (.alternative alternative) (r.advance 3) whenFalse s) :
    s.position =
      ((p.outline.whenFalse condition consequence).behind (.alternative alternative)).position := by
  rw [← lowers.outline_whenFalse lowers', ← lowers''.outline_eq]
  rfl

theorem widened_ofNat {number : Nat} (fits : number < 65536) (make : UInt16 → Instr) (op : Opcode)
    (wide : ∀ word, (make word).widened = ⟨op, some word.toNat⟩) :
    (make (.ofNat number)).widened = ⟨op, some number⟩ := by
  rw [wide, UInt16.toNat_ofNat_of_lt' fits]

/-- Compiled code has the operands that it would have without limits. -/
theorem Lowers.laidOut_eq (lowers : Lowers f p code q) :
    code.map Instr.widened = f.laidOut p.outline := by
  induction lowers with
  | integer room | text room =>
    exact congrArg ([·]) (widened_ofNat room .constant _ fun _ => rfl)
  | @boolean _ b => cases b <;> rfl
  | @name p name slot found fits =>
    have here : p.outline.slots.find? name = some slot := found
    rw [Fragment.laidOut, Expr.laidOut, here]
    exact congrArg ([·]) (widened_ofNat fits .getGlobal _ fun _ => rfl)
  | unary _ ih => rw [List.map_append, ih]; rfl
  | binary notLess lower _ ih ih' =>
    rw [List.map_append, List.map_append, ih, ih', lower.outline_eq]
    exact (Expr.laidOut_binary notLess ..).symm
  | less lower _ ih ih' =>
    rw [List.map_append, List.map_append, ih, ih', lower.outline_eq]
    rfl
  | conditional lower lower' fits lower'' fits' ih ih' ih'' =>
    have otherwise := widened_ofNat fits .jumpNotTruthy .jumpNotTruthy fun _ => rfl
    have after := widened_ofNat fits' .jump .jump fun _ => rfl
    simp only [List.map_append, List.map_cons, List.map_nil, ih, ih', ih'', otherwise, after]
    rw [lower.position_whenFalse lower', lower.position_after lower' lower'',
      lower.outline_whenTrue, lower.outline_whenFalse lower']
    rfl
  | define lower fits ih =>
    have slot := widened_ofNat fits .setGlobal .setGlobal fun _ => rfl
    rw [List.map_append, List.map_cons, ih, slot, lower.count_behind]
    rfl
  | dropped _ ih => rw [List.map_append, ih]; rfl
  | next lower _ ih ih' => rw [List.map_append, ih, ih', lower.outline_eq]; rfl
  | before inner lower _ ih ih' =>
    rw [List.map_append, ih, ih', lower.outline_eq]
    exact (Stmt.laidOutBranch_cons inner _).symm
  | kept _ ih | present _ ih => exact ih
  | done | valueless | absent => rfl

open Demand

/-- What is compiled makes no demand that is not met. -/
theorem Lowers.demands_met (lowers : Lowers f p code q) :
    firstError (f.demands p.outline) = none := by
  induction lowers with
  | @integer p _ room | @text p _ room =>
    have fits : p.outline.constants < 65536 := room
    simp [firstError, Fragment.demands, Expr.demands, error?, fits]
  | @name p name slot found fits =>
    have here : p.outline.slots.find? name = some slot := found
    simp [firstError, Fragment.demands, Expr.demands, error?, here, fits]
  | unary _ ih | dropped _ ih | present _ ih => exact ih
  | binary notLess lower _ ih ih' =>
    rw [lower.outline_eq] at ih'
    rw [Fragment.demands, Expr.demands_binary notLess]
    exact (firstError_of_append ih).trans ih'
  | less lower _ ih ih' | next lower _ ih ih' | before _ lower _ ih ih' =>
    rw [lower.outline_eq] at ih'
    exact (firstError_of_append ih).trans ih'
  | conditional lower lower' fits lower'' fits' ih ih' ih'' =>
    rw [lower.outline_whenTrue] at ih'
    rw [lower.outline_whenFalse lower'] at ih''
    rw [lower.position_whenFalse lower'] at fits
    rw [lower.position_after lower' lower''] at fits'
    have front := (firstError_of_append ih).trans ih'
    refine (firstError_of_append front).trans ?_
    rw [firstError_jump fits]
    exact (firstError_of_append ih'').trans (firstError_jump fits' [])
  | define lower fits ih =>
    rw [lower.count_behind] at fits
    refine (firstError_of_append ih).trans ?_
    simp [firstError, error?, fits]
  | kept _ ih => exact firstError_of_append ih
  | boolean | done | valueless | absent => rfl

/-- The demands in front of the first jump to be written in a conditional. -/
theorem Lowers.demands_front {condition : Expr} {consequence : List Stmt}
    {whenTrue : List Instr} (lowers : Lowers (.expr condition) p code q)
    (lowers' : Lowers (.branch consequence) (q.advance 3) whenTrue r) :
    firstError (condition.demands p.outline ++
      Stmt.demandsAll consequence (p.outline.whenTrue condition)) = none := by
  have inside := lowers'.demands_met
  rw [lowers.outline_whenTrue] at inside
  exact (firstError_of_append lowers.demands_met).trans inside

/-- What is refused is refused for the first demand that is not met. -/
theorem Refused.demand_unmet (refused : Refused f p e q) :
    firstError (f.demands p.outline) = some e := by
  induction refused with
  | @integer p _ full | @text p _ full =>
    have wide : ¬ p.outline.constants < 65536 := Nat.not_lt.mpr full
    simp [firstError, Fragment.demands, Expr.demands, error?, wide]
    rfl
  | @undefined p name unbound =>
    have here : p.outline.slots.find? name = none := unbound
    simp [firstError, Fragment.demands, Expr.demands, error?, here]
  | @unreachable p name slot found wide =>
    have here : p.outline.slots.find? name = some slot := found
    simp [firstError, Fragment.demands, Expr.demands, error?, here, Nat.not_lt.mpr wide]
  | unary _ ih | dropped _ ih | branch _ ih | present _ ih => exact ih
  | value _ ih => exact firstError_of_left ih
  | left notLess _ ih =>
    rw [Fragment.demands, Expr.demands_binary notLess]
    exact firstError_of_left ih
  | right notLess lower _ ih =>
    rw [lower.outline_eq] at ih
    rw [Fragment.demands, Expr.demands_binary notLess]
    exact (firstError_of_append lower.demands_met).trans ih
  | lessRight _ ih | first _ ih => exact firstError_of_left ih
  | lessLeft lower _ ih | later lower _ ih =>
    rw [lower.outline_eq] at ih
    exact (firstError_of_append lower.demands_met).trans ih
  | condition _ ih => exact firstError_of_left (firstError_of_left ih)
  | consequence lower _ ih =>
    rw [lower.outline_whenTrue] at ih
    exact firstError_of_left ((firstError_of_append lower.demands_met).trans ih)
  | otherwise lower lower' wide =>
    rw [lower.position_whenFalse lower'] at wide ⊢
    exact (firstError_of_append (lower.demands_front lower')).trans (firstError_wideJump wide _)
  | alternative lower lower' fits _ ih =>
    rw [lower.position_whenFalse lower'] at fits
    rw [lower.outline_whenFalse lower'] at ih
    refine (firstError_of_append (lower.demands_front lower')).trans ?_
    rw [firstError_jump fits]
    exact firstError_of_left ih
  | after lower lower' fits lower'' wide =>
    have met := lower''.demands_met
    rw [lower.outline_whenFalse lower'] at met
    rw [lower.position_whenFalse lower'] at fits
    rw [lower.position_after lower' lower''] at wide ⊢
    refine (firstError_of_append (lower.demands_front lower')).trans ?_
    rw [firstError_jump fits]
    exact (firstError_of_append met).trans (firstError_wideJump wide [])
  | @unsupported p e none =>
    cases e with
    | function | call | array | index => rfl
    | _ => cases none
  | slot lower full =>
    rw [lower.count_behind] at full ⊢
    refine (firstError_of_append lower.demands_met).trans ?_
    simp [firstError, error?, Nat.not_lt.mpr full]
  | «return» => rfl

end Compiled

/-! ## Jumps of a layout -/

section Jumps

variable {code : List Instr} {target : Nat}

/-- The places that a layout jumps to. -/
def WideInstr.targets (code : List WideInstr) : List Nat := code.filterMap target?

theorem WideInstr.targets_append (code code' : List WideInstr) :
    targets (code ++ code') = targets code ++ targets code' := List.filterMap_append

/-- The jumps of compiled code lead to places that have 16 bits. -/
theorem Instr.target_lt (member : target ∈ WideInstr.targets (code.map Instr.widened)) :
    target < 65536 := by
  obtain ⟨wide, inCode, found⟩ := List.mem_filterMap.mp member
  obtain ⟨i, _, rfl⟩ := List.mem_map.mp inCode
  cases i with
  | jump word | jumpNotTruthy word =>
    cases found
    exact word.toNat_lt
  | _ => cases found

theorem UnaryOp.targets_instr (op : UnaryOp) : WideInstr.targets [op.instr.widened] = [] := by
  cases op <;> rfl

theorem BinaryOp.targets_instr (op : BinaryOp) : WideInstr.targets [op.instr.widened] = [] := by
  cases op <;> rfl

/-- Of the two jumps of a conditional the first one is written in front of its target, and
the second one stands in front of the second block. -/
theorem perm_jumps (test first second : List Nat) (otherwise after : Nat) :
    (test ++ [otherwise] ++ first ++ [after] ++ second).Perm
      (test ++ first ++ otherwise :: (second ++ [after])) := by
  refine List.perm_iff_count.mpr fun target => ?_
  simp only [List.count_append, List.count_cons, List.count_nil]
  omega

end Jumps

open WideInstr in
mutual

/-- A layout jumps to the places that are told from the syntax tree. -/
theorem Expr.targets_laidOut : (e : Expr) → (o : Outline) → e.Supported →
    (targets (e.laidOut o)).Perm (e.targets o.position)
  | .integer _, _, _ | .text _, _, _ | .name _, _, _ => .refl _
  | .boolean value, _, _ => by cases value <;> exact .refl _
  | .unary op operand, o, supported => by
    rw [Expr.laidOut, targets_append, op.targets_instr, List.append_nil]
    exact operand.targets_laidOut o supported
  | .binary op left right, o, ⟨supported, supported'⟩ => by
    rw [Expr.laidOut, Expr.targets]
    split
    · rw [targets_append, targets_append, op.targets_instr, List.append_nil]
      exact (right.targets_laidOut o supported').append (left.targets_laidOut _ supported)
    · rw [targets_append, targets_append, op.targets_instr, List.append_nil]
      exact (left.targets_laidOut o supported).append (right.targets_laidOut _ supported')
  | .conditional condition consequence alternative, o, ⟨supported, supported', supported''⟩ => by
    have test := condition.targets_laidOut o supported
    have first := Stmt.targets_laidOutBranch consequence (o.whenTrue condition) supported'
    have second := Stmt.targets_laidOutAlternative alternative (o.whenFalse condition consequence)
      supported''
    simp only [Expr.laidOut, targets_append]
    exact ((((test.append_right _).append first).append_right _).append second).trans
      (perm_jumps ..)
  | .function .., _, supported | .call .., _, supported | .array _, _, supported
  | .index .., _, supported => supported.elim

theorem Stmt.targets_laidOut : (s : Stmt) → (o : Outline) → s.Supported →
    (targets (s.laidOut o)).Perm (s.targets o.position)
  | .define _ value, o, supported => by
    rw [Stmt.laidOut, targets_append]
    exact (List.append_nil _).symm ▸ value.targets_laidOut o supported
  | .expr value, o, supported => by
    rw [Stmt.laidOut, targets_append]
    exact (List.append_nil _).symm ▸ value.targets_laidOut o supported
  | .return _, _, supported => supported.elim

theorem Stmt.targets_laidOutAll : (block : List Stmt) → (o : Outline) →
    Stmt.SupportedAll block →
      (targets (Stmt.laidOutAll block o)).Perm (Stmt.targetsAll block o.position)
  | [], _, _ => .refl _
  | s :: rest, o, ⟨supported, supported'⟩ => by
    rw [Stmt.laidOutAll, targets_append]
    exact (s.targets_laidOut o supported).append (Stmt.targets_laidOutAll rest _ supported')

theorem Stmt.targets_laidOutBranch : (block : List Stmt) → (o : Outline) →
    Stmt.SupportedAll block →
      (targets (Stmt.laidOutBranch block o)).Perm (Stmt.targetsAll block o.position)
  | [], _, _ => .refl _
  | s :: rest, o, ⟨supported, supported'⟩ => by
    have head := s.targets_laidOut o supported
    by_cases inner : rest = [] → ¬ s.IsExpr
    · rw [Stmt.laidOutBranch_cons inner, targets_append]
      exact head.append (Stmt.targets_laidOutBranch rest _ supported')
    · simp only [Classical.not_imp, not_not] at inner
      obtain ⟨rfl, value, rfl⟩ := inner
      rw [Stmt.laidOut, targets_append] at head
      change (targets (value.laidOut o) ++ []).Perm _ at head
      rw [List.append_nil] at head
      rw [Stmt.laidOutBranch, Stmt.targetsAll, Stmt.targetsAll, List.append_nil]
      exact head

theorem Stmt.targets_laidOutAlternative : (alternative : Option (List Stmt)) → (o : Outline) →
    Stmt.SupportedAlternative alternative →
      (targets (Stmt.laidOutAlternative alternative o)).Perm
        (Stmt.targetsAlternative alternative o.position)
  | none, _, _ => .refl _
  | some block, o, supported => Stmt.targets_laidOutBranch block o supported

end

/-! ## Demands of supported programs -/

/-- The demands on names are those of the mentions, in the same order, and there is code
for everything. -/
inductive Traces : Slots → List Mention → List Demand → Prop
  | nil {slots : Slots} : Traces slots [] []
  | use {slots : Slots} {name : String} {ms : List Mention} {ds : List Demand} :
    Traces slots ms ds → Traces slots (.use name :: ms) (.use name (slots.find? name) :: ds)
  | define {slots : Slots} {name : String} {ms : List Mention} {ds : List Demand} :
    Traces (slots.define name) ms ds →
    Traces slots (.define name :: ms) (.slot slots.count :: ds)
  | constant {slots : Slots} {index : Nat} {ms : List Mention} {ds : List Demand} :
    Traces slots ms ds → Traces slots ms (.constant index :: ds)
  | jump {slots : Slots} {op : Opcode} {target : Nat} {ms : List Mention} {ds : List Demand} :
    op = .jumpNotTruthy ∨ op = .jump → Traces slots ms ds → Traces slots ms (.jump op target :: ds)

theorem Traces.append {slots : Slots} {ms ns : List Mention} {ds es : List Demand}
    (first : Traces slots ms ds) (second : Traces (slots.behind ms) ns es) :
    Traces slots (ms ++ ns) (ds ++ es) := by
  induction first with
  | nil => exact second
  | use _ ih => exact .use (ih second)
  | define _ ih => exact .define (ih second)
  | constant _ ih => exact .constant (ih second)
  | jump isJump _ ih => exact .jump isJump (ih second)

theorem Traces.concat_jump {slots : Slots} {op : Opcode} {ms : List Mention} {ds : List Demand}
    (traces : Traces slots ms ds) (isJump : op = .jumpNotTruthy ∨ op = .jump) (target : Nat) :
    Traces slots ms (ds ++ [.jump op target]) := by
  have whole : Traces slots (ms ++ []) (ds ++ [.jump op target]) :=
    traces.append (.jump isJump .nil)
  rwa [List.append_nil] at whole

mutual

theorem Expr.traces : (e : Expr) → (o : Outline) → e.Supported →
    Traces o.slots (e.mentions .compiled) (e.demands o)
  | .integer _, _, _ | .text _, _, _ => .constant .nil
  | .name _, _, _ => .use .nil
  | .boolean _, _, _ => .nil
  | .unary _ operand, o, supported => operand.traces o supported
  | .binary op left right, o, ⟨supported, supported'⟩ => by
    by_cases isLess : op = .less
    · subst isLess
      exact (right.traces o supported').append (left.traces (o.behind (.expr right)) supported)
    · rw [Expr.mentions_binary isLess, Expr.demands_binary isLess]
      exact (left.traces o supported).append (right.traces (o.behind (.expr left)) supported')
  | .conditional condition consequence alternative, o, ⟨supported, supported', supported''⟩ => by
    have test := condition.traces o supported
    have first := Stmt.tracesAll consequence (o.whenTrue condition) supported'
    have second := Stmt.tracesAlternative alternative (o.whenFalse condition consequence)
      supported''
    rw [Expr.demands, List.append_assoc]
    exact test.append (first.append (.jump (.inl rfl) (second.concat_jump (.inr rfl) _)))
  | .function .., _, supported | .call .., _, supported | .array _, _, supported
  | .index .., _, supported => supported.elim

theorem Stmt.traces : (s : Stmt) → (o : Outline) → s.Supported →
    Traces o.slots (s.mentions .compiled) (s.demands o)
  | .define _ value, o, supported => (value.traces o supported).append (.define .nil)
  | .expr value, o, supported => value.traces o supported
  | .return _, _, supported => supported.elim

theorem Stmt.tracesAll : (block : List Stmt) → (o : Outline) → Stmt.SupportedAll block →
    Traces o.slots (Stmt.mentionsAll .compiled block) (Stmt.demandsAll block o)
  | [], _, _ => .nil
  | s :: rest, o, ⟨supported, supported'⟩ =>
    (s.traces o supported).append (Stmt.tracesAll rest (o.behind (.stmt s)) supported')

theorem Stmt.tracesAlternative : (alternative : Option (List Stmt)) → (o : Outline) →
    Stmt.SupportedAlternative alternative →
      Traces o.slots (Stmt.mentionsAlternative .compiled alternative)
        (Stmt.demandsAlternative alternative o)
  | none, _, _ => .nil
  | some block, o, supported => Stmt.tracesAll block o supported

end

/-- The error for a number that has no 16 bits: that of a constant, of a slot or of the
target of a jump. -/
inductive CompileError.OfLimit : CompileError → Prop
  | constants {count : Nat} : OfLimit (.tooManyConstants count)
  | globals {slot : Nat} : OfLimit (.tooManyGlobals slot)
  | jump {op : Opcode} {target : Nat} :
    op = .jumpNotTruthy ∨ op = .jump → OfLimit (.encode (.operandOutOfRange op target 2))

theorem Slots.Unbound.cons {slots : Slots} {ms : List Mention} {name : String} (mention : Mention)
    (unbound : (slots.behind [mention]).Unbound ms name) : slots.Unbound (mention :: ms) name := by
  obtain ⟨front, back, rfl, none⟩ := unbound
  refine ⟨mention :: front, back, rfl, ?_⟩
  rw [← Slots.behind_append] at none
  exact none

open Demand in
/-- If all names have slots, only a number can be too large, and it is never that of a slot
to be read: the slot has been numbered before. -/
theorem Traces.ofLimit {slots : Slots} {ms : List Mention} {ds : List Demand} {e : CompileError}
    (traces : Traces slots ms ds) (bound : ∀ name, ¬ slots.Unbound ms name)
    (room : slots.count ≤ 65536) (unmet : firstError ds = some e) : e.OfLimit := by
  induction traces with
  | nil => cases unmet
  | @use slots name ms ds _ ih =>
    have bound' : ∀ other, ¬ slots.Unbound ms other := fun other unbound =>
      bound other (.cons (.use name) unbound)
    cases found : slots.find? name with
    | none => exact (bound name ⟨[], ms, rfl, found⟩).elim
    | some slot =>
      have fits : slot < 65536 := Nat.lt_of_lt_of_le (Slots.lt_count found) room
      refine ih bound' room ?_
      simpa [firstError, error?, found, fits] using unmet
  | @define slots name ms ds _ ih =>
    by_cases fits : slots.count < 65536
    · refine ih (fun other unbound => bound other (.cons (.define name) unbound)) fits ?_
      simpa [firstError, error?, fits] using unmet
    · obtain rfl : CompileError.tooManyGlobals slots.count = e := by
        simpa [firstError, error?, fits] using unmet
      exact .globals
  | @constant slots index ms ds _ ih =>
    by_cases fits : index < 65536
    · exact ih bound room (by simpa [firstError, error?, fits] using unmet)
    · obtain rfl : CompileError.tooManyConstants index = e := by
        simpa [firstError, error?, fits] using unmet
      exact .constants
  | @jump slots op target ms ds isJump _ ih =>
    by_cases fits : target < 65536
    · exact ih bound room (firstError_jump fits ds ▸ unmet)
    · cases (firstError_wideJump (Nat.le_of_not_lt fits) ds).symm.trans unmet
      exact .jump isJump

/-! ## Programs -/

/-- Where the layout of a program starts. -/
def Env.outline (env : Env) : Outline := ⟨env.slots, env.constants.size, 0⟩

namespace Program

variable {program : Program} {env : Env}

open Demand in
/-- A program is refused exactly for its first demand that is not met. -/
theorem compile_error_iff {e : CompileError} : program.compile env = .error e ↔
    firstError (Stmt.demandsAll program env.outline) = some e := by
  constructor
  · intro failed
    obtain ⟨q, refused⟩ := program.refused failed
    exact refused.demand_unmet
  · intro unmet
    cases outcome : program.compile env with
    | error e' =>
      obtain ⟨q, refused⟩ := program.refused outcome
      cases unmet.symm.trans refused.demand_unmet
      rfl
    | ok result =>
      obtain ⟨code, q, lowers, _⟩ := program.lowers outcome
      cases unmet.symm.trans lowers.demands_met

/-- The limits of 16 bits are exact. Let there be code for all parts of a program, and a
definition in front of each use of a name. Then the program is compiled exactly if its
constants, its slots and the targets of its jumps, laid out without limits, all have 16
bits. Its code has the operands of that layout, and what is refused is refused for the first
number that is too large. -/
theorem compile_limits (supported : Stmt.SupportedAll program)
    (defined : ∀ name before, (name, before) ∈ program.occurrences .compiled →
      name ∈ before ∨ (env.slots.find? name).isSome)
    (constants : env.constants.size ≤ 65536) (slots : env.slots.count ≤ 65536) :
    ((∃ b env', program.compile env = .ok (b, env')) ↔
      env.constants.size + Stmt.literalsAll program ≤ 65536 ∧
      env.slots.count + (Mention.definitions (Stmt.mentionsAll .compiled program)).length ≤ 65536 ∧
      ∀ i ∈ Stmt.laidOutAll program env.outline, ∀ target, i.target? = some target →
        target ≤ 65535) ∧
    (∀ b env', program.compile env = .ok (b, env') →
      ∃ code : List Instr, b.code.entries.map Prod.snd = code.map Entry.instr ∧
        code.map Instr.widened = Stmt.laidOutAll program env.outline) ∧
    ∀ e, program.compile env = .error e →
      Demand.firstError (Stmt.demandsAll program env.outline) = some e ∧ e.OfLimit := by
  have bound : ∀ name, ¬ env.slots.Unbound (Stmt.mentionsAll .compiled program) name := by
    rintro name ⟨front, back, split, none⟩
    rw [Slots.behind, Slots.find?_foldl_eq_none] at none
    rcases defined name _ (Mention.mem_occurrences.mpr ⟨front, back, split, rfl⟩) with inFront | old
    · exact none.2 inFront
    · rw [none.1] at old
      cases old
  have decodes : ∀ b env', program.compile env = .ok (b, env') →
      ∃ code : List Instr, b.code.entries.map Prod.snd = code.map Entry.instr ∧
        code.map Instr.widened = Stmt.laidOutAll program env.outline := by
    intro b env' compiled
    obtain ⟨code, q, lowers, bytes, _⟩ := program.lowers compiled
    exact ⟨code, Code.entries_eq bytes, lowers.laidOut_eq⟩
  refine ⟨⟨?_, ?_⟩, decodes, fun e failed => ?_⟩
  · rintro ⟨b, env', compiled⟩
    obtain ⟨code, q, lowers, _⟩ := program.lowers compiled
    have needed := lowers.needed
    refine ⟨needed.constants ▸ lowers.constants_room constants, ?_, fun i member target found => ?_⟩
    · have count := lowers.slots_room slots
      rw [needed.slots, Slots.count_behind] at count
      exact count
    · have laidOut : code.map Instr.widened = Stmt.laidOutAll program env.outline :=
        lowers.laidOut_eq
      rw [← laidOut] at member
      exact Nat.le_of_lt_succ (Instr.target_lt (List.mem_filterMap.mpr ⟨i, member, found⟩))
  · rintro ⟨literals, definitions, jumps⟩
    have within : Fragment.Within (.block program) ⟨env, 0⟩ := by
      refine ⟨literals, definitions, fun target member => ?_⟩
      have places := Stmt.targets_laidOutAll program env.outline supported
      obtain ⟨i, inCode, found⟩ := List.mem_filterMap.mp (places.mem_iff.mpr member)
      exact Nat.lt_succ_of_le (jumps i inCode target found)
    cases outcome : program.compile env with
    | ok result => exact ⟨result.1, result.2, rfl⟩
    | error e =>
      obtain ⟨q, refused⟩ := program.refused outcome
      obtain ⟨name, _, unbound⟩ := refused.unbound supported within
      exact (bound name unbound).elim
  · have unmet := compile_error_iff.mp failed
    exact ⟨unmet, (Stmt.tracesAll program env.outline supported).ofLimit bound slots unmet⟩

/-- Where all constants but one are taken, there is room for one literal and none for a second
one. -/
theorem compile_limits_lastConstant :
    ∃ constants : Array Value, constants.size = 65535 ∧
      (∃ b env, Program.compile [.expr (.integer 1)] ⟨.empty, constants⟩ = .ok (b, env)) ∧
      Program.compile [.expr (.binary .add (.integer 1) (.integer 2))] ⟨.empty, constants⟩ =
        .error (.tooManyConstants 65536) := by
  obtain ⟨constants, size⟩ : ∃ constants : Array Value, constants.size = 65535 :=
    ⟨.replicate 65535 .null, Array.size_replicate ..⟩
  have room : (⟨.empty, constants⟩ : Env).constants.size ≤ 65536 := by
    rw [size]
    decide
  have one : Stmt.SupportedAll [.expr (.integer 1)] := ⟨trivial, trivial⟩
  have two : Stmt.SupportedAll [.expr (.binary .add (.integer 1) (.integer 2))] :=
    ⟨⟨trivial, trivial⟩, trivial⟩
  refine ⟨constants, size, ?_, ?_⟩
  · refine (compile_limits one (fun _ _ member => by cases member) room (Nat.zero_le _)).1.mpr
      ⟨?_, Nat.zero_le _, ?_⟩
    · rw [size]
      decide
    · intro i member target found
      rcases List.mem_pair.mp member with rfl | rfl <;> cases found
  · obtain ⟨fits, _, refused⟩ :=
      compile_limits two (fun _ _ member => by cases member) room (Nat.zero_le _)
    cases outcome : Program.compile [.expr (.binary .add (.integer 1) (.integer 2))]
        ⟨.empty, constants⟩ with
    | ok result =>
      have total := (fits.mp ⟨result.1, result.2, outcome⟩).1
      rw [size] at total
      exact absurd total (by decide)
    | error e =>
      have unmet := (refused e outcome).1
      have demands : Stmt.demandsAll [.expr (.binary .add (.integer 1) (.integer 2))]
          (⟨.empty, constants⟩ : Env).outline = [.constant 65535, .constant 65536] := by
        simp [Stmt.demandsAll, Stmt.demands, Expr.demands, Env.outline, Outline.behind, size,
          Fragment.literals, Expr.literals]
      rw [demands] at unmet
      cases unmet
      rfl

end Program

end Stacklet
