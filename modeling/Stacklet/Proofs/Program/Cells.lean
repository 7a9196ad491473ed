import Stacklet.Proofs.Program.Evaluation

/-!
# The stack cells that an evaluation takes

`peak` is the largest number of values that are kept at once while a part of a program
is evaluated: those of operands that wait for the other operand, and the one that is
being computed. It follows the evaluation, so a block that is left out takes nothing,
and nothing is taken behind a failure. There is never more than one cell for each node
of the tree (`Expr.peak_le_nodes`), and often far less.
-/

namespace Stacklet

/-- The cells for one computation and another behind it, given how the first has ended. -/
def peakThen (first : Nat) (second : Value → Array Value → Nat) :
    EStateM.Result Failure (Array Value) Value → Nat
  | .ok value globals => max first (second value globals)
  | .error .. => first

section PeakThen

variable {first limit : Nat} {second : Value → Array Value → Nat}
  {result : EStateM.Result Failure (Array Value) Value}

theorem first_le_peakThen : first ≤ peakThen first second result := by
  cases result with
  | ok value globals => exact Nat.le_max_left ..
  | error _ _ => exact Nat.le_refl _

theorem second_le_peakThen {value : Value} {globals : Array Value}
    (computed : result = .ok value globals) :
    second value globals ≤ peakThen first second result := by
  rw [computed]
  exact Nat.le_max_right ..

/-- Room for both computations is room for each of them. -/
theorem peakThen_room {top size : Nat} (room : top + peakThen first second result ≤ size) :
    top + first ≤ size ∧
      ∀ value globals, result = .ok value globals → top + second value globals ≤ size := by
  constructor
  · exact Nat.le_trans (Nat.add_le_add_left first_le_peakThen _) room
  · intro value globals computed
    exact Nat.le_trans (Nat.add_le_add_left (second_le_peakThen computed) _) room

theorem peakThen_le (within : first ≤ limit)
    (within' : ∀ value globals, result = .ok value globals → second value globals ≤ limit) :
    peakThen first second result ≤ limit := by
  cases computed : result with
  | ok value globals => exact Nat.max_le.mpr ⟨within, within' value globals computed⟩
  | error _ _ => exact within

end PeakThen

mutual

/-- The cells that are taken by an expression. The first operand waits for the second
one, in the order in which they are evaluated. -/
def Expr.peak : Expr → Slots → Array Value → Nat
  | .unary _ operand, slots, globals => operand.peak slots globals
  | .binary op left right, slots, globals =>
    if op = .less then
      peakThen (right.peak slots globals)
        (fun _ globals => left.peak (right.scope slots) globals + 1) (right.eval slots globals)
    else
      peakThen (left.peak slots globals)
        (fun _ globals => right.peak (left.scope slots) globals + 1) (left.eval slots globals)
  | .conditional condition consequence alternative, slots, globals =>
    peakThen (condition.peak slots globals)
      (fun test globals =>
        if test.isTruthy then Stmt.peakAll consequence (condition.scope slots) globals
        else Stmt.peakAlternative alternative
          (Stmt.scopeAll consequence (condition.scope slots)) globals)
      (condition.eval slots globals)
  | _, _, _ => 1

/-- The cells that are taken by a statement. -/
def Stmt.peak : Stmt → Slots → Array Value → Nat
  | .define _ value, slots, globals | .return value, slots, globals
  | .expr value, slots, globals => value.peak slots globals

/-- The cells that are taken by a block. Between its statements none is. -/
def Stmt.peakAll : List Stmt → Slots → Array Value → Nat
  | [], _, _ => 0
  | s :: rest, slots, globals =>
    peakThen (s.peak slots globals) (fun _ globals => Stmt.peakAll rest (s.scope slots) globals)
      (s.eval slots globals)

/-- The cells that are taken by the second block of a conditional, at least the one for
the value that it yields. -/
def Stmt.peakAlternative : Option (List Stmt) → Slots → Array Value → Nat
  | none, _, _ => 1
  | some block, slots, globals => max 1 (Stmt.peakAll block slots globals)

end

/-- The cells that are taken by a program. -/
def Program.peak (program : Program) (slots : Slots) (globals : Array Value) : Nat :=
  Stmt.peakAll program slots globals

theorem Expr.peak_pos : (e : Expr) → (slots : Slots) → (globals : Array Value) →
    0 < e.peak slots globals
  | .unary _ operand, slots, globals => operand.peak_pos slots globals
  | .binary op left right, slots, globals => by
    rw [Expr.peak]
    split
    · exact Nat.lt_of_lt_of_le (right.peak_pos slots globals) first_le_peakThen
    · exact Nat.lt_of_lt_of_le (left.peak_pos slots globals) first_le_peakThen
  | .conditional condition _ _, slots, globals =>
    Nat.lt_of_lt_of_le (condition.peak_pos slots globals) first_le_peakThen
  | .name _, _, _ | .integer _, _, _ | .text _, _, _ | .boolean _, _, _ => Nat.one_pos
  | .function .., _, _ | .call .., _, _ | .array _, _, _ | .index .., _, _ => Nat.one_pos

mutual

/-- A cell for each node is enough. -/
theorem Expr.peak_le_nodes : (e : Expr) → (slots : Slots) → (globals : Array Value) →
    e.peak slots globals ≤ e.nodes
  | .unary _ operand, slots, globals => Nat.le_succ_of_le (operand.peak_le_nodes slots globals)
  | .binary op left right, slots, globals => by
    have inLeft := left.peak_le_nodes
    have inRight := right.peak_le_nodes
    have some := left.nodes_pos
    rw [Expr.peak, Expr.nodes]
    split
    · apply peakThen_le (Nat.le_trans (inRight slots globals) (by omega))
      intro _ globals' _
      have waits := inLeft (right.scope slots) globals'
      omega
    · apply peakThen_le (Nat.le_trans (inLeft slots globals) (by omega))
      intro _ globals' _
      have waits := inRight (left.scope slots) globals'
      omega
  | .conditional condition consequence alternative, slots, globals => by
    rw [Expr.peak, Expr.nodes]
    apply peakThen_le (Nat.le_trans (condition.peak_le_nodes slots globals) (by omega))
    intro test globals' _
    split
    · have taken := Stmt.peakAll_le_nodes consequence (condition.scope slots) globals'
      omega
    · have taken := Stmt.peakAlternative_le_nodes alternative
        (Stmt.scopeAll consequence (condition.scope slots)) globals'
      omega
  | .name _, _, _ | .integer _, _, _ | .text _, _, _ | .boolean _, _, _ => Nat.le_refl _
  | .function .., _, _ | .call .., _, _ | .array _, _, _ | .index .., _, _ =>
    Nat.le_add_left ..

theorem Stmt.peak_le_nodes : (s : Stmt) → (slots : Slots) → (globals : Array Value) →
    s.peak slots globals ≤ s.nodes
  | .define _ value, slots, globals | .return value, slots, globals
  | .expr value, slots, globals => Nat.le_succ_of_le (value.peak_le_nodes slots globals)

theorem Stmt.peakAll_le_nodes : (block : List Stmt) → (slots : Slots) →
    (globals : Array Value) → Stmt.peakAll block slots globals ≤ Stmt.nodesAll block
  | [], _, _ => Nat.le_refl _
  | s :: rest, slots, globals => by
    rw [Stmt.peakAll, Stmt.nodesAll]
    apply peakThen_le (Nat.le_trans (s.peak_le_nodes slots globals) (by omega))
    intro _ globals' _
    have taken := Stmt.peakAll_le_nodes rest (s.scope slots) globals'
    omega

theorem Stmt.peakAlternative_le_nodes : (alternative : Option (List Stmt)) → (slots : Slots) →
    (globals : Array Value) →
    Stmt.peakAlternative alternative slots globals ≤ Stmt.nodesAlternative alternative + 1
  | none, _, _ => Nat.le_refl _
  | some block, slots, globals => by
    have taken := Stmt.peakAll_le_nodes block slots globals
    rw [Stmt.peakAlternative, Stmt.nodesAlternative]
    omega

end

end Stacklet
