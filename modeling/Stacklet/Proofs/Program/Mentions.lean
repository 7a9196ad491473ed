import Stacklet.Proofs.Program.Evaluation

/-!
# Where names are used and defined

`mentions` lists the uses and the definitions of names in a part of a program, a
definition behind its value. There are two orders. As written, the operands of an
operator stand as they do in the text. As compiled, the right operand of "less"
comes first. The orders differ in more than the places of uses only where an
operand of "less" defines a name (`Expr.mentions_alike`).
-/

namespace Stacklet

/-- What a part of a program does with a name. -/
inductive Mention
  | use (name : String)
  | define (name : String)
  deriving DecidableEq

/-- The order in which the operands of operators are taken. -/
inductive Order
  | written | compiled
  deriving DecidableEq

/-- Whether the right operand comes first. -/
def Order.swaps : Order → BinaryOp → Bool
  | .compiled, .less => true
  | _, _ => false

theorem Order.swaps_compiled {op : BinaryOp} (notLess : op ≠ .less) :
    Order.compiled.swaps op = false := by
  cases op with
  | less => exact (notLess rfl).elim
  | _ => rfl

mutual

/-- The mentions of names in an expression. -/
def Expr.mentions (order : Order) : Expr → List Mention
  | .name name => [.use name]
  | .unary _ operand => operand.mentions order
  | .binary op left right =>
    if order.swaps op then right.mentions order ++ left.mentions order
    else left.mentions order ++ right.mentions order
  | .conditional condition consequence alternative =>
    condition.mentions order ++
      (Stmt.mentionsAll order consequence ++ Stmt.mentionsAlternative order alternative)
  | _ => []

/-- The mentions of names in a statement. -/
def Stmt.mentions (order : Order) : Stmt → List Mention
  | .define name value => value.mentions order ++ [.define name]
  | .return value | .expr value => value.mentions order

/-- The mentions of names in a block. -/
def Stmt.mentionsAll (order : Order) : List Stmt → List Mention
  | [] => []
  | s :: rest => s.mentions order ++ Stmt.mentionsAll order rest

/-- The mentions of names in the second block of a conditional, if there is one. -/
def Stmt.mentionsAlternative (order : Order) : Option (List Stmt) → List Mention
  | none => []
  | some block => Stmt.mentionsAll order block

end

theorem Expr.mentions_binary {op : BinaryOp} (notLess : op ≠ .less) (left right : Expr) :
    (Expr.binary op left right).mentions .compiled =
      left.mentions .compiled ++ right.mentions .compiled := by
  rw [Expr.mentions, Order.swaps_compiled notLess]
  rfl

namespace Mention

/-- The name that is defined, if one is. -/
def defined? : Mention → Option String
  | .use _ => none
  | .define name => some name

/-- The names that are defined, in order. -/
def definitions (mentions : List Mention) : List String := mentions.filterMap defined?

/-- The uses of names, each with the names that are defined in front of it. -/
def occurrences : List Mention → (before : List String) → List (String × List String)
  | [], _ => []
  | .use name :: rest, before => (name, before) :: occurrences rest before
  | .define name :: rest, before => occurrences rest (before ++ [name])

@[simp] theorem definitions_append (ms ns : List Mention) :
    definitions (ms ++ ns) = definitions ms ++ definitions ns :=
  List.filterMap_append

theorem occurrences_append (ms ns : List Mention) (before : List String) :
    occurrences (ms ++ ns) before =
      occurrences ms before ++ occurrences ns (before ++ definitions ms) := by
  induction ms generalizing before with
  | nil => simp [occurrences, definitions]
  | cons mention ms ih =>
    cases mention with
    | use name => exact congrArg ((name, before) :: ·) (ih before)
    | define name =>
      change occurrences (ms ++ ns) (before ++ [name]) = _
      rw [ih, List.append_assoc]
      rfl

end Mention

/-! ## Scopes -/

/-- The slots behind some mentions of names. -/
def Slots.behind (slots : Slots) (mentions : List Mention) : Slots :=
  (Mention.definitions mentions).foldl Slots.define slots

theorem Slots.behind_append (slots : Slots) (ms ns : List Mention) :
    slots.behind (ms ++ ns) = (slots.behind ms).behind ns := by
  simp [Slots.behind]

mutual

theorem Expr.scope_eq : (e : Expr) → (slots : Slots) →
    e.scope slots = slots.behind (e.mentions .compiled)
  | .unary _ operand, slots => operand.scope_eq slots
  | .binary op left right, slots => by
    rw [Expr.scope]
    by_cases isLess : op = .less
    · subst isLess
      rw [if_pos rfl, right.scope_eq, left.scope_eq]
      exact (Slots.behind_append ..).symm
    · rw [Expr.mentions_binary isLess, if_neg isLess, left.scope_eq,
        right.scope_eq, Slots.behind_append]
  | .conditional condition consequence alternative, slots => by
    rw [Expr.scope, Expr.mentions, Slots.behind_append, Slots.behind_append, condition.scope_eq,
      Stmt.scopeAll_eq, Stmt.scopeAlternative_eq]
  | .name _, _ | .integer _, _ | .text _, _ | .boolean _, _ => rfl
  | .function .., _ | .call .., _ | .array _, _ | .index .., _ => rfl

theorem Stmt.scope_eq : (s : Stmt) → (slots : Slots) →
    s.scope slots = slots.behind (s.mentions .compiled)
  | .define name value, slots => by
    rw [Stmt.scope, Stmt.mentions, Slots.behind_append, value.scope_eq]
    rfl
  | .return value, slots | .expr value, slots => value.scope_eq slots

theorem Stmt.scopeAll_eq : (block : List Stmt) → (slots : Slots) →
    Stmt.scopeAll block slots = slots.behind (Stmt.mentionsAll .compiled block)
  | [], _ => rfl
  | s :: rest, slots => by
    rw [Stmt.scopeAll, Stmt.mentionsAll, Slots.behind_append, s.scope_eq, Stmt.scopeAll_eq]

theorem Stmt.scopeAlternative_eq : (alternative : Option (List Stmt)) → (slots : Slots) →
    Stmt.scopeAlternative alternative slots =
      slots.behind (Stmt.mentionsAlternative .compiled alternative)
  | none, _ => rfl
  | some block, slots => Stmt.scopeAll_eq block slots

end

/-! ## The two orders -/

mutual

/-- No operand of "less" in the expression defines a name. -/
def Expr.Quiet : Expr → Prop
  | .unary _ operand => operand.Quiet
  | .binary op left right =>
    left.Quiet ∧ right.Quiet ∧ (op = .less →
      Mention.definitions (left.mentions .written) = [] ∧
        Mention.definitions (right.mentions .written) = [])
  | .conditional condition consequence alternative =>
    condition.Quiet ∧ Stmt.QuietAll consequence ∧ Stmt.QuietAlternative alternative
  | _ => True

/-- No operand of "less" in the statement defines a name. -/
def Stmt.Quiet : Stmt → Prop
  | .define _ value | .return value | .expr value => value.Quiet

/-- No operand of "less" in the block defines a name. -/
def Stmt.QuietAll : List Stmt → Prop
  | [] => True
  | s :: rest => s.Quiet ∧ Stmt.QuietAll rest

/-- No operand of "less" in the second block of a conditional defines a name. -/
def Stmt.QuietAlternative : Option (List Stmt) → Prop
  | none => True
  | some block => Stmt.QuietAll block

end

namespace Mention

/-- Two rows of mentions have the same definitions and, in some order, the same uses. -/
structure Alike (ms ns : List Mention) : Prop where
  definitions : definitions ms = definitions ns
  occurrences (before : List String) : (occurrences ms before).Perm (occurrences ns before)

namespace Alike

variable {ms ns ms' ns' : List Mention}

theorem refl (ms : List Mention) : Alike ms ms := ⟨rfl, fun _ => .refl _⟩

theorem append (first : Alike ms ns) (second : Alike ms' ns') :
    Alike (ms ++ ms') (ns ++ ns') where
  definitions := by
    rw [definitions_append, definitions_append, first.definitions, second.definitions]
  occurrences before := by
    rw [occurrences_append, occurrences_append, first.definitions]
    exact (first.occurrences before).append (second.occurrences _)

/-- Rows without definitions can be swapped. -/
theorem swap (first : Alike ms ns) (second : Alike ms' ns')
    (noFirst : Mention.definitions ms = []) (noSecond : Mention.definitions ms' = []) :
    Alike (ms ++ ms') (ns' ++ ns) where
  definitions := by
    rw [definitions_append, definitions_append, ← first.definitions, ← second.definitions,
      noFirst, noSecond]
  occurrences before := by
    rw [occurrences_append, occurrences_append, ← second.definitions, noFirst, noSecond,
      List.append_nil]
    exact List.perm_append_comm.trans ((second.occurrences before).append (first.occurrences before))

end Alike

end Mention

mutual

theorem Expr.mentions_alike : (e : Expr) → e.Quiet →
    Mention.Alike (e.mentions .written) (e.mentions .compiled)
  | .unary _ operand, quiet => operand.mentions_alike quiet
  | .binary op left right, ⟨quiet, quiet', apart⟩ => by
    have alike := left.mentions_alike quiet
    have alike' := right.mentions_alike quiet'
    by_cases isLess : op = .less
    · subst isLess
      obtain ⟨noLeft, noRight⟩ := apart rfl
      exact alike.swap alike' noLeft noRight
    · rw [Expr.mentions_binary isLess]
      exact alike.append alike'
  | .conditional condition consequence alternative, ⟨quiet, quiet', quiet''⟩ =>
    (condition.mentions_alike quiet).append ((Stmt.mentionsAll_alike consequence quiet').append
      (Stmt.mentionsAlternative_alike alternative quiet''))
  | .name _, _ | .integer _, _ | .text _, _ | .boolean _, _ => .refl _
  | .function .., _ | .call .., _ | .array _, _ | .index .., _ => .refl _

theorem Stmt.mentions_alike : (s : Stmt) → s.Quiet →
    Mention.Alike (s.mentions .written) (s.mentions .compiled)
  | .define _ value, quiet => (value.mentions_alike quiet).append (.refl _)
  | .return value, quiet | .expr value, quiet => value.mentions_alike quiet

theorem Stmt.mentionsAll_alike : (block : List Stmt) → Stmt.QuietAll block →
    Mention.Alike (Stmt.mentionsAll .written block) (Stmt.mentionsAll .compiled block)
  | [], _ => .refl _
  | s :: rest, ⟨quiet, quiet'⟩ =>
    (s.mentions_alike quiet).append (Stmt.mentionsAll_alike rest quiet')

theorem Stmt.mentionsAlternative_alike : (alternative : Option (List Stmt)) →
    Stmt.QuietAlternative alternative → Mention.Alike (Stmt.mentionsAlternative .written alternative)
      (Stmt.mentionsAlternative .compiled alternative)
  | none, _ => .refl _
  | some block, quiet => Stmt.mentionsAll_alike block quiet

end

/-- The uses of names in a program, each with the definitions in front of it. -/
def Program.occurrences (order : Order) (program : Program) : List (String × List String) :=
  Mention.occurrences (Stmt.mentionsAll order program) []

end Stacklet
