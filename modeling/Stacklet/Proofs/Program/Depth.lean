import Stacklet.Proofs.Program.Completeness

/-!
# How deep the trees of programs are

While an expression is read, the room for further ones bounds how many are open at once.
It bounds the tree in all directions but one. The left part of an operator, of a call and of
a subscript is complete before the rest of it is read, so it counts as much as the
expression itself (`Expr.nesting`).

So a way down through a program that is read, whatever faults there are, has no more than
`maxNesting` expressions on it, and one more for each step to the left (`parse_nesting`). Such
steps are not limited: a chain of operators is read as far as there are tokens for it
(`parse_onesSum`).
-/

namespace Stacklet

/-! ## Ways down -/

/-- The second expression is a part of the first one, in a block of it perhaps. It is the left
part of an operator, a call or a subscript, or another one. -/
inductive Expr.Part : Expr → (left : Bool) → Expr → Prop
  | operand {op : UnaryOp} {e : Expr} : Part (.unary op e) false e
  | left {op : BinaryOp} {l r : Expr} : Part (.binary op l r) true l
  | right {op : BinaryOp} {l r : Expr} : Part (.binary op l r) false r
  | condition {e : Expr} {ss : List Stmt} {ss? : Option (List Stmt)} :
    Part (.conditional e ss ss?) false e
  | consequence {e : Expr} {ss : List Stmt} {ss? : Option (List Stmt)} {s : Stmt} :
    s ∈ ss → Part (.conditional e ss ss?) false s.value
  | alternative {e : Expr} {ss ss' : List Stmt} {s : Stmt} :
    s ∈ ss' → Part (.conditional e ss (some ss')) false s.value
  | body {names : List String} {ss : List Stmt} {s : Stmt} :
    s ∈ ss → Part (.function names ss) false s.value
  | callee {f : Expr} {es : List Expr} : Part (.call f es) true f
  | argument {f : Expr} {es : List Expr} {e : Expr} : e ∈ es → Part (.call f es) false e
  | item {es : List Expr} {e : Expr} : e ∈ es → Part (.array es) false e
  | base {e i : Expr} : Part (.index e i) true e
  | subscript {e i : Expr} : Part (.index e i) false i

/-- A way from an expression down to some part of it, with so many expressions on it and so many
steps to the left. -/
inductive Expr.Way : Expr → (nodes steps : Nat) → Prop
  | here (e : Expr) : Way e 1 0
  | inward {e e' : Expr} {nodes steps : Nat} :
    e.Part false e' → Way e' nodes steps → Way e (nodes + 1) steps
  | leftward {e e' : Expr} {nodes steps : Nat} :
    e.Part true e' → Way e' nodes steps → Way e (nodes + 1) (steps + 1)

/-! ## Nesting -/

mutual

/-- The number of expressions on the longest way down, where a step to the left part does not
count. -/
def Expr.nesting : Expr → Nat
  | .name _ | .integer _ | .text _ | .boolean _ => 1
  | .unary _ operand => operand.nesting + 1
  | .binary _ left right => max left.nesting (right.nesting + 1)
  | .conditional condition consequence alternative =>
    max condition.nesting
      (max (Stmt.nestingAll consequence) (Stmt.nestingAlternative alternative)) + 1
  | .function _ body => Stmt.nestingAll body + 1
  | .call callee arguments => max callee.nesting (Expr.nestingAll arguments + 1)
  | .array items => Expr.nestingAll items + 1
  | .index base subscript => max base.nesting (subscript.nesting + 1)

/-- The nesting of the most deeply nested one of several expressions. -/
def Expr.nestingAll : List Expr → Nat
  | [] => 0
  | e :: rest => max e.nesting (Expr.nestingAll rest)

/-- The nesting of the expression of a statement. -/
def Stmt.nesting : Stmt → Nat
  | .define _ value | .return value | .expr value => value.nesting

/-- The nesting of the most deeply nested expression in a block. -/
def Stmt.nestingAll : List Stmt → Nat
  | [] => 0
  | s :: rest => max s.nesting (Stmt.nestingAll rest)

/-- The nesting of the most deeply nested expression in a second block, if there is one. -/
def Stmt.nestingAlternative : Option (List Stmt) → Nat
  | none => 0
  | some block => Stmt.nestingAll block

end

theorem Expr.nestingAll_le {es : List Expr} {limit : Nat} :
    Expr.nestingAll es ≤ limit ↔ ∀ e ∈ es, e.nesting ≤ limit := by
  induction es with
  | nil => simp [Expr.nestingAll]
  | cons e es ih => rw [Expr.nestingAll, Nat.max_le, ih, List.forall_mem_cons]

theorem Stmt.nestingAll_le {ss : List Stmt} {limit : Nat} :
    Stmt.nestingAll ss ≤ limit ↔ ∀ s ∈ ss, s.nesting ≤ limit := by
  induction ss with
  | nil => simp [Stmt.nestingAll]
  | cons s ss ih => rw [Stmt.nestingAll, Nat.max_le, ih, List.forall_mem_cons]

theorem Stmt.nesting_eq (s : Stmt) : s.nesting = s.value.nesting := by
  cases s <;> rfl

theorem Expr.nesting_pos (e : Expr) : 0 < e.nesting := by
  cases e with
  | binary | call | index => exact Nat.lt_of_lt_of_le (Nat.succ_pos _) (Nat.le_max_right ..)
  | _ => exact Nat.succ_pos _

theorem Stmt.nesting_value_le {s : Stmt} {ss : List Stmt} (member : s ∈ ss) :
    s.value.nesting ≤ Stmt.nestingAll ss :=
  s.nesting_eq ▸ Stmt.nestingAll_le.mp (Nat.le_refl _) s member

theorem Expr.nesting_le {e : Expr} {es : List Expr} (member : e ∈ es) :
    e.nesting ≤ Expr.nestingAll es := Expr.nestingAll_le.mp (Nat.le_refl _) e member

/-- The nesting goes down in each step but those to the left. -/
theorem Expr.Part.nesting_le {e e' : Expr} {left : Bool} (part : e.Part left e') :
    e'.nesting + (if left then 0 else 1) ≤ e.nesting := by
  cases part with
  | operand => exact Nat.le_refl _
  | left | callee | base => exact Nat.le_max_left ..
  | right | subscript => exact Nat.le_max_right ..
  | condition => exact Nat.succ_le_succ (Nat.le_max_left ..)
  | consequence member =>
    refine Nat.succ_le_succ (Nat.le_trans ?_ (Nat.le_max_right ..))
    exact Nat.le_trans (Stmt.nesting_value_le member) (Nat.le_max_left ..)
  | alternative member =>
    refine Nat.succ_le_succ (Nat.le_trans ?_ (Nat.le_max_right ..))
    exact Nat.le_trans (Stmt.nesting_value_le member) (Nat.le_max_right ..)
  | body member => exact Nat.succ_le_succ (Stmt.nesting_value_le member)
  | argument member =>
    exact Nat.le_trans (Nat.succ_le_succ (Expr.nesting_le member)) (Nat.le_max_right ..)
  | item member => exact Nat.succ_le_succ (Expr.nesting_le member)

/-- Without its steps to the left, a way down is no longer than the nesting. -/
theorem Expr.Way.nodes_le {e : Expr} {nodes steps : Nat} (way : e.Way nodes steps) :
    nodes ≤ e.nesting + steps := by
  induction way with
  | here e => exact e.nesting_pos
  | inward part _ ih =>
    have less := part.nesting_le
    rw [if_neg Bool.false_ne_true] at less
    omega
  | leftward part _ ih =>
    have less := part.nesting_le
    rw [if_pos rfl] at less
    omega

namespace Parse

/-! ## What a routine can give -/

/-- Whatever the routine gives, and wherever it starts, has the property. -/
structure Gives {α : Type} (P : α → Prop) (x : Parse α) : Prop where
  given : ∀ {c a d}, x c = .ok a d → P a

section Gives

variable {α β : Type} {P : α → Prop} {Q : β → Prop}

theorem gives_pure {a : α} (holds : P a) : Gives P (pure a) := by
  refine ⟨fun success => ?_⟩
  obtain ⟨rfl, _⟩ := pure_eq_ok.mp success
  exact holds

theorem gives_throw (fault : Fault) : Gives P (throw fault) :=
  ⟨fun success => nomatch success⟩

theorem gives_any (x : Parse α) : Gives (fun _ => True) x := ⟨fun _ => trivial⟩

theorem Gives.bind {x : Parse α} {f : α → Parse β} (first : Gives P x)
    (second : ∀ a, P a → Gives Q (f a)) : Gives Q (x >>= f) := by
  refine ⟨fun success => ?_⟩
  obtain ⟨a, e, start, rest⟩ := bind_eq_ok.mp success
  exact (second a (first.given start)).given rest

/-- What a routine gives that does not matter for what comes of it. -/
theorem gives_behind (x : Parse α) {f : α → Parse β} (behind : ∀ a, Gives Q (f a)) :
    Gives Q (x >>= f) := (gives_any x).bind fun a _ => behind a

end Gives

/-! ## Routines -/

section Routines

variable {inner : Inner} {room : Nat}

/-- No expression that the parser for the next level reads nests more deeply than there is
room. -/
def Shallow (inner : Inner) (room : Nat) : Prop :=
  ∀ level, Gives (fun e => e.nesting ≤ room) (inner level)

variable (shallow : Shallow inner room)

include shallow

theorem gives_sentence {make : Expr → Stmt} (same : ∀ e, (make e).nesting = e.nesting) :
    Gives (fun s => s.nesting ≤ room)
      (do let value ← inner .lowest; semicolon; return make value) :=
  (shallow .lowest).bind fun e within => gives_behind _ fun _ => gives_pure (same e ▸ within)

theorem gives_statement : Gives (fun s => s.nesting ≤ room) (statement inner) := by
  refine gives_behind _ fun t => ?_
  cases t.kind with
  | letWord =>
    refine gives_behind _ fun name => gives_behind _ fun _ => gives_behind _ fun _ => ?_
    exact gives_sentence shallow fun _ => rfl
  | returnWord => exact gives_behind _ fun _ => gives_sentence shallow fun _ => rfl
  | _ => exact gives_sentence shallow fun _ => rfl

omit shallow in
theorem nesting_none : ∀ s ∈ (#[] : Array Stmt), s.nesting ≤ room := by simp

/-- Each pass of the loop reads one more statement or drops a faulty one. -/
theorem nesting_statements (region : Region) (budget : List Token) {read : Array Stmt} {c : Cursor}
    (before : ∀ s ∈ read, s.nesting ≤ room) :
    ∀ s ∈ (statements inner region budget read c).1, s.nesting ≤ room := by
  induction budget generalizing read c with
  | nil => exact before
  | cons b budget ih =>
    unfold statements
    split
    · exact before
    · split
      · rename_i s d success
        refine ih fun other member => ?_
        rcases Array.mem_push.mp member with old | rfl
        · exact before other old
        · exact (gives_statement shallow).given success
      · dsimp only
        split
        · exact before
        · exact ih before

theorem gives_block : Gives (fun ss => Stmt.nestingAll ss ≤ room) (block inner) := by
  refine ⟨fun {c ss d} success => ?_⟩
  have within := nesting_statements shallow .block c.advance.tokens (c := c.advance) nesting_none
  unfold block at success
  dsimp only at success
  split at success
  · cases success
    exact Stmt.nestingAll_le.mpr fun s member => within s (Array.mem_toList_iff.mp member)
  · cases success

theorem gives_bracedBlock : Gives (fun ss => Stmt.nestingAll ss ≤ room) (bracedBlock inner) :=
  gives_behind _ fun _ => gives_block shallow

theorem gives_moreItems (budget : List Token) {read : Array Expr}
    (before : ∀ e ∈ read, e.nesting ≤ room) :
    Gives (fun read' => ∀ e ∈ read', e.nesting ≤ room) (moreItems inner budget read) := by
  induction budget generalizing read with
  | nil => exact gives_pure before
  | cons b budget ih =>
    refine gives_behind _ fun kind => ?_
    split
    · refine gives_behind _ fun _ => gives_behind _ fun _ => ?_
      refine (shallow .lowest).bind fun item within => ih fun e member => ?_
      rcases Array.mem_push.mp member with old | rfl
      · exact before e old
      · exact within
    · exact gives_pure before

theorem gives_items (closer : Kind) :
    Gives (fun es => Expr.nestingAll es ≤ room) (items inner closer) := by
  refine gives_behind _ fun kind => ?_
  split
  · exact gives_behind _ fun _ => gives_pure (Nat.zero_le _)
  · refine gives_behind _ fun _ => (shallow .lowest).bind fun first within => ?_
    refine gives_behind _ fun c => ?_
    have start : ∀ e ∈ #[first], e.nesting ≤ room := by simpa using within
    refine (gives_moreItems shallow c.tokens start).bind fun read all => ?_
    refine gives_behind _ fun _ => gives_pure ?_
    exact Expr.nestingAll_le.mpr fun e member => all e (Array.mem_toList_iff.mp member)

theorem gives_conditional : Gives (fun e => e.nesting ≤ room + 1) (conditional inner) := by
  refine gives_behind _ fun _ => gives_behind _ fun _ => ?_
  refine (shallow .lowest).bind fun condition within => gives_behind _ fun _ => ?_
  refine (gives_bracedBlock shallow).bind fun consequence within' => gives_behind _ fun kind => ?_
  split
  · refine gives_behind _ fun _ => (gives_bracedBlock shallow).bind fun alternative within'' => ?_
    have blocks := Nat.max_le.mpr ⟨within', within''⟩
    exact gives_pure (Nat.succ_le_succ (Nat.max_le.mpr ⟨within, blocks⟩))
  · have blocks := Nat.max_le.mpr ⟨within', Nat.zero_le room⟩
    exact gives_pure (Nat.succ_le_succ (Nat.max_le.mpr ⟨within, blocks⟩))

theorem gives_function : Gives (fun e => e.nesting ≤ room + 1) (function inner) :=
  gives_behind _ fun _ => gives_behind _ fun _ =>
    (gives_bracedBlock shallow).bind fun _ within => gives_pure (Nat.succ_le_succ within)

theorem gives_operand : Gives (fun e => e.nesting ≤ room + 1) (operand inner) := by
  have single : 1 ≤ room + 1 := Nat.succ_le_succ (Nat.zero_le room)
  have signed (op : UnaryOp) : Gives (fun e => e.nesting ≤ room + 1)
      (do advance; return .unary op (← inner .unary) : Parse Expr) :=
    gives_behind _ fun _ =>
      (shallow .unary).bind fun _ within => gives_pure (Nat.succ_le_succ within)
  refine gives_behind _ fun t => ?_
  cases t.kind with
  | ident | string | trueWord | falseWord => exact gives_pure single
  | int =>
    dsimp only
    split
    · exact gives_pure single
    · exact gives_throw _
  | bang => exact signed .not
  | minus => exact signed .negate
  | lparen =>
    refine gives_behind _ fun _ => (shallow .lowest).bind fun e within => gives_behind _ fun _ => ?_
    exact gives_pure (Nat.le_succ_of_le within)
  | ifWord => exact gives_conditional shallow
  | function => exact gives_function shallow
  | lbracket =>
    exact (gives_items shallow .rbracket).bind fun _ within => gives_pure (Nat.succ_le_succ within)
  | _ => exact gives_throw _

/-- A link keeps the nesting of its left part within the bound for the whole. -/
theorem gives_linked {left : Expr} (within : left.nesting ≤ room + 1) (link : Link) :
    Gives (fun e => e.nesting ≤ room + 1) (linked inner left link) := by
  cases link with
  | operator op =>
    refine gives_behind _ fun _ => (shallow op.precedence).bind fun right within' => ?_
    exact gives_pure (Nat.max_le.mpr ⟨within, Nat.succ_le_succ within'⟩)
  | call =>
    refine (gives_items shallow .rparen).bind fun es within' => ?_
    exact gives_pure (Nat.max_le.mpr ⟨within, Nat.succ_le_succ within'⟩)
  | subscript =>
    refine gives_behind _ fun _ => (shallow .lowest).bind fun e within' => ?_
    refine gives_behind _ fun _ => ?_
    exact gives_pure (Nat.max_le.mpr ⟨within, Nat.succ_le_succ within'⟩)

/-- However many links are followed, the bound stays the same. -/
theorem gives_links (level : Precedence) (budget : List Token) {left : Expr}
    (within : left.nesting ≤ room + 1) :
    Gives (fun e => e.nesting ≤ room + 1) (links inner level budget left) := by
  induction budget generalizing left with
  | nil => exact gives_pure within
  | cons b budget ih =>
    refine gives_behind _ fun kind => ?_
    cases kind.linkAbove? level with
    | none => exact gives_pure within
    | some link => exact gives_behind _ fun _ => (gives_linked shallow within link).bind fun _ => ih

end Routines

/-- Each level of nesting takes one of the expressions that there is room for. -/
theorem shallow_expression (room : Nat) : Shallow (expression room) room := by
  induction room with
  | zero => exact fun level => gives_throw _
  | succ room ih =>
    exact fun level => (gives_operand ih).bind fun left within =>
      gives_behind _ fun c => gives_links ih level c.tokens within

end Parse

/-! ## Programs -/

/-- On a way down from a statement of a program that is read there are no more expressions than
may be open at once, and one more for each step to the left. -/
theorem parse_nesting {tokens : List Token} {s : Stmt} {nodes steps : Nat}
    (member : s ∈ (parse tokens).1) (way : s.value.Way nodes steps) :
    nodes ≤ maxNesting + steps := by
  have within := Parse.nesting_statements (Parse.shallow_expression maxNesting) .program tokens
    (c := .ofTokens tokens) Parse.nesting_none s (Array.mem_toList_iff.mp member)
  rw [s.nesting_eq] at within
  exact Nat.le_trans way.nodes_le (Nat.add_le_add_right within steps)

/-- A sum of so many ones and another one. -/
def Expr.onesSum : Nat → Expr
  | 0 => .integer 1
  | n + 1 => .binary .add (Expr.onesSum n) (.integer 1)

/-- How the sum is written. -/
def Token.onesSum : Nat → List Token
  | 0 => [⟨.int, "1"⟩]
  | n + 1 => Token.onesSum n ++ [⟨.plus, "+"⟩, ⟨.int, "1"⟩]

theorem derives_onesSum (n : Nat) : Derives 2 (.expr .sum (.onesSum n)) (Token.onesSum n) := by
  have one (room : Nat) : Derives (room + 1) (.expr .call (.integer 1)) [⟨.int, "1"⟩] :=
    .integer rfl (readInt64?_eq_some_iff.mp (by decide))
  induction n with
  | zero => exact (one 1).loosen (by decide)
  | succ n ih =>
    have plus : (⟨.plus, "+"⟩ : Token).kind = BinaryOp.add.kind := rfl
    exact .binary (by decide) ih plus ((one 0).loosen (by decide))

theorem way_onesSum (n : Nat) : (Expr.onesSum n).Way (n + 1) n := by
  induction n with
  | zero => exact .here _
  | succ n ih => exact .leftward .left ih

/-- A sum is read without a fault, however long it is. -/
theorem parse_onesSum (n : Nat) : parse (Token.onesSum n) = ([.expr (.onesSum n)], []) := by
  have room : 2 ≤ maxNesting := by decide
  refine parse_complete ?_
  rw [← List.append_nil (Token.onesSum n)]
  refine .unended (.alone ?_) nofun .done
  exact ((derives_onesSum n).loosen (Nat.zero_le _)).mono room

/-- In a sum of one more ones than there may be expressions open, the way to the first of them has
more expressions on it than that. -/
theorem parse_nesting_onesSum :
    .expr (.onesSum maxNesting) ∈ (parse (Token.onesSum maxNesting)).1 ∧
      (Expr.onesSum maxNesting).Way (maxNesting + 1) maxNesting ∧
      maxNesting + 1 ≤ maxNesting + maxNesting := by
  have member : .expr (.onesSum maxNesting) ∈ (parse (Token.onesSum maxNesting)).1 := by
    rw [parse_onesSum]
    exact List.mem_cons_self
  exact ⟨member, way_onesSum maxNesting, parse_nesting member (way_onesSum maxNesting)⟩

end Stacklet
