import Stacklet.Proofs.Program.Soundness

/-!
# Room that lasts

Reading with less room comes to the same, unless expressions nest too deeply for it. Then that
is the fault with which a routine gives up, or it has been recorded for a statement in a block
(`lasting_expression`). A fault that is recorded stays recorded, so it is seen in the end
whether the room has lasted.

In difference to `curtailing_expression` there may be blocks among the tokens. What is read
behind a statement that was given up is not compared.
-/

namespace Stacklet

namespace Parse

/-- Expressions have nested too deeply, here or in a statement of a block on the way. -/
def TooDeep {α : Type} : EStateM.Result Fault Cursor α → Prop
  | .ok _ c => .nestingTooDeep ∈ c.faults
  | .error fault c => fault = .nestingTooDeep ∨ .nestingTooDeep ∈ c.faults

/-- The second routine does what the first one does, or expressions nest too deeply for it. If
that has been recorded before, it stays so. -/
structure Lasts {α : Type} (x y : Parse α) : Prop where
  same (c : Cursor) : y c = x c ∨ TooDeep (y c)
  kept {c : Cursor} : .nestingTooDeep ∈ c.faults → TooDeep (y c)

section Lasts

variable {α β : Type}

theorem TooDeep.bind {y : Parse α} {g : α → Parse β} {c : Cursor} (tooDeep : TooDeep (y c))
    (kept : ∀ a {d : Cursor}, .nestingTooDeep ∈ d.faults → TooDeep (g a d)) :
    TooDeep ((y >>= g) c) := by
  cases outcome : y c with
  | ok a d =>
    rw [outcome] at tooDeep
    rw [bind_of_ok outcome]
    exact kept a tooDeep
  | error fault d =>
    rw [outcome] at tooDeep
    rw [bind_of_error outcome]
    exact tooDeep

/-- With the fault that it gives up with, a statement leaves it recorded. -/
theorem TooDeep.record {fault : Fault} {c : Cursor}
    (tooDeep : TooDeep (.error fault c : EStateM.Result Fault Cursor α)) :
    .nestingTooDeep ∈ (c.record fault).faults := by
  rcases tooDeep with rfl | recorded
  · exact Array.mem_push_self
  · exact Array.mem_push_of_mem _ recorded

theorem Lasts.bind {x y : Parse α} {f g : α → Parse β} (first : Lasts x y)
    (second : ∀ a, Lasts (f a) (g a)) : Lasts (x >>= f) (y >>= g) where
  same c := by
    have kept (a : α) {d : Cursor} (fault : .nestingTooDeep ∈ d.faults) : TooDeep (g a d) :=
      (second a).kept fault
    rcases first.same c with same | tooDeep
    · cases outcome : x c with
      | ok a d =>
        rw [bind_of_ok outcome, bind_of_ok (same.trans outcome)]
        exact (second a).same d
      | error fault d =>
        rw [bind_of_error outcome, bind_of_error (same.trans outcome)]
        exact .inl rfl
    · exact .inr (tooDeep.bind kept)
  kept fault := (first.kept fault).bind fun a _ fault' => (second a).kept fault'

theorem lasts_pure (a : α) : Lasts (pure a) (pure a) := ⟨fun _ => .inl rfl, fun fault => fault⟩

theorem lasts_throw (fault : Fault) : Lasts (throw fault : Parse α) (throw fault) :=
  ⟨fun _ => .inl rfl, .inr⟩

theorem lasts_tooDeep (x : Parse α) : Lasts x (throw .nestingTooDeep) :=
  ⟨fun _ => .inr (.inl rfl), fun _ => .inl rfl⟩

theorem lasts_current_bind {f g : Token → Parse α} (each : ∀ t, Lasts (f t) (g t)) :
    Lasts (current >>= f) (current >>= g) :=
  ⟨fun c => (each c.current).same c, fun {c} => (each c.current).kept⟩

theorem lasts_ahead_bind {f g : Kind → Parse α} (each : ∀ kind, Lasts (f kind) (g kind)) :
    Lasts (ahead >>= f) (ahead >>= g) :=
  ⟨fun c => (each c.ahead).same c, fun {c} => (each c.ahead).kept⟩

theorem lasts_get_bind {f g : Cursor → Parse α} (each : ∀ c, Lasts (f c) (g c)) :
    Lasts (get >>= f) (get >>= g) :=
  ⟨fun c => (each c).same c, fun {c} => (each c).kept⟩

theorem lasts_advance : Lasts advance advance := ⟨fun _ => .inl rfl, fun fault => fault⟩

theorem lasts_ite (kind : Kind) {x x' y y' : Parse α} (found : Lasts x y) (other : Lasts x' y') :
    Lasts (do if (← ahead) = kind then x else x') (do if (← ahead) = kind then y else y') := by
  refine lasts_ahead_bind fun got => ?_
  split
  · exact found
  · exact other

theorem lasts_expect (kind : Kind) : Lasts (expect kind) (expect kind) := by
  refine lasts_ahead_bind fun got => ?_
  split
  · exact lasts_advance
  · exact lasts_throw _

theorem lasts_semicolon : Lasts semicolon semicolon :=
  lasts_ite .semicolon lasts_advance (lasts_pure _)

theorem lasts_identifier : Lasts identifier identifier :=
  (lasts_expect .ident).bind fun _ => lasts_current_bind fun _ => lasts_pure _

theorem lasts_moreParameters (budget : List Token) (read : Array String) :
    Lasts (moreParameters budget read) (moreParameters budget read) := by
  induction budget generalizing read with
  | nil => exact lasts_pure read
  | cons b budget ih =>
    refine lasts_ite .comma (lasts_advance.bind fun _ => ?_) (lasts_pure read)
    exact lasts_identifier.bind fun name => ih (read.push name)

theorem lasts_parameters : Lasts parameters parameters := by
  refine lasts_ite .rparen (lasts_advance.bind fun _ => lasts_pure _) ?_
  refine lasts_identifier.bind fun first => lasts_get_bind fun c => ?_
  refine (lasts_moreParameters c.tokens #[first]).bind fun read => ?_
  exact (lasts_expect .rparen).bind fun _ => lasts_pure _

end Lasts

/-! ## Routines -/

/-- A conditional, from behind its first block on. -/
def alternative (inner : Inner) (condition : Expr) (consequence : List Stmt) : Parse Expr := do
  if (← ahead) = .elseWord then
    advance
    let alternative ← bracedBlock inner
    return .conditional condition consequence (some alternative)
  else return .conditional condition consequence none

section Routines

variable {inner inner' : Inner}

/-- The second parser for the next level has less room. -/
def Lasting (inner inner' : Inner) : Prop := ∀ level, Lasts (inner level) (inner' level)

variable (lasting : Lasting inner inner')

include lasting

theorem lasts_sentence (make : Expr → Stmt) :
    Lasts (do let value ← inner .lowest; semicolon; return make value : Parse Stmt)
      (do let value ← inner' .lowest; semicolon; return make value) :=
  (lasting .lowest).bind fun _ => lasts_semicolon.bind fun _ => lasts_pure _

theorem lasts_statement : Lasts (statement inner) (statement inner') := by
  refine lasts_current_bind fun t => ?_
  cases t.kind with
  | letWord =>
    refine lasts_identifier.bind fun name => (lasts_expect .assign).bind fun _ => ?_
    exact lasts_advance.bind fun _ => lasts_sentence lasting _
  | returnWord => exact lasts_advance.bind fun _ => lasts_sentence lasting _
  | _ => exact lasts_sentence lasting _

/-- In a block the fault is recorded, and reading goes on behind it. -/
theorem tooDeep_mem_statements {region : Region} {budget : List Token} {read : Array Stmt}
    {c : Cursor} (fault : .nestingTooDeep ∈ c.faults) :
    .nestingTooDeep ∈ (statements inner' region budget read c).2.faults := by
  induction budget generalizing read c with
  | nil => exact fault
  | cons b budget ih =>
    by_cases ends : c.current.kind = region.closer ∨ c.current.kind = .eof
    · rw [statements_of_end inner' (b :: budget) read ends]
      exact fault
    obtain ⟨unclosed, more⟩ := not_or.mp ends
    have kept := (lasts_statement lasting).kept fault
    cases outcome : statement inner' c with
    | ok s d =>
      rw [outcome] at kept
      rw [statements_of_ok unclosed more outcome]
      exact ih kept
    | error fault d =>
      rw [outcome] at kept
      rw [statements_of_error unclosed more outcome]
      split
      · exact kept.record
      · exact ih kept.record

/-- Two loops over statements come to the same, unless the second one has recorded that expressions
nest too deeply. -/
theorem statements_eq_or_tooDeep (region : Region) (budget : List Token) (read : Array Stmt)
    (c : Cursor) : statements inner' region budget read c = statements inner region budget read c ∨
      .nestingTooDeep ∈ (statements inner' region budget read c).2.faults := by
  induction budget generalizing read c with
  | nil => exact .inl rfl
  | cons b budget ih =>
    by_cases ends : c.current.kind = region.closer ∨ c.current.kind = .eof
    · rw [statements_of_end inner' (b :: budget) read ends,
        statements_of_end inner (b :: budget) read ends]
      exact .inl rfl
    obtain ⟨unclosed, more⟩ := not_or.mp ends
    rcases (lasts_statement lasting).same c with same | tooDeep
    · cases outcome : statement inner c with
      | ok s d =>
        rw [statements_of_ok unclosed more outcome,
          statements_of_ok unclosed more (same.trans outcome)]
        exact ih _ _
      | error fault d =>
        rw [statements_of_error unclosed more outcome,
          statements_of_error unclosed more (same.trans outcome)]
        split
        · exact .inl rfl
        · exact ih _ _
    · right
      cases outcome : statement inner' c with
      | ok s d =>
        rw [outcome] at tooDeep
        rw [statements_of_ok unclosed more outcome]
        exact tooDeep_mem_statements lasting tooDeep
      | error fault d =>
        rw [outcome] at tooDeep
        rw [statements_of_error unclosed more outcome]
        split
        · exact tooDeep.record
        · exact tooDeep_mem_statements lasting tooDeep.record

theorem lasts_block : Lasts (block inner) (block inner') := by
  have closed {c : Cursor}
      (fault : .nestingTooDeep ∈
        (statements inner' .block c.advance.tokens #[] c.advance).2.faults) :
      TooDeep (block inner' c) := by
    unfold block
    dsimp only
    split
    · exact fault
    · exact .inr fault
  constructor
  · intro c
    rcases statements_eq_or_tooDeep lasting .block c.advance.tokens #[] c.advance with same | fault
    · left
      unfold block
      dsimp only
      rw [same]
    · exact .inr (closed fault)
  · exact fun fault => closed (tooDeep_mem_statements lasting fault)

theorem lasts_bracedBlock : Lasts (bracedBlock inner) (bracedBlock inner') :=
  (lasts_expect .lbrace).bind fun _ => lasts_block lasting

theorem lasts_moreItems (budget : List Token) (read : Array Expr) :
    Lasts (moreItems inner budget read) (moreItems inner' budget read) := by
  induction budget generalizing read with
  | nil => exact lasts_pure read
  | cons b budget ih =>
    refine lasts_ite .comma (lasts_advance.bind fun _ => lasts_advance.bind fun _ => ?_)
      (lasts_pure read)
    exact (lasting .lowest).bind fun item => ih (read.push item)

theorem lasts_items (closer : Kind) : Lasts (items inner closer) (items inner' closer) := by
  refine lasts_ite closer (lasts_advance.bind fun _ => lasts_pure _) ?_
  refine lasts_advance.bind fun _ => (lasting .lowest).bind fun first => ?_
  refine lasts_get_bind fun c => (lasts_moreItems lasting c.tokens #[first]).bind fun read => ?_
  exact (lasts_expect closer).bind fun _ => lasts_pure _

theorem lasts_alternative (condition : Expr) (consequence : List Stmt) :
    Lasts (alternative inner condition consequence)
      (alternative inner' condition consequence) := by
  refine lasts_ite .elseWord (lasts_advance.bind fun _ => ?_) (lasts_pure _)
  exact (lasts_bracedBlock lasting).bind fun _ => lasts_pure _

theorem lasts_conditional : Lasts (conditional inner) (conditional inner') := by
  refine (lasts_expect .lparen).bind fun _ => lasts_advance.bind fun _ => ?_
  refine (lasting .lowest).bind fun condition => (lasts_expect .rparen).bind fun _ => ?_
  exact (lasts_bracedBlock lasting).bind fun consequence =>
    lasts_alternative lasting condition consequence

theorem lasts_function : Lasts (function inner) (function inner') :=
  (lasts_expect .lparen).bind fun _ => lasts_parameters.bind fun _ =>
    (lasts_bracedBlock lasting).bind fun _ => lasts_pure _

theorem lasts_operand : Lasts (operand inner) (operand inner') := by
  refine lasts_current_bind fun t => ?_
  cases t.kind with
  | ident | string | trueWord | falseWord => exact lasts_pure _
  | int =>
    dsimp only
    split
    · exact lasts_pure _
    · exact lasts_throw _
  | bang | minus => exact lasts_advance.bind fun _ => (lasting .unary).bind fun _ => lasts_pure _
  | lparen =>
    exact lasts_advance.bind fun _ => (lasting .lowest).bind fun _ =>
      (lasts_expect .rparen).bind fun _ => lasts_pure _
  | ifWord => exact lasts_conditional lasting
  | function => exact lasts_function lasting
  | lbracket => exact (lasts_items lasting .rbracket).bind fun _ => lasts_pure _
  | _ => exact lasts_throw _

theorem lasts_linked (left : Expr) (link : Link) :
    Lasts (linked inner left link) (linked inner' left link) := by
  cases link with
  | operator op =>
    exact lasts_advance.bind fun _ => (lasting op.precedence).bind fun _ => lasts_pure _
  | call => exact (lasts_items lasting .rparen).bind fun _ => lasts_pure _
  | subscript =>
    exact lasts_advance.bind fun _ => (lasting .lowest).bind fun _ =>
      (lasts_expect .rbracket).bind fun _ => lasts_pure _

theorem lasts_links (level : Precedence) (budget : List Token) (left : Expr) :
    Lasts (links inner level budget left) (links inner' level budget left) := by
  induction budget generalizing left with
  | nil => exact lasts_pure left
  | cons b budget ih =>
    refine lasts_ahead_bind fun kind => ?_
    cases kind.linkAbove? level with
    | none => exact lasts_pure left
    | some link =>
      refine lasts_advance.bind fun _ => ?_
      exact (lasts_linked lasting left link).bind fun longer => ih longer

end Routines

/-- With less room an expression is read in the same way, unless it nests too deeply. -/
theorem lasting_expression {room room' : Nat} (le : room' ≤ room) :
    Lasting (expression room) (expression room') := by
  induction room' generalizing room with
  | zero => exact fun level => lasts_tooDeep _
  | succ room' ih =>
    obtain ⟨room, rfl⟩ := Nat.exists_eq_add_of_le' (Nat.le_trans (Nat.le_add_left 1 room') le)
    have inside := ih (Nat.le_of_succ_le_succ le)
    exact fun level => (lasts_operand inside).bind fun left => lasts_get_bind fun c =>
      lasts_links inside level c.tokens left

end Parse

end Stacklet
