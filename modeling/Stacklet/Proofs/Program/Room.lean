import Stacklet.Proofs.Program.Texts

/-!
# Reading with less room

The tokens of an expression without blocks are read with less room in the same way, up
to the place where there is none left (`curtailing_expression`). Reading then gives up and
nothing else goes wrong: outside of blocks no routine goes on behind a fault. So a
statement without blocks is read as a whole, or it is dropped with the single fault that
it nests too deeply (`parse_or_tooDeep`).

What stands behind the tokens makes no difference either, if it is an end token or a
closing brace (`Token.Closes`). Routines run into it as they run into the end, and say so
in their faults (`Fault.marked`).
-/

namespace Stacklet

/-! ## Tokens without blocks -/

/-- No block is opened, and no statement ends. -/
def Unbroken (ts : List Token) : Prop := ∀ t ∈ ts, t.kind ≠ .lbrace ∧ t.kind ≠ .semicolon

theorem Unbroken.cons {t : Token} {ts : List Token}
    (first : t.kind ≠ .lbrace ∧ t.kind ≠ .semicolon) (unbroken : Unbroken ts) :
    Unbroken (t :: ts) :=
  List.forall_mem_cons.mpr ⟨first, unbroken⟩

theorem Unbroken.append {ts us : List Token} (left : Unbroken ts) (right : Unbroken us) :
    Unbroken (ts ++ us) :=
  List.forall_mem_append.mpr ⟨left, right⟩

theorem Unbroken.closed {t : Token} {ts : List Token} (unbroken : Unbroken ts)
    (last : t.kind ≠ .lbrace ∧ t.kind ≠ .semicolon) : Unbroken (ts ++ [t]) :=
  unbroken.append (.cons last nofun)

/-! ## In front of a mark -/

/-- A fault with a token in the place of the end. -/
def Fault.marked (mark : Token) : Fault → Fault
  | .unexpected expected .eof => .unexpected expected mark.kind
  | .noOperand .eof _ => .noOperand mark.kind mark.literal
  | fault => fault

theorem Fault.marked_unexpected {mark : Token} {expected got : Kind} (other : got ≠ .eof) :
    (Fault.unexpected expected got).marked mark = .unexpected expected got := by
  cases got with
  | eof => exact (other rfl).elim
  | _ => rfl

theorem Fault.marked_noOperand {mark : Token} {kind : Kind} {literal : String}
    (other : kind ≠ .eof) :
    (Fault.noOperand kind literal).marked mark = .noOperand kind literal := by
  cases kind with
  | eof => exact (other rfl).elim
  | _ => rfl

/-- The token ends what is read: it is the end token or a closing brace. -/
def Token.Closes (mark : Token) : Prop := mark.kind = .eof ∨ mark.kind = .rbrace

theorem Token.Closes.ne {mark : Token} (closes : mark.Closes) {kind : Kind}
    (plain : kind ≠ .eof ∧ kind ≠ .rbrace) : mark.kind ≠ kind := by
  rintro rfl
  exact closes.elim plain.1 plain.2

namespace Cursor

/-- No token opens a block, and none is the end. -/
def Flat (c : Cursor) : Prop := ∀ t ∈ c.tokens, t.kind ≠ .lbrace ∧ t.kind ≠ .eof

/-- The cursor stands on a token. -/
def Inside (c : Cursor) : Prop := c.tokens ≠ []

/-- The same place among the same tokens, with a mark behind them and other faults recorded. -/
def upTo (c : Cursor) (mark : Token) (faults : Array Fault) : Cursor := ⟨c.tokens ++ [mark], faults⟩

/-- The second cursor stands further on, and no fault was recorded on the way. -/
structure Onward (c d : Cursor) : Prop where
  tokens : d.tokens <:+ c.tokens
  faults : d.faults = c.faults

variable {c d e : Cursor} {mark : Token} {faults : Array Fault}

theorem Onward.refl (c : Cursor) : Onward c c := ⟨List.suffix_refl _, rfl⟩

theorem Onward.trans (first : Onward c d) (second : Onward d e) : Onward c e :=
  ⟨second.tokens.trans first.tokens, second.faults.trans first.faults⟩

theorem onward_advance (c : Cursor) : Onward c c.advance := ⟨List.tail_suffix _, rfl⟩

theorem Onward.upTo (onward : Onward c d) (mark : Token) (faults : Array Fault) :
    Onward (c.upTo mark faults) (d.upTo mark faults) := by
  obtain ⟨front, same⟩ := onward.tokens
  refine ⟨⟨front, ?_⟩, rfl⟩
  rw [Cursor.upTo, Cursor.upTo, ← same, List.append_assoc]

theorem Flat.onward (flat : c.Flat) (onward : Onward c d) : d.Flat :=
  fun t member => flat t (onward.tokens.subset member)

theorem Inside.current_upTo (inside : c.Inside) : (c.upTo mark faults).current = c.current := by
  obtain ⟨t, ts, tokens⟩ := List.exists_cons_of_ne_nil inside
  rw [current, current, upTo, tokens]
  rfl

theorem Inside.advance_upTo (inside : c.Inside) :
    (c.upTo mark faults).advance = c.advance.upTo mark faults := by
  obtain ⟨t, ts, tokens⟩ := List.exists_cons_of_ne_nil inside
  rw [advance, advance, upTo, upTo, tokens]
  rfl

/-- The same token is ahead, unless that is the mark. -/
theorem ahead_cases (mark : Token) (faults : Array Fault) (flat : c.Flat) (inside : c.Inside) :
    (c.ahead = .eof ∧ (c.upTo mark faults).ahead = mark.kind) ∨
      (c.ahead ≠ .lbrace ∧ c.ahead ≠ .eof ∧ (c.upTo mark faults).ahead = c.ahead ∧
        c.advance.Inside) := by
  obtain ⟨t, ts, tokens⟩ := List.exists_cons_of_ne_nil inside
  unfold Flat at flat
  unfold ahead upTo Inside advance
  rw [tokens] at flat ⊢
  cases ts with
  | nil => exact .inl ⟨rfl, rfl⟩
  | cons s ts =>
    obtain ⟨notBrace, notEnd⟩ := flat s (by simp)
    exact .inr ⟨notBrace, notEnd, rfl, nofun⟩

end Cursor

namespace Parse

open Cursor

/-- Two ways of reading from a cursor, the second one in front of a mark, come to the same, or
the second one gives up because expressions nest too deeply. -/
inductive Curtailed (mark : Token) (c : Cursor) (faults : Array Fault) (Post : Cursor → Prop)
    {α : Type} : EStateM.Result Fault Cursor α → EStateM.Result Fault Cursor α → Prop
  | ok {a : α} {d : Cursor} : c.Onward d → Post d →
    Curtailed mark c faults Post (.ok a d) (.ok a (d.upTo mark faults))
  | error {fault : Fault} {d : Cursor} : c.Onward d →
    Curtailed mark c faults Post (.error fault d) (.error (fault.marked mark) (d.upTo mark faults))
  | tooDeep {outcome : EStateM.Result Fault Cursor α} {d : Cursor} : c.Onward d →
    Curtailed mark c faults Post outcome (.error .nestingTooDeep (d.upTo mark faults))

/-- Where no block is opened, the second routine does in front of a mark what the first one
does at the end, or gives up because expressions nest too deeply. -/
structure Curtails (mark : Token) (Pre Post : Cursor → Prop) {α : Type} (x y : Parse α) : Prop where
  curtailed {c : Cursor} (faults : Array Fault) : c.Flat → Pre c →
    Curtailed mark c faults Post (x c) (y (c.upTo mark faults))

/-- On a token in front of one of this kind. -/
def Before (kind : Kind) (c : Cursor) : Prop := c.Inside ∧ c.ahead = kind

section Curtails

variable {α β : Type} {mark : Token} {Pre Pre' Mid Post : Cursor → Prop} {c d : Cursor}
  {faults : Array Fault}

theorem Curtailed.trans {r r' : EStateM.Result Fault Cursor α} (onward : c.Onward d)
    (curtailed : Curtailed mark d faults Post r r') : Curtailed mark c faults Post r r' := by
  cases curtailed with
  | ok onward' post => exact .ok (onward.trans onward') post
  | error onward' => exact .error (onward.trans onward')
  | tooDeep onward' => exact .tooDeep (onward.trans onward')

theorem Curtailed.bind {x y : Parse α} {f g : α → Parse β} {c' : Cursor}
    (first : Curtailed mark c faults Mid (x c) (y c'))
    (second : ∀ a d, c.Onward d → Mid d →
      Curtailed mark d faults Post (f a d) (g a (d.upTo mark faults))) :
    Curtailed mark c faults Post ((x >>= f) c) ((y >>= g) c') := by
  generalize left : x c = r at first
  generalize right : y c' = r' at first
  cases first with
  | ok onward mid =>
    rw [bind_of_ok left, bind_of_ok right]
    exact (second _ _ onward mid).trans onward
  | error onward =>
    rw [bind_of_error left, bind_of_error right]
    exact .error onward
  | tooDeep onward =>
    rw [bind_of_error right]
    exact .tooDeep onward

theorem Curtails.bind {x y : Parse α} {f g : α → Parse β} (first : Curtails mark Pre Mid x y)
    (second : ∀ a, Curtails mark Mid Post (f a) (g a)) :
    Curtails mark Pre Post (x >>= f) (y >>= g) :=
  ⟨fun faults flat pre => (first.curtailed faults flat pre).bind fun a _ onward mid =>
    (second a).curtailed faults (flat.onward onward) mid⟩

theorem Curtails.narrow {x y : Parse α} (curtails : Curtails mark Pre Post x y)
    (pre : ∀ c, Pre' c → Pre c) : Curtails mark Pre' Post x y :=
  ⟨fun faults flat holds => curtails.curtailed faults flat (pre _ holds)⟩

theorem curtails_pure (a : α) : Curtails mark Pre Pre (pure a : Parse α) (pure a) :=
  ⟨fun _ _ pre => .ok (.refl _) pre⟩

theorem curtails_throw (fault : Fault) :
    Curtails mark Pre Post (throw fault : Parse α) (throw (fault.marked mark)) :=
  ⟨fun _ _ _ => .error (.refl _)⟩

theorem curtails_throw_of_marked_eq {fault : Fault} (same : fault.marked mark = fault) :
    Curtails mark Pre Post (throw fault : Parse α) (throw fault) := by
  have thrown : Curtails mark Pre Post (throw fault : Parse α) _ := curtails_throw fault
  rw [same] at thrown
  exact thrown

theorem curtails_tooDeep (x : Parse α) : Curtails mark Pre Post x (throw .nestingTooDeep) :=
  ⟨fun _ _ _ => .tooDeep (.refl _)⟩

/-- On a token, both see it. -/
theorem curtails_current {f g : Token → Parse α}
    (each : ∀ t, t.kind ≠ .eof → Curtails mark Inside Post (f t) (g t)) :
    Curtails mark Inside Post (current >>= f) (current >>= g) := by
  constructor
  intro c faults flat inside
  rw [current_bind, current_bind, inside.current_upTo]
  refine (each _ ?_).curtailed faults flat inside
  obtain ⟨t, ts, tokens⟩ := List.exists_cons_of_ne_nil inside
  rw [Cursor.current, tokens]
  exact (flat t (tokens ▸ List.mem_cons_self)).2

/-- Both see the same token ahead, or the first one the end and the second one the mark. -/
theorem curtails_ahead {f g : Kind → Parse α}
    (each : ∀ kind, kind ≠ .lbrace → kind ≠ .eof →
      Curtails mark (Before kind) Post (f kind) (g kind))
    (last : Curtails mark Inside Post (f .eof) (g mark.kind)) :
    Curtails mark Inside Post (ahead >>= f) (ahead >>= g) := by
  constructor
  intro c faults flat inside
  rw [ahead_bind, ahead_bind]
  rcases ahead_cases mark faults flat inside with ⟨ends, marked⟩ | ⟨notBrace, notEnd, same, _⟩
  · rw [ends, marked]
    exact last.curtailed faults flat inside
  · rw [same]
    exact (each c.ahead notBrace notEnd).curtailed faults flat ⟨inside, rfl⟩

theorem curtails_advance {kind : Kind} (plain : kind ≠ .eof) :
    Curtails mark (Before kind) Inside advance advance := by
  constructor
  rintro c faults flat ⟨inside, rfl⟩
  have moves (c : Cursor) : advance c = .ok () c.advance := rfl
  rw [moves, moves, inside.advance_upTo]
  rcases ahead_cases mark faults flat inside with ⟨ends, _⟩ | ⟨_, _, _, moved⟩
  · exact (plain ends).elim
  · exact .ok (onward_advance c) moved

/-- A routine behind the next token. -/
theorem curtails_advance_bind {f g : PUnit → Parse α}
    (behind : Curtails mark Anywhere Post (f ⟨⟩) (g ⟨⟩)) :
    Curtails mark Inside Post (advance >>= f) (advance >>= g) := by
  constructor
  intro c faults flat inside
  rw [advance_bind, advance_bind, inside.advance_upTo]
  exact (behind.curtailed faults (flat.onward (onward_advance c)) trivial).trans (onward_advance c)

variable (closes : mark.Closes)

include closes

/-- A choice by the token ahead. -/
theorem curtails_ite {kind : Kind} (plain : kind ≠ .eof ∧ kind ≠ .rbrace) {x x' y y' : Parse α}
    (found : Curtails mark (Before kind) Post x x') (other : Curtails mark Inside Post y y') :
    Curtails mark Inside Post (do if (← ahead) = kind then x else y)
      (do if (← ahead) = kind then x' else y') := by
  refine curtails_ahead (fun got _ _ => ?_) ?_
  · split
    · rename_i same
      exact same ▸ found
    · exact other.narrow fun _ before => before.1
  · rw [if_neg plain.1.symm, if_neg (closes.ne plain)]
    exact other

theorem curtails_expect {kind : Kind} (plain : kind ≠ .eof ∧ kind ≠ .rbrace) :
    Curtails mark Inside Inside (expect kind) (expect kind) := by
  refine curtails_ahead (fun got _ notEnd => ?_) ?_
  · split
    · rename_i same
      subst same
      exact curtails_advance notEnd
    · exact curtails_throw_of_marked_eq (Fault.marked_unexpected notEnd)
  · rw [if_neg plain.1.symm, if_neg (closes.ne plain)]
    exact curtails_throw _

theorem curtails_semicolon : Curtails mark Inside Inside semicolon semicolon :=
  curtails_ite closes (by decide) (curtails_advance (by decide)) (curtails_pure _)

theorem curtails_identifier : Curtails mark Inside Inside identifier identifier :=
  (curtails_expect closes (by decide)).bind fun _ => curtails_current fun _ _ => curtails_pure _

end Curtails

/-! ## Loops -/

section Loops

variable {α β : Type} {mark : Token} {Post : Cursor → Prop} {loop loop' : List Token → α → Parse α}
  {pass? pass?' : Kind → Option (α → Parse α)} (closes : mark.Closes)

/-- Two loops stop at the same tokens and make passes of which the second is the first one,
in front of a mark or given up. -/
structure CurtailedLoops (mark : Token) (loop loop' : List Token → α → Parse α)
    (pass? pass?' : Kind → Option (α → Parse α)) : Prop where
  first : Loops loop pass?
  second : Loops loop' pass?'
  passes (kind : Kind) : (pass? kind = none ∧ pass?' kind = none) ∨
    ∃ pass pass', pass? kind = some pass ∧ pass?' kind = some pass' ∧
      ∀ a, Curtails mark Inside Inside (pass a) (pass' a)

include closes

/-- Each pass takes a token. So budgets that last make no difference. -/
theorem CurtailedLoops.curtailed (loops : CurtailedLoops mark loop loop' pass? pass?') {limit : Nat}
    {budget budget' : List Token} (a : α) {c : Cursor} (faults : Array Fault) (flat : c.Flat)
    (inside : c.Inside) (within : c.tokens.length ≤ limit) (enough : limit ≤ budget.length)
    (enough' : limit ≤ budget'.length) :
    Curtailed mark c faults Inside (loop budget a c) (loop' budget' a (c.upTo mark faults)) := by
  induction limit generalizing budget budget' a c with
  | zero => exact (inside (List.length_eq_zero_iff.mp (Nat.le_zero.mp within))).elim
  | succ limit ih =>
    obtain ⟨b, budget, rfl⟩ := List.exists_cons_of_length_pos (Nat.zero_lt_of_lt enough)
    obtain ⟨b', budget', rfl⟩ := List.exists_cons_of_length_pos (Nat.zero_lt_of_lt enough')
    have stops {kind : Kind} (ends : kind = .eof ∨ kind = .rbrace) :
        pass? kind = none ∧ pass?' kind = none := by
      rcases loops.passes kind with none | ⟨pass, _, taken, _⟩
      · exact none
      · obtain ⟨_, notBrace, notEnd⟩ := loops.first.inside taken
        exact (ends.elim notEnd notBrace).elim
    rcases ahead_cases mark faults flat inside with
      ⟨ends, marked⟩ | ⟨_, _, same, moved⟩
    · rw [loops.first.stops (ends ▸ (stops (.inl rfl)).1),
        loops.second.stops (marked ▸ (stops closes).2)]
      exact .ok (.refl c) inside
    · rcases loops.passes c.ahead with ⟨none, none'⟩ | ⟨pass, pass', taken, taken', curtails⟩
      · rw [loops.first.stops none, loops.second.stops (same ▸ none')]
        exact .ok (.refl c) inside
      · rw [loops.first.goes taken, loops.second.goes (same ▸ taken'), inside.advance_upTo]
        have flat' := flat.onward (onward_advance c)
        refine Curtailed.trans (onward_advance c) ?_
        refine ((curtails a).curtailed faults flat' moved).bind fun longer d onward inside' => ?_
        refine ih longer (flat'.onward onward) inside' ?_ (Nat.le_of_succ_le_succ enough)
          (Nat.le_of_succ_le_succ enough')
        have shorter : d.tokens.length ≤ c.tokens.tail.length := onward.tokens.length_le
        rw [List.length_tail] at shorter
        omega

/-- A loop whose budget is what the cursor has in front of it, and what follows the loop. -/
theorem CurtailedLoops.then (loops : CurtailedLoops mark loop loop' pass? pass?')
    {f g : α → Parse β} (a : α) (behind : ∀ a, Curtails mark Inside Post (f a) (g a)) :
    Curtails mark Inside Post (do f (← loop (← get).tokens a))
      (do g (← loop' (← get).tokens a)) := by
  constructor
  intro c faults flat inside
  have longer : c.tokens.length ≤ (c.upTo mark faults).tokens.length := by
    rw [Cursor.upTo, List.length_append]
    exact Nat.le_add_right ..
  have looped :=
    loops.curtailed closes a faults flat inside (Nat.le_refl _) (Nat.le_refl _) longer
  exact looped.bind fun a d onward inside' =>
    (behind a).curtailed faults (flat.onward onward) inside'

end Loops

/-! ## Routines -/

section Routines

variable {mark : Token} {inner inner' : Inner}

/-- The second parser for the next level does what the first one does, or gives up. -/
def Curtailing (mark : Token) (inner inner' : Inner) : Prop :=
  ∀ level, Curtails mark Anywhere Inside (inner level) (inner' level)

variable (closes : mark.Closes)

include closes

theorem curtails_parameters : Curtails mark Inside Inside parameters parameters := by
  have loops : CurtailedLoops mark moreParameters moreParameters _ _ := {
    first := loops_moreParameters
    second := loops_moreParameters
    passes := fun kind => by
      split
      · exact .inr ⟨_, _, rfl, rfl, fun read =>
          (curtails_identifier closes).bind fun name => curtails_pure _⟩
      · exact .inl ⟨rfl, rfl⟩ }
  refine curtails_ite closes (by decide) ?_ ?_
  · exact (curtails_advance (by decide)).bind fun _ => curtails_pure _
  · refine (curtails_identifier closes).bind fun first => loops.then closes _ fun read => ?_
    exact (curtails_expect closes (by decide)).bind fun _ => curtails_pure _

omit closes in
/-- Without braces there is no block. -/
theorem curtails_bracedBlock (closes : mark.Closes) :
    Curtails mark Inside Inside (bracedBlock inner) (bracedBlock inner') := by
  have fails : Curtails mark Inside (fun _ => False) (expect .lbrace) (expect .lbrace) := by
    refine curtails_ahead (fun got notBrace notEnd => ?_) ?_
    · rw [if_neg notBrace]
      exact curtails_throw_of_marked_eq (Fault.marked_unexpected notEnd)
    · rw [if_neg (by decide), if_neg (closes.ne (by decide))]
      exact curtails_throw _
  exact fails.bind fun _ => ⟨fun _ _ never => never.elim⟩

variable (curtailing : Curtailing mark inner inner')

include curtailing

theorem curtails_items {closer : Kind} (plain : closer ≠ .eof ∧ closer ≠ .rbrace) :
    Curtails mark Inside Inside (items inner closer) (items inner' closer) := by
  have loops : CurtailedLoops mark (moreItems inner) (moreItems inner') _ _ := {
    first := loops_moreItems inner
    second := loops_moreItems inner'
    passes := fun kind => by
      split
      · exact .inr ⟨_, _, rfl, rfl, fun read =>
          curtails_advance_bind ((curtailing .lowest).bind fun item => curtails_pure _)⟩
      · exact .inl ⟨rfl, rfl⟩ }
  refine curtails_ite closes plain ?_ ?_
  · exact (curtails_advance plain.1).bind fun _ => curtails_pure _
  · refine curtails_advance_bind ((curtailing .lowest).bind fun first => ?_)
    refine loops.then closes _ fun read => ?_
    exact (curtails_expect closes plain).bind fun _ => curtails_pure _

/-- An expression and the token that closes what it stands in. -/
theorem curtails_group {closer : Kind} (plain : closer ≠ .eof ∧ closer ≠ .rbrace) {α : Type}
    (f : Expr → α) : Curtails mark Anywhere Inside
      (do let value ← inner .lowest; expect closer; return f value)
      (do let value ← inner' .lowest; expect closer; return f value) :=
  (curtailing .lowest).bind fun _ => (curtails_expect closes plain).bind fun _ => curtails_pure _

theorem curtails_conditional :
    Curtails mark Inside Inside (conditional inner) (conditional inner') := by
  refine (curtails_expect closes (by decide)).bind fun _ => curtails_advance_bind ?_
  refine (curtailing .lowest).bind fun condition => ?_
  refine (curtails_expect closes (by decide)).bind fun _ => ?_
  refine (curtails_bracedBlock closes).bind fun consequence => ?_
  refine curtails_ite closes (by decide) ?_ (curtails_pure _)
  refine (curtails_advance (by decide)).bind fun _ => ?_
  exact (curtails_bracedBlock closes).bind fun _ => curtails_pure _

omit curtailing in
theorem curtails_function : Curtails mark Inside Inside (function inner) (function inner') :=
  (curtails_expect closes (by decide)).bind fun _ => (curtails_parameters closes).bind fun _ =>
    (curtails_bracedBlock closes).bind fun _ => curtails_pure _

omit closes curtailing in
theorem operand_of_closes (inner : Inner) {c : Cursor} (closes : c.current.Closes) :
    operand inner c = .error (.noOperand c.current.kind c.current.literal) c := by
  unfold operand
  rw [current_bind]
  rcases closes with ends | closed
  · rw [ends]
    rfl
  · rw [closed]
    rfl

/-- Behind the last token no operand starts, and none at the mark. -/
theorem curtails_operand : Curtails mark Anywhere Inside (operand inner) (operand inner') := by
  constructor
  intro c faults flat _
  by_cases inside : c.Inside
  · refine (curtails_current fun t notEnd => ?_).curtailed faults flat inside
    cases kind : t.kind with
    | eof => exact (notEnd kind).elim
    | ident | string | trueWord | falseWord => exact curtails_pure _
    | int =>
      dsimp only
      split
      · exact curtails_pure _
      · exact curtails_throw_of_marked_eq rfl
    | bang | minus =>
      exact curtails_advance_bind ((curtailing .unary).bind fun _ => curtails_pure _)
    | lparen => exact curtails_advance_bind (curtails_group closes curtailing (by decide) id)
    | ifWord => exact curtails_conditional closes curtailing
    | function => exact curtails_function closes
    | lbracket =>
      exact (curtails_items closes curtailing (by decide)).bind fun _ => curtails_pure _
    | _ => exact curtails_throw_of_marked_eq (Fault.marked_noOperand (by decide))
  · have none : c.tokens = [] := not_not.mp inside
    have ends : c.current = .eof := by rw [Cursor.current, none]; rfl
    have marked : (c.upTo mark faults).current = mark := by rw [Cursor.current, upTo, none]; rfl
    rw [operand_of_closes inner (.inl (by rw [ends]; rfl)),
      operand_of_closes inner' (by rw [marked]; exact closes), ends, marked]
    exact .error (.refl c)

theorem curtails_linked (left : Expr) (link : Link) :
    Curtails mark Inside Inside (linked inner left link) (linked inner' left link) := by
  cases link with
  | operator op => exact curtails_advance_bind ((curtailing _).bind fun _ => curtails_pure _)
  | call => exact (curtails_items closes curtailing (by decide)).bind fun _ => curtails_pure _
  | subscript => exact curtails_advance_bind (curtails_group closes curtailing (by decide) _)

theorem curtails_links (level : Precedence) (left : Expr) : Curtails mark Inside Inside
    (do links inner level (← get).tokens left : Parse Expr)
    (do links inner' level (← get).tokens left) := by
  have loops : CurtailedLoops mark (links inner level) (links inner' level) _ _ := {
    first := loops_links inner level
    second := loops_links inner' level
    passes := fun kind => by
      cases kind.linkAbove? level with
      | none => exact .inl ⟨rfl, rfl⟩
      | some link =>
        exact .inr ⟨_, _, rfl, rfl, fun left => curtails_linked closes curtailing left link⟩ }
  have done (left : Expr) : Curtails mark Inside Inside (pure left : Parse Expr) (pure left) :=
    curtails_pure left
  simpa only [bind_pure] using loops.then closes left done

/-- The expression of a statement, and what follows it. -/
theorem curtails_sentence (make : Expr → Stmt) : Curtails mark Anywhere Inside
    (do let value ← inner .lowest; semicolon; return make value : Parse Stmt)
    (do let value ← inner' .lowest; semicolon; return make value) :=
  (curtailing .lowest).bind fun _ => (curtails_semicolon closes).bind fun _ => curtails_pure _

theorem curtails_statement : Curtails mark Inside Inside (statement inner) (statement inner') := by
  refine curtails_current fun t _ => ?_
  cases t.kind with
  | letWord =>
    refine (curtails_identifier closes).bind fun name => ?_
    refine (curtails_expect closes (by decide)).bind fun _ => curtails_advance_bind ?_
    exact curtails_sentence closes curtailing _
  | returnWord => exact curtails_advance_bind (curtails_sentence closes curtailing _)
  | _ => exact (curtails_sentence closes curtailing .expr).narrow fun _ _ => trivial

end Routines

/-- Less room makes no difference but that there may not be enough of it. -/
theorem curtailing_expression {mark : Token} (closes : mark.Closes) {room room' : Nat}
    (le : room' ≤ room) : Curtailing mark (expression room) (expression room') := by
  induction room' generalizing room with
  | zero => exact fun level => curtails_tooDeep _
  | succ room' ih =>
    obtain ⟨room, rfl⟩ := Nat.exists_eq_add_of_le' (Nat.le_trans (Nat.le_add_left 1 room') le)
    have inside := ih (Nat.le_of_succ_le_succ le)
    exact fun level => (curtails_operand closes inside).bind fun left =>
      curtails_links closes inside level left

/-! ## Statements without blocks -/

/-- In the tokens of a statement without blocks there is no place to resume at. -/
theorem recover_of_unbroken {ts : List Token} (inside : ∀ t ∈ ts, t.kind ≠ .eof)
    (unbroken : Unbroken ts) {c : Cursor} (onward : c.tokens <:+ ts ++ [.eof]) :
    (c.recover .program).advance.tokens = [] := by
  change (c.tokens.dropWhile _).tail = []
  rcases List.suffix_concat_iff.mp onward with none | ⟨back, same, suffix⟩
  · rw [none]
    rfl
  · have skipped : ∀ t ∈ back, (!Region.program.resumesAt t.kind) = true := by
      intro t member
      have notEnd := inside t (suffix.subset member)
      have noMark := (unbroken t (suffix.subset member)).2
      simp [Region.resumesAt, Region.closer, notEnd, noMark]
    rw [same, List.dropWhile_append_of_pos skipped]
    rfl

/-- A statement without blocks that the grammar allows is read as a whole, unless it nests too
deeply. Then this is the one fault that it has. -/
theorem parse_or_tooDeep {room : Nat} {s : Stmt} {ts : List Token}
    (derives : Derives room (.statement s) ts) (unbroken : Unbroken ts) :
    parse (ts ++ [.eof]) = ([s], []) ∨ parse (ts ++ [.eof]) = ([], [.nestingTooDeep]) := by
  have inside : ∀ t ∈ ts, t.kind ≠ .eof := fun t member => (derives.inside t member).1
  have flat : (ofTokens ts).Flat := fun t member => ⟨(unbroken t member).1, inside t member⟩
  -- With room enough the statement is read, and the room that there is is not more.
  obtain ⟨t', read⟩ := reads_of_derives (derives.mono (Nat.le_max_left room maxNesting))
    #[] (show Follows .lowest [] from ⟨rfl, by decide⟩)
  obtain ⟨t, us, rfl, opens⟩ := derives.opens
  generalize start : (ofTokens (t :: us)).upTo .eof #[] = c
  have unclosed : c.current.kind ≠ Region.program.closer := by
    rw [← start]
    exact (opensStmt_ne_closer opens .program).1
  have closes : Token.eof.Closes := .inl rfl
  have lessRoom := curtailing_expression closes (Nat.le_max_right room maxNesting)
  have curtailed := (curtails_statement closes lessRoom).curtailed #[] flat nofun
  rw [List.append_nil] at read
  rw [start, ofTokens, read] at curtailed
  generalize outcome : statement (expression maxNesting) c = r at curtailed
  have tokens : c.tokens = t :: (us ++ [.eof]) := by rw [← start]; rfl
  have whole : ofTokens (t :: us ++ [.eof]) = c := start
  unfold parse Parse.program
  rw [whole, tokens]
  cases curtailed with
  | ok _ =>
    left
    rw [statements_of_ok unclosed unclosed outcome, statements_of_end]
    · rfl
    · exact .inl rfl
  | @tooDeep _ d onward =>
    right
    have ended :
        (((d.upTo .eof #[]).record .nestingTooDeep).recover .program).advance.tokens = [] :=
      recover_of_unbroken inside unbroken (onward.upTo .eof #[]).tokens
    rw [statements_of_error unclosed unclosed outcome, if_neg (by simp), statements_of_end]
    · rfl
    · right
      rw [Cursor.current, ended]
      rfl

end Parse

end Stacklet
