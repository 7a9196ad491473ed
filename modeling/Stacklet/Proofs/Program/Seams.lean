import Stacklet.Proofs.Program.Joined

/-!
# Parsing piece by piece

A token list that ends in a semicolon can be read on its own (`parse_append`): what
stands in front of it does not change what is read behind it, whatever faults it has,
and the other way round. Only a block must not be left open.

An end token ends the program, unless the last statement in front of it is broken off. Then it
is skipped with what is left of the statement, as a semicolon would be, and reading goes on
behind it (`parse_append_eof`).

Every routine agrees with itself on joined cursors, by recursion on the number of
expressions that may still be opened (`agreeing_expression`). The loops inside a
statement are alike (`Loops`). For the loop over statements there is more to say, since
it moves off semicolons, and off end tokens (`SameEnd`).
-/

namespace Stacklet

namespace Parse

section Routines

variable {inner : Inner} {seam : Seam} {before : Array Fault} {limit : Nat} {c c' : Cursor}

/-- The parser for the next level agrees with itself, and ends on a token that is no
semicolon. -/
def Agreeing (inner : Inner) : Prop :=
  ∀ level, Agrees (fun _ => True) Cursor.Within (inner level)

/-! ## Loops -/

section Loops

variable {α β : Type} {loop : List Token → α → Parse α} {pass? : Kind → Option (α → Parse α)}

/-- Both runs stop at the same token, and each pass takes a token. So a budget that lasts for
the first one makes no difference. -/
theorem Loops.agree (loops : Loops loop pass?)
    (passes : ∀ {kind : Kind} {pass : α → Parse α},
      pass? kind = some pass → ∀ a, Agrees Cursor.Within Cursor.Within (pass a))
    {budget budget' : List Token} {a : α}
    (joined : Joined seam before limit c c') (within : c.Within)
    (enough : limit ≤ budget.length) (enough' : limit ≤ budget'.length) :
    Agree seam before limit Cursor.Within (loop budget a c) (loop budget' a c') := by
  induction limit generalizing budget budget' a c c' with
  | zero => exact (Cursor.OnToken.ne_nil within.2 joined.of_zero).elim
  | succ limit ih =>
    obtain ⟨b, budget, rfl⟩ := List.exists_cons_of_length_pos (Nat.zero_lt_of_lt enough)
    obtain ⟨b', budget', rfl⟩ := List.exists_cons_of_length_pos (Nat.zero_lt_of_lt enough')
    have same := joined.ahead_eq within
    cases taken : pass? c.ahead with
    | none =>
      rw [loops.stops taken, loops.stops (by rw [same]; exact taken)]
      exact .ok joined within
    | some pass =>
      rw [loops.goes taken, loops.goes (by rw [same]; exact taken)]
      have first : Joined seam before limit c.advance c'.advance := joined.advance within
      have within' : c.advance.Within := ⟨(loops.inside taken).1, (loops.inside taken).2.2⟩
      refine Agree.mono ?_ (Nat.le_succ limit)
      refine ((passes taken a).agree first within').bind fun longer d d' joined' post => ?_
      exact ih joined' post (Nat.le_of_succ_le_succ enough) (Nat.le_of_succ_le_succ enough')

/-- A loop whose budget is what the cursor has in front of it, and what follows the loop. -/
theorem Loops.agrees_then (loops : Loops loop pass?)
    (passes : ∀ {kind : Kind} {pass : α → Parse α},
      pass? kind = some pass → ∀ a, Agrees Cursor.Within Cursor.Within (pass a))
    {Post : Cursor → Prop} {f : α → Parse β} (a : α)
    (behind : ∀ a, Agrees Cursor.Within Post (f a)) :
    Agrees Cursor.Within Post (do f (← loop (← get).tokens a)) := by
  constructor
  intro seam before limit c c' joined within
  have longer : c.tokens.length ≤ c'.tokens.length := by
    rw [joined.tokens, List.length_append]
    exact Nat.le_add_right ..
  have looped : Agree seam before limit Cursor.Within (loop c.tokens a c)
      (loop c'.tokens a c') :=
    (loops.agree passes joined.tight within (Nat.le_refl _) longer).mono joined.length
  exact looped.bind fun a d d' joined' within' => (behind a).agree joined' within'

end Loops

/-! ## Lists -/

theorem agrees_nextItem (agreeing : Agreeing inner) {kind : Kind}
    {pass : Array Expr → Parse (Array Expr)}
    (taken : (if kind = .comma then some (nextItem inner) else none) = some pass)
    (read : Array Expr) : Agrees Cursor.Within Cursor.Within (pass read) := by
  obtain ⟨_, ⟨⟩⟩ := Option.ite_none_right_eq_some.mp taken
  exact agrees_advance_bind ((agreeing .lowest).bind fun item => agrees_pure _)

theorem agrees_nextParameter {kind : Kind} {pass : Array String → Parse (Array String)}
    (taken : (if kind = .comma then some nextParameter else none) = some pass)
    (read : Array String) : Agrees Cursor.Within Cursor.Within (pass read) := by
  obtain ⟨_, ⟨⟩⟩ := Option.ite_none_right_eq_some.mp taken
  exact (agrees_identifier.within (by decide)).bind fun name => agrees_pure _

/-- A list that is closed by anything but a semicolon and the end. -/
theorem agrees_items (agreeing : Agreeing inner) {closer : Kind}
    (other : closer ≠ .semicolon ∧ closer ≠ .eof) :
    Agrees Cursor.Within Cursor.Within (items inner closer) := by
  apply agrees_ahead
  intro kind
  split
  · rename_i found
    subst found
    exact (agrees_advance.within other).bind fun _ => agrees_pure _
  · apply (agrees_advance_bind _).narrow fun _ pre => pre.1
    refine (agreeing .lowest).bind fun first => ?_
    refine (loops_moreItems inner).agrees_then (agrees_nextItem agreeing) _ fun read => ?_
    exact ((agrees_expect closer).within other).bind fun _ => agrees_pure _

theorem agrees_parameters : Agrees Cursor.Within (Cursor.On .rparen) parameters := by
  apply agrees_ahead
  intro kind
  split
  · rename_i found
    subst found
    exact agrees_advance.bind fun _ => agrees_pure _
  · apply Agrees.narrow _ fun _ pre => pre.1
    refine (agrees_identifier.within (by decide)).bind fun first => ?_
    refine loops_moreParameters.agrees_then agrees_nextParameter _ fun read => ?_
    exact (agrees_expect .rparen).bind fun _ => agrees_pure _

/-! ## Expressions -/

section Expressions

variable (agreeing : Agreeing inner)
  (blocks : Agrees (Cursor.On .lbrace) (Cursor.On .rbrace) (block inner))

theorem agrees_bracedBlock (blocks : Agrees (Cursor.On .lbrace) (Cursor.On .rbrace) (block inner)) :
    Agrees Cursor.Within Cursor.Within (bracedBlock inner) :=
  (agrees_expect .lbrace).bind fun _ => blocks.within (by decide)

include agreeing in
theorem agrees_group {closer : Kind}
    (other : closer ≠ .semicolon ∧ closer ≠ .eof) {α : Type} (f : Expr → α) :
    Agrees (fun _ => True) Cursor.Within
      (do let value ← inner .lowest; expect closer; return f value) :=
  (agreeing .lowest).bind fun _ => ((agrees_expect closer).within other).bind fun _ => agrees_pure _

include agreeing blocks

theorem agrees_conditional : Agrees Cursor.Within Cursor.Within (conditional inner) := by
  have braced := agrees_bracedBlock blocks
  refine ((agrees_expect .lparen).within (by decide)).bind fun _ => agrees_advance_bind ?_
  refine (agreeing .lowest).bind fun condition => ?_
  refine ((agrees_expect .rparen).within (by decide)).bind fun _ => ?_
  refine braced.bind fun consequence => agrees_ahead fun kind => ?_
  split
  · rename_i found
    subst found
    refine (agrees_advance.within (by decide)).bind fun _ => ?_
    exact braced.bind fun alternative => agrees_pure _
  · exact (agrees_pure _).narrow fun _ pre => pre.1

omit agreeing in
theorem agrees_function : Agrees Cursor.Within Cursor.Within (function inner) := by
  refine ((agrees_expect .lparen).within (by decide)).bind fun _ => ?_
  refine (agrees_parameters.within (by decide)).bind fun names => ?_
  exact (agrees_bracedBlock blocks).bind fun body => agrees_pure _

/-- Where no operand starts, as at a semicolon, reading fails on the spot. -/
theorem agrees_operand : Agrees (fun _ => True) Cursor.Within (operand inner) := by
  apply agrees_current
  intro t
  have signed : ∀ (op : UnaryOp), Agrees Cursor.Within Cursor.Within
      (do advance; return .unary op (← inner .unary) : Parse Expr) := fun op =>
    agrees_advance_bind ((agreeing .unary).bind fun value => agrees_pure _)
  cases same : t.kind with
  | ident | string | trueWord | falseWord => exact (agrees_pure _).on_token same (by decide)
  | int =>
    dsimp only
    split
    · exact (agrees_pure _).on_token same (by decide)
    · exact agrees_throw _
  | bang => exact (signed .not).on_token same (by decide)
  | minus => exact (signed .negate).on_token same (by decide)
  | lparen =>
    exact (agrees_advance_bind (agrees_group agreeing (by decide) _)).on_token same (by decide)
  | ifWord => exact (agrees_conditional agreeing blocks).on_token same (by decide)
  | function => exact (agrees_function blocks).on_token same (by decide)
  | lbracket =>
    exact ((agrees_items agreeing (by decide)).bind fun _ => agrees_pure _).on_token same
      (by decide)
  | _ => exact agrees_throw _

omit blocks in
theorem agrees_linked (left : Expr) (link : Link) :
    Agrees Cursor.Within Cursor.Within (linked inner left link) := by
  cases link with
  | operator op =>
    exact agrees_advance_bind ((agreeing op.precedence).bind fun right => agrees_pure _)
  | call => exact (agrees_items agreeing (by decide)).bind fun _ => agrees_pure _
  | subscript => exact agrees_advance_bind (agrees_group agreeing (by decide) _)

omit blocks in
/-- The loop over the links is the last thing an expression does. -/
theorem agrees_links (level : Precedence) (left : Expr) :
    Agrees Cursor.Within Cursor.Within
      (do links inner level (← get).tokens left : Parse Expr) := by
  have looped : Agrees Cursor.Within Cursor.Within
      (get >>= fun c => links inner level c.tokens left >>= pure) :=
    (loops_links inner level).agrees_then (fun taken left => by
      obtain ⟨link, _, rfl⟩ := Option.map_eq_some_iff.mp taken
      exact agrees_linked agreeing left link) left agrees_pure
  simpa only [bind_pure] using looped

end Expressions

/-! ## Statements -/

/-- The expression of a statement, and what follows it. -/
theorem agrees_sentence (agreeing : Agreeing inner) (make : Expr → Stmt) :
    Agrees (fun _ => True) Cursor.OnToken
      (do let value ← inner .lowest; semicolon; return make value : Parse Stmt) :=
  (agreeing .lowest).bind fun _ => agrees_semicolon.bind fun _ => agrees_pure _

theorem agrees_statement (agreeing : Agreeing inner) :
    Agrees (fun _ => True) Cursor.OnToken (statement inner) := by
  apply agrees_current
  intro t
  cases same : t.kind with
  | letWord =>
    refine Agrees.on_token ?_ same (by decide)
    refine (agrees_identifier.within (by decide)).bind fun name => ?_
    refine ((agrees_expect .assign).within (by decide)).bind fun _ => ?_
    exact agrees_advance_bind (agrees_sentence agreeing _)
  | returnWord =>
    exact (agrees_advance_bind (agrees_sentence agreeing _)).on_token same (by decide)
  | _ => exact (agrees_sentence agreeing _).narrow fun _ _ => trivial

/-- Whether the last statement has a fault and no token follows at which reading goes on. -/
def breaksOff (inner : Inner) (region : Region) : List Token → Cursor → Bool
  | [], _ => false
  | _ :: budget, c =>
    if c.current.kind = region.closer || c.current.kind = .eof then false
    else
      match statement inner c with
      | .ok _ c => breaksOff inner region budget c.advance
      | .error fault c =>
        let c := (c.record fault).recover region
        if region = .block && c.current.kind = .rbrace then false
        else c.current.kind = .eof || breaksOff inner region budget c.advance

theorem breaksOff_of_end {region : Region} (budget : List Token)
    (ends : c.current.kind = region.closer ∨ c.current.kind = .eof) :
    breaksOff inner region budget c = false := by
  cases budget with
  | nil => rfl
  | cons b budget =>
    unfold breaksOff
    rw [if_pos (by simpa using ends)]

section BreaksOff

variable {region : Region} {b : Token} {budget : List Token} {d : Cursor}
  (unclosed : c.current.kind ≠ region.closer) (more : c.current.kind ≠ .eof)

include unclosed more

theorem breaksOff_of_ok {s : Stmt} (success : statement inner c = .ok s d) :
    breaksOff inner region (b :: budget) c = breaksOff inner region budget d.advance := by
  rw [breaksOff, if_neg (by simp [unclosed, more]), success]

theorem breaksOff_of_error {fault : Fault} (failed : statement inner c = .error fault d) :
    breaksOff inner region (b :: budget) c =
      if region = .block && ((d.record fault).recover region).current.kind = .rbrace then false
      else decide (((d.record fault).recover region).current.kind = .eof) ||
        breaksOff inner region budget ((d.record fault).recover region).advance := by
  rw [breaksOff, if_neg (by simp [unclosed, more]), failed]

end BreaksOff

/-- What two runs over statements come to, where the second one had read some others
before. They end together, or the first one is at the end of its tokens and the second one goes
on behind the seam. If the seam is an end token, the second one does so just if the first one
breaks off. If a block was open there, it is lost. -/
inductive SameEnd (inner : Inner) (region : Region) (seam : Seam) (before : Array Fault)
    (limit : Nat) (first : Array Stmt) (broken : Bool) :
    Array Stmt × Cursor → Array Stmt × Cursor → Prop
  | together {read : Array Stmt} {c c' : Cursor} :
    Joined seam before limit c c' →
    c.current.kind = region.closer ∨ c.current.kind = .eof →
    (seam.tokens = [] ∨ broken = false) →
    SameEnd inner region seam before limit first broken (read, c) (first ++ read, c')
  | behind {read : Array Stmt} {faults : Array Fault} {budget : List Token} :
    seam.tokens ≠ [] → seam.others.length ≤ budget.length → broken = decide (seam.mark = .eof) →
    SameEnd inner region seam before limit first broken (read, ⟨[], faults⟩)
      (statements inner region budget (first ++ read) ⟨seam.others, before ++ faults⟩)
  | lost {read : Array Stmt} {c : Cursor} {outcome : Array Stmt × Cursor} :
    seam.tokens ≠ [] → c.tokens = [] → .unexpected .rbrace .eof ∈ c.faults → broken = true →
    SameEnd inner region seam before limit first broken (read, c) outcome

section SameEnd

variable {region : Region} {first : Array Stmt} {broken : Bool}
  {outcome outcome' : Array Stmt × Cursor}

theorem SameEnd.mono {limit' : Nat}
    (same : SameEnd inner region seam before limit first broken outcome outcome')
    (le : limit ≤ limit') :
    SameEnd inner region seam before limit' first broken outcome outcome' := by
  cases same with
  | together joined ends whole => exact .together (joined.mono le) ends whole
  | behind follow enough off => exact .behind follow enough off
  | lost follow none fault off => exact .lost follow none fault off

/-- Without tokens behind the seam, breaking off makes no difference. -/
theorem SameEnd.of_nothing {broken' : Bool} (nothing : seam.tokens = [])
    (same : SameEnd inner region seam before limit first broken outcome outcome') :
    SameEnd inner region seam before limit first broken' outcome outcome' := by
  cases same with
  | together joined ends _ => exact .together joined ends (.inl nothing)
  | behind follow _ _ => exact (follow nothing).elim
  | lost follow _ _ _ => exact (follow nothing).elim

end SameEnd

/-- At the end of the tokens there are no statements to read. -/
theorem statements_of_nil (inner : Inner) (region : Region) (budget : List Token)
    (read : Array Stmt) (faults : Array Fault) :
    statements inner region budget read ⟨[], faults⟩ = (read, ⟨[], faults⟩) :=
  statements_of_end inner budget read (.inr rfl)

/-- Behind a statement both runs go on, or only the second one. -/
theorem sameEnd_advance {region : Region} {budget budget' : List Token}
    {first read : Array Stmt} (joined : Joined seam before (limit + 1) c c')
    (enough : seam.others.length ≤ budget'.length)
    (moved : Joined seam before limit c.advance c'.advance →
      SameEnd inner region seam before limit first (breaksOff inner region budget c.advance)
        (statements inner region budget read c.advance)
        (statements inner region budget' (first ++ read) c'.advance)) :
    SameEnd inner region seam before (limit + 1) first
      (decide (c.current.kind = .eof) || breaksOff inner region budget c.advance)
      (statements inner region budget read c.advance)
      (statements inner region budget' (first ++ read) c'.advance) := by
  rcases joined.advance_cases with ⟨joined', nothing | onToken⟩ | ⟨follow, on, ends, behind⟩
  · exact ((moved joined').mono (Nat.le_succ limit)).of_nothing nothing
  · rw [decide_eq_false onToken, Bool.false_or]
    exact (moved joined').mono (Nat.le_succ limit)
  · rw [ends, behind, statements_of_nil, breaksOff_of_end budget (.inr rfl), Bool.or_false]
    exact .behind follow enough (by rw [on])

section OfNil

variable {region : Region} {b : Token} {budget : List Token} {fault : Fault} {d : Cursor}
  (unclosed : c.current.kind ≠ region.closer) (more : c.current.kind ≠ .eof)
  (failed : statement inner c = .error fault d) (none : d.tokens = [])

theorem recover_of_nil (none : d.tokens = []) :
    (d.record fault).recover region = ⟨[], d.faults.push fault⟩ := by
  rw [Cursor.recover, Cursor.record, none]
  rfl

include unclosed more failed none

/-- A statement that fails at the end of the tokens is the last one. -/
theorem statements_of_error_of_nil {read : Array Stmt} :
    statements inner region (b :: budget) read c = (read, ⟨[], d.faults.push fault⟩) := by
  have noBrace : (Cursor.current ⟨[], d.faults.push fault⟩).kind ≠ .rbrace := by
    intro same
    cases same
  rw [statements_of_error unclosed more failed, recover_of_nil none, if_neg (by simp [noBrace])]
  exact statements_of_nil inner region budget read _

theorem breaksOff_of_error_of_nil : breaksOff inner region (b :: budget) c = true := by
  rw [breaksOff_of_error unclosed more failed, recover_of_nil none]
  cases region <;> rfl

end OfNil

/-- Each statement takes both runs on together, until the first one is at the end. -/
theorem sameEnd_statements (agreeing : Agreeing inner) {region : Region}
    {budget budget' : List Token} {first read : Array Stmt}
    (joined : Joined seam before limit c c') (enough : limit ≤ budget.length)
    (enough' : limit + seam.others.length ≤ budget'.length) :
    SameEnd inner region seam before limit first (breaksOff inner region budget c)
      (statements inner region budget read c)
      (statements inner region budget' (first ++ read) c') := by
  induction limit generalizing budget budget' read c c' with
  | zero =>
    have ends : c.current.kind = .eof :=
      congrArg Token.kind (Cursor.current_of_nil joined.of_zero)
    rw [statements_of_end inner budget read (.inr ends), breaksOff_of_end budget (.inr ends),
      statements_of_end inner budget' _ (.inr (by rw [joined.current_eq]; exact ends))]
    exact .together joined (.inr ends) (.inr rfl)
  | succ limit ih =>
    have same := joined.current_eq
    by_cases ends : c.current.kind = region.closer ∨ c.current.kind = .eof
    · rw [statements_of_end inner budget read ends, breaksOff_of_end budget ends,
        statements_of_end inner budget' _ (by rw [same]; exact ends)]
      exact .together joined ends (.inr rfl)
    · obtain ⟨unclosed, more⟩ := not_or.mp ends
      have unclosed' : c'.current.kind ≠ region.closer := by rw [same]; exact unclosed
      have more' : c'.current.kind ≠ .eof := by rw [same]; exact more
      obtain ⟨b, budget, rfl⟩ := List.exists_cons_of_length_pos (Nat.zero_lt_of_lt enough)
      have some' : 0 < budget'.length := by omega
      obtain ⟨b', budget', rfl⟩ := List.exists_cons_of_length_pos some'
      rw [List.length_cons] at enough enough'
      have next : ∀ (read : Array Stmt) {d d' : Cursor}, Joined seam before (limit + 1) d d' →
          SameEnd inner region seam before (limit + 1) first
            (decide (d.current.kind = .eof) || breaksOff inner region budget d.advance)
            (statements inner region budget read d.advance)
            (statements inner region budget' (first ++ read) d'.advance) := fun _ _ _ joined' =>
        sameEnd_advance joined' (by omega) fun moved => ih moved (by omega) (by omega)
      have agree := (agrees_statement agreeing).agree joined trivial
      generalize outcome : statement inner c = r at agree
      generalize outcome' : statement inner c' = r' at agree
      cases agree with
      | ok joined' onToken =>
        rename_i s d d'
        have moved := next (read.push s) joined'
        rw [decide_eq_false onToken, Bool.false_or] at moved
        rwa [statements_of_ok unclosed more outcome, statements_of_ok unclosed' more' outcome',
          breaksOff_of_ok unclosed more outcome, ← Array.append_push]
      | error joined' =>
        rename_i fault d d'
        have skipped := (joined'.record fault).recover region
        rw [statements_of_error unclosed more outcome, breaksOff_of_error unclosed more outcome,
          statements_of_error unclosed' more' outcome', skipped.current_eq]
        split
        · rename_i closed
          have isBlock : region = .block := of_decide_eq_true (Bool.and_eq_true_iff.mp closed).1
          have rbrace := of_decide_eq_true (Bool.and_eq_true_iff.mp closed).2
          subst isBlock
          exact .together skipped (.inl rbrace) (.inr rfl)
        · exact next read skipped
      | lost follow none =>
        rw [statements_of_error_of_nil unclosed more outcome none,
          breaksOff_of_error_of_nil unclosed more outcome none]
        exact .lost follow rfl Array.mem_push_self rfl

/-- A block that is open at the end of the tokens fails. -/
theorem agrees_block (agreeing : Agreeing inner) :
    Agrees (Cursor.On .lbrace) (Cursor.On .rbrace) (block inner) := by
  constructor
  intro seam before limit c c' joined on
  have moved := joined.advance (on.within (by decide))
  have enough : c.advance.tokens.length + seam.others.length ≤ c'.advance.tokens.length := by
    rw [moved.tokens, List.length_append]
    exact Nat.add_le_add_left seam.length_others_le _
  have le : c.advance.tokens.length ≤ limit := Nat.le_trans moved.length (Nat.sub_le limit 1)
  have same : SameEnd inner .block seam before limit #[]
      (breaksOff inner .block c.advance.tokens c.advance)
      (statements inner .block c.advance.tokens #[] c.advance)
      (statements inner .block c'.advance.tokens #[] c'.advance) :=
    (sameEnd_statements agreeing moved.tight (Nat.le_refl _) enough).mono le
  unfold block
  dsimp only
  generalize statements inner .block c.advance.tokens #[] c.advance = r at same
  generalize statements inner .block c'.advance.tokens #[] c'.advance = r' at same
  cases same with
  | together joined' ends _ =>
    dsimp only
    rw [joined'.current_eq, Array.empty_append]
    split
    · rename_i rbrace
      exact .ok joined' rbrace
    · exact .error joined'
  | behind follow _ _ => exact .lost follow rfl
  | lost follow none _ _ =>
    dsimp only
    rw [if_neg]
    · exact .lost follow none
    · rw [Cursor.current, none]
      decide

/-- Only the level on which an expression stands is used up by what is inside it. -/
theorem agreeing_expression (room : Nat) : Agreeing (expression room) := by
  induction room with
  | zero => exact fun level => agrees_throw _
  | succ room ih =>
    intro level
    refine (agrees_operand ih (agrees_block ih)).bind fun left => ?_
    exact agrees_links ih level left

/-- What was read and recorded before stays in front of what comes. -/
theorem statements_before (agreeing : Agreeing inner) (region : Region) (read : Array Stmt)
    (faults : Array Fault) {us budget : List Token} (enough : us.length ≤ budget.length)
    {read' : Array Stmt} (alone : statements inner region us #[] ⟨us, #[]⟩ = (read', c)) :
    ∃ c' : Cursor, statements inner region budget read ⟨us, faults⟩ = (read ++ read', c') ∧
      c'.faults = faults ++ c.faults := by
  have joined : Joined (.semicolon []) faults us.length ⟨us, #[]⟩ ⟨us, faults⟩ :=
    ⟨(List.append_nil us).symm, Array.append_empty.symm, Nat.le_refl _, .inl rfl⟩
  have same : SameEnd inner region (.semicolon []) faults us.length read
      (breaksOff inner region us ⟨us, #[]⟩) (statements inner region us #[] ⟨us, #[]⟩)
      (statements inner region budget (read ++ #[]) ⟨us, faults⟩) :=
    sameEnd_statements agreeing joined (Nat.le_refl _) enough
  rw [alone, Array.append_empty] at same
  generalize statements inner region budget read ⟨us, faults⟩ = outcome at same
  cases same with
  | together joined' _ _ => exact ⟨_, rfl, joined'.faults⟩
  | behind follow _ _ => exact (follow rfl).elim
  | lost follow _ _ _ => exact (follow rfl).elim

theorem length_statement_le (agreeing : Agreeing inner) {c d : Cursor}
    (done : (∃ s, statement inner c = .ok s d) ∨ ∃ fault, statement inner c = .error fault d) :
    d.tokens.length ≤ c.tokens.length := by
  have joined : Joined (.semicolon []) #[] c.tokens.length c c :=
    ⟨(List.append_nil _).symm, Array.empty_append.symm, Nat.le_refl _, .inl rfl⟩
  have agree := (agrees_statement agreeing).agree joined trivial
  rcases done with ⟨s, success⟩ | ⟨fault, failed⟩
  · rw [success] at agree
    cases agree with
    | ok joined' _ => exact joined'.length
  · rw [failed] at agree
    cases agree with
    | error joined' => exact joined'.length
    | lost follow _ => exact (follow rfl).elim

/-- Where no block was left open, the second run comes through behind the semicolon with
what the first one has read. -/
theorem statements_seam (agreeing : Agreeing inner) {ts us : List Token} {read : Array Stmt}
    (ends : Cursor.Ends ⟨ts, #[]⟩) (follow : us ≠ [])
    (alone : statements inner .program ts #[] ⟨ts, #[]⟩ = (read, c))
    (closed : .unexpected .rbrace .eof ∉ c.faults) :
    ∃ budget : List Token, us.length ≤ budget.length ∧
      statements inner .program (ts ++ us) #[] ⟨ts ++ us, #[]⟩ =
        statements inner .program budget read ⟨us, c.faults⟩ := by
  have joined : Joined (.semicolon us) #[] ts.length ⟨ts, #[]⟩ ⟨ts ++ us, #[]⟩ :=
    ⟨rfl, rfl, Nat.le_refl _, .inr ends⟩
  have enough : ts.length + us.length ≤ (ts ++ us).length :=
    Nat.le_of_eq List.length_append.symm
  have same : SameEnd inner .program (.semicolon us) #[] ts.length #[]
      (breaksOff inner .program ts ⟨ts, #[]⟩) (statements inner .program ts #[] ⟨ts, #[]⟩)
      (statements inner .program (ts ++ us) #[] ⟨ts ++ us, #[]⟩) :=
    sameEnd_statements agreeing joined (Nat.le_refl _) enough
  rw [alone] at same
  generalize statements inner .program (ts ++ us) #[] ⟨ts ++ us, #[]⟩ = outcome at same
  cases same with
  | together joined' stops _ =>
    have stops : c.current.kind = .eof := stops.elim id id
    exact (Cursor.Ends.current_ne_eof (joined'.seam.resolve_left follow) stops).elim
  | @behind read faults budget _ enough _ =>
    rw [Array.empty_append, Array.empty_append]
    exact ⟨budget, enough, rfl⟩
  | lost _ _ fault _ => exact (closed fault).elim

/-- An end token comes behind the tokens. If the first run does not break off, the second one
ends with it. If it does, and no block was left open, the second one goes on behind the end
token. -/
theorem statements_eof (agreeing : Agreeing inner) {ts : List Token} (us : List Token)
    {read : Array Stmt} (inside : ∀ t ∈ ts, t.kind ≠ .eof)
    (alone : statements inner .program ts #[] ⟨ts, #[]⟩ = (read, c)) :
    (breaksOff inner .program ts ⟨ts, #[]⟩ = false → ∃ c' : Cursor, c'.faults = c.faults ∧
      statements inner .program (ts ++ .eof :: us) #[] ⟨ts ++ .eof :: us, #[]⟩ = (read, c')) ∧
    (breaksOff inner .program ts ⟨ts, #[]⟩ = true → .unexpected .rbrace .eof ∉ c.faults →
      ∃ budget : List Token, us.length ≤ budget.length ∧
        statements inner .program (ts ++ .eof :: us) #[] ⟨ts ++ .eof :: us, #[]⟩ =
          statements inner .program budget read ⟨us, c.faults⟩) := by
  have joined : Joined (.eof us) #[] ts.length ⟨ts, #[]⟩ ⟨ts ++ .eof :: us, #[]⟩ :=
    ⟨rfl, rfl, Nat.le_refl _, .inr inside⟩
  have enough : ts.length + us.length ≤ (ts ++ .eof :: us).length := by
    rw [List.length_append]
    exact Nat.add_le_add_left (Nat.le_succ _) _
  have same : SameEnd inner .program (.eof us) #[] ts.length #[]
      (breaksOff inner .program ts ⟨ts, #[]⟩) (statements inner .program ts #[] ⟨ts, #[]⟩)
      (statements inner .program (ts ++ .eof :: us) #[] ⟨ts ++ .eof :: us, #[]⟩) :=
    sameEnd_statements agreeing joined (Nat.le_refl _) enough
  rw [alone] at same
  generalize statements inner .program (ts ++ .eof :: us) #[] ⟨ts ++ .eof :: us, #[]⟩ = outcome
    at same
  cases same with
  | together joined' _ whole =>
    have whole := whole.resolve_left (List.cons_ne_nil _ _)
    refine ⟨fun _ => ⟨_, ?_, by rw [Array.empty_append]⟩, fun off => ?_⟩
    · rw [joined'.faults, Array.empty_append]
    · exact Bool.noConfusion (whole.symm.trans off)
  | @behind read faults budget _ enough off =>
    refine ⟨fun whole => Bool.noConfusion (whole.symm.trans off), fun _ _ => ?_⟩
    rw [Array.empty_append, Array.empty_append]
    exact ⟨budget, enough, rfl⟩
  | lost _ _ fault off =>
    exact ⟨fun whole => Bool.noConfusion (whole.symm.trans off),
      fun _ closed => (closed fault).elim⟩

end Routines

end Parse

/-! ## Programs -/

theorem parse_of_statements {tokens : List Token} {read : Array Stmt} {c : Cursor}
    (all : Parse.statements (Parse.expression maxNesting) .program tokens #[] ⟨tokens, #[]⟩ =
      (read, c)) : parse tokens = (read.toList, c.faults.toList) := by
  unfold parse Parse.program Cursor.ofTokens
  dsimp only
  rw [all]

/-- Where reading comes to a place in front of some tokens, it goes on with what these tokens come
to by themselves. -/
theorem parse_of_seam {tokens us budget : List Token} {read : Array Stmt} {faults : Array Fault}
    (seam : Parse.statements (Parse.expression maxNesting) .program tokens #[] ⟨tokens, #[]⟩ =
      Parse.statements (Parse.expression maxNesting) .program budget read ⟨us, faults⟩)
    (enough : us.length ≤ budget.length) :
    parse tokens = (read.toList ++ (parse us).1, faults.toList ++ (parse us).2) := by
  rcases back : Parse.statements (Parse.expression maxNesting) .program us #[] ⟨us, #[]⟩
    with ⟨read', c⟩
  obtain ⟨d, behind, recorded⟩ := Parse.statements_before (Parse.agreeing_expression maxNesting)
    .program read faults enough back
  rw [parse_of_statements (seam.trans behind), parse_of_statements back, recorded,
    Array.toList_append, Array.toList_append]

/-- Reading a list of tokens that ends in a semicolon, and then another one: if no block
is left open in the first one, its statements and faults come first, then those of the
second one, as they would come without the first. -/
theorem parse_append {ts us : List Token} {mark : Token} (inside : ∀ t ∈ ts, t.kind ≠ .eof)
    (last : mark ∈ ts.getLast?) (semicolon : mark.kind = .semicolon)
    (closed : .unexpected .rbrace .eof ∉ (parse ts).2) :
    parse (ts ++ us) = ((parse ts).1 ++ (parse us).1, (parse ts).2 ++ (parse us).2) := by
  by_cases follow : us = []
  · subst follow
    have none : parse [] = ([], []) := rfl
    rw [none, List.append_nil, List.append_nil, List.append_nil]
  have agreeing := Parse.agreeing_expression maxNesting
  have ends : Cursor.Ends ⟨ts, #[]⟩ := by
    obtain ⟨front, tokens⟩ := List.getLast?_eq_some_iff.mp last
    exact ⟨inside, front, mark, tokens, semicolon⟩
  rcases front : Parse.statements (Parse.expression maxNesting) .program ts #[] ⟨ts, #[]⟩
    with ⟨read, c⟩
  rcases back : Parse.statements (Parse.expression maxNesting) .program us #[] ⟨us, #[]⟩
    with ⟨read', c'⟩
  rw [parse_of_statements front] at closed
  obtain ⟨budget, enough, seam⟩ := Parse.statements_seam agreeing ends follow front
    fun member => closed (Array.mem_def.mp member)
  obtain ⟨d, behind, recorded⟩ :=
    Parse.statements_before agreeing .program read c.faults enough back
  rw [parse_of_statements (seam.trans behind), parse_of_statements front,
    parse_of_statements back, recorded, Array.toList_append, Array.toList_append]

/-- The first statement has no name. It is dropped, with its fault, and what comes behind its
semicolon is read as if it had not been there. -/
theorem parse_append_nameless :
    parse ([⟨.letWord, "let"⟩, ⟨.assign, "="⟩, ⟨.int, "1"⟩, ⟨.semicolon, ";"⟩] ++
      [⟨.minus, "-"⟩, ⟨.ident, "x"⟩, ⟨.rparen, ")"⟩]) =
      ([.expr (.unary .negate (.name "x"))],
        [.unexpected .ident .assign, .noOperand .rparen ")"]) :=
  parse_append (by decide) rfl rfl (by decide)

/-- Whether the last statement of a token list has a fault, with no semicolon behind it to go on
at. -/
def Token.breakOff (tokens : List Token) : Bool :=
  Parse.breaksOff (Parse.expression maxNesting) .program tokens (.ofTokens tokens)

/-- The first end token is the end of the program if the last statement in front of it does not
break off. If it does, and no block is left open, the end token goes with it: what comes behind
is read as further statements. -/
theorem parse_append_eof {ts : List Token} (inside : ∀ t ∈ ts, t.kind ≠ .eof) (us : List Token) :
    (Token.breakOff ts = false → parse (ts ++ .eof :: us) = parse ts) ∧
    (Token.breakOff ts = true → .unexpected .rbrace .eof ∉ (parse ts).2 →
      parse (ts ++ .eof :: us) = ((parse ts).1 ++ (parse us).1, (parse ts).2 ++ (parse us).2)) := by
  rcases front : Parse.statements (Parse.expression maxNesting) .program ts #[] ⟨ts, #[]⟩
    with ⟨read, c⟩
  obtain ⟨stops, goesOn⟩ :=
    Parse.statements_eof (Parse.agreeing_expression maxNesting) us inside front
  rw [parse_of_statements front]
  constructor
  · intro whole
    obtain ⟨d, recorded, ends⟩ := stops whole
    rw [parse_of_statements ends, recorded]
  · intro off closed
    obtain ⟨budget, enough, seam⟩ := goesOn off fun member => closed (Array.mem_def.mp member)
    rw [parse_of_seam seam enough]

/-- Behind a whole statement the end token ends the program. Behind the first word of a
definition it does not. -/
theorem parse_append_eof_word :
    parse ([⟨.int, "1"⟩] ++ .eof :: [⟨.int, "2"⟩]) = ([.expr (.integer 1)], []) ∧
    parse ([⟨.letWord, "let"⟩] ++ .eof :: [⟨.int, "1"⟩]) =
      ([.expr (.integer 1)], [.unexpected .ident .eof]) :=
  ⟨(parse_append_eof (by decide) _).1 rfl, (parse_append_eof (by decide) _).2 rfl (by decide)⟩

end Stacklet
