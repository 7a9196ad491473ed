import Stacklet.Proofs.Program.Room
import Stacklet.Proofs.Program.Seams

/-!
# Statements of a block

Two loops read statements, that of a program up to the end and that of a block up to its
closing brace, and each one skips faulty statements in its own way. Over tokens without
braces they take the same decisions (`sameStatements`). So a block holds the statements
that its tokens have as a program, and it has their faults, with its closing brace in the
place of the end (`parse_inBlock`).

A block stands inside an expression, so there is less room in it. As long as that lasts it
makes no difference (`curtailing_expression`); what it costs where it does not last is left
open, but for the fault that says so.
-/

namespace Stacklet

/-- Tokens without braces, and none of them the end. -/
def Bare (ts : List Token) : Prop :=
  ∀ t ∈ ts, t.kind ≠ .lbrace ∧ t.kind ≠ .rbrace ∧ t.kind ≠ .eof

instance (ts : List Token) : Decidable (Bare ts) :=
  inferInstanceAs (Decidable (∀ t ∈ ts, _))

theorem Bare.suffix {ts us : List Token} (bare : Bare ts) (suffix : us <:+ ts) : Bare us :=
  fun t member => bare t (suffix.subset member)

theorem Bare.flat {c : Cursor} (bare : Bare c.tokens) : c.Flat :=
  fun t member => ⟨(bare t member).1, (bare t member).2.2⟩

theorem Bare.current {c : Cursor} (bare : Bare c.tokens) (inside : c.Inside) :
    c.current.kind ≠ .rbrace ∧ c.current.kind ≠ .eof := by
  obtain ⟨t, ts, tokens⟩ := List.exists_cons_of_ne_nil inside
  rw [Cursor.current, tokens]
  exact (bare t (tokens ▸ List.mem_cons_self)).2

theorem Cursor.Inside.length_advance_lt {c : Cursor} (inside : c.Inside) :
    c.advance.tokens.length < c.tokens.length := by
  have some : 0 < c.tokens.length := List.length_pos_iff.mpr inside
  rw [Cursor.advance, List.length_tail]
  omega

/-- The same place in front of a mark, which takes the place of the end in the faults as well. -/
def Cursor.inFrontOf (c : Cursor) (mark : Token) : Cursor :=
  c.upTo mark (c.faults.map (Fault.marked mark))

namespace Parse

open Cursor

variable {mark : Token} {c d : Cursor}

/-! ## Behind a fault -/

/-- What is left of a faulty statement ends at the same token in a block and in a program, or at
the end of both. -/
theorem recover_upTo (closed : mark.kind = .rbrace) (bare : Bare c.tokens) (faults : Array Fault) :
    (c.upTo mark faults).recover .block = (c.recover .program).upTo mark faults := by
  rcases c with ⟨tokens, recorded⟩
  unfold recover upTo
  congr 1
  induction tokens with
  | nil => simp [Region.resumesAt, Region.closer, closed]
  | cons t ts ih =>
    obtain ⟨_, notBrace, notEnd⟩ := bare t List.mem_cons_self
    have same : Region.block.resumesAt t.kind = Region.program.resumesAt t.kind := by
      simp [Region.resumesAt, Region.closer, notBrace, notEnd]
    rw [List.cons_append, List.dropWhile_cons, List.dropWhile_cons, same]
    split
    · exact ih (bare.suffix (List.suffix_cons t ts))
    · rfl

theorem recover_suffix (c : Cursor) (region : Region) : (c.recover region).tokens <:+ c.tokens :=
  List.dropWhile_suffix _

/-- How reading goes on behind a faulty statement. -/
def resumed (inner : Inner) (region : Region) (budget : List Token) (read : Array Stmt)
    (c : Cursor) : Array Stmt × Cursor :=
  if region = .block && (c.recover region).current.kind = .rbrace then (read, c.recover region)
  else statements inner region budget read (c.recover region).advance

/-- A fault that is recorded is not forgotten. -/
theorem fault_mem_statements {room : Nat} {region : Region} {budget : List Token}
    (read : Array Stmt) {fault : Fault} (recorded : fault ∈ c.faults)
    (enough : c.tokens.length ≤ budget.length) :
    fault ∈ (statements (expression room) region budget read c).2.faults := by
  rcases alone : statements (expression room) region c.tokens #[] ⟨c.tokens, #[]⟩ with ⟨read', d⟩
  obtain ⟨d', same, faults⟩ :=
    statements_before (agreeing_expression room) region read c.faults enough alone
  rw [same, faults]
  exact Array.mem_append.mpr (.inl recorded)

theorem fault_mem_resumed {room : Nat} {region : Region} {budget : List Token}
    (read : Array Stmt) {fault : Fault} (recorded : fault ∈ c.faults)
    (enough : c.tokens.length ≤ budget.length + 1) :
    fault ∈ (resumed (expression room) region budget read c).2.faults := by
  unfold resumed
  split
  · exact recorded
  · refine fault_mem_statements read recorded ?_
    have shorter := (recover_suffix c region).length_le
    rw [Cursor.advance, List.length_tail]
    omega

/-! ## Two loops -/

/-- What the statements of a program and those of a block come to. The block ends in front of its
mark, where the program ends, or it has run out of room on the way. -/
inductive SameStatements (mark : Token) : Array Stmt × Cursor → Array Stmt × Cursor → Prop
  | same {read : Array Stmt} {faults : Array Fault} :
    SameStatements mark (read, ⟨[], faults⟩) (read, ⟨[mark], faults.map (Fault.marked mark)⟩)
  | tooDeep {outcome : Array Stmt × Cursor} {read : Array Stmt} {faults : Array Fault} :
    .nestingTooDeep ∈ faults → SameStatements mark outcome (read, ⟨[mark], faults⟩)

/-- Whatever the program has come to, once the room has not lasted. -/
theorem SameStatements.of_tooDeep {outcome outcome' right : Array Stmt × Cursor}
    (same : SameStatements mark outcome right) (fault : .nestingTooDeep ∈ right.2.faults) :
    SameStatements mark outcome' right := by
  cases same with
  | same => exact .tooDeep fault
  | tooDeep => exact .tooDeep fault

section Loops

variable {inner inner' : Inner} {budget budget' : List Token} {read : Array Stmt}

theorem inFrontOf_record (c : Cursor) (fault : Fault) (mark : Token) :
    (c.inFrontOf mark).record (fault.marked mark) = (c.record fault).inFrontOf mark := by
  unfold Cursor.inFrontOf Cursor.record Cursor.upTo
  rw [Array.map_push]

/-- At the end of the tokens both loops stop. -/
theorem sameStatements_of_nil (closed : mark.kind = .rbrace) (none : c.tokens = []) :
    SameStatements mark (statements inner .program budget read c)
      (statements inner' .block budget' read (c.inFrontOf mark)) := by
  rcases c with ⟨tokens, faults⟩
  rcases none with rfl
  have ends : (Cursor.inFrontOf ⟨[], faults⟩ mark).current.kind = .rbrace := closed
  rw [statements_of_end inner budget read (.inr rfl),
    statements_of_end inner' budget' read (.inl ends)]
  exact .same

/-- Behind a faulty statement both go on, or the block ends where there are no tokens left for
the program. -/
theorem sameStatements_resumed (closed : mark.kind = .rbrace) (bare : Bare c.tokens)
    (next : ∀ d : Cursor, Bare d.tokens → d.tokens.length < c.tokens.length →
      SameStatements mark (statements inner .program budget read d)
        (statements inner' .block budget' read (d.inFrontOf mark))) :
    SameStatements mark (resumed inner .program budget read c)
      (resumed inner' .block budget' read (c.inFrontOf mark)) := by
  have suffix := recover_suffix c .program
  have skipped : (c.inFrontOf mark).recover .block = (c.recover .program).inFrontOf mark :=
    recover_upTo closed bare _
  unfold resumed
  rw [skipped, if_neg (by simp)]
  generalize c.recover .program = e at suffix
  by_cases inside : e.Inside
  · have notBrace : (e.inFrontOf mark).current.kind ≠ .rbrace := by
      rw [Cursor.inFrontOf, inside.current_upTo]
      exact ((bare.suffix suffix).current inside).1
    have advanced : (e.inFrontOf mark).advance = e.advance.inFrontOf mark := inside.advance_upTo
    rw [if_neg (by simp [notBrace]), advanced]
    refine next _ (bare.suffix ((List.tail_suffix _).trans suffix)) ?_
    exact Nat.lt_of_lt_of_le inside.length_advance_lt suffix.length_le
  · rcases e with ⟨tokens, faults⟩
    rcases not_not.mp inside with rfl
    have ends : (Cursor.inFrontOf ⟨[], faults⟩ mark).current.kind = .rbrace := closed
    rw [if_pos (by simp [ends]), statements_of_end inner budget read (.inr rfl)]
    exact .same

end Loops

section Rooms

variable {room room' : Nat} {budget budget' : List Token} {read : Array Stmt}

/-- One statement takes both loops on together, or there is no room for it in the block. -/
theorem sameStatements_step {b b' : Token} (closed : mark.kind = .rbrace) (le : room' ≤ room)
    (bare : Bare c.tokens) (inside : c.Inside) (enough : c.tokens.length ≤ budget'.length)
    (next : ∀ (read : Array Stmt) (d : Cursor), Bare d.tokens →
      d.tokens.length < c.tokens.length →
      SameStatements mark (statements (expression room) .program budget read d)
        (statements (expression room') .block budget' read (d.inFrontOf mark))) :
    SameStatements mark (statements (expression room) .program (b :: budget) read c)
      (statements (expression room') .block (b' :: budget') read (c.inFrontOf mark)) := by
  have closes : mark.Closes := .inr closed
  obtain ⟨unclosed, more⟩ := bare.current inside
  have same : (c.inFrontOf mark).current = c.current := inside.current_upTo
  have unclosed' : (c.inFrontOf mark).current.kind ≠ .rbrace := by rw [same]; exact unclosed
  have more' : (c.inFrontOf mark).current.kind ≠ .eof := by rw [same]; exact more
  have resumes (fault : Fault) {d : Cursor} (onward : c.Onward d) :
      SameStatements mark (resumed (expression room) .program budget read (d.record fault))
        (resumed (expression room') .block budget' read ((d.record fault).inFrontOf mark)) :=
    sameStatements_resumed closed (bare.suffix onward.tokens) fun e bare' shorter =>
      next read e bare' (Nat.lt_of_lt_of_le shorter onward.tokens.length_le)
  have curtailed := (curtails_statement closes (curtailing_expression closes le)).curtailed
    (c.faults.map (Fault.marked mark)) bare.flat inside
  change Curtailed _ _ _ _ _ (statement _ (c.inFrontOf mark)) at curtailed
  generalize outcome : statement (expression room) c = r at curtailed
  generalize outcome' : statement (expression room') (c.inFrontOf mark) = r' at curtailed
  cases curtailed with
  | @ok s d onward inside' =>
    rw [statements_of_ok more more outcome, statements_of_ok unclosed' more' outcome',
      inside'.advance_upTo, ← onward.faults]
    refine next _ d.advance (bare.suffix ((List.tail_suffix _).trans onward.tokens)) ?_
    exact Nat.lt_of_lt_of_le inside'.length_advance_lt onward.tokens.length_le
  | @error fault d onward =>
    rw [statements_of_error more more outcome, statements_of_error unclosed' more' outcome',
      ← onward.faults]
    change SameStatements mark (resumed _ _ _ _ (d.record fault))
      (resumed _ _ _ _ ((d.inFrontOf mark).record (fault.marked mark)))
    rw [inFrontOf_record]
    exact resumes fault onward
  | @tooDeep _ d onward =>
    -- What the block does from here on is compared with a program that would go on likewise.
    rw [statements_of_error unclosed' more' outcome', ← onward.faults]
    change SameStatements mark _
      (resumed _ _ _ _ ((d.inFrontOf mark).record (Fault.nestingTooDeep.marked mark)))
    rw [inFrontOf_record]
    refine (resumes .nestingTooDeep onward).of_tooDeep (fault_mem_resumed read ?_ ?_)
    · exact Array.mem_map.mpr ⟨_, Array.mem_push_self, rfl⟩
    · change (d.tokens ++ [mark]).length ≤ _
      rw [List.length_append, List.length_singleton]
      exact Nat.succ_le_succ (Nat.le_trans onward.tokens.length_le enough)

/-- Both loops come to the same, as long as there is room in the block. -/
theorem sameStatements {limit : Nat} (closed : mark.kind = .rbrace) (le : room' ≤ room)
    (bare : Bare c.tokens) (within : c.tokens.length ≤ limit) (enough : limit ≤ budget.length)
    (enough' : limit < budget'.length) :
    SameStatements mark (statements (expression room) .program budget read c)
      (statements (expression room') .block budget' read (c.inFrontOf mark)) := by
  induction limit generalizing budget budget' read c with
  | zero => exact sameStatements_of_nil closed (List.length_eq_zero_iff.mp (Nat.le_zero.mp within))
  | succ limit ih =>
    by_cases inside : c.Inside
    · obtain ⟨b, budget, rfl⟩ := List.exists_cons_of_length_pos (Nat.zero_lt_of_lt enough)
      obtain ⟨b', budget', rfl⟩ := List.exists_cons_of_length_pos (Nat.zero_lt_of_lt enough')
      have enough'' : c.tokens.length ≤ budget'.length :=
        Nat.le_trans within (Nat.le_of_lt_succ enough')
      refine sameStatements_step closed le bare inside enough'' fun read d bare' shorter => ?_
      exact ih bare' (Nat.le_of_lt_succ (Nat.lt_of_lt_of_le shorter within))
        (Nat.le_of_succ_le_succ enough) (Nat.lt_of_succ_lt_succ enough')
    · exact sameStatements_of_nil closed (not_not.mp inside)

end Rooms

end Parse

/-! ## A block among the tokens -/

/-- What a block starts with. -/
def leftBrace : Token := ⟨.lbrace, "\x7b"⟩

/-- What a block ends with. -/
def rightBrace : Token := ⟨.rbrace, "\x7d"⟩

/-- A conditional whose block has the given tokens. -/
def inBlock (ts : List Token) : List Token :=
  [⟨.ifWord, "if"⟩, ⟨.lparen, "("⟩, ⟨.trueWord, "true"⟩, ⟨.rparen, ")"⟩, leftBrace] ++ ts ++
    [rightBrace]

/-- What a conditional starts with, up to the opening brace of its block. -/
def opening : List Token :=
  [⟨.ifWord, "if"⟩, ⟨.lparen, "("⟩, ⟨.trueWord, "true"⟩, ⟨.rparen, ")"⟩, leftBrace]

theorem inBlock_append (ts us : List Token) :
    inBlock ts ++ us = opening ++ (ts ++ rightBrace :: us) := by
  change opening ++ ts ++ [rightBrace] ++ us = _
  rw [List.append_assoc, List.append_assoc]
  rfl

namespace Parse

/-- The conditional is read up to its block, and the block is the last thing that it has, if a
semicolon or nothing follows. -/
theorem expression_opening {room : Nat} {tokens back : List Token} {read : Array Stmt}
    {faults : Array Fault}
    (own : statements (expression (room + 1)) .block tokens #[] ⟨tokens, #[]⟩ =
      (read, ⟨rightBrace :: back, faults⟩))
    (last : (back.headD .eof).kind = .eof ∨ (back.headD .eof).kind = .semicolon) :
    expression (room + 2) .lowest ⟨opening ++ tokens, #[]⟩ =
      .ok (.conditional (.boolean true) read.toList none) ⟨rightBrace :: back, faults⟩ := by
  have braced : block (expression (room + 1)) ⟨leftBrace :: tokens, #[]⟩ =
      .ok read.toList ⟨rightBrace :: back, faults⟩ := by
    unfold block Cursor.advance
    dsimp only [List.tail_cons]
    rw [own]
    rfl
  have noElse : (Cursor.mk (rightBrace :: back) faults).ahead ≠ .elseWord := by
    rcases last with same | same <;> exact fun isElse => Kind.noConfusion (same.symm.trans isElse)
  have noLink : (Cursor.mk (rightBrace :: back) faults).ahead.linkAbove? .lowest = none := by
    rcases last with same | same <;> exact congrArg (Kind.linkAbove? .lowest) same
  have found : conditional (expression (room + 1)) ⟨opening ++ tokens, #[]⟩ =
      .ok (.conditional (.boolean true) read.toList none) ⟨rightBrace :: back, faults⟩ := by
    change (block (expression (room + 1)) >>= _) ⟨leftBrace :: tokens, #[]⟩ = _
    rw [bind_of_ok braced, ahead_bind, if_neg noElse]
    rfl
  change (conditional (expression (room + 1)) >>= _) ⟨opening ++ tokens, #[]⟩ = _
  rw [bind_of_ok found]
  exact links_of_end _ _ noLink

/-- So a conditional that is the last statement ends at its block. -/
theorem statement_inBlock {room : Nat} {ts : List Token} {read : Array Stmt} {faults : Array Fault}
    (block : statements (expression (room + 1)) .block (ts ++ [rightBrace]) #[]
      ⟨ts ++ [rightBrace], #[]⟩ = (read, ⟨[rightBrace], faults⟩)) :
    statement (expression (room + 2)) ⟨inBlock ts, #[]⟩ =
      .ok (.expr (.conditional (.boolean true) read.toList none)) ⟨[rightBrace], faults⟩ := by
  rw [← List.append_nil (inBlock ts), inBlock_append]
  change (expression (room + 2) .lowest >>= _) _ = _
  rw [bind_of_ok (expression_opening block (.inl rfl))]
  rfl

end Parse

/-- The statements in the block are the only ones, and their faults are all that there are. -/
theorem parse_of_block {ts : List Token} {read : Array Stmt} {faults : Array Fault}
    (block : Parse.statements (Parse.expression (maxNesting - 1)) .block (ts ++ [rightBrace]) #[]
      ⟨ts ++ [rightBrace], #[]⟩ = (read, ⟨[rightBrace], faults⟩)) :
    parse (inBlock ts) =
      ([.expr (.conditional (.boolean true) read.toList none)], faults.toList) := by
  have statement : Parse.statement (Parse.expression maxNesting) ⟨inBlock ts, #[]⟩ =
      .ok (.expr (.conditional (.boolean true) read.toList none)) ⟨[rightBrace], faults⟩ :=
    Parse.statement_inBlock block
  have opens : (Cursor.current ⟨inBlock ts, #[]⟩).kind ≠ .eof := nofun
  refine parse_of_statements (c := ⟨[], faults⟩) ?_
  change Parse.statements (Parse.expression maxNesting) .program (_ :: (inBlock ts).tail) _ _ = _
  rw [Parse.statements_of_ok opens opens statement, Parse.statements_of_end _ _ _ (.inr rfl)]
  rfl

/-- A block is read as its tokens are as a program. Where one of its faults is about the end, it
is about the closing brace here. -/
theorem parse_inBlock {ts : List Token} (bare : Bare ts)
    (shallow : .nestingTooDeep ∉ (parse (inBlock ts)).2) :
    parse (inBlock ts) = ([.expr (.conditional (.boolean true) (parse ts).1 none)],
      (parse ts).2.map (Fault.marked rightBrace)) := by
  have same : Parse.SameStatements rightBrace
      (Parse.statements (Parse.expression maxNesting) .program ts #[] ⟨ts, #[]⟩)
      (Parse.statements (Parse.expression (maxNesting - 1)) .block (ts ++ [rightBrace]) #[]
        ⟨ts ++ [rightBrace], #[]⟩) := by
    have closed : rightBrace.kind = .rbrace := rfl
    have start : Cursor.inFrontOf ⟨ts, #[]⟩ rightBrace = ⟨ts ++ [rightBrace], #[]⟩ := by
      rw [Cursor.inFrontOf, Array.map_empty]
      rfl
    rw [← start]
    refine Parse.sameStatements (c := ⟨ts, #[]⟩) closed ?_ bare (Nat.le_refl _) (Nat.le_refl _) ?_
    · decide
    · rw [List.length_append]
      exact Nat.lt_succ_self _
  generalize alone : Parse.statements (Parse.expression maxNesting) .program ts #[] ⟨ts, #[]⟩ = r
    at same
  generalize block : Parse.statements (Parse.expression (maxNesting - 1)) .block
    (ts ++ [rightBrace]) #[] ⟨ts ++ [rightBrace], #[]⟩ = r' at same
  cases same with
  | same => rw [parse_of_block block, parse_of_statements alone, Array.toList_map]
  | tooDeep fault =>
    rw [parse_of_block block] at shallow
    exact (shallow (Array.mem_def.mp fault)).elim

/-- In the block as in the program the first statement has no name, the second one is read, and
the third one ends early. -/
theorem parse_inBlock_twoFaults :
    let ts : List Token := [⟨.letWord, "let"⟩, ⟨.assign, "="⟩, ⟨.int, "1"⟩, ⟨.semicolon, ";"⟩,
      ⟨.ident, "x"⟩, ⟨.semicolon, ";"⟩, ⟨.int, "2"⟩, ⟨.plus, "+"⟩]
    parse ts = ([.expr (.name "x")], [.unexpected .ident .assign, .noOperand .eof ""]) ∧
      parse (inBlock ts) = ([.expr (.conditional (.boolean true) [.expr (.name "x")] none)],
        [.unexpected .ident .assign, .noOperand .rbrace "\x7d"]) :=
  ⟨rfl, parse_inBlock (by decide) (by decide)⟩

end Stacklet
