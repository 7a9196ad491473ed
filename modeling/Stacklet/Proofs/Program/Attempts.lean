import Mathlib.Data.List.Perm.Subperm
import Stacklet.Proofs.Program.Observed
import Stacklet.Proofs.Program.Seams

/-!
# How much work reading is

Reading a token list takes work in proportion to its length (`parse_attempts`): at each token a
statement is entered once at most, and each time that comes to a statement or to a fault. So
there are as many statements and faults as there are tokens, at most.

The routines are gone through one by one, by recursion on the number of expressions that may
still be opened (`watching_expression`). The loop over statements makes one attempt in each pass,
and moves off what it has read (`Accounted`).
-/

namespace Stacklet

namespace Watched

open Parse (Anywhere)

/-! ## Expressions -/

section Routines

variable {inner : Parse.Inner} {inner' : Inner} {Pre Post : Cursor → Prop}

/-- The second parser for the next level does what the first one does, and keeps the account. Each
expression is one that has to be paid for. -/
def Watching (inner : Parse.Inner) (inner' : Inner) : Prop :=
  ∀ level, Observes 1 0 Expr.statements Anywhere Anywhere (inner level) (inner' level)

variable (watching : Watching inner inner')

include watching

theorem observes_nextItem (read : Array Expr) :
    Observes 0 (Expr.statementsAll read.toList) (fun read => Expr.statementsAll read.toList)
      Cursor.OnToken Anywhere (Parse.nextItem inner read) (nextItem inner' read) := by
  refine observes_advance_paid ?_
  refine ((watching .lowest).frame (Expr.statementsAll read.toList)).bind fun e => ?_
  exact observes_pure (Nat.le_of_eq (Expr.statementsAll_push read e))

theorem observes_items {closer : Kind} (inside : closer ≠ .eof) :
    Observes 0 0 Expr.statementsAll Cursor.OnToken Anywhere (Parse.items inner closer)
      (items inner' closer) := by
  refine observes_ahead fun kind => ?_
  split
  · exact observes_advance_bind (observes_pure (Nat.le_refl _))
  · refine (observes_advance_paid ?_).narrow fun _ pre => pre.1
    refine (watching .lowest).bind fun first => ?_
    have start : Expr.statementsAll #[first].toList = first.statements := Nat.add_zero _
    rw [← start]
    have paired := paired_of_comma (observes_nextItem watching)
    refine observes_loop (Parse.loops_moreItems inner) paired fun read => ?_
    exact (observes_expect inside).anywhere.bind fun _ => observes_pure (Nat.le_refl _)

omit watching in
theorem observes_nextParameter (read : Array String) :
    Observes 0 0 (fun _ => 0) Cursor.OnToken Anywhere (Parse.nextParameter read)
      (nextParameter read) :=
  observes_identifier.anywhere.bind fun _ => observes_pure (Nat.le_refl _)

omit watching in
theorem observes_parameters :
    Observes 0 0 (fun _ => 0) Pre Anywhere Parse.parameters parameters := by
  refine observes_ahead fun kind => ?_
  split
  · exact observes_advance_bind (observes_pure (Nat.le_refl _))
  · refine observes_identifier.anywhere.bind fun first => ?_
    have paired := paired_of_comma observes_nextParameter
    refine observes_loop Parse.loops_moreParameters paired fun read => ?_
    exact (observes_expect (by decide)).anywhere.bind fun _ => observes_pure (Nat.le_refl _)

section Blocks

variable (blocks : Observes 0 0 Stmt.statementsAll Cursor.OnToken Anywhere (Parse.block inner)
  (block inner'))

include blocks

omit watching in
theorem observes_bracedBlock : Observes 0 0 Stmt.statementsAll Pre Anywhere
    (Parse.bracedBlock inner) (bracedBlock inner') :=
  (observes_expect (by decide)).bind fun _ => blocks

theorem observes_conditional : Observes 0 0 Expr.statements Pre Anywhere
    (Parse.conditional inner) (conditional inner') := by
  have braced (before : Nat) : Observes 0 before (fun ss => before + Stmt.statementsAll ss)
      Anywhere Anywhere (Parse.bracedBlock inner) (bracedBlock inner') :=
    (observes_bracedBlock blocks).frame before
  refine (observes_expect (by decide)).bind fun _ => observes_advance_paid ?_
  refine (watching .lowest).bind fun condition => ?_
  refine (observes_expect (by decide)).anywhere.bind fun _ => ?_
  refine (braced condition.statements).bind fun consequence => observes_ahead fun kind => ?_
  split
  · refine observes_advance_bind ?_
    refine (braced (condition.statements + Stmt.statementsAll consequence)).bind fun _ => ?_
    exact observes_pure (Nat.le_refl _)
  · have counted : Expr.statements (.conditional condition consequence none) ≤
        condition.statements + Stmt.statementsAll consequence := Nat.le_refl _
    exact (observes_pure counted).anywhere

omit watching in
theorem observes_function : Observes 0 0 Expr.statements Pre Anywhere
    (Parse.function inner) (function inner') := by
  refine (observes_expect (by decide)).bind fun _ => observes_parameters.bind fun names => ?_
  exact (observes_bracedBlock blocks).bind fun body => observes_pure (Nat.le_refl _)

theorem observes_operand : Observes 0 0 Expr.statements Anywhere Anywhere
    (Parse.operand inner) (operand inner') := by
  have signed (op : UnaryOp) : Observes 0 0 Expr.statements Cursor.OnToken Anywhere
      (do Parse.advance; return .unary op (← inner .unary))
      (do plain Parse.advance; return .unary op (← inner' .unary)) :=
    observes_advance_paid ((watching .unary).bind fun e => observes_pure (Nat.le_refl _))
  have constant {e : Expr} {Pre : Cursor → Prop} (none : e.statements = 0) :
      Observes 0 0 Expr.statements Pre Anywhere (pure e) (pure e) :=
    (observes_pure (Nat.le_of_eq none)).anywhere
  refine observes_current fun t => ?_
  cases same : t.kind with
  | ident | string | trueWord | falseWord => exact constant rfl
  | int =>
    dsimp only
    cases readInt64? t.literal with
    | some n => exact constant rfl
    | none => exact observes_throw _
  | bang => exact (signed .not).on_token same (by decide)
  | minus => exact (signed .negate).on_token same (by decide)
  | lparen =>
    refine (observes_advance_paid ?_).on_token same (by decide)
    refine (watching .lowest).bind fun e => ?_
    exact (observes_expect (by decide)).anywhere.bind fun _ => observes_pure (Nat.le_refl _)
  | ifWord => exact observes_conditional watching blocks
  | function => exact observes_function blocks
  | lbracket =>
    refine ((observes_items watching (by decide)).bind fun es => ?_).on_token same (by decide)
    exact observes_pure (Nat.le_refl _)
  | _ => exact observes_throw _

end Blocks

theorem observes_linked (left : Expr) (link : Link) :
    Observes 0 left.statements Expr.statements Cursor.OnToken Anywhere
      (Parse.linked inner left link) (linked inner' left link) := by
  cases link with
  | operator op =>
    refine observes_advance_paid (((watching op.precedence).frame left.statements).bind fun _ => ?_)
    exact observes_pure (Nat.le_refl _)
  | call =>
    refine ((observes_items watching (by decide)).frame left.statements).bind fun _ => ?_
    exact observes_pure (Nat.le_refl _)
  | subscript =>
    refine observes_advance_paid (((watching .lowest).frame left.statements).bind fun _ => ?_)
    exact (observes_expect (by decide)).anywhere.bind fun _ => observes_pure (Nat.le_refl _)

theorem paired_nextLink (level : Precedence) : Paired Expr.statements
    (fun kind => (kind.linkAbove? level).map fun link left => Parse.linked inner left link)
    (nextLink? inner' level) where
  stops none := Option.map_eq_none_iff.mpr (Option.map_eq_none_iff.mp none)
  goes taken := by
    obtain ⟨link, opens, rfl⟩ := Option.map_eq_some_iff.mp taken
    exact ⟨_, Option.map_eq_some_iff.mpr ⟨link, opens, rfl⟩,
      fun left => observes_linked watching left link⟩

/-! ## Statements -/

theorem observes_sentence {make : Expr → Stmt} (one : ∀ e, (make e).statements = e.statements + 1) :
    Observes 1 1 Stmt.statements Anywhere Anywhere
      (do let value ← inner .lowest; Parse.semicolon; return make value)
      (do let value ← inner' .lowest; plain Parse.semicolon; return make value) := by
  refine ((watching .lowest).frame 1).bind fun e => observes_semicolon.bind fun _ => ?_
  exact observes_pure (Nat.le_of_eq ((one e).trans (Nat.add_comm ..)))

theorem observes_statement : Observes 1 1 Stmt.statements Anywhere Anywhere
    (Parse.statement inner) (statement inner') := by
  refine observes_current fun t => ?_
  cases same : t.kind with
  | letWord =>
    refine (observes_identifier.bind fun name => ?_).loosen (Nat.zero_le 1)
    refine (observes_expect (by decide)).bind fun _ => observes_advance_paid ?_
    exact observes_sentence watching fun _ => rfl
  | returnWord =>
    have sentence := observes_sentence watching fun e =>
      (rfl : (Stmt.return e).statements = e.statements + 1)
    exact ((observes_advance_paid sentence).on_token same (by decide)).loosen (Nat.zero_le 1)
  | _ => exact (observes_sentence watching fun _ => rfl).narrow fun _ _ => trivial

section Loop

variable {region : Region} {b : Token} {budget : List Token} {read : Array Stmt} {w w₁ : Watch}

omit watching

theorem statements_of_end (inner' : Inner) (budget : List Token) (read : Array Stmt)
    (ends : w.cursor.current.kind = region.closer ∨ w.cursor.current.kind = .eof) :
    statements inner' region budget read w = (read, w) := by
  cases budget <;> rw [statements, if_pos (by simpa using ends)]

variable (unclosed : w.cursor.current.kind ≠ region.closer) (more : w.cursor.current.kind ≠ .eof)

include unclosed more

theorem statements_of_ok {s : Stmt} (success : statement inner' w = .ok s w₁) :
    statements inner' region (b :: budget) read w =
      statements inner' region budget (read.push s)
        ((w₁.log ⟨w.left, .ok s⟩).onCursor .advance) := by
  rw [statements, if_neg (by simp [unclosed, more]), attempt, success]

theorem statements_of_error {fault : Fault} (failed : statement inner' w = .error fault w₁) :
    statements inner' region (b :: budget) read w =
      if region = .block && ((w₁.cursor.record fault).recover region).current.kind = .rbrace then
        (read, (w₁.log ⟨w.left, .error fault⟩).onCursor fun c => (c.record fault).recover region)
      else statements inner' region budget read
        ((w₁.log ⟨w.left, .error fault⟩).onCursor fun c =>
          ((c.record fault).recover region).advance) := by
  rw [statements, if_neg (by simp [unclosed, more]), attempt, failed]
  rfl

omit more in
/-- A block that is closed while a faulty statement is skipped: its brace is not the token that
the statement started on. -/
theorem closer_left_lt {c : Cursor} (suffix : c.tokens <:+ w.cursor.tokens)
    (closed : c.current.kind = region.closer) : c.tokens.length < w.left := by
  refine Nat.lt_of_le_of_ne suffix.length_le fun same => unclosed ?_
  rw [← closed, Cursor.current, Cursor.current, suffix.eq_of_length same]

end Loop

/-- What statements come to from a state on, without and under observation. In addition to what
`Observed` says: at the end of the tokens no expression is opened. -/
structure Accounted (w : Watch) (read : Array Stmt) (outcome : Array Stmt × Cursor)
    (watched : Array Stmt × Watch) (new : List Attempt) : Prop where
  same : outcome = (watched.1, watched.2.cursor)
  passage : Passage (w.left + 1) w watched.2 new
  opened : watched.2.opened + watched.2.left ≤ w.opened + w.left + min 1 w.left
  counted : Stmt.statementsAll watched.1.toList ≤
    Stmt.statementsAll read.toList + Attempt.successes new

omit watching

/-- Behind a statement the cursor moves on. If there is a token to move off, that pays for the
expression of the next one. -/
theorem Passage.next {w w₁ : Watch} {new : List Attempt} {d : Cursor}
    (passage : Passage w.left w w₁ new) (opened : w₁.opened + w₁.left ≤ w.opened + w.left + 1)
    (some : 0 < w.left) (outcome : Except Fault Stmt) (suffix : d.tokens <:+ w₁.cursor.tokens)
    (faults : d.faults.toList =
      w₁.cursor.faults.toList ++ (Attempt.fault? ⟨w.left, outcome⟩).toList) :
    ∃ w₂, w₂ = (w₁.log ⟨w.left, outcome⟩).onCursor (fun _ => d.advance) ∧ w₂.left ≤ w.left - 1 ∧
      Passage (w.left + 1) w w₂ (new ++ [⟨w.left, outcome⟩]) ∧
      w₂.opened + w₂.left + min 1 w₂.left ≤ w.opened + w.left + min 1 w.left := by
  have before := passage.left_le
  have shorter : d.advance.tokens.length ≤ w₁.left - 1 := by
    change d.tokens.tail.length ≤ w₁.cursor.tokens.length - 1
    rw [List.length_tail]
    exact Nat.sub_le_sub_right suffix.length_le 1
  refine ⟨_, rfl, Nat.le_trans shorter (Nat.sub_le_sub_right before 1), ?_, ?_⟩
  · exact passage.log outcome ((List.tail_suffix _).trans suffix) (by omega) faults
  · change w₁.opened + d.advance.tokens.length + min 1 d.advance.tokens.length ≤ _
    omega

/-- One statement, and then the others. -/
theorem Accounted.step {w w₂ : Watch} {read read' : Array Stmt} {outcome : Array Stmt × Cursor}
    {watched : Array Stmt × Watch} {new new' : List Attempt}
    (first : Passage (w.left + 1) w w₂ new)
    (opened : w₂.opened + w₂.left + min 1 w₂.left ≤ w.opened + w.left + min 1 w.left)
    (counted : Stmt.statementsAll read'.toList ≤
      Stmt.statementsAll read.toList + Attempt.successes new)
    (others : Accounted w₂ read' outcome watched new') :
    Accounted w read outcome watched (new ++ new') where
  same := others.same
  passage := first.trans others.passage (Nat.succ_le_succ first.left_le) (Nat.le_refl _)
  opened := Nat.le_trans others.opened opened
  counted := by
    rw [Attempt.successes_append]
    exact Nat.le_trans others.counted (by omega)

theorem accounted_refl (w : Watch) (read : Array Stmt) :
    Accounted w read (read, w.cursor) (read, w) [] :=
  ⟨rfl, passage_refl, Nat.le_add_right .., Nat.le_refl _⟩

include watching

/-- Each pass of the loop makes one attempt. -/
theorem accounted_statements (region : Region) {budget : List Token} (read : Array Stmt)
    {w : Watch} (enough : w.left ≤ budget.length) :
    ∃ new, Accounted w read (Parse.statements inner region budget read w.cursor)
      (statements inner' region budget read w) new := by
  induction budget generalizing read w with
  | nil =>
    have ends : w.cursor.current.kind = .eof := congrArg Token.kind
      (Cursor.current_of_nil (List.length_eq_zero_iff.mp (Nat.le_zero.mp enough)))
    rw [Parse.statements_of_end inner [] read (.inr ends),
      statements_of_end inner' [] read (.inr ends)]
    exact ⟨[], accounted_refl w read⟩
  | cons b budget ih =>
    by_cases ends : w.cursor.current.kind = region.closer ∨ w.cursor.current.kind = .eof
    · rw [Parse.statements_of_end inner (b :: budget) read ends,
        statements_of_end inner' (b :: budget) read ends]
      exact ⟨[], accounted_refl w read⟩
    obtain ⟨unclosed, more⟩ := not_or.mp ends
    have some : 0 < w.left := left_pos more
    rw [List.length_cons] at enough
    -- The account of this attempt comes first, then that of the passes behind it.
    have observed := (observes_statement watching).observed (w := w) trivial
    generalize outcome : Parse.statement inner w.cursor = r at observed
    generalize outcome' : statement inner' w = r' at observed
    cases observed with
    | @ok s w₁ new passage opened counted _ =>
      obtain ⟨_, rfl, less, first, paid⟩ := passage.next opened some (.ok s)
        (List.suffix_refl _) (List.append_nil _).symm
      obtain ⟨_, others⟩ := ih (read.push s) (Nat.le_trans less (Nat.sub_le_of_le_add enough))
      rw [Parse.statements_of_ok unclosed more outcome, statements_of_ok unclosed more outcome']
      refine ⟨_, Accounted.step first paid ?_ others⟩
      rw [Stmt.statementsAll_push, Attempt.successes_append]
      have one : Attempt.successes [⟨w.left, .ok s⟩] = 1 := rfl
      omega
    | @error fault w₁ new passage opened =>
      have suffix : ((w₁.cursor.record fault).recover region).tokens <:+ w₁.cursor.tokens :=
        List.dropWhile_suffix _
      have faults : ((w₁.cursor.record fault).recover region).faults.toList =
          w₁.cursor.faults.toList ++ (Attempt.fault? ⟨w.left, .error fault⟩).toList :=
        Array.toList_push
      rw [Parse.statements_of_error unclosed more outcome,
        statements_of_error unclosed more outcome']
      split
      · -- What is skipped leads to the closing brace, and the loop stops there without a pass.
        rename_i closed
        have rbrace := of_decide_eq_true (Bool.and_eq_true_iff.mp closed).2
        have isBlock : region = .block := of_decide_eq_true (Bool.and_eq_true_iff.mp closed).1
        subst isBlock
        have less := closer_left_lt unclosed (suffix.trans passage.tokens) rbrace
        refine ⟨_, rfl, passage.log (.error fault) suffix less faults, ?_, Nat.le_add_right ..⟩
        change w₁.opened + ((w₁.cursor.record fault).recover .block).tokens.length ≤ _
        have shorter : _ ≤ w₁.left := suffix.length_le
        omega
      · obtain ⟨_, rfl, less, first, paid⟩ := passage.next opened some (.error fault) suffix faults
        obtain ⟨_, others⟩ := ih read (Nat.le_trans less (Nat.sub_le_of_le_add enough))
        exact ⟨_, Accounted.step first paid (Nat.le_add_right ..) others⟩

theorem observes_block : Observes 0 0 Stmt.statementsAll Cursor.OnToken Anywhere
    (Parse.block inner) (block inner') := by
  constructor
  intro w onToken
  have some : 0 < w.left := left_pos onToken
  have length : (w.onCursor .advance).left = w.left - 1 := List.length_tail
  obtain ⟨new, accounted⟩ := accounted_statements watching .block #[]
    (Nat.le_refl (w.onCursor .advance).left)
  have passage : Passage w.left w _ new :=
    (passage_advance w.left w).trans accounted.passage (by omega) (Nat.le_refl _)
  have opened : _ ≤ w.opened + (w.onCursor .advance).left + _ := accounted.opened
  have counted := accounted.counted
  have same : Parse.statements inner .block w.cursor.advance.tokens #[] w.cursor.advance = _ :=
    accounted.same
  unfold Parse.block block
  dsimp only
  rw [same]
  generalize statements inner' .block (w.onCursor .advance).cursor.tokens #[] (w.onCursor .advance)
    = r at *
  have paid : r.2.opened + r.2.left ≤ w.opened + w.left + 0 := by omega
  dsimp only
  split
  · exact .ok passage paid counted trivial
  · exact .error passage paid

end Routines

/-- An expression has to be paid for, whether or not there is room for it. -/
theorem observes_countOpened_bind {x : Parse Expr} {y : Watched Expr}
    (observes : Observes 0 0 Expr.statements Anywhere Anywhere x y) :
    Observes 1 0 Expr.statements Anywhere Anywhere x (do countOpened; y) := by
  constructor
  intro w _
  have counted : Passage w.left w { w with opened := w.opened + 1 } [] :=
    ⟨List.suffix_refl _, (List.append_nil _).symm, (List.append_nil _).symm, nofun, .nil, rfl⟩
  refine (observes.observed (w := { w with opened := w.opened + 1 }) trivial).later counted
    (Nat.le_of_eq ?_) (Nat.le_refl 0)
  exact Nat.add_right_comm w.opened 1 w.left

/-- Only the level on which an expression stands is used up by what is inside it. -/
theorem watching_expression (room : Nat) :
    Watching (Parse.expression room) (expression room) := by
  induction room with
  | zero => exact fun level => observes_countOpened_bind (observes_throw _)
  | succ room ih =>
    refine fun level => observes_countOpened_bind ?_
    refine (observes_operand ih (observes_block ih)).bind fun left => ?_
    have looped : Observes 0 left.statements Expr.statements Anywhere Anywhere
        (get >>= fun c => Parse.links (Parse.expression room) level c.tokens left >>= pure)
        (get >>= fun w => loop (nextLink? (expression room) level) w.cursor.tokens left >>= pure) :=
      observes_loop (Parse.loops_links (Parse.expression room) level) (paired_nextLink ih level)
        fun e => observes_pure (Nat.le_refl _)
    simpa only [bind_pure] using looped

end Watched

/-! ## Programs -/

/-- Wherever a statement starts, something is read or recorded. -/
theorem parse_some {t : Token} {ts : List Token} (more : t.kind ≠ .eof) :
    0 < Stmt.statementsAll (parse (t :: ts)).1 + (parse (t :: ts)).2.length := by
  have agreeing := Parse.agreeing_expression maxNesting
  cases outcome : Parse.statement (Parse.expression maxNesting) ⟨t :: ts, #[]⟩ with
  | ok s d =>
    have le : d.tokens.length ≤ ts.length + 1 :=
      Parse.length_statement_le agreeing (.inl ⟨s, outcome⟩)
    rw [parse_of_seam (Parse.statements_of_ok more more outcome) (Cursor.length_advance_le le)]
    exact Nat.add_pos_left (Nat.add_pos_left s.statements_pos _) _
  | error fault d =>
    have le : d.tokens.length ≤ ts.length + 1 :=
      Parse.length_statement_le agreeing (.inr ⟨fault, outcome⟩)
    have skipped : ((d.record fault).recover .program).tokens.length ≤ d.tokens.length :=
      (List.dropWhile_suffix _).length_le
    rw [parse_of_seam (Parse.statements_of_error more more outcome)
      (Cursor.length_advance_le (Nat.le_trans skipped le))]
    change 0 < _ + ((d.faults.push fault).toList ++ _).length
    rw [Array.toList_push, List.length_append, List.length_append]
    exact Nat.add_pos_right _ (Nat.add_pos_left (Nat.succ_pos _) _)

/-- There are no more attempts than there are tokens to start at. -/
theorem Attempt.length_le {attempts : List Attempt} {n : Nat}
    (starts : ∀ a ∈ attempts, 0 < a.start ∧ a.start ≤ n)
    (apart : (attempts.map Attempt.start).Nodup) : attempts.length ≤ n := by
  have subset : attempts.map Attempt.start ⊆ List.range' 1 n := by
    intro start member
    obtain ⟨a, inside, rfl⟩ := List.mem_map.mp member
    have range := starts a inside
    exact List.mem_range'_1.mpr ⟨range.1, by omega⟩
  have length := (List.subperm_of_subset apart subset).length_le
  rwa [List.length_map, List.length_range'] at length

/-- Reading takes work in proportion to the number of tokens. Under observation the same program
and the same faults come about. No loop stops for want of budget, so each one comes to an end on
its own. At each token a statement is entered once at most. What comes of it is a statement or a
fault, and the faults that come about in this way are those that are recorded. As many expressions
are opened as there are tokens, or one more. So there are as many statements, at all depths, and
faults as there are tokens, at most, and one at least, unless there is no token. -/
theorem parse_attempts {tokens : List Token} (inside : ∀ t ∈ tokens, t.kind ≠ .eof) :
    ∃ w : Watch, Watched.parse tokens = ((parse tokens).1, w) ∧
      w.cursor.faults.toList = (parse tokens).2 ∧
      w.starved = false ∧
      (∀ a ∈ w.attempts, 0 < a.start ∧ a.start ≤ tokens.length) ∧
      (w.attempts.map Attempt.start).Nodup ∧
      w.attempts.filterMap Attempt.fault? = (parse tokens).2 ∧
      Stmt.statementsAll (parse tokens).1 ≤ Attempt.successes w.attempts ∧
      w.opened ≤ tokens.length + 1 ∧
      Stmt.statementsAll (parse tokens).1 + (parse tokens).2.length ≤ tokens.length ∧
      (tokens ≠ [] → 0 < Stmt.statementsAll (parse tokens).1 + (parse tokens).2.length) := by
  rcases done : Watched.statements (Watched.expression maxNesting) .program tokens #[]
    (.ofTokens tokens) with ⟨read, w⟩
  have accounted := Watched.accounted_statements (Watched.watching_expression maxNesting)
    .program #[] (Nat.le_refl (Watch.ofTokens tokens).left)
  obtain ⟨new, account⟩ := accounted
  change Watched.Accounted _ _ _ (Watched.statements _ _ tokens _ _) new at account
  rw [done] at account
  have passage := account.passage
  have attempts : w.attempts = new := passage.attempts
  have faults : w.cursor.faults.toList = new.filterMap Attempt.fault? := passage.faults
  have starts : ∀ a ∈ new, 0 < a.start ∧ a.start ≤ tokens.length := fun a member =>
    ⟨Nat.zero_lt_of_lt (passage.starts a member).1, Nat.le_of_lt_succ (passage.starts a member).2⟩
  have counted : Stmt.statementsAll read.toList ≤ Attempt.successes new := by
    rw [← Nat.zero_add (Attempt.successes new)]
    exact account.counted
  have opened : w.opened + w.left ≤ 0 + tokens.length + min 1 tokens.length := account.opened
  have few : Stmt.statementsAll read.toList + w.cursor.faults.toList.length ≤ tokens.length := by
    rw [faults]
    refine Nat.le_trans (Nat.add_le_add_right counted _) ?_
    rw [Attempt.successes_add_faults]
    exact Attempt.length_le starts passage.apart
  have whole : parse tokens = (read.toList, w.cursor.faults.toList) :=
    parse_of_statements account.same
  have observed : Watched.parse tokens = (read.toList, w) := by
    unfold Watched.parse
    rw [done]
  have some : tokens ≠ [] →
      0 < Stmt.statementsAll (parse tokens).1 + (parse tokens).2.length := by
    intro nonempty
    obtain ⟨t, ts, rfl⟩ := List.exists_cons_of_ne_nil nonempty
    exact parse_some (inside t List.mem_cons_self)
  rw [whole] at some ⊢
  subst attempts
  exact ⟨w, observed, rfl, passage.starved, starts, passage.apart, faults.symm, counted, by omega,
    few, some⟩

/-- In a function, a faulty statement and another one. With the one that the function is, there are
three attempts, which come to two statements and a fault. -/
theorem parse_attempts_function : ∃ w : Watch,
    Watched.parse [⟨.function, "fn"⟩, ⟨.lparen, "("⟩, ⟨.rparen, ")"⟩, ⟨.lbrace, "\x7b"⟩,
      ⟨.letWord, "let"⟩, ⟨.semicolon, ";"⟩, ⟨.ident, "x"⟩, ⟨.rbrace, "\x7d"⟩] =
        ([.expr (.function [] [.expr (.name "x")])], w) ∧
      w.attempts.filterMap Attempt.fault? = [.unexpected .ident .semicolon] ∧
      2 ≤ Attempt.successes w.attempts := by
  have inside : ∀ t ∈ ([⟨.function, "fn"⟩, ⟨.lparen, "("⟩, ⟨.rparen, ")"⟩, ⟨.lbrace, "\x7b"⟩,
      ⟨.letWord, "let"⟩, ⟨.semicolon, ";"⟩, ⟨.ident, "x"⟩, ⟨.rbrace, "\x7d"⟩] : List Token),
      t.kind ≠ .eof := by decide
  obtain ⟨w, observed, _, _, _, _, faults, counted, _⟩ := parse_attempts inside
  exact ⟨w, observed, faults, counted⟩

end Stacklet
