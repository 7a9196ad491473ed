import Stacklet.Proofs.Program.Blocks
import Stacklet.Proofs.Program.Braces

/-!
# Where a block ends

The braces inside a block come in pairs. Expressions take them so, and the statements of a block
leave open what broken statements among them leave open (`fresh_statements`,
`keeping_expression`). For a broken statement is given up as far as the next semicolon or closing
brace, whatever brace that is. So a block ends at its own closing brace unless some statement was
given up between the braces of a pair, and then it ends at the closing brace of a pair inside it
(`parse_inBlock_balanced`).

A statement inside a block is compared with the same one read by itself, which is possible as long
as expressions do not nest too deeply.
-/

namespace Stacklet

namespace Watched

/-! ## Expressions -/

section Routines

variable {ts : List Token} {o : Watch} {inner : Inner}

/-- The parser for the next level keeps the account of the braces. -/
def Keeping (ts : List Token) (o : Watch) (inner : Inner) : Prop :=
  ∀ level, Keeps ts o (Fresh ts o) (Used ts o) (inner level)

variable (keeping : Keeping ts o inner)

include keeping

theorem keeps_nextItem (read : Array Expr) :
    Keeps ts o (Used ts o) (Used ts o) (nextItem inner read) :=
  keeps_advance ((keeping .lowest).bind fun _ => keeps_pure _)

theorem keeps_items {closer : Kind} (inert : Inert closer) :
    Keeps ts o (Used ts o) (Used ts o) (items inner closer) := by
  refine keeps_ahead fun kind => ?_
  split
  · rename_i found
    subst found
    exact keeps_advance_onto inert (keeps_pure _)
  · refine (keeps_advance ?_).narrow fun _ pre => pre.1
    refine (keeping .lowest).bind fun first => keeps_get fun w => ?_
    refine (keeps_loop (fun taken => ?_) w.cursor.tokens #[first]).bind fun read => ?_
    · obtain ⟨rfl, ⟨⟩⟩ := Option.ite_none_right_eq_some.mp taken
      exact ⟨by decide, keeps_nextItem keeping⟩
    · exact (keeps_expect inert).bind fun _ => keeps_pure _

omit keeping in
theorem keeps_nextParameter (read : Array String) :
    Keeps ts o (Used ts o) (Used ts o) (nextParameter read) :=
  keeps_identifier.bind fun _ => keeps_pure _

omit keeping in
theorem keeps_parameters : Keeps ts o (Used ts o) (Used ts o) parameters := by
  refine keeps_ahead fun kind => ?_
  split
  · rename_i found
    subst found
    exact keeps_advance_onto (by decide) (keeps_pure _)
  · refine Keeps.narrow ?_ fun _ pre => pre.1
    refine keeps_identifier.bind fun first => keeps_get fun w => ?_
    refine (keeps_loop (fun taken => ?_) w.cursor.tokens #[first]).bind fun read => ?_
    · obtain ⟨rfl, ⟨⟩⟩ := Option.ite_none_right_eq_some.mp taken
      exact ⟨by decide, keeps_nextParameter⟩
    · exact (keeps_expect (by decide)).bind fun _ => keeps_pure _

section Blocks

variable (blocks : Keeps ts o (Opened ts o) (Used ts o) (block inner))

include blocks

omit keeping in
theorem keeps_bracedBlock : Keeps ts o (Used ts o) (Used ts o) (bracedBlock inner) :=
  keeps_expect_lbrace.bind fun _ => blocks

theorem keeps_conditional : Keeps ts o (Used ts o) (Used ts o) (conditional inner) := by
  have braced := keeps_bracedBlock blocks
  refine (keeps_expect (by decide)).bind fun _ => keeps_advance ?_
  refine (keeping .lowest).bind fun condition => (keeps_expect (by decide)).bind fun _ => ?_
  refine braced.bind fun consequence => keeps_ahead fun kind => ?_
  split
  · rename_i found
    subst found
    exact keeps_advance_onto (by decide) (braced.bind fun _ => keeps_pure _)
  · exact (keeps_pure _).narrow fun _ pre => pre.1

omit keeping in
theorem keeps_function : Keeps ts o (Used ts o) (Used ts o) (function inner) :=
  (keeps_expect (by decide)).bind fun _ => keeps_parameters.bind fun _ =>
    (keeps_bracedBlock blocks).bind fun _ => keeps_pure _

/-- The first token of an operand is no brace. -/
theorem keeps_operand : Keeps ts o (Fresh ts o) (Used ts o) (operand inner) := by
  have signed (op : UnaryOp) : Keeps ts o (Used ts o) (Used ts o)
      (do plain Parse.advance; return .unary op (← inner .unary) : Watched Expr) :=
    keeps_advance ((keeping .unary).bind fun _ => keeps_pure _)
  refine keeps_current fun t => ?_
  cases same : t.kind with
  | ident | string | trueWord | falseWord => exact (keeps_pure _).on_token same (by decide)
  | int =>
    dsimp only
    split
    · exact (keeps_pure _).on_token same (by decide)
    · exact keeps_throw fun _ pre => pre.1.broken
  | bang => exact (signed .not).on_token same (by decide)
  | minus => exact (signed .negate).on_token same (by decide)
  | lparen =>
    refine (keeps_advance ?_).on_token same (by decide)
    exact (keeping .lowest).bind fun _ => (keeps_expect (by decide)).bind fun _ => keeps_pure _
  | ifWord => exact (keeps_conditional keeping blocks).on_token same (by decide)
  | function => exact (keeps_function blocks).on_token same (by decide)
  | lbracket =>
    refine Keeps.on_token ?_ same (by decide)
    exact (keeps_items keeping (by decide)).bind fun _ => keeps_pure _
  | _ => exact keeps_throw fun _ pre => pre.1.broken

end Blocks

theorem keeps_linked (left : Expr) (link : Link) :
    Keeps ts o (Used ts o) (Used ts o) (linked inner left link) := by
  cases link with
  | operator op => exact keeps_advance ((keeping op.precedence).bind fun _ => keeps_pure _)
  | call => exact (keeps_items keeping (by decide)).bind fun _ => keeps_pure _
  | subscript =>
    refine keeps_advance ((keeping .lowest).bind fun _ => ?_)
    exact (keeps_expect (by decide)).bind fun _ => keeps_pure _

theorem keeps_links (level : Precedence) (budget : List Token) (left : Expr) :
    Keeps ts o (Used ts o) (Used ts o) (loop (nextLink? inner level) budget left) := by
  refine keeps_loop (fun {kind} _ taken => ?_) budget left
  obtain ⟨link, opens, rfl⟩ := Option.map_eq_some_iff.mp taken
  refine ⟨?_, fun left => keeps_linked keeping left link⟩
  refine ⟨?_, ?_, ?_⟩ <;> rintro rfl <;> cases opens

theorem keeps_sentence (make : Expr → Stmt) : Keeps ts o (Fresh ts o) (Used ts o)
    (do let value ← inner .lowest; plain Parse.semicolon; return make value : Watched Stmt) :=
  (keeping .lowest).bind fun _ => keeps_semicolon.bind fun _ => keeps_pure _

theorem keeps_statement : Keeps ts o (Fresh ts o) (Used ts o) (statement inner) := by
  refine keeps_current fun t => ?_
  cases same : t.kind with
  | letWord =>
    refine Keeps.on_token ?_ same (by decide)
    refine keeps_identifier.bind fun name => (keeps_expect (by decide)).bind fun _ => ?_
    exact keeps_advance (keeps_sentence keeping _)
  | returnWord => exact (keeps_advance (keeps_sentence keeping _)).on_token same (by decide)
  | _ => exact (keeps_sentence keeping _).narrow fun _ pre => pre.1

end Routines

end Watched

/-! ## Statements -/

namespace Parse

/-- A loop over statements ends at the token that closes the region, or at the end. -/
theorem statements_stops {inner : Inner} (agreeing : Agreeing inner) {region : Region}
    {budget : List Token} {read : Array Stmt} {c : Cursor}
    (enough : c.tokens.length ≤ budget.length) :
    (statements inner region budget read c).2.current.kind = region.closer ∨
      (statements inner region budget read c).2.current.kind = .eof := by
  have joined : Joined (.semicolon []) #[] c.tokens.length c c :=
    ⟨(List.append_nil _).symm, Array.empty_append.symm, Nat.le_refl _, .inl rfl⟩
  have same : SameEnd inner region (.semicolon []) #[] c.tokens.length #[]
      (breaksOff inner region budget c) (statements inner region budget read c)
      (statements inner region budget (#[] ++ read) c) :=
    sameEnd_statements agreeing joined enough enough
  generalize statements inner region budget (#[] ++ read) c = r' at same
  generalize statements inner region budget read c = r at same ⊢
  cases same with
  | together _ ends _ => exact ends
  | behind follow _ _ => exact (follow rfl).elim
  | lost follow _ _ _ => exact (follow rfl).elim

/-- What was recorded before makes no difference to a statement, and neither does the room, if it
lasts. -/
theorem statement_alone {room : Nat} (le : room ≤ maxNesting) {c : Cursor}
    (shallow : ¬ TooDeep (statement (expression room) c)) :
    Agree (.semicolon []) c.faults c.tokens.length Cursor.OnToken
      (statement (expression maxNesting) ⟨c.tokens, #[]⟩) (statement (expression room) c) := by
  have joined : Joined (.semicolon []) c.faults c.tokens.length ⟨c.tokens, #[]⟩ c :=
    ⟨(List.append_nil _).symm, Array.append_empty.symm, Nat.le_refl _, .inl rfl⟩
  rw [((lasts_statement (lasting_expression le)).same c).resolve_right shallow]
  exact (agrees_statement (agreeing_expression maxNesting)).agree joined trivial

end Parse

namespace Watched

/-- What is skipped closes no brace. -/
theorem exists_skipped (c : Cursor) :
    ∃ skipped, (∀ t ∈ skipped, t.kind ≠ .rbrace) ∧
      c.tokens = skipped ++ (c.recover .block).tokens := by
  refine ⟨c.tokens.takeWhile fun t => !Region.block.resumesAt t.kind, ?_,
    List.takeWhile_append_dropWhile.symm⟩
  intro t member closes
  have skipped := List.mem_takeWhile_imp member
  simp [Region.resumesAt, Region.closer, closes] at skipped

/-- If no brace is left open where the statement was recovered from, it was contained, and so was
everything inside it. -/
theorem Broken.recover {ts : List Token} {w w₁ : Watch} {fault : Fault} (broken : Broken ts w w₁)
    (dropped : Attempt.dropped? ts ⟨w.left, .error fault⟩ =
      some (w.cursor.tokens.take (w.left - (w₁.cursor.recover .block).tokens.length))) :
    Fresh ts w ((w₁.log ⟨w.left, .error fault⟩).onCursor fun c =>
      (c.record fault).recover .block) := by
  obtain ⟨spent, new, k, tokens, attempts, depth, contained⟩ := broken
  obtain ⟨skipped, noClose, split⟩ := exists_skipped w₁.cursor
  obtain ⟨j, deeper⟩ := Token.exists_depth noClose 0
  have all : Token.depth 0 (spent ++ skipped) = some (k + j) := Token.depth_trans depth deeper
  have whole : w.cursor.tokens = spent ++ skipped ++ (w₁.cursor.recover .block).tokens := by
    rw [tokens, split, List.append_assoc]
  have taken : w.cursor.tokens.take (w.left - (w₁.cursor.recover .block).tokens.length) =
      spent ++ skipped := by
    rw [Watch.left, whole]
    exact List.take_left' (by simp only [List.length_append]; omega)
  have balanced : Attempt.Contained ts ⟨w.left, .error fault⟩ ↔ k + j = 0 := by
    rw [Attempt.Contained, dropped, taken]
    simp [Token.Balanced, all]
  refine ⟨_, new ++ [⟨w.left, .error fault⟩], k + j, whole, ?_, all, ?_⟩
  · change w₁.attempts ++ [_] = _
    rw [attempts, List.append_assoc]
  · rw [List.forall_mem_append, List.forall_mem_singleton, balanced]
    exact ⟨fun none => ⟨contained (Nat.add_eq_zero_iff.mp none).1, none⟩, And.right⟩

/-- Where a broken statement was recovered from, no block is opened. -/
theorem recover_ne_lbrace (c : Cursor) (region : Region) :
    (c.recover region).current.kind ≠ .lbrace := by
  intro opens
  have stops := List.head?_dropWhile_not (fun t : Token => !region.resumesAt t.kind) c.tokens
  unfold Cursor.recover Cursor.current at opens
  cases left : c.tokens.dropWhile fun t => !region.resumesAt t.kind with
  | nil =>
    rw [left] at opens
    cases opens
  | cons t rest =>
    rw [left] at stops opens
    have same : t.kind = .lbrace := opens
    cases region <;> simp [Region.resumesAt, Region.closer, same] at stops

section Statements

variable {ts : List Token} {room : Nat} {o w w₁ : Watch} {fault : Fault}

theorem Passage.deep {bound : Nat} {new : List Attempt} (passage : Passage bound w w₁ new)
    (deep : Deep w) : Deep w₁ := by
  rw [Deep, Array.mem_def, passage.faults]
  exact List.mem_append.mpr (.inl (Array.mem_def.mp deep))

/-- A statement is read in the same way without an account. -/
theorem parse_of_ok {s : Stmt} (done : statement (expression room) w = .ok s w₁) :
    Parse.statement (Parse.expression room) w.cursor = .ok s w₁.cursor ∧
      ∃ new, Passage w.left w w₁ new := by
  have observed := (observes_statement (watching_expression room)).observed (w := w) trivial
  rw [done] at observed
  generalize Parse.statement (Parse.expression room) w.cursor = r at observed
  cases observed with
  | ok passage => exact ⟨rfl, _, passage⟩

theorem parse_of_error (failed : statement (expression room) w = .error fault w₁) :
    Parse.statement (Parse.expression room) w.cursor = .error fault w₁.cursor ∧
      ∃ new, Passage w.left w w₁ new := by
  have observed := (observes_statement (watching_expression room)).observed (w := w) trivial
  rw [failed] at observed
  generalize Parse.statement (Parse.expression room) w.cursor = r at observed
  cases observed with
  | error passage => exact ⟨rfl, _, passage⟩

theorem drop_of_suffix (inside : w.cursor.tokens <:+ ts) :
    ts.drop (ts.length - w.left) = w.cursor.tokens :=
  (List.suffix_iff_eq_drop.mp inside).symm

variable (le : room ≤ maxNesting) (inside : w.cursor.tokens <:+ ts)

include le inside

/-- Nothing is dropped with a statement that is read. -/
theorem contained_of_ok {s : Stmt} (shallow : ¬ Deep w₁)
    (done : statement (expression room) w = .ok s w₁) :
    Attempt.Contained ts ⟨w.left, .ok s⟩ := by
  have same := (parse_of_ok done).1
  have agree := Parse.statement_alone le (c := w.cursor) (by rw [same]; exact shallow)
  rw [same] at agree
  unfold Attempt.Contained Attempt.dropped?
  dsimp only
  rw [drop_of_suffix inside, Cursor.ofTokens]
  generalize Parse.statement (Parse.expression maxNesting) ⟨w.cursor.tokens, #[]⟩ = r at agree ⊢
  cases agree with
  | ok =>
    intro us member
    cases member
  | lost follow => exact (follow rfl).elim

/-- What is dropped with one that is broken reaches to where it was recovered from. -/
theorem dropped?_of_error (shallow : ¬ Deep w₁)
    (failed : statement (expression room) w = .error fault w₁) (other : fault ≠ .nestingTooDeep) :
    Attempt.dropped? ts ⟨w.left, .error fault⟩ =
      some (w.cursor.tokens.take (w.left - (w₁.cursor.recover .block).tokens.length)) := by
  have same := (parse_of_error failed).1
  have agree := Parse.statement_alone le (c := w.cursor)
    (by rw [same]; exact not_or.mpr ⟨other, shallow⟩)
  rw [same] at agree
  unfold Attempt.dropped?
  dsimp only
  rw [drop_of_suffix inside, Cursor.ofTokens]
  generalize Parse.statement (Parse.expression maxNesting) ⟨w.cursor.tokens, #[]⟩ = r at agree ⊢
  cases agree with
  | @error _ d _ joined =>
    have tokens : w₁.cursor.tokens = d.tokens := joined.tokens.trans (List.append_nil _)
    unfold Cursor.recover
    rw [tokens]
    rfl
  | lost follow => exact (follow rfl).elim

/-- What is open behind a statement is what broken statements inside it have left open. -/
theorem fresh_of_ok {s : Stmt} (keeping : Keeping ts w (expression room)) (shallow : ¬ Deep w₁)
    (done : statement (expression room) w = .ok s w₁) :
    Fresh ts w ((w₁.log ⟨w.left, .ok s⟩).onCursor .advance) := by
  have used : Used ts w w₁ :=
    ((keeps_statement keeping).ok (.inr (fresh_refl ts w)) done).resolve_left shallow
  exact (used.log (contained_of_ok le inside shallow done)).advance

/-- Where a broken statement was recovered from, what it has left open itself is open as well. -/
theorem fresh_of_error (keeping : Keeping ts w (expression room))
    (failed : statement (expression room) w = .error fault w₁)
    (shallow : ¬ Deep ((w₁.log ⟨w.left, .error fault⟩).onCursor fun c =>
      (c.record fault).recover .block)) :
    Fresh ts w ((w₁.log ⟨w.left, .error fault⟩).onCursor fun c =>
      (c.record fault).recover .block) := by
  have notDeep : ¬ Parse.TooDeep (.error fault w₁.cursor : EStateM.Result Fault Cursor Stmt) :=
    fun deep => shallow deep.record
  obtain ⟨other, shallow₁⟩ := not_or.mp notDeep
  have outcome := (keeps_statement keeping).error (.inr (fresh_refl ts w)) failed
  have broken : Broken ts w w₁ := (outcome.resolve_left other).resolve_left shallow₁
  exact broken.recover (dropped?_of_error le inside shallow₁ failed other)

end Statements

section Loop

variable {ts : List Token} {room : Nat} {o w : Watch}

/-- What has been recorded before a loop is recorded behind it. -/
theorem deep_statements {region : Region} {budget : List Token} {read : Array Stmt}
    (enough : w.left ≤ budget.length) (deep : Deep w) :
    Deep (statements (expression room) region budget read w).2 := by
  obtain ⟨_, accounted⟩ := accounted_statements (watching_expression room) region read enough
  exact accounted.passage.deep deep

variable (le : room ≤ maxNesting)
  (keeping : ∀ o : Watch, o.cursor.tokens <:+ ts → Keeping ts o (expression room))

include le keeping

/-- From pass to pass, as many braces are open as broken statements have left open. -/
theorem fresh_statements {budget : List Token} {read : Array Stmt} (inside : w.cursor.tokens <:+ ts)
    (enough : w.left ≤ budget.length) (fresh : Fresh ts o w)
    (shallow : ¬ Deep (statements (expression room) .block budget read w).2) :
    Fresh ts o (statements (expression room) .block budget read w).2 := by
  induction budget generalizing read w with
  | nil =>
    have ends : w.cursor.current.kind = .eof := congrArg Token.kind
      (Cursor.current_of_nil (List.length_eq_zero_iff.mp (Nat.le_zero.mp enough)))
    rwa [statements_of_end _ [] read (.inr ends)]
  | cons b budget ih =>
    by_cases ends : w.cursor.current.kind = Region.block.closer ∨ w.cursor.current.kind = .eof
    · rwa [statements_of_end _ (b :: budget) read ends]
    obtain ⟨unclosed, more⟩ := not_or.mp ends
    -- Behind this attempt the loop goes on in the same way.
    have next {read : Array Stmt} {w₂ : Watch} (tokens : w₂.cursor.tokens <:+ w.cursor.tokens)
        (shorter : w₂.left ≤ budget.length) (fresh₂ : Fresh ts w w₂)
        (shallow : ¬ Deep (statements (expression room) .block budget read w₂).2) :
        Fresh ts o (statements (expression room) .block budget read w₂).2 :=
      ih (tokens.trans inside) shorter (fresh.trans fresh₂) shallow
    cases outcome : statement (expression room) w with
    | ok s w₁ =>
      obtain ⟨_, _, passage⟩ := parse_of_ok outcome
      have shorter : ((w₁.log ⟨w.left, .ok s⟩).onCursor .advance).left ≤ budget.length :=
        Cursor.length_advance_le (Nat.le_trans passage.left_le enough)
      rw [statements_of_ok unclosed more outcome] at shallow ⊢
      have shallow₁ : ¬ Deep w₁ := fun deep => shallow (deep_statements shorter deep)
      exact next ((List.tail_suffix _).trans passage.tokens) shorter
        (fresh_of_ok le inside (keeping w inside) shallow₁ outcome) shallow
    | error fault w₁ =>
      obtain ⟨_, _, passage⟩ := parse_of_error outcome
      have suffix : (w₁.cursor.recover .block).tokens <:+ w.cursor.tokens :=
        (List.dropWhile_suffix _).trans passage.tokens
      have recovered := fresh_of_error le inside (keeping w inside) outcome
      rw [statements_of_error unclosed more outcome] at shallow ⊢
      split at shallow
      · rename_i closed
        rw [if_pos closed]
        exact fresh.trans (recovered shallow)
      · rename_i notClosed
        rw [if_neg notClosed]
        have shorter : (w₁.cursor.recover .block).advance.tokens.length ≤ budget.length :=
          Cursor.length_advance_le (Nat.le_trans suffix.length_le enough)
        have notClose : (w₁.cursor.recover .block).current.kind ≠ .rbrace := fun closes =>
          notClosed (by
            rw [Bool.and_eq_true]
            exact ⟨rfl, decide_eq_true closes⟩)
        refine next ((List.tail_suffix _).trans suffix) shorter ?_ shallow
        refine (recovered fun deep => ?_).advance (recover_ne_lbrace _ .block) notClose
        exact shallow (deep_statements shorter deep)

end Loop

/-! ## Blocks -/

section Blocks

variable {ts : List Token} {o w w' : Watch}

/-- Behind the statements of a block its opening brace is open, and so many more as broken
statements have left open. -/
theorem Opened.behind_statements (opened : Opened ts o w)
    (fresh : Fresh ts (w.onCursor .advance) w') :
    ∃ spent new k, o.cursor.tokens = spent ++ w'.cursor.tokens ∧
      w'.attempts = o.attempts ++ new ∧ Token.depth 0 spent = some (k + 1) ∧
      (k = 0 ↔ ∀ a ∈ new, a.Contained ts) := by
  obtain ⟨spent, t, rest, new, k, tokens, left, opens, reckoned⟩ := opened
  obtain ⟨spent', new', k', tokens', reckoned'⟩ := fresh
  have behind : rest = spent' ++ w'.cursor.tokens := by
    rw [← tokens']
    change rest = w.cursor.tokens.tail
    rw [left]
    rfl
  refine ⟨spent ++ t :: spent', new ++ new', k + k', ?_, ?_, ?_, ?_⟩
  · rw [tokens, behind, List.append_assoc]
    rfl
  · rw [reckoned'.attempts]
    change w.attempts ++ new' = _
    rw [reckoned.attempts, List.append_assoc]
  · rw [Token.depth_append, reckoned.depth, Option.bind_some, Token.depth_cons,
      Token.deepen_lbrace opens, Option.bind_some, Token.depth_behind reckoned'.depth,
      Nat.add_right_comm]
  · rw [Nat.add_eq_zero_iff, reckoned.contained, reckoned'.contained, List.forall_mem_append]

/-- A block that has been read up to its closing brace has taken both of its braces. -/
theorem Opened.closed (opened : Opened ts o w) (fresh : Fresh ts (w.onCursor .advance) w')
    (closes : w'.cursor.current.kind = .rbrace) : Used ts o w' := by
  obtain ⟨spent, new, k, tokens, attempts, depth, contained⟩ := opened.behind_statements fresh
  have left := (Parse.tokens_of_current (by decide) closes).2
  have notOpen : w'.cursor.current.kind ≠ .lbrace := by
    rw [closes]
    decide
  refine ⟨spent, _, _, new, k, left ▸ tokens, left, notOpen, attempts, ?_, contained⟩
  rw [Token.depth_append, depth, Option.bind_some, Token.depth_singleton,
    Token.deepen_rbrace closes]

/-- Where a block is not closed, its opening brace is open. -/
theorem Opened.unclosed (opened : Opened ts o w) (fresh : Fresh ts (w.onCursor .advance) w') :
    Broken ts o w' := by
  obtain ⟨spent, new, k, tokens, attempts, depth, _⟩ := opened.behind_statements fresh
  exact ⟨spent, new, k + 1, tokens, attempts, depth, nofun⟩

end Blocks

section Expressions

variable {ts : List Token} {room : Nat} (le : room ≤ maxNesting)

include le

/-- Inside a block, the account starts at its first statement. -/
theorem Opened.enter {o w : Watch} (opened : Opened ts o w) (inside : o.cursor.tokens <:+ ts)
    (keeping : ∀ o : Watch, o.cursor.tokens <:+ ts → Keeping ts o (expression room))
    (shallow : ¬ Deep (statements (expression room) .block (w.onCursor .advance).cursor.tokens #[]
      (w.onCursor .advance)).2) :
    Fresh ts (w.onCursor .advance) (statements (expression room) .block
      (w.onCursor .advance).cursor.tokens #[] (w.onCursor .advance)).2 := by
  refine fresh_statements le keeping ?_ (Nat.le_refl _) (fresh_refl ts _) shallow
  obtain ⟨spent, t, rest, _, _, tokens, left, _⟩ := opened
  refine List.IsSuffix.trans ?_ inside
  change w.cursor.tokens.tail <:+ _
  rw [tokens, left]
  exact (List.suffix_cons t rest).trans (List.suffix_append ..)

theorem keeps_block {o : Watch} (inside : o.cursor.tokens <:+ ts)
    (keeping : ∀ o : Watch, o.cursor.tokens <:+ ts → Keeping ts o (expression room)) :
    Keeps ts o (Opened ts o) (Used ts o) (block (expression room)) := by
  have read {w : Watch} (pre : Deep w ∨ Opened ts o w) :
      Deep (statements (expression room) .block (w.onCursor .advance).cursor.tokens #[]
        (w.onCursor .advance)).2 ∨ Opened ts o w ∧ Fresh ts (w.onCursor .advance)
          (statements (expression room) .block (w.onCursor .advance).cursor.tokens #[]
            (w.onCursor .advance)).2 := by
    rcases pre with deep | opened
    · exact .inl (deep_statements (w := w.onCursor .advance) (Nat.le_refl _) deep)
    · exact or_iff_not_imp_left.mpr fun shallow =>
        ⟨opened, opened.enter le inside keeping shallow⟩
  constructor
  · intro w w' a pre done
    have outcome := read pre
    unfold block at done
    dsimp only at done
    split at done
    · rename_i closes
      cases done
      exact outcome.imp_right fun ⟨opened, fresh⟩ => opened.closed fresh closes
    · cases done
  · intro w w' fault pre failed
    have outcome := read pre
    unfold block at failed
    dsimp only at failed
    split at failed
    · cases failed
    · cases failed
      exact .inr (outcome.imp_right fun ⟨opened, fresh⟩ => opened.unclosed fresh)

/-- An expression takes its braces in pairs, but for those that broken statements inside it have
left open. -/
theorem keeping_expression {o : Watch} (inside : o.cursor.tokens <:+ ts) :
    Keeping ts o (expression room) := by
  have counted {o : Watch} : Keeps ts o (Fresh ts o) (Fresh ts o) countOpened :=
    keeps_modify fun _ pre => pre
  induction room generalizing o with
  | zero => exact fun level => counted.bind fun _ => keeps_tooDeep
  | succ room ih =>
    have lower := Nat.le_of_succ_le le
    have keeping {o : Watch} (inside : o.cursor.tokens <:+ ts) := ih lower inside
    have blocks := keeps_block lower inside fun _ => keeping
    refine fun level => counted.bind fun _ => ?_
    refine (keeps_operand (keeping inside) blocks).bind fun left => keeps_get fun w => ?_
    exact keeps_links (keeping inside) level w.cursor.tokens left

end Expressions

/-- The statements of a block under observation, from behind its opening brace on. The block belongs
to a conditional that is a statement of the program. -/
def parseBlock (tokens : List Token) : List Stmt × Watch :=
  let (read, w) := statements (expression (maxNesting - 1)) .block tokens #[] (.ofTokens tokens)
  (read.toList, w)

end Watched

namespace Token

variable {t : Token} {ts front back behind : List Token}

/-- In front of a closing brace without counterpart, as far as none such is taken. -/
theorem prefix_of_depth {k : Nat} (balanced : Balanced ts) (closes : t.kind = .rbrace)
    (split : front ++ back = ts ++ t :: behind) (deeper : depth 0 front = some k) :
    ∃ rest, ts = front ++ rest ∧ back = rest ++ t :: behind := by
  rcases List.append_eq_append_iff.mp split with ⟨rest, whole, same⟩ | ⟨rest, whole, same⟩
  · exact ⟨rest, whole, same⟩
  · cases rest with
    | nil =>
      rw [List.append_nil] at whole
      exact ⟨[], by rw [whole, List.append_nil], same.symm⟩
    | cons u rest =>
      obtain ⟨rfl, _⟩ := List.cons.inj same
      rw [whole, depth_append, balanced, Option.bind_some, depth_cons, deepen_zero closes] at deeper
      cases deeper

end Token

namespace Watched

section ParseBlock

variable {ts tokens behind : List Token} {body : List Stmt} {w : Watch}

theorem statements_of_parseBlock (read : parseBlock tokens = (body, w)) :
    statements (expression (maxNesting - 1)) .block tokens #[] (.ofTokens tokens) =
      (body.toArray, w) := by
  rcases run : statements (expression (maxNesting - 1)) .block tokens #[] (.ofTokens tokens)
    with ⟨statements, w'⟩
  unfold parseBlock at read
  rw [run] at read
  cases read
  rfl

/-- Without an account the same statements are read, and the faults are those of the account. -/
theorem parse_of_parseBlock (read : parseBlock tokens = (body, w)) :
    Parse.statements (Parse.expression (maxNesting - 1)) .block tokens #[] (.ofTokens tokens) =
        (body.toArray, w.cursor) ∧
      w.cursor.faults.toList = w.attempts.filterMap Attempt.fault? := by
  obtain ⟨new, accounted⟩ := accounted_statements (watching_expression (maxNesting - 1)) .block #[]
    (Nat.le_refl (Watch.ofTokens tokens).left)
  change Accounted _ _ _ (statements _ _ tokens _ _) new at accounted
  rw [statements_of_parseBlock read] at accounted
  have passage := accounted.passage
  have attempts : w.attempts = new := passage.attempts
  refine ⟨accounted.same, ?_⟩
  rw [attempts]
  exact passage.faults

/-- Behind the statements the block is closed, or there are no more tokens. -/
theorem parseBlock_fresh (read : parseBlock tokens = (body, w)) (shallow : ¬ Deep w) :
    Fresh tokens (.ofTokens tokens) w ∧
      (w.cursor.current.kind = .rbrace ∨ w.cursor.current.kind = .eof) := by
  have le : maxNesting - 1 ≤ maxNesting := Nat.sub_le ..
  have enough : (Watch.ofTokens tokens).left ≤ tokens.length := Nat.le_refl _
  have run := statements_of_parseBlock read
  constructor
  · have fresh := fresh_statements le (fun _ => keeping_expression le)
      (List.suffix_refl (Watch.ofTokens tokens).cursor.tokens) enough (fresh_refl _ _)
      (by rw [run]; exact shallow)
    rwa [run] at fresh
  · have stops : (Parse.statements (Parse.expression (maxNesting - 1)) .block tokens #[]
          (.ofTokens tokens)).2.current.kind = Region.block.closer ∨
        (Parse.statements (Parse.expression (maxNesting - 1)) .block tokens #[]
          (.ofTokens tokens)).2.current.kind = .eof :=
      Parse.statements_stops (Parse.agreeing_expression (maxNesting - 1)) enough
    rwa [(parse_of_parseBlock read).1] at stops

/-- A block ends at its own closing brace if all broken statements inside it are contained, and
otherwise at the closing brace of a pair inside it. -/
theorem parseBlock_ends (balanced : Token.Balanced ts) (inside : ∀ t ∈ ts, t.kind ≠ .eof)
    (read : parseBlock (ts ++ rightBrace :: behind) = (body, w)) (shallow : ¬ Deep w) :
    ((∀ a ∈ w.attempts, a.Contained (ts ++ rightBrace :: behind)) →
      w.cursor.tokens = rightBrace :: behind) ∧
    ((∃ a ∈ w.attempts, ¬ a.Contained (ts ++ rightBrace :: behind)) →
      ∃ front t back, ts = front ++ t :: back ∧ t.kind = .rbrace ∧
        w.cursor.tokens = t :: back ++ rightBrace :: behind) := by
  obtain ⟨⟨front, new, k, tokens, reckoned⟩, stops⟩ := parseBlock_fresh read shallow
  obtain ⟨rest, same, left⟩ :=
    Token.prefix_of_depth balanced rfl tokens.symm reckoned.depth
  have attempts : w.attempts = new := reckoned.attempts
  rw [attempts, ← reckoned.contained]
  cases rest with
  | nil =>
    -- All tokens of the block have been spent, so no brace is open.
    rw [List.append_nil] at same
    have none : k = 0 := by
      have deeper := reckoned.depth
      rw [← same, balanced] at deeper
      exact (Option.some.inj deeper).symm
    refine ⟨fun _ => left, ?_⟩
    rintro ⟨a, member, spills⟩
    exact (spills (reckoned.contained.mp none a member)).elim
  | cons t rest =>
    have current : w.cursor.current = t := by
      rw [Cursor.current, left]
      rfl
    rw [current] at stops
    have closes := stops.resolve_right (inside t (by simp [same]))
    refine ⟨fun none => ?_, fun _ => ⟨front, t, rest, same, closes, left⟩⟩
    -- With no brace open there would be one too many.
    rw [Token.Balanced, same, Token.depth_append, reckoned.depth, none, Option.bind_some,
      Token.depth_cons, Token.deepen_zero closes] at balanced
    cases balanced

end ParseBlock

end Watched

/-! ## Among other statements -/

/-- What a statement ends with. -/
def separator : Token := ⟨.semicolon, ";"⟩

namespace Parse

section Conditional

variable {room : Nat} {ts us tokens : List Token} {read : Array Stmt} {faults : Array Fault}

/-- If the block ends at its own brace, the statement ends behind it. -/
theorem statement_of_block
    (own : statements (expression (room + 1)) .block (ts ++ rightBrace :: separator :: us) #[]
      ⟨ts ++ rightBrace :: separator :: us, #[]⟩ =
        (read, ⟨rightBrace :: separator :: us, faults⟩)) :
    statement (expression (room + 2)) ⟨inBlock ts ++ separator :: us, #[]⟩ =
      .ok (.expr (.conditional (.boolean true) read.toList none)) ⟨separator :: us, faults⟩ := by
  rw [inBlock_append]
  change (expression (room + 2) .lowest >>= _) _ = _
  rw [bind_of_ok (expression_opening own (.inr rfl))]
  rfl

/-- A conditional from its block on, with the operators behind it. -/
def fromBlock (inner : Inner) : Parse Expr := do
  let left ← block inner >>= alternative inner (.boolean true)
  links inner .lowest (← get).tokens left

theorem statement_opening (room : Nat) (tokens : List Token) :
    statement (expression (room + 2)) ⟨opening ++ tokens, #[]⟩ =
      (do let value ← fromBlock (expression (room + 1)); semicolon; return .expr value : Parse Stmt)
        ⟨leftBrace :: tokens, #[]⟩ := rfl

/-- Expressions that nest too deeply inside the block do so in the statement. -/
theorem tooDeep_statement_opening
    (deep : .nestingTooDeep ∈
      (statements (expression (room + 1)) .block tokens #[] ⟨tokens, #[]⟩).2.faults) :
    TooDeep (statement (expression (room + 2)) ⟨opening ++ tokens, #[]⟩) := by
  have lasting := lasting_expression (Nat.le_refl (room + 1))
  have inside : TooDeep (block (expression (room + 1)) ⟨leftBrace :: tokens, #[]⟩) := by
    unfold block Cursor.advance
    dsimp only [List.tail_cons]
    split
    · exact deep
    · exact .inr deep
  rw [statement_opening]
  refine TooDeep.bind (TooDeep.bind (inside.bind fun body => ?_) fun left d => ?_) fun value d => ?_
  · exact (lasts_alternative lasting _ body).kept
  · exact (lasts_links lasting .lowest d.tokens left).kept
  · exact (lasts_semicolon.bind fun _ => lasts_pure (Stmt.expr value)).kept

end Conditional

/-- What has been recorded in the block is among the faults of the program. -/
theorem nestingTooDeep_mem {tokens : List Token}
    (deep : .nestingTooDeep ∈
      (statements (expression (maxNesting - 1)) .block tokens #[] ⟨tokens, #[]⟩).2.faults) :
    .nestingTooDeep ∈ (parse (opening ++ tokens)).2 := by
  have tooDeep : TooDeep (statement (expression maxNesting) ⟨opening ++ tokens, #[]⟩) :=
    tooDeep_statement_opening deep
  have lasting := lasting_expression (Nat.le_refl maxNesting)
  have opens : (Cursor.current ⟨opening ++ tokens, #[]⟩).kind ≠ .eof := nofun
  suffices recorded : .nestingTooDeep ∈ (statements (expression maxNesting) .program
      (opening ++ tokens) #[] ⟨opening ++ tokens, #[]⟩).2.faults by
    rw [parse_of_statements rfl]
    exact Array.mem_def.mp recorded
  change _ ∈ (statements _ .program (_ :: (opening ++ tokens).tail) _ _).2.faults
  cases outcome : statement (expression maxNesting) ⟨opening ++ tokens, #[]⟩ with
  | ok s d =>
    rw [outcome] at tooDeep
    rw [statements_of_ok opens opens outcome]
    exact tooDeep_mem_statements lasting tooDeep
  | error fault d =>
    rw [outcome] at tooDeep
    rw [statements_of_error opens opens outcome]
    exact tooDeep_mem_statements lasting tooDeep.record

end Parse

/-- A block that ends at its own brace belongs to one statement, and what follows that is read as it
would be alone. -/
theorem parse_of_ownBrace {ts us : List Token} {read : Array Stmt} {faults : Array Fault}
    (own : Parse.statements (Parse.expression (maxNesting - 1)) .block
      (ts ++ rightBrace :: separator :: us) #[] ⟨ts ++ rightBrace :: separator :: us, #[]⟩ =
        (read, ⟨rightBrace :: separator :: us, faults⟩)) :
    parse (inBlock ts ++ separator :: us) =
      (.expr (.conditional (.boolean true) read.toList none) :: (parse us).1,
        faults.toList ++ (parse us).2) := by
  have statement : Parse.statement (Parse.expression maxNesting)
      ⟨inBlock ts ++ separator :: us, #[]⟩ =
        .ok (.expr (.conditional (.boolean true) read.toList none)) ⟨separator :: us, faults⟩ :=
    Parse.statement_of_block own
  have opens : (Cursor.current ⟨inBlock ts ++ separator :: us, #[]⟩).kind ≠ .eof := nofun
  have seam : Parse.statements (Parse.expression maxNesting) .program
      (inBlock ts ++ separator :: us) #[] ⟨inBlock ts ++ separator :: us, #[]⟩ =
        Parse.statements (Parse.expression maxNesting) .program
          (inBlock ts ++ separator :: us).tail
          #[.expr (.conditional (.boolean true) read.toList none)] ⟨us, faults⟩ :=
    Parse.statements_of_ok opens opens statement
  have enough : us.length ≤ (inBlock ts ++ separator :: us).tail.length := by
    rw [List.length_tail, List.length_append, List.length_cons]
    omega
  rw [parse_of_seam seam enough]
  rfl

/-- What is broken in a block is skipped without abandoning the block, if it takes its braces in
pairs. Then the block ends at its own brace and has the statements that could be read, and what
follows is read as it would be alone. Otherwise the block ends at the closing brace of a pair
inside it. -/
theorem parse_inBlock_balanced {ts us : List Token} (balanced : Token.Balanced ts)
    (inside : ∀ t ∈ ts, t.kind ≠ .eof)
    (shallow : .nestingTooDeep ∉ (parse (inBlock ts ++ separator :: us)).2) :
    let all := ts ++ rightBrace :: separator :: us
    ∃ body w, Watched.parseBlock all = (body, w) ∧
      ((∀ a ∈ w.attempts, a.Contained all) →
        w.cursor.tokens = rightBrace :: separator :: us ∧
        parse (inBlock ts ++ separator :: us) =
          (.expr (.conditional (.boolean true) body none) :: (parse us).1,
            w.attempts.filterMap Attempt.fault? ++ (parse us).2)) ∧
      ((∃ a ∈ w.attempts, ¬ a.Contained all) →
        ∃ front t back, ts = front ++ t :: back ∧ t.kind = .rbrace ∧
          w.cursor.tokens = t :: back ++ rightBrace :: separator :: us) := by
  intro all
  rcases read : Watched.parseBlock all with ⟨body, w⟩
  obtain ⟨same, faults⟩ := Watched.parse_of_parseBlock read
  have notDeep : ¬ Watched.Deep w := by
    intro deep
    refine shallow ?_
    rw [inBlock_append]
    exact Parse.nestingTooDeep_mem (same ▸ deep)
  obtain ⟨own, other⟩ := Watched.parseBlock_ends balanced inside read notDeep
  refine ⟨body, w, rfl, fun contained => ?_, other⟩
  have ends := own contained
  have block : Parse.statements (Parse.expression (maxNesting - 1)) .block all #[] ⟨all, #[]⟩ =
      (body.toArray, ⟨rightBrace :: separator :: us, w.cursor.faults⟩) := by
    rw [← ends]
    exact same
  refine ⟨ends, ?_⟩
  rw [parse_of_ownBrace block, faults]

/-- In the first block a pair is given up together with what stands around it. In the second one
the recovery stops inside the pair, at its closing brace. -/
theorem parse_inBlock_balanced_pairs :
    let kept : List Token := [⟨.function, "fn"⟩, ⟨.lparen, "("⟩, ⟨.rparen, ")"⟩, ⟨.lbrace, "\x7b"⟩,
      ⟨.rbrace, "\x7d"⟩, ⟨.plus, "+"⟩, ⟨.semicolon, ";"⟩, ⟨.ident, "y"⟩]
    let spilled : List Token := [⟨.letWord, "let"⟩, ⟨.lbrace, "\x7b"⟩, ⟨.rbrace, "\x7d"⟩,
      ⟨.semicolon, ";"⟩, ⟨.ident, "y"⟩]
    let us : List Token := [⟨.ident, "z"⟩]
    parse (inBlock kept ++ separator :: us) =
      ([.expr (.conditional (.boolean true) [.expr (.name "y")] none), .expr (.name "z")],
        [.noOperand .semicolon ";"]) ∧
    ∃ front t back, spilled = front ++ t :: back ∧ t.kind = .rbrace ∧
      (Watched.parseBlock (spilled ++ rightBrace :: separator :: us)).2.cursor.tokens =
        t :: back ++ rightBrace :: separator :: us := by
  intro kept spilled us
  constructor
  · obtain ⟨body, w, read, own, -⟩ :=
      @parse_inBlock_balanced kept us (by decide) (by decide) (by decide)
    have contained : ∀ a ∈ (Watched.parseBlock (kept ++ rightBrace :: separator :: us)).2.attempts,
        a.Contained (kept ++ rightBrace :: separator :: us) := by decide +kernel
    have faults : (Watched.parseBlock (kept ++ rightBrace :: separator :: us)).2.attempts.filterMap
        Attempt.fault? = [.noOperand .semicolon ";"] := by decide +kernel
    have statements : [.expr (.name "y")] = body :=
      congrArg (fun r => r.1.toList) (Watched.parse_of_parseBlock read).1
    simp only [read] at contained faults
    rw [(own contained).2, ← statements, faults]
    rfl
  · obtain ⟨body, w, read, -, other⟩ :=
      @parse_inBlock_balanced spilled us (by decide) (by decide) (by decide)
    have spills : ∃ a ∈
        (Watched.parseBlock (spilled ++ rightBrace :: separator :: us)).2.attempts,
          ¬ a.Contained (spilled ++ rightBrace :: separator :: us) := by decide
    rw [read] at spills ⊢
    exact other spills

end Stacklet
