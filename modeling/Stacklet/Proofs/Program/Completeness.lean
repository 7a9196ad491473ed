import Stacklet.Proofs.Program.Soundness

/-!
# What is derived is read

An expression cannot be read without looking at the token behind it, since links
are followed as long as there are any. So the statement about an expression is
that reading it comes to following links with just this expression on the left
and the tokens behind it ahead (`Reads`). If none of these tokens opens a
link above the level asked for, reading ends there.
-/

namespace Stacklet

namespace Parse

/-! ## The token behind -/

/-- The kind of the first of the tokens that follow. -/
def headKind (rest : List Token) : Kind := (rest.headD .eof).kind

/-- The tokens do not carry an expression of a layer on, and are no second block. -/
structure Follows (layer : Precedence) (rest : List Token) : Prop where
  ends : (headKind rest).linkAbove? layer = none
  noElse : headKind rest ≠ .elseWord

/-- Where a level is asked for, expressions of the layer are read as a whole. -/
def Reaches (level layer : Precedence) : Prop :=
  level = .lowest ∨ level.rank < layer.rank ∨ (level = .unary ∧ layer = .unary)

theorem Follows.tighter {layer : Precedence} {rest : List Token} (follows : Follows layer rest) :
    Follows layer.tighter rest :=
  ⟨linkAbove?_mono follows.ends (Precedence.rank_le_tighter layer), follows.noElse⟩

theorem Follows.of_kind {layer : Precedence} {t : Token} {rest : List Token} {kind : Kind}
    (same : t.kind = kind) (ends : kind.linkAbove? layer = none) (noElse : kind ≠ .elseWord) :
    Follows layer (t :: rest) := by
  rcases same with rfl
  exact ⟨ends, noElse⟩

/-- Where an expression with an operator is read as a whole, the operator binds
tighter than the level. -/
theorem Reaches.below_operator {level : Precedence} {op : BinaryOp}
    (reaches : Reaches level op.precedence) : level.rank < op.precedence.rank := by
  rcases reaches with rfl | below | ⟨_, same⟩
  · cases op <;> decide
  · exact below
  · cases op <;> cases same

theorem Reaches.below_call {level : Precedence} (reaches : Reaches level .call) :
    level.rank < Precedence.call.rank := by
  rcases reaches with rfl | below | ⟨_, same⟩
  · decide
  · exact below
  · cases same

theorem Reaches.tighter {level layer : Precedence} (reaches : Reaches level layer) :
    Reaches level layer.tighter := by
  rcases reaches with lowest | below | ⟨rfl, rfl⟩
  · exact .inl lowest
  · exact .inr (.inl (Nat.lt_of_lt_of_le below (Precedence.rank_le_tighter layer)))
  · exact .inr (.inl (by decide))

/-! ## Single tokens -/

section Tokens

variable {kind : Kind} {t s : Token} {rest : List Token} {faults : Array Fault}

theorem advance_cons_bind {α : Type} {f : PUnit → Parse α} :
    (advance >>= f) ⟨t :: rest, faults⟩ = f ⟨⟩ ⟨rest, faults⟩ := rfl

theorem expect_of_kind (same : s.kind = kind) :
    expect kind ⟨t :: s :: rest, faults⟩ = .ok ⟨⟩ ⟨s :: rest, faults⟩ := by
  unfold expect
  rw [ahead_bind, if_pos (show Cursor.ahead ⟨t :: s :: rest, faults⟩ = kind from same)]
  rfl

theorem identifier_of_kind (same : s.kind = .ident) :
    identifier ⟨t :: s :: rest, faults⟩ = .ok s.literal ⟨s :: rest, faults⟩ := by
  unfold identifier
  rw [bind_of_ok (expect_of_kind same)]
  rfl

/-- Where the cursor stands behind the semicolon of a statement, if there is one. -/
def ended (c : Cursor) : Cursor := if c.ahead = .semicolon then c.advance else c

theorem semicolon_eq (c : Cursor) : semicolon c = .ok ⟨⟩ (ended c) := by
  unfold semicolon ended
  rw [ahead_bind]
  split <;> rfl

end Tokens

/-! ## What reading a derived phrase comes to -/

section Reads

variable {room : Nat}

/-- What reading the tokens of a phrase comes to, whatever tokens follow that cannot
belong to it. -/
def Reads (room : Nat) : Phrase → List Token → Prop
  | .expr layer e, ts => ∀ (faults : Array Fault) {level : Precedence} {rest : List Token},
    Reaches level layer → Follows layer rest → ∃ t budget, rest.length ≤ budget.length ∧
      expression room level ⟨ts ++ rest, faults⟩ =
        links (expression (room - 1)) level budget e ⟨t :: rest, faults⟩
  | .items es, ts => ∀ (faults : Array Fault) (read : Array Expr) {rest : List Token},
    Follows .lowest rest → headKind rest ≠ .comma → ∃ e c t,
      expression room .lowest ⟨ts ++ rest, faults⟩ = .ok e c ∧
        c.rest.length ≤ (ts ++ rest).length ∧
        ∀ budget : List Token, c.rest.length ≤ budget.length →
          moreItems (expression room) budget (read.push e) c =
            .ok (read ++ es.toArray) ⟨t :: rest, faults⟩
  | .list es, ts => ∀ (l : Token) {r : Token} (rest : List Token) (faults : Array Fault),
    r.kind = .rparen ∨ r.kind = .rbracket →
      items (expression room) r.kind ⟨l :: (ts ++ r :: rest), faults⟩ = .ok es ⟨r :: rest, faults⟩
  | .names names, ts => ∀ (l : Token) (faults : Array Fault) (read : Array String)
      {rest : List Token}, headKind rest ≠ .comma → ∃ name c t,
      identifier ⟨l :: (ts ++ rest), faults⟩ = .ok name c ∧
        c.rest.length ≤ (ts ++ rest).length ∧
        ∀ budget : List Token, c.rest.length ≤ budget.length →
          moreParameters budget (read.push name) c =
            .ok (read ++ names.toArray) ⟨t :: rest, faults⟩
  | .parameters names, ts => ∀ (l : Token) {r : Token} (rest : List Token) (faults : Array Fault),
    r.kind = .rparen →
      parameters ⟨l :: (ts ++ r :: rest), faults⟩ = .ok names ⟨r :: rest, faults⟩
  | .statement s, ts => ∀ (faults : Array Fault) {rest : List Token}, Follows .lowest rest →
    ∃ t, statement (expression room) ⟨ts ++ rest, faults⟩ = .ok s (ended ⟨t :: rest, faults⟩)
  | .statements ss, ts => ∀ (region : Region) (budget rest : List Token) (faults : Array Fault)
      (read : Array Stmt), headKind rest = region.closer → ts.length ≤ budget.length →
      statements (expression room) region budget read ⟨ts ++ rest, faults⟩ =
        (read ++ ss.toArray, ⟨rest, faults⟩)
  | .block ss, ts => ∀ (l : Token) (rest : List Token) (faults : Array Fault),
    ∃ t, bracedBlock (expression room) ⟨l :: (ts ++ rest), faults⟩ = .ok ss ⟨t :: rest, faults⟩

/-! ## Expressions -/

/-- An expression that no token behind it carries on is read to its end. -/
theorem Reads.whole {layer : Precedence} {e : Expr} {ts : List Token}
    (reads : Reads room (.expr layer e) ts) {level : Precedence} {rest : List Token}
    (faults : Array Fault) (reaches : Reaches level layer) (follows : Follows layer rest)
    (ends : (headKind rest).linkAbove? level = none) :
    ∃ t, expression room level ⟨ts ++ rest, faults⟩ = .ok e ⟨t :: rest, faults⟩ := by
  obtain ⟨t, budget, _, same⟩ := reads faults reaches follows
  exact ⟨t, same.trans (links_of_end budget e ends)⟩

theorem Reads.lowest {e : Expr} {ts : List Token} (reads : Reads room (.expr .lowest e) ts)
    {rest : List Token} (faults : Array Fault) (follows : Follows .lowest rest) :
    ∃ t, expression room .lowest ⟨ts ++ rest, faults⟩ = .ok e ⟨t :: rest, faults⟩ :=
  reads.whole faults (.inl rfl) follows follows.ends

/-- An expression starts with its first operand. -/
theorem reads_of_operand {level : Precedence} {e : Expr} {c : Cursor} {t : Token}
    {rest : List Token} {faults : Array Fault}
    (read : operand (expression room) c = .ok e ⟨t :: rest, faults⟩) :
    ∃ t budget, rest.length ≤ budget.length ∧
      expression (room + 1) level c =
        links (expression room) level budget e ⟨t :: rest, faults⟩ := by
  refine ⟨t, t :: rest, Nat.le_succ _, ?_⟩
  rw [expression, bind_of_ok read]
  rfl

/-- An expression on the left goes on with a link. -/
theorem Reads.extend {layer level : Precedence} {left e : Expr} {ts rest rest' : List Token}
    {s t : Token} {link : Link} {faults : Array Fault}
    (reads : Reads (room + 1) (.expr layer left) ts) (reaches : Reaches level layer)
    (follows : Follows layer (s :: rest')) (opens : s.kind.link? = some link)
    (above : level.rank < link.precedence.rank)
    (made : linked (expression room) left link ⟨s :: rest', faults⟩ = .ok e ⟨t :: rest, faults⟩)
    (shorter : rest.length ≤ rest'.length) :
    ∃ t budget, rest.length ≤ budget.length ∧
      expression (room + 1) level ⟨ts ++ s :: rest', faults⟩ =
        links (expression room) level budget e ⟨t :: rest, faults⟩ := by
  obtain ⟨t', budget, enough, same⟩ := reads faults reaches follows
  cases budget with
  | nil => cases enough
  | cons b budget =>
    refine ⟨t, budget, Nat.le_trans shorter (Nat.le_of_succ_le_succ enough), ?_⟩
    have opens' : (Cursor.ahead ⟨t' :: s :: rest', faults⟩).linkAbove? level = some link :=
      linkAbove?_of_link? opens above
    rw [same]
    change links (expression room) level _ _ ⟨t' :: s :: rest', faults⟩ = _
    rw [links_of_link opens']
    exact bind_of_ok made

/-! ## Operands -/

section Operands

variable {e : Expr} {ts us vs : List Token}

theorem reads_unary {sign : Token} {op : UnaryOp} (kind : sign.kind = op.kind)
    (inside : Reads room (.expr .unary e) ts) :
    Reads (room + 1) (.expr .unary (.unary op e)) (sign :: ts) := by
  intro faults level rest reaches follows
  obtain ⟨t, operand'⟩ := inside.whole faults (.inr (.inr ⟨rfl, rfl⟩)) follows follows.ends
  have on : (Cursor.current ⟨sign :: (ts ++ rest), faults⟩).kind = op.kind := kind
  have read : operand (expression room) ⟨sign :: (ts ++ rest), faults⟩ =
      .ok (.unary op e) ⟨t :: rest, faults⟩ := by
    rw [operand, current_bind, on]
    cases op with
    | not | negate =>
      dsimp only [UnaryOp.kind]
      rw [advance_cons_bind, bind_of_ok operand']
      rfl
  exact reads_of_operand read

theorem reads_group {l r : Token} (lparen : l.kind = .lparen)
    (inside : Reads room (.expr .lowest e) ts) (rparen : r.kind = .rparen) :
    Reads (room + 1) (.expr .call e) (l :: (ts ++ [r])) := by
  intro faults level rest reaches follows
  obtain ⟨t, value⟩ := inside.lowest faults
    (.of_kind rparen rfl (by decide) : Follows _ (r :: rest))
  have on : (Cursor.current ⟨l :: (ts ++ r :: rest), faults⟩).kind = .lparen := lparen
  have read : operand (expression room) ⟨l :: (ts ++ r :: rest), faults⟩ =
      .ok e ⟨r :: rest, faults⟩ := by
    rw [operand, current_bind, on]
    dsimp only
    rw [advance_cons_bind, bind_of_ok value, bind_of_ok (expect_of_kind rparen)]
    rfl
  rw [List.cons_append, List.append_assoc]
  exact reads_of_operand read

theorem reads_array {l r : Token} {es : List Expr} (lbracket : l.kind = .lbracket)
    (inside : Reads room (.list es) ts) (rbracket : r.kind = .rbracket) :
    Reads (room + 1) (.expr .call (.array es)) (l :: (ts ++ [r])) := by
  intro faults level rest reaches follows
  have list := inside l rest faults (.inr rbracket)
  rw [rbracket] at list
  have on : (Cursor.current ⟨l :: (ts ++ r :: rest), faults⟩).kind = .lbracket := lbracket
  have read : operand (expression room) ⟨l :: (ts ++ r :: rest), faults⟩ =
      .ok (.array es) ⟨r :: rest, faults⟩ := by
    rw [operand, current_bind, on]
    dsimp only
    rw [bind_of_ok list]
    rfl
  rw [List.cons_append, List.append_assoc]
  exact reads_of_operand read

theorem reads_choice {i l r : Token} {consequence : List Stmt} (ifWord : i.kind = .ifWord)
    (lparen : l.kind = .lparen) (condition : Reads room (.expr .lowest e) ts)
    (rparen : r.kind = .rparen) (block : Reads room (.block consequence) us) :
    Reads (room + 1) (.expr .call (.conditional e consequence none))
      (i :: l :: (ts ++ r :: us)) := by
  intro faults level rest reaches follows
  obtain ⟨t, value⟩ := condition.lowest faults
    (.of_kind rparen rfl (by decide) : Follows _ (r :: (us ++ rest)))
  obtain ⟨t', braced⟩ := block r rest faults
  have other : Cursor.ahead ⟨t' :: rest, faults⟩ ≠ .elseWord := follows.noElse
  have on : (Cursor.current ⟨i :: l :: (ts ++ r :: (us ++ rest)), faults⟩).kind = .ifWord := ifWord
  have read : operand (expression room) ⟨i :: l :: (ts ++ r :: (us ++ rest)), faults⟩ =
      .ok (.conditional e consequence none) ⟨t' :: rest, faults⟩ := by
    rw [operand, current_bind, on]
    dsimp only
    rw [conditional, bind_of_ok (expect_of_kind lparen), advance_cons_bind, bind_of_ok value,
      bind_of_ok (expect_of_kind rparen), bind_of_ok braced, ahead_bind, if_neg other]
    rfl
  rw [List.cons_append, List.cons_append, List.append_assoc]
  exact reads_of_operand read

theorem reads_choiceElse {i l r o : Token} {consequence alternative : List Stmt}
    (ifWord : i.kind = .ifWord) (lparen : l.kind = .lparen)
    (condition : Reads room (.expr .lowest e) ts) (rparen : r.kind = .rparen)
    (block : Reads room (.block consequence) us) (elseWord : o.kind = .elseWord)
    (block' : Reads room (.block alternative) vs) :
    Reads (room + 1) (.expr .call (.conditional e consequence (some alternative)))
      (i :: l :: (ts ++ r :: (us ++ o :: vs))) := by
  intro faults level rest reaches follows
  obtain ⟨t, value⟩ := condition.lowest faults
    (.of_kind rparen rfl (by decide) : Follows _ (r :: (us ++ o :: (vs ++ rest))))
  obtain ⟨t', braced⟩ := block r (o :: (vs ++ rest)) faults
  obtain ⟨t'', braced'⟩ := block' o rest faults
  have on : (Cursor.current ⟨i :: l :: (ts ++ r :: (us ++ o :: (vs ++ rest))), faults⟩).kind =
      .ifWord := ifWord
  have other : Cursor.ahead ⟨t' :: o :: (vs ++ rest), faults⟩ = .elseWord := elseWord
  have read : operand (expression room) ⟨i :: l :: (ts ++ r :: (us ++ o :: (vs ++ rest))), faults⟩ =
      .ok (.conditional e consequence (some alternative)) ⟨t'' :: rest, faults⟩ := by
    rw [operand, current_bind, on]
    dsimp only
    rw [conditional, bind_of_ok (expect_of_kind lparen), advance_cons_bind, bind_of_ok value,
      bind_of_ok (expect_of_kind rparen), bind_of_ok braced, ahead_bind, if_pos other,
      advance_cons_bind, bind_of_ok braced']
    rfl
  simp only [List.cons_append, List.append_assoc]
  exact reads_of_operand read

theorem reads_function {f l r : Token} {names : List String} {body : List Stmt}
    (word : f.kind = .function) (lparen : l.kind = .lparen)
    (parameters' : Reads room (.parameters names) ts) (rparen : r.kind = .rparen)
    (block : Reads room (.block body) us) :
    Reads (room + 1) (.expr .call (.function names body)) (f :: l :: (ts ++ r :: us)) := by
  intro faults level rest reaches follows
  have named := parameters' l (us ++ rest) faults rparen
  obtain ⟨t, braced⟩ := block r rest faults
  have on : (Cursor.current ⟨f :: l :: (ts ++ r :: (us ++ rest)), faults⟩).kind = .function := word
  have read : operand (expression room) ⟨f :: l :: (ts ++ r :: (us ++ rest)), faults⟩ =
      .ok (.function names body) ⟨t :: rest, faults⟩ := by
    rw [operand, current_bind, on]
    dsimp only
    rw [function, bind_of_ok (expect_of_kind lparen), bind_of_ok named, bind_of_ok braced]
    rfl
  rw [List.cons_append, List.cons_append, List.append_assoc]
  exact reads_of_operand read

/-! ## Links -/

theorem reads_call {l r : Token} {es : List Expr} (callee : Reads (room + 1) (.expr .call e) ts)
    (lparen : l.kind = .lparen) (list : Reads room (.list es) us) (rparen : r.kind = .rparen) :
    Reads (room + 1) (.expr .call (.call e es)) (ts ++ l :: (us ++ [r])) := by
  intro faults level rest reaches follows
  have opens : l.kind.link? = some .call := by rw [lparen]; rfl
  have follows' : Follows .call (l :: (us ++ r :: rest)) := .of_kind lparen rfl (by decide)
  have read := list l rest faults (.inl rparen)
  rw [rparen] at read
  have made : linked (expression room) e .call ⟨l :: (us ++ r :: rest), faults⟩ =
      .ok (.call e es) ⟨r :: rest, faults⟩ := by
    rw [linked, bind_of_ok read]
    rfl
  have extended := callee.extend reaches follows' opens reaches.below_call made (by simp; omega)
  simp only [List.append_assoc, List.cons_append]
  exact extended

theorem reads_index {l r : Token} {subscript : Expr} (base : Reads (room + 1) (.expr .call e) ts)
    (lbracket : l.kind = .lbracket) (inside : Reads room (.expr .lowest subscript) us)
    (rbracket : r.kind = .rbracket) :
    Reads (room + 1) (.expr .call (.index e subscript)) (ts ++ l :: (us ++ [r])) := by
  intro faults level rest reaches follows
  have opens : l.kind.link? = some .subscript := by rw [lbracket]; rfl
  have follows' : Follows .call (l :: (us ++ r :: rest)) := .of_kind lbracket rfl (by decide)
  obtain ⟨t, value⟩ := inside.lowest faults
    (.of_kind rbracket rfl (by decide) : Follows _ (r :: rest))
  have made : linked (expression room) e .subscript ⟨l :: (us ++ r :: rest), faults⟩ =
      .ok (.index e subscript) ⟨r :: rest, faults⟩ := by
    rw [linked, advance_cons_bind, bind_of_ok value, bind_of_ok (expect_of_kind rbracket)]
    rfl
  have extended := base.extend reaches follows' opens reaches.below_call made (by simp; omega)
  simp only [List.append_assoc, List.cons_append]
  exact extended

theorem reads_binary {sign : Token} {op : BinaryOp} {right : Expr}
    (left : Reads (room + 1) (.expr op.precedence e) ts) (kind : sign.kind = op.kind)
    (inside : Reads room (.expr op.precedence.tighter right) us) :
    Reads (room + 1) (.expr op.precedence (.binary op e right)) (ts ++ sign :: us) := by
  intro faults level rest reaches follows
  have opens : sign.kind.link? = some (.operator op) := by rw [kind]; exact op.link?_kind
  have follows' : Follows op.precedence (sign :: (us ++ rest)) :=
    .of_kind kind (by cases op <;> rfl) (by cases op <;> decide)
  have next : Reaches op.precedence op.precedence.tighter := .inr (.inl (by cases op <;> decide))
  obtain ⟨t, value⟩ := inside.whole faults next follows.tighter follows.ends
  have made : linked (expression room) e (.operator op) ⟨sign :: (us ++ rest), faults⟩ =
      .ok (.binary op e right) ⟨t :: rest, faults⟩ := by
    rw [linked, advance_cons_bind, bind_of_ok value]
    rfl
  have extended := left.extend reaches follows' opens reaches.below_operator made (by simp)
  rw [List.append_assoc, List.cons_append]
  exact extended

/-! ## Lists -/

theorem reads_one (item : Reads room (.expr .lowest e) ts) : Reads room (.items [e]) ts := by
  intro faults read rest follows noComma
  obtain ⟨t, value⟩ := item.lowest faults follows
  refine ⟨e, _, t, value, ?_, fun budget _ => ?_⟩
  · rw [List.length_append]
    exact Nat.le_add_left ..
  · have ends : Cursor.ahead ⟨t :: rest, faults⟩ ≠ .comma := noComma
    rw [moreItems_of_end budget _ ends]
    simp

theorem reads_more {comma : Token} {es : List Expr} (item : Reads room (.expr .lowest e) ts)
    (kind : comma.kind = .comma) (items' : Reads room (.items es) us) :
    Reads room (.items (e :: es)) (ts ++ comma :: us) := by
  intro faults read rest follows noComma
  obtain ⟨t, value⟩ := item.lowest faults
    (.of_kind kind rfl (by decide) : Follows _ (comma :: (us ++ rest)))
  obtain ⟨e', c, t', value', shorter, more⟩ := items' faults (read.push e) follows noComma
  refine ⟨e, ⟨t :: comma :: (us ++ rest), faults⟩, t', ?_, ?_, fun budget enough => ?_⟩
  · rw [List.append_assoc, List.cons_append]
    exact value
  · change (comma :: (us ++ rest)).length ≤ _
    rw [List.append_assoc, List.cons_append, List.length_append]
    exact Nat.le_add_left ..
  · cases budget with
    | nil => cases enough
    | cons b budget =>
      have found : Cursor.ahead ⟨t :: comma :: (us ++ rest), faults⟩ = .comma := kind
      have enough' : c.rest.length ≤ budget.length :=
        Nat.le_trans shorter (Nat.le_of_succ_le_succ enough)
      rw [moreItems, ahead_bind, if_pos found, advance_cons_bind, advance_cons_bind,
        bind_of_ok value', more budget enough']
      simp

theorem reads_noItems : Reads room (.list []) [] := by
  intro l r rest faults closes
  have found : Cursor.ahead ⟨l :: r :: rest, faults⟩ = r.kind := rfl
  rw [List.nil_append, items, ahead_bind, if_pos found]
  rfl

/-- No item starts with a closing bracket, and no closing bracket is a comma. -/
theorem reads_someItems {es : List Expr} (items' : Reads room (.items es) ts)
    (opens : ∃ t us, ts = t :: us ∧ t.kind.opensExpr = true) : Reads room (.list es) ts := by
  intro l r rest faults closes
  rcases opens with ⟨t, us, rfl, opens⟩
  have closer : r.kind.link? = none ∧ r.kind ≠ .elseWord ∧ r.kind ≠ .comma ∧
      r.kind.opensExpr = false := by
    rcases closes with same | same
    · rw [same]
      decide
    · rw [same]
      decide
  rcases closer with ⟨noLink, noElse, noComma, notOpen⟩
  have other : Cursor.ahead ⟨l :: (t :: us ++ r :: rest), faults⟩ ≠ r.kind := by
    intro same
    have same : t.kind = r.kind := same
    rw [same, notOpen] at opens
    cases opens
  have follows : Follows .lowest (r :: rest) := .of_kind rfl (linkAbove?_of_none noLink) noElse
  obtain ⟨e, c, t', value, _, more⟩ := items' faults #[] follows noComma
  have enough : c.rest.length ≤ c.tokens.length := by
    rw [Cursor.rest, List.length_tail]
    exact Nat.sub_le ..
  have read : moreItems (expression room) c.tokens #[e] c = _ := more c.tokens enough
  rw [items, ahead_bind, if_neg other, advance_cons_bind, bind_of_ok value, get_bind,
    bind_of_ok read, bind_of_ok (expect_of_kind rfl)]
  simp [pure, EStateM.pure]

theorem reads_oneName (room : Nat) {t : Token} (kind : t.kind = .ident) :
    Reads room (.names [t.literal]) [t] := by
  intro l faults read rest noComma
  refine ⟨_, _, t, identifier_of_kind kind, ?_, fun budget _ => ?_⟩
  · exact Nat.le_succ _
  · change moreParameters budget _ ⟨t :: rest, faults⟩ = _
    have ends : Cursor.ahead ⟨t :: rest, faults⟩ ≠ .comma := noComma
    rw [moreParameters_of_end budget _ ends]
    simp

theorem reads_moreNames {t comma : Token} {names : List String} (kind : t.kind = .ident)
    (kind' : comma.kind = .comma) (names' : Reads room (.names names) ts) :
    Reads room (.names (t.literal :: names)) (t :: comma :: ts) := by
  intro l faults read rest noComma
  obtain ⟨name, c, t', named, shorter, more⟩ :=
    names' comma faults (read.push t.literal) noComma
  refine ⟨_, _, t', identifier_of_kind kind, Nat.le_succ _, fun budget enough => ?_⟩
  cases budget with
  | nil => cases enough
  | cons b budget =>
    have found : Cursor.ahead ⟨t :: comma :: (ts ++ rest), faults⟩ = .comma := kind'
    have enough' : c.rest.length ≤ budget.length :=
      Nat.le_trans shorter (Nat.le_of_succ_le_succ enough)
    change moreParameters _ _ ⟨t :: comma :: (ts ++ rest), faults⟩ = _
    rw [moreParameters, ahead_bind, if_pos found, advance_cons_bind, bind_of_ok named,
      more budget enough']
    simp

theorem reads_noNames : Reads room (.parameters []) [] := by
  intro l r rest faults closes
  have found : Cursor.ahead ⟨l :: r :: rest, faults⟩ = .rparen := closes
  rw [List.nil_append, parameters, ahead_bind, if_pos found]
  rfl

theorem reads_someNames {names : List String} (names' : Reads room (.names names) ts)
    (opens : ∃ t us, ts = t :: us ∧ t.kind = .ident) : Reads room (.parameters names) ts := by
  intro l r rest faults closes
  rcases opens with ⟨t, us, rfl, opens⟩
  have other : Cursor.ahead ⟨l :: (t :: us ++ r :: rest), faults⟩ ≠ .rparen := by
    intro same
    have same : t.kind = .rparen := same
    rw [opens] at same
    cases same
  have noComma : headKind (r :: rest) ≠ .comma := by
    change r.kind ≠ .comma
    rw [closes]
    decide
  obtain ⟨name, c, t', named, _, more⟩ := names' l faults #[] noComma
  have enough : c.rest.length ≤ c.tokens.length := by
    rw [Cursor.rest, List.length_tail]
    exact Nat.sub_le ..
  have read : moreParameters c.tokens #[name] c = _ := more c.tokens enough
  rw [parameters, ahead_bind, if_neg other, bind_of_ok named, get_bind, bind_of_ok read,
    bind_of_ok (expect_of_kind closes)]
  simp [pure, EStateM.pure]

/-! ## Statements -/

/-- What ends a statement does not carry an expression on. -/
theorem follows_of_closer {region : Region} {rest : List Token}
    (closes : headKind rest = region.closer) : Follows .lowest rest := by
  cases region with
  | program | block =>
    refine ⟨?_, ?_⟩
    · rw [closes]
      rfl
    · rw [closes]
      decide

/-- The first token of a statement carries the one before on only if it is a sign
or a bracket. -/
theorem opensStmt_free {kind : Kind} (opens : kind.opensStmt = true) (free : ¬ kind.carriesOn) :
    kind.link? = none ∧ kind ≠ .elseWord ∧ kind ≠ .semicolon := by
  unfold Kind.carriesOn at free
  cases kind <;> simp_all [Kind.opensStmt, Kind.opensExpr, Kind.link?]

theorem opensStmt_ne_closer {kind : Kind} (opens : kind.opensStmt = true) (region : Region) :
    kind ≠ region.closer ∧ kind ≠ .eof := by
  refine ⟨fun same => ?_, fun same => ?_⟩
  · rw [same] at opens
    cases region <;> cases opens
  · rw [same] at opens
    cases opens

theorem reads_define {word t sign : Token} (kind : word.kind = .letWord) (ident : t.kind = .ident)
    (assign : sign.kind = .assign) (inside : Reads room (.expr .lowest e) ts) :
    Reads room (.statement (.define t.literal e)) (word :: t :: sign :: ts) := by
  intro faults rest follows
  obtain ⟨t', value⟩ := inside.lowest faults follows
  have on : (Cursor.current ⟨word :: t :: sign :: (ts ++ rest), faults⟩).kind = .letWord := kind
  refine ⟨t', ?_⟩
  change statement _ ⟨word :: t :: sign :: (ts ++ rest), faults⟩ = _
  rw [statement, current_bind, on]
  dsimp only
  rw [bind_of_ok (identifier_of_kind ident), bind_of_ok (expect_of_kind assign),
    advance_cons_bind, bind_of_ok value, bind_of_ok (semicolon_eq _)]
  rfl

theorem reads_return {word : Token} (kind : word.kind = .returnWord)
    (inside : Reads room (.expr .lowest e) ts) :
    Reads room (.statement (.return e)) (word :: ts) := by
  intro faults rest follows
  obtain ⟨t, value⟩ := inside.lowest faults follows
  have on : (Cursor.current ⟨word :: (ts ++ rest), faults⟩).kind = .returnWord := kind
  refine ⟨t, ?_⟩
  change statement _ ⟨word :: (ts ++ rest), faults⟩ = _
  rw [statement, current_bind, on]
  dsimp only
  rw [advance_cons_bind, bind_of_ok value, bind_of_ok (semicolon_eq _)]
  rfl

/-- No expression starts with the word of another statement. -/
theorem reads_alone (inside : Reads room (.expr .lowest e) ts)
    (opens : ∃ t us, ts = t :: us ∧ t.kind.opensExpr = true) :
    Reads room (.statement (.expr e)) ts := by
  intro faults rest follows
  obtain ⟨t', value⟩ := inside.lowest faults follows
  rcases opens with ⟨t, us, rfl, opens⟩
  refine ⟨t', ?_⟩
  rw [statement, current_bind]
  have on : (Cursor.current ⟨t :: us ++ rest, faults⟩).kind = t.kind := rfl
  rw [on]
  cases kind : t.kind with
  | letWord | returnWord =>
    rw [kind] at opens
    cases opens
  | _ =>
    dsimp only
    rw [bind_of_ok value, bind_of_ok (semicolon_eq _)]
    rfl

theorem reads_done : Reads room (.statements []) [] := by
  intro region budget rest faults read closes _
  have closed : (Cursor.current ⟨rest, faults⟩).kind = region.closer := closes
  rw [List.nil_append, statements_of_end _ budget read (.inl closed), Array.append_empty]

/-- A statement is taken off the list in front, and the others are read behind it. -/
theorem reads_first {s : Stmt} {ss : List Stmt} {c : Cursor} {region : Region}
    {budget rest : List Token} {faults : Array Fault} (read : Array Stmt)
    (opens : ∃ t us, ts = t :: us ∧ t.kind.opensStmt = true)
    (taken : statement (expression room) ⟨ts ++ vs, faults⟩ = .ok s c)
    (behind : c.advance = ⟨us ++ rest, faults⟩) (others : Reads room (.statements ss) us)
    (closes : headKind rest = region.closer) (enough : ts.length + us.length ≤ budget.length) :
    statements (expression room) region budget read ⟨ts ++ vs, faults⟩ =
      (read ++ (s :: ss).toArray, ⟨rest, faults⟩) := by
  rcases opens with ⟨t, ts, rfl, opens⟩
  rw [List.length_cons] at enough
  cases budget with
  | nil =>
    rw [List.length_nil] at enough
    omega
  | cons b budget =>
    rw [List.length_cons] at enough
    have enough' : us.length ≤ budget.length := by omega
    obtain ⟨noCloser, noEnd⟩ := opensStmt_ne_closer opens region
    have unclosed : (Cursor.current ⟨t :: ts ++ vs, faults⟩).kind ≠ region.closer := noCloser
    rw [statements_of_ok unclosed noEnd taken, behind,
      others region budget rest faults (read.push s) closes enough']
    simp

theorem reads_ended {mark : Token} {s : Stmt} {ss : List Stmt}
    (first : Reads room (.statement s) ts)
    (opens : ∃ t us, ts = t :: us ∧ t.kind.opensStmt = true) (kind : mark.kind = .semicolon)
    (others : Reads room (.statements ss) us) :
    Reads room (.statements (s :: ss)) (ts ++ mark :: us) := by
  intro region budget rest faults read closes enough
  obtain ⟨t', taken⟩ := first faults
    (.of_kind kind rfl (by decide) : Follows _ (mark :: (us ++ rest)))
  have found : Cursor.ahead ⟨t' :: mark :: (us ++ rest), faults⟩ = .semicolon := kind
  rw [ended, if_pos found] at taken
  rw [List.length_append, List.length_cons] at enough
  rw [List.append_assoc]
  exact reads_first read opens taken rfl others closes (by omega)

/-- A statement without a semicolon ends where the next token does not carry it on. -/
theorem reads_unended {s : Stmt} {ss : List Stmt} (first : Reads room (.statement s) ts)
    (opens : ∃ t us, ts = t :: us ∧ t.kind.opensStmt = true)
    (free : ∀ t ∈ us.head?, ¬ t.kind.carriesOn) (others : Reads room (.statements ss) us)
    (opens' : us = [] ∨ ∃ t vs, us = t :: vs ∧ t.kind.opensStmt = true) :
    Reads room (.statements (s :: ss)) (ts ++ us) := by
  intro region budget rest faults read closes enough
  have behind : Follows .lowest (us ++ rest) ∧ headKind (us ++ rest) ≠ .semicolon := by
    rcases opens' with rfl | ⟨t, vs, rfl, opens'⟩
    · refine ⟨follows_of_closer closes, ?_⟩
      rw [List.nil_append, closes]
      cases region <;> decide
    · obtain ⟨noLink, noElse, noMark⟩ := opensStmt_free opens' (free t rfl)
      exact ⟨.of_kind rfl (linkAbove?_of_none noLink) noElse, noMark⟩
  rcases behind with ⟨follows, noMark⟩
  obtain ⟨t', taken⟩ := first faults follows
  have noMark : Cursor.ahead ⟨t' :: (us ++ rest), faults⟩ ≠ .semicolon := noMark
  rw [ended, if_neg noMark] at taken
  rw [List.length_append] at enough
  rw [List.append_assoc]
  exact reads_first read opens taken rfl others closes enough

theorem reads_braced {l r : Token} {ss : List Stmt} (lbrace : l.kind = .lbrace)
    (inside : Reads room (.statements ss) ts) (rbrace : r.kind = .rbrace) :
    Reads room (.block ss) (l :: (ts ++ [r])) := by
  intro t rest faults
  have read := inside .block (ts ++ r :: rest) (r :: rest) faults #[] rbrace (by simp)
  have closed : (Cursor.current ⟨r :: rest, faults⟩).kind = .rbrace := rbrace
  refine ⟨r, ?_⟩
  rw [List.cons_append, List.append_assoc, List.singleton_append, bracedBlock,
    bind_of_ok (expect_of_kind lbrace), block]
  dsimp only [Cursor.advance, List.tail_cons]
  rw [read]
  dsimp only
  rw [if_pos closed]
  simp

end Operands

end Reads

/-- What is derived is read. By induction on the derivation; where a phrase is
left out or another one could start, the first token decides. -/
theorem reads_of_derives {room : Nat} {phrase : Phrase} {ts : List Token}
    (derives : Derives room phrase ts) : Reads room phrase ts := by
  induction derives with
  | @name room t kind =>
    intro faults level rest reaches follows
    have on : (Cursor.current ⟨t :: rest, faults⟩).kind = .ident := kind
    have read : operand (expression room) ⟨t :: rest, faults⟩ =
        .ok (.name t.literal) ⟨t :: rest, faults⟩ := by
      rw [operand, current_bind, on]
      rfl
    exact reads_of_operand read
  | @integer room t n kind value =>
    intro faults level rest reaches follows
    have on : (Cursor.current ⟨t :: rest, faults⟩).kind = .int := kind
    have value : readInt64? (Cursor.current ⟨t :: rest, faults⟩).literal = some n :=
      readInt64?_eq_some_iff.mpr value
    have read : operand (expression room) ⟨t :: rest, faults⟩ =
        .ok (.integer n) ⟨t :: rest, faults⟩ := by
      rw [operand, current_bind, on]
      dsimp only
      rw [value]
      rfl
    exact reads_of_operand read
  | @text room t kind =>
    intro faults level rest reaches follows
    have on : (Cursor.current ⟨t :: rest, faults⟩).kind = .string := kind
    have read : operand (expression room) ⟨t :: rest, faults⟩ =
        .ok (.text t.literal) ⟨t :: rest, faults⟩ := by
      rw [operand, current_bind, on]
      rfl
    exact reads_of_operand read
  | @boolean room t b kind =>
    intro faults level rest reaches follows
    have on : (Cursor.current ⟨t :: rest, faults⟩).kind = if b then .trueWord else .falseWord :=
      kind
    have read : operand (expression room) ⟨t :: rest, faults⟩ =
        .ok (.boolean b) ⟨t :: rest, faults⟩ := by
      rw [operand, current_bind, on]
      cases b <;> rfl
    exact reads_of_operand read
  | group l _ r inside => exact reads_group l inside r
  | array l _ r inside => exact reads_array l inside r
  | choice i l _ r _ condition consequence => exact reads_choice i l condition r consequence
  | choiceElse i l _ r _ e _ condition consequence alternative =>
    exact reads_choiceElse i l condition r consequence e alternative
  | function f l _ r _ names body => exact reads_function f l names r body
  | call _ l _ r callee items => exact reads_call callee l items r
  | index _ l _ r base inside => exact reads_index base l inside r
  | unary kind _ inside => exact reads_unary kind inside
  | binary member _ kind _ left right =>
    obtain rfl := Precedence.mem_operators.mp member
    exact reads_binary left kind right
  | looser _ reads =>
    intro faults level rest reaches follows
    exact reads faults reaches.tighter follows.tighter
  | one _ item => exact reads_one item
  | more _ comma _ item items => exact reads_more item comma items
  | noItems => exact reads_noItems
  | someItems derives items => exact reads_someItems items derives.opens
  | @oneName room _ kind => exact reads_oneName room kind
  | moreNames kind comma _ names => exact reads_moreNames kind comma names
  | noNames => exact reads_noNames
  | someNames derives names => exact reads_someNames names derives.opens
  | define word kind assign _ inside => exact reads_define word kind assign inside
  | «return» word _ inside => exact reads_return word inside
  | alone derives inside => exact reads_alone inside derives.opens
  | done => exact reads_done
  | ended derives mark _ first others => exact reads_ended first derives.opens mark others
  | unended derives free derives' first others =>
    exact reads_unended first derives.opens free others derives'.opens
  | braced l _ r inside => exact reads_braced l inside r

/-- A list of tokens is read up to its end as the program that it is derived from. -/
theorem statements_of_derives {room : Nat} {program : Program} {tokens : List Token}
    (derives : Derives room (.statements program) tokens) :
    statements (expression room) .program tokens #[] ⟨tokens, #[]⟩ =
      (program.toArray, ⟨[], #[]⟩) := by
  have read := reads_of_derives derives .program tokens [] #[] #[] rfl (Nat.le_refl _)
  rw [List.append_nil] at read
  rw [read, Array.empty_append]

end Parse

/-- A program that is derived is read without a fault. -/
theorem parse_complete {tokens : List Token} {program : Program}
    (derives : Derives maxNesting (.statements program) tokens) :
    parse tokens = (program, []) := by
  unfold parse Parse.program Cursor.ofTokens
  dsimp only
  rw [Parse.statements_of_derives derives]

/-- Tokens are derived from one program only, however many expressions may be open. -/
theorem Derives.unique {room room' : Nat} {program other : Program} {tokens : List Token}
    (derives : Derives room (.statements program) tokens)
    (derives' : Derives room' (.statements other) tokens) : program = other := by
  have read := Parse.statements_of_derives (derives.mono (Nat.le_max_left room room'))
  have read' := Parse.statements_of_derives (derives'.mono (Nat.le_max_right room room'))
  rw [read] at read'
  exact List.toArray_inj (Prod.mk.inj read').1

/-- The parser accepts exactly the programs of the grammar: it records no fault and
returns a program if and only if the tokens are derived from it, with no more
expressions open at once than are allowed. No tokens are derived from two programs. -/
theorem parse_accepts {tokens : List Token} (inside : ∀ t ∈ tokens, t.kind ≠ .eof)
    (program : Program) :
    (parse tokens = (program, []) ↔ Derives maxNesting (.statements program) tokens) ∧
    ∀ {room room' : Nat} {other : Program}, Derives room (.statements program) tokens →
      Derives room' (.statements other) tokens → program = other :=
  ⟨⟨parse_sound inside, parse_complete⟩, Derives.unique⟩

/-- The chain of differences leans to the left, and behind it each operator binds tighter than
the one in front of it. -/
theorem parse_accepts_chain :
    Derives maxNesting (.statements
      [.expr (.index (.call (.name "f") [.name "a"]) (.name "b")),
        .define "x" (.binary .equal
          (.binary .subtract (.binary .subtract (.name "a") (.name "b")) (.name "c"))
          (.binary .less (.name "d") (.binary .add (.name "e")
            (.binary .multiply (.name "g") (.unary .not (.name "h"))))))])
      [⟨.ident, "f"⟩, ⟨.lparen, "("⟩, ⟨.ident, "a"⟩, ⟨.rparen, ")"⟩, ⟨.lbracket, "["⟩,
        ⟨.ident, "b"⟩, ⟨.rbracket, "]"⟩, ⟨.letWord, "let"⟩, ⟨.ident, "x"⟩, ⟨.assign, "="⟩,
        ⟨.ident, "a"⟩, ⟨.minus, "-"⟩, ⟨.ident, "b"⟩, ⟨.minus, "-"⟩, ⟨.ident, "c"⟩, ⟨.eq, "=="⟩,
        ⟨.ident, "d"⟩, ⟨.lt, "<"⟩, ⟨.ident, "e"⟩, ⟨.plus, "+"⟩, ⟨.ident, "g"⟩, ⟨.asterisk, "*"⟩,
        ⟨.bang, "!"⟩, ⟨.ident, "h"⟩] :=
  (parse_accepts (by decide) _).1.mp rfl

end Stacklet
