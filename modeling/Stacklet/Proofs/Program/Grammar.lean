import Stacklet.Program.Fault
import Stacklet.Program.Precedence
import Stacklet.Proofs.Text.Decimal

/-!
# The grammar of programs

`Derives room phrase ts`: the tokens `ts` are derived as the `phrase`, which
carries the tree that is built. Expressions are layered by how tightly their
outermost operator binds, and each layer has operators of its own
(`Precedence.operators`). Chains lean to the left, so the left operand of an
operator is a chain of its own layer and the right one lies in the next layer.

The number `room` bounds how many expressions are open at once. An expression
counts itself, so it needs room for one, and what stands inside has room for one
less: parentheses, the operand behind a sign, right operands, conditions, items,
subscripts, and the expressions of statements in a block.
-/

namespace Stacklet

/-! ## Tokens -/

/-- The token of an operator in front of one operand. -/
def UnaryOp.kind : UnaryOp → Kind
  | .not => .bang
  | .negate => .minus

/-- The token of an operator between two operands. -/
def BinaryOp.kind : BinaryOp → Kind
  | .add => .plus
  | .subtract => .minus
  | .multiply => .asterisk
  | .divide => .slash
  | .less => .lt
  | .greater => .gt
  | .equal => .eq
  | .notEqual => .notEq

/-- The next layer, which binds tighter. -/
def Precedence.tighter : Precedence → Precedence
  | .lowest => .equality
  | .equality => .comparison
  | .comparison => .sum
  | .sum => .product
  | .product => .unary
  | .unary | .call => .call

/-- The operators of the chains in a layer. -/
def Precedence.operators : Precedence → List BinaryOp
  | .equality => [.equal, .notEqual]
  | .comparison => [.less, .greater]
  | .sum => [.add, .subtract]
  | .product => [.multiply, .divide]
  | .lowest | .unary | .call => []

/-- Behind a statement without a semicolon these tokens would carry it on. -/
def Kind.carriesOn (kind : Kind) : Prop := kind = .minus ∨ kind = .lparen ∨ kind = .lbracket

/-! ## Links -/

/-- Operators bind at the layer of their chains. -/
theorem Precedence.mem_operators {op : BinaryOp} {layer : Precedence} :
    op ∈ layer.operators ↔ op.precedence = layer := by
  cases op <;> cases layer <;> decide

theorem BinaryOp.link?_kind (op : BinaryOp) : op.kind.link? = some (.operator op) := by
  cases op <;> rfl

section Links

variable {kind : Kind} {level layer layer' : Precedence} {link : Link}

theorem BinaryOp.kind_of_link? {op : BinaryOp} (found : kind.link? = some (.operator op)) :
    kind = op.kind := by
  cases kind <;> cases found <;> rfl

theorem linkAbove?_eq_some (found : kind.linkAbove? level = some link) :
    kind.link? = some link ∧ level.rank < link.precedence.rank := by
  unfold Kind.linkAbove? at found
  obtain ⟨found, tighter⟩ := Option.filter_eq_some_iff.mp found
  exact ⟨found, of_decide_eq_true tighter⟩

theorem linkAbove?_of_link? (found : kind.link? = some link)
    (above : level.rank < link.precedence.rank) : kind.linkAbove? level = some link := by
  rw [Kind.linkAbove?, found, Option.filter_some, if_pos (decide_eq_true above)]

theorem linkAbove?_of_none (found : kind.link? = none) : kind.linkAbove? level = none := by
  rw [Kind.linkAbove?, found]
  rfl

/-- A link that does not open above a layer binds no tighter than the layer. -/
theorem rank_le_of_linkAbove? (found : kind.link? = some link)
    (ends : kind.linkAbove? layer = none) : link.precedence.rank ≤ layer.rank := by
  unfold Kind.linkAbove? at ends
  rw [found, Option.filter_some] at ends
  split at ends
  · cases ends
  · rename_i loose
    exact Nat.le_of_not_lt fun tighter => loose (decide_eq_true tighter)

theorem linkAbove?_mono (ends : kind.linkAbove? layer = none) (le : layer.rank ≤ layer'.rank) :
    kind.linkAbove? layer' = none := by
  cases found : kind.linkAbove? layer' with
  | none => rfl
  | some link =>
    obtain ⟨opens, above⟩ := linkAbove?_eq_some found
    have below := rank_le_of_linkAbove? opens ends
    omega

end Links

/-! ## Derivations -/

/-- The phrases of the grammar, with the trees that are built. -/
inductive Phrase
  /-- An expression of a layer. The loosest layer has all expressions, the tightest
  one those without an operator outside of brackets. -/
  | expr (layer : Precedence) (e : Expr)
  /-- At least one expression, separated by commas. -/
  | items (es : List Expr)
  /-- Any number of expressions, separated by commas. -/
  | list (es : List Expr)
  /-- At least one name, separated by commas. -/
  | names (names : List String)
  /-- Any number of names, separated by commas. -/
  | parameters (names : List String)
  /-- A statement without the semicolon behind it. -/
  | statement (s : Stmt)
  | statements (block : List Stmt)
  /-- Statements between braces. -/
  | block (block : List Stmt)

/-- The tokens are derived as a phrase, with so many expressions open at once. -/
inductive Derives : Nat → Phrase → List Token → Prop
  | name {room : Nat} {t : Token} :
    t.kind = .ident → Derives (room + 1) (.expr .call (.name t.literal)) [t]
  | integer {room : Nat} {t : Token} {n : Int64} :
    t.kind = .int → Numeral t.literal.toList n.toInt →
    Derives (room + 1) (.expr .call (.integer n)) [t]
  | text {room : Nat} {t : Token} :
    t.kind = .string → Derives (room + 1) (.expr .call (.text t.literal)) [t]
  | boolean {room : Nat} {t : Token} {b : Bool} :
    t.kind = (if b then .trueWord else .falseWord) →
    Derives (room + 1) (.expr .call (.boolean b)) [t]
  | group {room : Nat} {l r : Token} {e : Expr} {ts : List Token} :
    l.kind = .lparen → Derives room (.expr .lowest e) ts → r.kind = .rparen →
    Derives (room + 1) (.expr .call e) (l :: (ts ++ [r]))
  | array {room : Nat} {l r : Token} {es : List Expr} {ts : List Token} :
    l.kind = .lbracket → Derives room (.list es) ts → r.kind = .rbracket →
    Derives (room + 1) (.expr .call (.array es)) (l :: (ts ++ [r]))
  | choice {room : Nat} {i l r : Token} {condition : Expr} {consequence : List Stmt}
      {ts us : List Token} :
    i.kind = .ifWord → l.kind = .lparen → Derives room (.expr .lowest condition) ts →
    r.kind = .rparen → Derives room (.block consequence) us →
    Derives (room + 1) (.expr .call (.conditional condition consequence none))
      (i :: l :: (ts ++ r :: us))
  | choiceElse {room : Nat} {i l r e : Token} {condition : Expr}
      {consequence alternative : List Stmt} {ts us vs : List Token} :
    i.kind = .ifWord → l.kind = .lparen → Derives room (.expr .lowest condition) ts →
    r.kind = .rparen → Derives room (.block consequence) us →
    e.kind = .elseWord → Derives room (.block alternative) vs →
    Derives (room + 1) (.expr .call (.conditional condition consequence (some alternative)))
      (i :: l :: (ts ++ r :: (us ++ e :: vs)))
  | function {room : Nat} {f l r : Token} {names : List String} {body : List Stmt}
      {ts us : List Token} :
    f.kind = .function → l.kind = .lparen → Derives room (.parameters names) ts →
    r.kind = .rparen → Derives room (.block body) us →
    Derives (room + 1) (.expr .call (.function names body)) (f :: l :: (ts ++ r :: us))
  | call {room : Nat} {l r : Token} {callee : Expr} {es : List Expr} {ts us : List Token} :
    Derives (room + 1) (.expr .call callee) ts → l.kind = .lparen →
    Derives room (.list es) us → r.kind = .rparen →
    Derives (room + 1) (.expr .call (.call callee es)) (ts ++ l :: (us ++ [r]))
  | index {room : Nat} {l r : Token} {base subscript : Expr} {ts us : List Token} :
    Derives (room + 1) (.expr .call base) ts → l.kind = .lbracket →
    Derives room (.expr .lowest subscript) us → r.kind = .rbracket →
    Derives (room + 1) (.expr .call (.index base subscript)) (ts ++ l :: (us ++ [r]))
  | unary {room : Nat} {sign : Token} {op : UnaryOp} {e : Expr} {ts : List Token} :
    sign.kind = op.kind → Derives room (.expr .unary e) ts →
    Derives (room + 1) (.expr .unary (.unary op e)) (sign :: ts)
  | binary {room : Nat} {sign : Token} {layer : Precedence} {op : BinaryOp} {left right : Expr}
      {ts us : List Token} :
    op ∈ layer.operators → Derives (room + 1) (.expr layer left) ts → sign.kind = op.kind →
    Derives room (.expr layer.tighter right) us →
    Derives (room + 1) (.expr layer (.binary op left right)) (ts ++ sign :: us)
  | looser {room : Nat} {layer : Precedence} {e : Expr} {ts : List Token} :
    Derives room (.expr layer.tighter e) ts → Derives room (.expr layer e) ts
  | one {room : Nat} {e : Expr} {ts : List Token} :
    Derives room (.expr .lowest e) ts → Derives room (.items [e]) ts
  | more {room : Nat} {comma : Token} {e : Expr} {es : List Expr} {ts us : List Token} :
    Derives room (.expr .lowest e) ts → comma.kind = .comma → Derives room (.items es) us →
    Derives room (.items (e :: es)) (ts ++ comma :: us)
  | noItems {room : Nat} : Derives room (.list []) []
  | someItems {room : Nat} {es : List Expr} {ts : List Token} :
    Derives room (.items es) ts → Derives room (.list es) ts
  | oneName {room : Nat} {t : Token} :
    t.kind = .ident → Derives room (.names [t.literal]) [t]
  | moreNames {room : Nat} {t comma : Token} {names : List String} {ts : List Token} :
    t.kind = .ident → comma.kind = .comma → Derives room (.names names) ts →
    Derives room (.names (t.literal :: names)) (t :: comma :: ts)
  | noNames {room : Nat} : Derives room (.parameters []) []
  | someNames {room : Nat} {names : List String} {ts : List Token} :
    Derives room (.names names) ts → Derives room (.parameters names) ts
  | define {room : Nat} {word t sign : Token} {e : Expr} {ts : List Token} :
    word.kind = .letWord → t.kind = .ident → sign.kind = .assign →
    Derives room (.expr .lowest e) ts →
    Derives room (.statement (.define t.literal e)) (word :: t :: sign :: ts)
  | return {room : Nat} {word : Token} {e : Expr} {ts : List Token} :
    word.kind = .returnWord → Derives room (.expr .lowest e) ts →
    Derives room (.statement (.return e)) (word :: ts)
  | alone {room : Nat} {e : Expr} {ts : List Token} :
    Derives room (.expr .lowest e) ts → Derives room (.statement (.expr e)) ts
  | done {room : Nat} : Derives room (.statements []) []
  | ended {room : Nat} {mark : Token} {s : Stmt} {rest : List Stmt} {ts us : List Token} :
    Derives room (.statement s) ts → mark.kind = .semicolon →
    Derives room (.statements rest) us →
    Derives room (.statements (s :: rest)) (ts ++ mark :: us)
  /-- The semicolon may be left out unless the next token would carry the statement on. -/
  | unended {room : Nat} {s : Stmt} {rest : List Stmt} {ts us : List Token} :
    Derives room (.statement s) ts → (∀ t ∈ us.head?, ¬ t.kind.carriesOn) →
    Derives room (.statements rest) us →
    Derives room (.statements (s :: rest)) (ts ++ us)
  | braced {room : Nat} {l r : Token} {block : List Stmt} {ts : List Token} :
    l.kind = .lbrace → Derives room (.statements block) ts → r.kind = .rbrace →
    Derives room (.block block) (l :: (ts ++ [r]))

/-! ## Layers and room -/

theorem Precedence.rank_le_call (layer : Precedence) : layer.rank ≤ Precedence.call.rank := by
  cases layer <;> decide

theorem Precedence.rank_tighter {layer : Precedence} (looser : layer.rank < Precedence.call.rank) :
    layer.tighter.rank = layer.rank + 1 := by
  cases layer with
  | call => exact (Nat.lt_irrefl _ looser).elim
  | _ => rfl

theorem Precedence.eq_of_rank_eq {layer layer' : Precedence} (same : layer.rank = layer'.rank) :
    layer = layer' := by
  cases layer <;> cases layer' <;> cases same <;> rfl

theorem Precedence.rank_le_tighter (layer : Precedence) : layer.rank ≤ layer.tighter.rank := by
  cases layer <;> decide

namespace Derives

variable {room room' : Nat} {phrase : Phrase} {ts : List Token}

/-- Expressions of a tighter layer are expressions of every looser one. -/
theorem loosen {e : Expr} {layer layer' : Precedence} (derives : Derives room (.expr layer' e) ts)
    (le : layer.rank ≤ layer'.rank) : Derives room (.expr layer e) ts := by
  obtain ⟨n, apart⟩ := Nat.exists_eq_add_of_le le
  induction n generalizing layer with
  | zero => exact Precedence.eq_of_rank_eq apart ▸ derives
  | succ n ih =>
    have last := layer'.rank_le_call
    have next : layer.tighter.rank = layer.rank + 1 := Precedence.rank_tighter (by omega)
    exact .looser (ih (by omega) (by omega))

theorem grow (derives : Derives room phrase ts) : Derives (room + 1) phrase ts := by
  induction derives with
  | name kind => exact .name kind
  | integer kind value => exact .integer kind value
  | text kind => exact .text kind
  | boolean kind => exact .boolean kind
  | group l _ r ih => exact .group l ih r
  | array l _ r ih => exact .array l ih r
  | choice i l _ r _ ih ih' => exact .choice i l ih r ih'
  | choiceElse i l _ r _ e _ ih ih' ih'' => exact .choiceElse i l ih r ih' e ih''
  | function f l _ r _ ih ih' => exact .function f l ih r ih'
  | call _ l _ r ih ih' => exact .call ih l ih' r
  | index _ l _ r ih ih' => exact .index ih l ih' r
  | unary sign _ ih => exact .unary sign ih
  | binary member _ sign _ ih ih' => exact .binary member ih sign ih'
  | looser _ ih => exact .looser ih
  | one _ ih => exact .one ih
  | more _ comma _ ih ih' => exact .more ih comma ih'
  | noItems => exact .noItems
  | someItems _ ih => exact .someItems ih
  | oneName ident => exact .oneName ident
  | moreNames ident comma _ ih => exact .moreNames ident comma ih
  | noNames => exact .noNames
  | someNames _ ih => exact .someNames ih
  | define word ident sign _ ih => exact .define word ident sign ih
  | «return» word _ ih => exact .return word ih
  | alone _ ih => exact .alone ih
  | done => exact .done
  | ended _ mark _ ih ih' => exact .ended ih mark ih'
  | unended _ free _ ih ih' => exact .unended ih free ih'
  | braced l _ r ih => exact .braced l ih r

/-- What is derived with little room is also derived with more. -/
theorem mono (derives : Derives room phrase ts) (le : room ≤ room') : Derives room' phrase ts := by
  induction le with
  | refl => exact derives
  | step _ ih => exact ih.grow

end Derives

/-! ## First tokens -/

/-- The tokens that an expression can start with. -/
def Kind.opensExpr : Kind → Bool
  | .ident | .int | .string | .trueWord | .falseWord | .bang | .minus | .lparen | .ifWord
  | .function | .lbracket => true
  | _ => false

/-- The tokens that a statement can start with. -/
def Kind.opensStmt (kind : Kind) : Bool :=
  kind.opensExpr || kind = .letWord || kind = .returnWord

/-- What can be said of the first token of a phrase. -/
def Phrase.Opens : Phrase → List Token → Prop
  | .expr .. , ts | .items _, ts => ∃ t us, ts = t :: us ∧ t.kind.opensExpr = true
  | .names _, ts => ∃ t us, ts = t :: us ∧ t.kind = .ident
  | .statement _, ts => ∃ t us, ts = t :: us ∧ t.kind.opensStmt = true
  | .statements _, ts => ts = [] ∨ ∃ t us, ts = t :: us ∧ t.kind.opensStmt = true
  | _, _ => True

theorem Derives.opens {room : Nat} {phrase : Phrase} {ts : List Token}
    (derives : Derives room phrase ts) : phrase.Opens ts := by
  induction derives with
  | name kind | integer kind _ | text kind | group kind _ _ _ | array kind _ _ _
  | choice kind _ _ _ _ _ _ | choiceElse kind _ _ _ _ _ _ _ _ _ | function kind _ _ _ _ _ _ =>
    exact ⟨_, _, rfl, by rw [kind]; rfl⟩
  | @boolean _ _ b kind => exact ⟨_, _, rfl, by rw [kind]; cases b <;> rfl⟩
  | @unary _ _ op _ _ kind _ _ => exact ⟨_, _, rfl, by rw [kind]; cases op <;> rfl⟩
  | call _ _ _ _ ih _ | index _ _ _ _ ih _ | binary _ _ _ _ ih _ | more _ _ _ ih _ =>
    rcases ih with ⟨t, us, rfl, opens⟩
    exact ⟨t, _, rfl, opens⟩
  | looser _ ih | one _ ih => exact ih
  | noItems | someItems _ _ | noNames | someNames _ _ | braced _ _ _ _ => trivial
  | oneName kind | moreNames kind _ _ _ => exact ⟨_, _, rfl, kind⟩
  | define kind _ _ _ _ | «return» kind _ _ => exact ⟨_, _, rfl, by rw [kind]; rfl⟩
  | alone _ ih =>
    rcases ih with ⟨t, us, rfl, opens⟩
    exact ⟨t, us, rfl, by rw [Kind.opensStmt, opens]; rfl⟩
  | done => exact .inl rfl
  | ended _ _ _ ih _ | unended _ _ _ ih _ =>
    rcases ih with ⟨t, us, rfl, opens⟩
    exact .inr ⟨t, _, rfl, opens⟩

end Stacklet
