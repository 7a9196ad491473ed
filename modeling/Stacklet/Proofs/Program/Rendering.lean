import Mathlib.Data.List.Basic
import Stacklet.Program.Printer
import Stacklet.Proofs.Program.Room
import Stacklet.Proofs.Text.Decimal
import Stacklet.Proofs.Token.Layout

/-!
# Canonical texts are read back

An expression without blocks is read back from its canonical text, or it is refused
because it nests too deeply, which does not happen up to a height of 128
(`parseText_render`). Every parenthesis and every sign that is written opens an
expression, so each level of the tree takes two levels of nesting at most. It follows
that no two such expressions have the same text.
-/

namespace Stacklet

/-! ## Expressions without blocks -/

/-- Expressions without blocks. Identifiers are names, numbers have no sign, and strings
hold nothing but characters that are shown as they are. -/
inductive Expr.Plain : Expr → Prop
  | name {name : String} : IsName name → Plain (.name name)
  | integer {value : Int64} : 0 ≤ value → Plain (.integer value)
  | text {value : String} : (∀ c ∈ value.toList, escapeChar c = [c]) → Plain (.text value)
  | boolean {value : Bool} : Plain (.boolean value)
  | unary {op : UnaryOp} {operand : Expr} : Plain operand → Plain (.unary op operand)
  | binary {op : BinaryOp} {left right : Expr} :
    Plain left → Plain right → Plain (.binary op left right)
  | call {callee : Expr} {arguments : List Expr} :
    Plain callee → (∀ e ∈ arguments, Plain e) → Plain (.call callee arguments)
  | array {items : List Expr} : (∀ e ∈ items, Plain e) → Plain (.array items)
  | index {base subscript : Expr} : Plain base → Plain subscript → Plain (.index base subscript)

mutual

/-- The number of expressions on the longest way from an expression down to one that has
no parts. -/
def Expr.height : Expr → Nat
  | .name _ | .integer _ | .text _ | .boolean _ => 1
  | .unary _ operand => operand.height + 1
  | .binary _ left right => max left.height right.height + 1
  | .conditional condition consequence alternative =>
    max condition.height (max (Stmt.heightAll consequence) (Stmt.heightAlternative alternative)) + 1
  | .function _ body => Stmt.heightAll body + 1
  | .call callee arguments => max callee.height (Expr.heightAll arguments) + 1
  | .array items => Expr.heightAll items + 1
  | .index base subscript => max base.height subscript.height + 1

/-- The height of the highest one of several expressions. -/
def Expr.heightAll : List Expr → Nat
  | [] => 0
  | e :: rest => max e.height (Expr.heightAll rest)

/-- The height of the expression of a statement. -/
def Stmt.height : Stmt → Nat
  | .define _ value | .return value | .expr value => value.height

/-- The height of the highest expression in a block. -/
def Stmt.heightAll : List Stmt → Nat
  | [] => 0
  | s :: rest => max s.height (Stmt.heightAll rest)

/-- The height of the highest expression in a second block, if there is one. -/
def Stmt.heightAlternative : Option (List Stmt) → Nat
  | none => 0
  | some block => Stmt.heightAll block

end

/-! ## Texts one behind the other -/

/-- In front of these characters every word and every number ends. -/
def Boundary (rest : List Char) : Prop := ∀ c ∈ rest.head?, isWordChar c = false

theorem boundary_cons {c : Char} (off : isWordChar c = false) (cs : List Char) :
    Boundary (c :: cs) := by
  rintro _ ⟨⟩
  exact off

theorem Token.stops_of_boundary {t : Token} {rest : List Char}
    (noSign : t.kind ≠ .assign ∧ t.kind ≠ .bang) (boundary : Boundary rest) : t.Stops rest := by
  rintro c next (⟨_, on⟩ | ⟨_, digit⟩ | ⟨sign | sign, _⟩)
  · exact Bool.eq_false_iff.mp (boundary c next) on
  · exact Bool.eq_false_iff.mp (Bool.or_eq_false_iff.mp (boundary c next)).2 digit
  · exact noSign.1 sign
  · exact noSign.2 sign

/-- With a boundary behind it, the text is laid out from the tokens. -/
def LaysOut (cs : List Char) (ts : List Token) : Prop :=
  ∀ (rest : List Char) (us : List Token), Boundary rest → LaidOut rest us →
    LaidOut (cs ++ rest) (ts ++ us)

namespace LaysOut

variable {cs ds : List Char} {ts us : List Token} {c : Char} {kind : Kind}

theorem nil : LaysOut [] [] := fun _ _ _ laidOut => laidOut

/-- At the end of a text there is a boundary. -/
theorem lexes (laysOut : LaysOut cs ts) : Lexes cs ts := by
  have laidOut := laysOut [] [] nofun (.blank nofun)
  rw [List.append_nil, List.append_nil] at laidOut
  exact laidOut.lexes

/-- A text behind another one, at a boundary. -/
theorem append (first : LaysOut cs ts) (off : isWordChar c = false)
    (second : LaysOut (c :: ds) us) : LaysOut (cs ++ c :: ds) (ts ++ us) := by
  intro rest vs boundary laidOut
  rw [List.append_assoc, List.append_assoc]
  exact first _ _ (boundary_cons off _) (second rest vs boundary laidOut)

/-- White space in front makes no difference. -/
theorem space (laysOut : LaysOut cs ts) : LaysOut (' ' :: cs) ts := by
  intro rest us boundary laidOut
  have wider {gap : List Char} (blank : AllBlank gap) : AllBlank (' ' :: gap) :=
    List.forall_mem_cons.mpr ⟨by decide, blank⟩
  change LaidOut (' ' :: (cs ++ rest)) _
  generalize cs ++ rest = text, ts ++ us = tokens, laysOut rest us boundary laidOut = behind
  cases behind with
  | blank blank => exact .blank (wider blank)
  | token blank formed stops behind => exact .token (wider blank) formed stops behind
  | unclosed blank unclosed => exact .unclosed (wider blank) unclosed

/-- A token in front. -/
theorem behind {t : Token} (laysOut : LaysOut cs ts) (formed : t.Formed)
    (stops : ∀ rest, Boundary rest → t.Stops (cs ++ rest)) :
    LaysOut (t.written ++ cs) (t :: ts) := by
  intro rest us boundary laidOut
  have noGap : AllBlank [] := nofun
  rw [List.append_assoc]
  exact .token noGap formed (stops rest boundary) (laysOut rest us boundary laidOut)

/-- A sign in front that nothing extends. -/
theorem sign (sign : kind.sign? = some c) (single : kind ≠ .assign ∧ kind ≠ .bang)
    (laysOut : LaysOut cs ts) : LaysOut (c :: cs) (⟨kind, String.singleton c⟩ :: ts) := by
  obtain ⟨noWord, noNumber, noString⟩ := isWord_of_sign? sign
  have written := laysOut.behind (.fixed (text?_of_sign? sign)) fun rest _ =>
    Token.stops_of_kind noWord noNumber single
  rwa [Token.written_of_ne noString, String.toList_singleton] at written

/-- A closing bracket behind. -/
theorem closed (laysOut : LaysOut cs ts) (sign : kind.sign? = some c) (off : isWordChar c = false)
    (single : kind ≠ .assign ∧ kind ≠ .bang) :
    LaysOut (cs ++ [c]) (ts ++ [⟨kind, String.singleton c⟩]) :=
  laysOut.append off (nil.sign sign single)

/-- A sign in front of anything but an equality sign. -/
theorem unary (op : UnaryOp) (noSign : c ≠ '=') (laysOut : LaysOut (c :: cs) ts) :
    LaysOut (op.symbol.toList ++ c :: cs) (⟨op.kind, op.symbol⟩ :: ts) := by
  cases op with
  | negate => exact laysOut.sign rfl (by decide)
  | not =>
    have formed : Token.Formed ⟨.bang, "!"⟩ := .fixed rfl
    refine laysOut.behind formed fun rest _ => ?_
    rintro d ⟨⟩ (⟨word, _⟩ | ⟨number, _⟩ | ⟨_, same⟩)
    · cases word
    · cases number
    · exact noSign same

/-- An operator in front of white space. -/
theorem binary (op : BinaryOp) (laysOut : LaysOut cs ts) :
    LaysOut (op.symbol.toList ++ ' ' :: cs) (⟨op.kind, op.symbol⟩ :: ts) := by
  have noString : op.kind ≠ .string := by cases op <;> decide
  have noSign : op.kind ≠ .assign ∧ op.kind ≠ .bang := by cases op <;> decide
  have formed : Token.Formed ⟨op.kind, op.symbol⟩ := .fixed (by cases op <;> rfl)
  have written := laysOut.space.behind formed fun rest _ =>
    Token.stops_of_boundary noSign (boundary_cons (by decide) _)
  rwa [Token.written_of_ne noString] at written

end LaysOut

/-! ## Expressions and their tokens -/

/-- The text of an expression consists of these tokens, from which it is derived. -/
structure Expr.Spelled (e : Expr) (ts : List Token) : Prop where
  starts : ∃ c cs, e.render.toList = c :: cs ∧ c ≠ '='
  laysOut : LaysOut e.render.toList ts
  derives : Derives (2 * e.height) (.expr .call e) ts
  unbroken : Unbroken ts

/-- The same for expressions that are separated by commas. -/
structure Expr.ListSpelled (es : List Expr) (ts : List Token) : Prop where
  laysOut : LaysOut (Expr.renderList es).toList ts
  derives : Derives (2 * Expr.heightAll es) (.list es) ts
  unbroken : Unbroken ts

namespace Expr

variable {e left right : Expr} {es : List Expr} {ts us : List Token}

/-- An expression that is a single token. -/
theorem spelled_of_token {kind : Kind} {text : String} {c : Char} {cs : List Char}
    (formed : Token.Formed ⟨kind, text⟩) (written : Token.written ⟨kind, text⟩ = e.render.toList)
    (starts : e.render.toList = c :: cs) (noSign : c ≠ '=')
    (plain : kind ≠ .assign ∧ kind ≠ .bang ∧ kind ≠ .lbrace ∧ kind ≠ .semicolon)
    (derives : Derives (2 * e.height) (.expr .call e) [⟨kind, text⟩]) :
    e.Spelled [⟨kind, text⟩] where
  starts := ⟨c, cs, starts, noSign⟩
  laysOut := by
    have laysOut := LaysOut.nil.behind formed fun rest boundary =>
      Token.stops_of_boundary ⟨plain.1, plain.2.1⟩ boundary
    rwa [written, List.append_nil] at laysOut
  derives := derives
  unbroken := .cons plain.2.2 nofun

/-! ### Single tokens -/

theorem spelled_name {name : String} (isName : IsName name) :
    (Expr.name name).Spelled [⟨.ident, name⟩] := by
  have word := isName.word
  unfold spellsWord at word
  split at word
  · cases word
  · rename_i c cs chars
    have letter : isLetter c = true := (Bool.and_eq_true_iff.mp word).1
    refine spelled_of_token (.name isName) rfl chars ?_ (by decide)
      (@Derives.name 1 ⟨.ident, name⟩ rfl)
    rintro rfl
    cases letter

theorem spelled_integer {value : Int64} (natural : 0 ≤ value) :
    (Expr.integer value).Spelled [⟨.int, toString value.toInt⟩] := by
  have digits {c : Char} (member : c ∈ (toString value.toInt).toList) : c.isDigit = true :=
    isDigit_of_mem_toString natural member
  cases chars : (toString value.toInt).toList with
  | nil => exact (Nat.toDigits_ne_nil ((toList_toString_toInt natural).symm.trans chars)).elim
  | cons c cs =>
    have some : (toString value.toInt).toList ≠ [] := chars ▸ List.cons_ne_nil c cs
    refine spelled_of_token (.number some fun c => digits) rfl chars ?_ (by decide)
      (.integer rfl (numeral_toString natural))
    rintro rfl
    have digit := digits (chars ▸ List.mem_cons_self)
    cases digit

theorem spelled_text {value : String} (plain : ∀ c ∈ value.toList, escapeChar c = [c]) :
    (Expr.text value).Spelled [⟨.string, value⟩] := by
  have noQuote : '"' ∉ value.toList := fun member => by
    have escaped := plain _ member
    cases escaped
  have written : Token.written ⟨.string, value⟩ = (Expr.text value).render.toList := by
    rw [Expr.render, quoted, String.toList_ofList, List.flatMap_congr plain,
      List.flatMap_singleton']
    rfl
  exact spelled_of_token (.string noQuote) written written.symm (by decide) (by decide)
    (@Derives.text 1 ⟨.string, value⟩ rfl)

theorem spelled_boolean (value : Bool) :
    (Expr.boolean value).Spelled
      [⟨if value then .trueWord else .falseWord, if value then "true" else "false"⟩] := by
  cases value with
  | false =>
    exact spelled_of_token (.fixed rfl) rfl rfl (by decide) (by decide) (.boolean rfl)
  | true =>
    exact spelled_of_token (.fixed rfl) rfl rfl (by decide) (by decide) (.boolean rfl)

/-! ### Operators and brackets -/

/-- An expression in parentheses. What stands in them may take all the room but that for the
parentheses themselves. -/
theorem spelled_of_group {layer : Precedence} {body : List Char} {n : Nat}
    (text : e.render.toList = '(' :: (body ++ [')'])) (height : e.height = n + 1)
    (laysOut : LaysOut body ts) (derives : Derives (2 * n + 1) (.expr layer e) ts)
    (unbroken : Unbroken ts) : e.Spelled (⟨.lparen, "("⟩ :: (ts ++ [⟨.rparen, ")"⟩])) where
  starts := ⟨'(', _, text, by decide⟩
  laysOut := text ▸ (laysOut.closed rfl (by decide) (by decide)).sign rfl (by decide)
  derives := height ▸ .group rfl (derives.loosen (Nat.zero_le _)) rfl
  unbroken := .cons (by decide) (unbroken.closed (by decide))

theorem Spelled.unary (operand : e.Spelled ts) (op : UnaryOp) : (Expr.unary op e).Spelled
    (⟨.lparen, "("⟩ :: (⟨op.kind, op.symbol⟩ :: ts ++ [⟨.rparen, ")"⟩])) := by
  obtain ⟨c, cs, starts, noSign⟩ := operand.starts
  have text : (Expr.unary op e).render.toList = '(' :: (op.symbol.toList ++ c :: cs ++ [')']) := by
    simp [Expr.render, starts]
  refine spelled_of_group text rfl ?_ (.unary rfl (operand.derives.loosen (by decide))) ?_
  · exact LaysOut.unary op noSign (starts ▸ operand.laysOut)
  · exact .cons (by cases op <;> decide) operand.unbroken

theorem Spelled.binary (spelled : left.Spelled ts) (spelled' : right.Spelled us) (op : BinaryOp) :
    (Expr.binary op left right).Spelled
      (⟨.lparen, "("⟩ :: (ts ++ ⟨op.kind, op.symbol⟩ :: us ++ [⟨.rparen, ")"⟩])) := by
  have text : (Expr.binary op left right).render.toList =
      '(' :: (left.render.toList ++ ' ' :: (op.symbol.toList ++ ' ' :: right.render.toList) ++
        [')']) := by
    simp [Expr.render]
  have le := Nat.le_max_left left.height right.height
  have le' := Nat.le_max_right left.height right.height
  have member := Precedence.mem_operators.mpr (rfl : op.precedence = op.precedence)
  refine spelled_of_group text rfl ?_ (.binary member ?_ rfl ?_) ?_
  · exact spelled.laysOut.append (by decide) (spelled'.laysOut.binary op).space
  · exact (spelled.derives.loosen op.precedence.rank_le_call).mono (by omega)
  · exact (spelled'.derives.loosen op.precedence.tighter.rank_le_call).mono (by omega)
  · exact spelled.unbroken.append (.cons (by cases op <;> decide) spelled'.unbroken)

theorem Spelled.index (spelled : left.Spelled ts) (spelled' : right.Spelled us) :
    (Expr.index left right).Spelled (⟨.lparen, "("⟩ ::
      (ts ++ ⟨.lbracket, "["⟩ :: (us ++ [⟨.rbracket, "]"⟩]) ++ [⟨.rparen, ")"⟩])) := by
  have text : (Expr.index left right).render.toList =
      '(' :: (left.render.toList ++ '[' :: (right.render.toList ++ [']']) ++ [')']) := by
    simp [Expr.render]
  have le := Nat.le_max_left left.height right.height
  have le' := Nat.le_max_right left.height right.height
  refine spelled_of_group text rfl ?_ (.index ?_ rfl ?_ rfl) ?_
  · have subscript : LaysOut (right.render.toList ++ [']']) (us ++ [⟨.rbracket, "]"⟩]) :=
      spelled'.laysOut.closed rfl (by decide) (by decide)
    exact spelled.laysOut.append (by decide) (subscript.sign rfl (by decide))
  · exact spelled.derives.mono (by omega)
  · exact (spelled'.derives.loosen (Nat.zero_le _)).mono (by omega)
  · exact spelled.unbroken.append (.cons (by decide) (spelled'.unbroken.closed (by decide)))

/-! ### Lists -/

theorem toList_renderMore (es : List Expr) (text : String) :
    (Expr.renderMore es text).toList =
      text.toList ++ es.flatMap fun e => ',' :: ' ' :: e.render.toList := by
  induction es generalizing text with
  | nil => simp [Expr.renderMore]
  | cons e es ih => simp [Expr.renderMore, ih]

/-- Expressions behind another one. -/
theorem exists_items (spelled : e.Spelled ts) (others : ∀ f ∈ es, ∃ us, f.Spelled us) :
    ∃ us, LaysOut (Expr.renderList (e :: es)).toList us ∧
      Derives (2 * Expr.heightAll (e :: es)) (.items (e :: es)) us ∧ Unbroken us := by
  induction es generalizing e ts with
  | nil =>
    refine ⟨ts, spelled.laysOut, ?_, spelled.unbroken⟩
    exact .one ((spelled.derives.loosen (Nat.zero_le _)).mono (by simp [Expr.heightAll]))
  | cons f es ih =>
    obtain ⟨us, spelled'⟩ := others f List.mem_cons_self
    obtain ⟨vs, laysOut, derives, unbroken⟩ :=
      ih spelled' fun g member => others g (List.mem_cons_of_mem _ member)
    have text : (Expr.renderList (e :: f :: es)).toList =
        e.render.toList ++ ',' :: ' ' :: (Expr.renderList (f :: es)).toList := by
      simp [Expr.renderList, toList_renderMore]
    refine ⟨ts ++ ⟨.comma, ","⟩ :: vs, ?_, ?_, ?_⟩
    · rw [text]
      exact spelled.laysOut.append (by decide) (laysOut.space.sign rfl (by decide))
    · have le := Nat.le_max_left e.height (Expr.heightAll (f :: es))
      have le' := Nat.le_max_right e.height (Expr.heightAll (f :: es))
      rw [Expr.heightAll]
      exact .more ((spelled.derives.loosen (Nat.zero_le _)).mono (by omega)) rfl
        (derives.mono (by omega))
    · exact spelled.unbroken.append (.cons (by decide) unbroken)

theorem exists_listSpelled (spelled : ∀ e ∈ es, ∃ ts, e.Spelled ts) :
    ∃ ts, Expr.ListSpelled es ts := by
  cases es with
  | nil => exact ⟨[], LaysOut.nil, .noItems, nofun⟩
  | cons e es =>
    obtain ⟨ts, first⟩ := spelled e List.mem_cons_self
    obtain ⟨us, laysOut, derives, unbroken⟩ :=
      exists_items first fun f member => spelled f (List.mem_cons_of_mem _ member)
    exact ⟨us, laysOut, .someItems derives, unbroken⟩

theorem ListSpelled.array (list : Expr.ListSpelled es us) :
    (Expr.array es).Spelled (⟨.lbracket, "["⟩ :: (us ++ [⟨.rbracket, "]"⟩])) := by
  have text : (Expr.array es).render.toList =
      '[' :: ((Expr.renderList es).toList ++ [']']) := by
    simp [Expr.render]
  refine ⟨⟨'[', _, text, by decide⟩, ?_, .array rfl list.derives.grow rfl, ?_⟩
  · exact text ▸ (list.laysOut.closed rfl (by decide) (by decide)).sign rfl (by decide)
  · exact .cons (by decide) (list.unbroken.closed (by decide))

theorem Spelled.call (callee : e.Spelled ts) (list : Expr.ListSpelled es us) :
    (Expr.call e es).Spelled (ts ++ ⟨.lparen, "("⟩ :: (us ++ [⟨.rparen, ")"⟩])) := by
  obtain ⟨c, cs, starts, noSign⟩ := callee.starts
  have text : (Expr.call e es).render.toList =
      e.render.toList ++ '(' :: ((Expr.renderList es).toList ++ [')']) := by
    simp [Expr.render]
  have le := Nat.le_max_left e.height (Expr.heightAll es)
  have le' := Nat.le_max_right e.height (Expr.heightAll es)
  have height : 2 * (Expr.call e es).height = 2 * max e.height (Expr.heightAll es) + 1 + 1 := rfl
  refine ⟨⟨c, _, text.trans (congrArg (· ++ _) starts), noSign⟩, ?_, height ▸ ?_, ?_⟩
  · have closed : LaysOut ((Expr.renderList es).toList ++ [')']) (us ++ [⟨.rparen, ")"⟩]) :=
      list.laysOut.closed rfl (by decide) (by decide)
    exact text ▸ callee.laysOut.append (by decide) (closed.sign rfl (by decide))
  · exact .call (callee.derives.mono (by omega)) rfl (list.derives.mono (by omega)) rfl
  · exact callee.unbroken.append (.cons (by decide) (list.unbroken.closed (by decide)))

/-- Every expression without blocks can be spelled. -/
theorem Plain.spelled (plain : e.Plain) : ∃ ts, e.Spelled ts := by
  induction plain with
  | name isName => exact ⟨_, spelled_name isName⟩
  | integer natural => exact ⟨_, spelled_integer natural⟩
  | text plain => exact ⟨_, spelled_text plain⟩
  | boolean => exact ⟨_, spelled_boolean _⟩
  | unary _ ih =>
    obtain ⟨ts, spelled⟩ := ih
    exact ⟨_, spelled.unary _⟩
  | binary _ _ ih ih' =>
    obtain ⟨ts, spelled⟩ := ih
    obtain ⟨us, spelled'⟩ := ih'
    exact ⟨_, spelled.binary spelled' _⟩
  | call _ _ ih ih' =>
    obtain ⟨ts, spelled⟩ := ih
    obtain ⟨us, list⟩ := exists_listSpelled ih'
    exact ⟨_, spelled.call list⟩
  | array _ ih =>
    obtain ⟨us, list⟩ := exists_listSpelled ih
    exact ⟨_, list.array⟩
  | index _ _ ih ih' =>
    obtain ⟨ts, spelled⟩ := ih
    obtain ⟨us, spelled'⟩ := ih'
    exact ⟨_, spelled.index spelled'⟩

theorem Spelled.lexes (spelled : e.Spelled ts) : Lexes e.render.toList ts :=
  spelled.laysOut.lexes

end Expr

/-! ## Reading canonical texts -/

/-- The canonical text of an expression without blocks is read as the expression, unless it
nests too deeply, and then this is all that is reported. It does not nest too deeply up to a
height of 128, so that up to there no two expressions have the same text. -/
theorem parseText_render {e : Expr} (plain : e.Plain) :
    (parseText e.render = ([.expr e], []) ∨ parseText e.render = ([], [.nestingTooDeep])) ∧
      (e.height ≤ 128 → parseText e.render = ([.expr e], [])) ∧
      ∀ e' : Expr, e'.Plain → e.height ≤ 128 → e'.height ≤ 128 → e.render = e'.render → e = e' := by
  have read {e : Expr} (plain : e.Plain) (low : e.height ≤ 128) :
      parseText e.render = ([.expr e], []) := by
    obtain ⟨ts, spelled⟩ := plain.spelled
    have enough : 2 * e.height ≤ maxNesting := Nat.mul_le_mul_left 2 low
    have statement : Derives maxNesting (.statement (.expr e)) ts :=
      .alone ((spelled.derives.loosen (Nat.zero_le _)).mono enough)
    rw [parseText_iff spelled.lexes, ← List.append_nil ts]
    exact .unended statement nofun .done
  refine ⟨?_, read plain, fun e' plain' low low' same => ?_⟩
  · obtain ⟨ts, spelled⟩ := plain.spelled
    rw [parseText, Token.tokenize_eq spelled.lexes]
    exact Parse.parse_or_tooDeep (.alone (spelled.derives.loosen (Nat.zero_le _))) spelled.unbroken
  · have both := (read plain low).symm.trans (same ▸ read plain' low')
    cases both
    rfl

/-- All forms of expressions. The comma stays in its string, and the two signs of the
subtraction stay apart. -/
theorem parseText_render_mixed :
    parseText "((!f)(\"a, b\", [])[(1 - (-true))])" =
      ([.expr (.index (.call (.unary .not (.name "f")) [.text "a, b", .array []])
        (.binary .subtract (.integer 1) (.unary .negate (.boolean true))))], []) := by
  have isName : IsName "f" := ⟨by decide, fun kind => by cases kind <;> decide⟩
  have shown : ∀ c ∈ ['a', ',', ' ', 'b'], escapeChar c = [c] := by
    simp only [List.forall_mem_cons, List.not_mem_nil, false_implies, implies_true, and_true]
    decide
  have arguments : ∀ e ∈ [Expr.text "a, b", .array []], e.Plain := by
    simp only [List.forall_mem_cons, List.not_mem_nil, false_implies, implies_true, and_true]
    exact ⟨.text shown, .array nofun⟩
  have plain : Expr.Plain (.index (.call (.unary .not (.name "f")) [.text "a, b", .array []])
      (.binary .subtract (.integer 1) (.unary .negate (.boolean true)))) :=
    .index (.call (.unary (.name isName)) arguments)
      (.binary (.integer (by decide)) (.unary .boolean))
  exact (parseText_render plain).2.1 (by decide)

end Stacklet
