import Stacklet.Proofs.Program.Completeness
import Stacklet.Proofs.Token.Lexing

/-!
# From texts to programs

A text is read as a program without a fault exactly if its tokens are derived from
the program (`parseText_iff`). If the first of two texts ends in a semicolon, then
the programs of both can be read at once, with a line break between the texts
(`parseText_append`).
-/

namespace Stacklet

/-! ## Tokens of phrases -/

/-- No phrase has an end token or an illegal one. -/
theorem Derives.inside {room : Nat} {phrase : Phrase} {ts : List Token}
    (derives : Derives room phrase ts) : ∀ t ∈ ts, t.kind ≠ .eof ∧ t.kind ≠ .illegal := by
  induction derives with
  | @boolean _ _ b kind => cases b <;> simp_all
  | @unary _ _ op _ _ kind _ ih => cases op <;> simp_all [UnaryOp.kind]
  | @binary _ _ _ op _ _ _ _ _ _ kind _ ih ih' =>
    cases op <;> simp_all [BinaryOp.kind, or_imp, forall_and]
  | _ => simp_all [or_imp, forall_and]

/-- The tokens that an expression can end with. -/
def Kind.closesExpr : Kind → Bool
  | .ident | .int | .string | .trueWord | .falseWord | .rparen | .rbrace | .rbracket => true
  | _ => false

/-- The tokens that a block can end with. -/
def Kind.closesBlock : Kind → Bool
  | .rbrace => true
  | _ => false

theorem Kind.closesExpr_of_closesBlock {kind : Kind} (closes : kind.closesBlock = true) :
    kind.closesExpr = true := by
  cases kind <;> first | rfl | cases closes

/-- The last one of some tokens is of such a kind. -/
def ClosesWith (closes : Kind → Bool) (ts : List Token) : Prop :=
  ∃ front t, ts = front ++ [t] ∧ closes t.kind = true

theorem ClosesWith.behind {closes : Kind → Bool} {us : List Token} (last : ClosesWith closes us)
    (ts : List Token) : ClosesWith closes (ts ++ us) := by
  obtain ⟨front, t, rfl, kind⟩ := last
  exact ⟨ts ++ front, t, (List.append_assoc ..).symm, kind⟩

theorem ClosesWith.last {closes : Kind → Bool} {t : Token} {kind : Kind} (same : t.kind = kind)
    (closing : closes kind = true) : ClosesWith closes [t] :=
  ⟨[], t, rfl, same ▸ closing⟩

/-- What can be said of the last token of a phrase. -/
def Phrase.Closes : Phrase → List Token → Prop
  | .expr .., ts | .items _, ts | .statement _, ts => ClosesWith Kind.closesExpr ts
  | .block _, ts => ClosesWith Kind.closesBlock ts
  | _, _ => True

theorem Derives.closes {room : Nat} {phrase : Phrase} {ts : List Token}
    (derives : Derives room phrase ts) : phrase.Closes ts := by
  -- An expression that ends in a block ends in a brace.
  have brace {us : List Token} (last : ClosesWith Kind.closesBlock us) :
      ClosesWith Kind.closesExpr us := by
    obtain ⟨front, t, rfl, kind⟩ := last
    exact ⟨front, t, rfl, Kind.closesExpr_of_closesBlock kind⟩
  induction derives with
  | name kind | integer kind _ | text kind => exact .last kind rfl
  | @boolean _ _ b kind => exact .last kind (by cases b <;> rfl)
  | group _ _ r _ | array _ _ r _ => exact ((ClosesWith.last r rfl).behind _).behind [_]
  | choice _ _ _ _ _ _ ih | function _ _ _ _ _ _ ih =>
    exact (((brace ih).behind [_]).behind _).behind [_, _]
  | choiceElse _ _ _ _ _ _ _ _ _ ih =>
    exact (((((brace ih).behind [_]).behind _).behind [_]).behind _).behind [_, _]
  | call _ _ _ r _ _ | index _ _ _ r _ _ =>
    exact ((((ClosesWith.last r rfl).behind _).behind [_]).behind _)
  | unary _ _ ih | «return» _ _ ih => exact ih.behind [_]
  | binary _ _ _ _ _ ih | more _ _ _ _ ih => exact (ih.behind [_]).behind _
  | looser _ ih | one _ ih | alone _ ih => exact ih
  | define _ _ _ _ ih => exact ih.behind [_, _, _]
  | braced _ _ r _ =>
    have last : ClosesWith Kind.closesBlock [_] := .last r rfl
    exact (last.behind _).behind [_]
  | noItems | someItems | oneName | moreNames | noNames | someNames | done | ended | unended =>
    trivial

/-! ## Programs one behind the other -/

theorem mem_getLast?_behind {t : Token} {us : List Token} (ts : List Token)
    (last : t ∈ us.getLast?) : t ∈ (ts ++ us).getLast? := by
  rw [List.getLast?_append]
  rw [Option.mem_def] at last ⊢
  rw [last]
  rfl

/-- Statements behind a semicolon are read as if they stood alone. -/
theorem Derives.append {room : Nat} {first second : List Stmt} {ts us : List Token}
    (derives : Derives room (.statements first) ts) (mark : ∀ t ∈ ts.getLast?, t.kind = .semicolon)
    (derives' : Derives room (.statements second) us) :
    Derives room (.statements (first ++ second)) (ts ++ us) := by
  induction first generalizing ts with
  | nil =>
    cases derives with
    | done => exact derives'
  | cons s rest ih =>
    cases derives with
    | @ended _ semicolon _ _ ts vs statement kind others =>
      rw [List.append_assoc]
      exact .ended statement kind (ih others fun t last =>
        mark t (mem_getLast?_behind ts (mem_getLast?_behind [semicolon] last)))
    | @unended _ _ _ ts vs statement free others =>
      rw [List.append_assoc]
      cases vs with
      | nil =>
        -- Without a semicolon behind it, a statement does not end in one.
        obtain ⟨front, t, rfl, closes⟩ := statement.closes
        rw [mark t (by simp)] at closes
        cases closes
      | cons v vs =>
        exact .unended statement free (ih others fun t last => mark t (mem_getLast?_behind ts last))

/-! ## Texts -/

/-- The end token does not matter. -/
theorem parse_eof {ts : List Token} {program : Program} (inside : ∀ t ∈ ts, t.kind ≠ .eof) :
    parse (ts ++ [.eof]) = (program, []) ↔ Derives maxNesting (.statements program) ts := by
  constructor
  · intro read
    obtain ⟨us, rest, split, derives, stops⟩ := parse_sound_front read
    rcases List.append_eq_append_iff.mp split with ⟨between, rfl, ended⟩ | ⟨between, rfl, ended⟩
    · cases between with
      | nil => exact (List.append_nil ts).symm ▸ derives
      | cons t between =>
        -- No phrase has the end token.
        have last : t = .eof := (List.cons.inj ended).1.symm
        exact ((derives.inside t (by simp)).1 (last ▸ rfl)).elim
    · cases between with
      | nil => exact (List.append_nil us).symm ▸ derives
      | cons t between =>
        subst ended
        exact (inside t (by simp) stops).elim
  · intro derives
    have read := Parse.reads_of_derives derives .program (ts ++ [.eof]) [.eof] #[] #[] rfl
      (by simp)
    unfold parse Parse.program Cursor.ofTokens
    dsimp only
    rw [read, Array.empty_append]

/-- A text is read without a fault exactly if its tokens are derived from the program. -/
theorem parseText_iff {text : String} {ts : List Token} {program : Program}
    (lexes : Lexes text.toList ts) :
    parseText text = (program, []) ↔ Derives maxNesting (.statements program) ts := by
  rw [parseText, Token.tokenize_eq lexes, parse_eof lexes.inside]

/-- Two texts of which the first one ends in a semicolon can be read at once. -/
theorem parseText_append {text text' : String} {program program' : Program} {front : List Token}
    {mark : Token} (read : parseText text = (program, []))
    (ends : Token.tokenize text = front ++ [mark, .eof]) (kind : mark.kind = .semicolon)
    (read' : parseText text' = (program', [])) :
    parseText (text ++ "\n" ++ text') = (program ++ program', []) := by
  obtain ⟨ts, lexes⟩ := Lexes.exists_of text.toList
  obtain ⟨us, lexes'⟩ := Lexes.exists_of text'.toList
  have derives := (parseText_iff lexes).mp read
  have derives' := (parseText_iff lexes').mp read'
  have whole : Lexes (text ++ "\n" ++ text').toList (ts ++ us) := by
    rw [String.toList_append, String.toList_append, List.append_assoc]
    exact lexes.append (fun t member => (derives.inside t member).2) lexes'
  refine (parseText_iff whole).mpr (derives.append ?_ derives')
  have same : ts = front ++ [mark] := by
    rw [Token.tokenize_eq lexes] at ends
    have closed : ts ++ [.eof] = (front ++ [mark]) ++ [.eof] := ends.trans (by simp)
    exact List.append_cancel_right closed
  intro t last
  rw [same, List.getLast?_concat] at last
  cases last
  exact kind

/-- A text that is nothing but an identifier is read as a use of this name. -/
theorem parseText_name {name : String} (isName : Token.tokenize name = [⟨.ident, name⟩, .eof]) :
    parseText name = ([.expr (.name name)], []) := by
  have inside : ∀ t ∈ [(⟨.ident, name⟩ : Token)], t.kind ≠ .eof := by simp
  rw [parseText, isName]
  refine (parse_eof inside).mpr ?_
  have named : Derives (255 + 1) (.expr .call (.name name)) [⟨.ident, name⟩] :=
    .name (show Token.kind ⟨.ident, name⟩ = .ident from rfl)
  exact .unended (.alone (named.loosen (Nat.zero_le _))) (by simp) .done

end Stacklet
