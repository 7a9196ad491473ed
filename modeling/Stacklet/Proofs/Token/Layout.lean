import Stacklet.Proofs.Text.Classes
import Stacklet.Proofs.Token.Lexing

/-!
# How texts are made of tokens

`Token.Formed` says, without any scanning, what a token can be, and `Token.written`
how it stands in a text. A text is laid out from tokens (`LaidOut`) if these stand in
it one behind the other, with white space in between, such that no token could go on
with the character behind it. Only at the end of the text may a string lack its
closing quote. Every text is laid out in one way, and scanning finds it
(`LaidOut.lexes`, `LaidOut.exists_of`).
-/

namespace Stacklet

/-! ## Tokens and their texts -/

/-- The sign of an operator or delimiter that is a single character. -/
def Kind.sign? : Kind → Option Char
  | .assign => some '='
  | .plus => some '+'
  | .minus => some '-'
  | .bang => some '!'
  | .asterisk => some '*'
  | .slash => some '/'
  | .lt => some '<'
  | .gt => some '>'
  | .comma => some ','
  | .semicolon => some ';'
  | .lparen => some '('
  | .rparen => some ')'
  | .lbrace => some '\x7b'
  | .rbrace => some '\x7d'
  | .lbracket => some '['
  | .rbracket => some ']'
  | _ => none

/-- The text of an operator, a delimiter or a reserved word. All other kinds of tokens
have more than one text, or none. -/
def Kind.text? : Kind → Option String
  | .eq => some "=="
  | .notEq => some "!="
  | .function => some "fn"
  | .letWord => some "let"
  | .trueWord => some "true"
  | .falseWord => some "false"
  | .ifWord => some "if"
  | .elseWord => some "else"
  | .returnWord => some "return"
  | kind => kind.sign?.map String.singleton

/-- The kinds of words: identifiers and reserved words. -/
def Kind.isWord : Kind → Bool
  | .ident | .function | .letWord | .trueWord | .falseWord | .ifWord | .elseWord
  | .returnWord => true
  | _ => false

/-- A row of characters is nothing but white space. -/
def AllBlank (cs : List Char) : Prop := ∀ c ∈ cs, isBlank c = true

instance : DecidablePred AllBlank := fun cs =>
  decidable_of_iff (cs.all isBlank = true) List.all_eq_true

/-- A letter and then letters and digits. The underscore is a letter. -/
def spellsWord (text : String) : Bool :=
  match text.toList with
  | [] => false
  | c :: cs => isLetter c && cs.all isWordChar

/-- A word that is not reserved. -/
structure IsName (name : String) : Prop where
  word : spellsWord name = true
  free : ∀ kind : Kind, kind.text? ≠ some name

namespace Token

/-- The tokens that stand for themselves: an operator, a delimiter or a reserved word with
its own text, an identifier, a row of digits, a string without a quote in it, and a single
character that starts no other token. -/
inductive Formed : Token → Prop
  | fixed {kind : Kind} {text : String} : kind.text? = some text → Formed ⟨kind, text⟩
  | name {name : String} : IsName name → Formed ⟨.ident, name⟩
  | number {digits : String} :
    digits.toList ≠ [] → (∀ c ∈ digits.toList, c.isDigit = true) → Formed ⟨.int, digits⟩
  | string {text : String} : '"' ∉ text.toList → Formed ⟨.string, text⟩
  | illegal {c : Char} :
    isBlank c = false → isLetter c = false → c.isDigit = false → c ≠ '"' →
    (∀ kind : Kind, kind.sign? ≠ some c) → Formed ⟨.illegal, String.singleton c⟩

/-- A string without its closing quote. -/
inductive Unclosed : Token → Prop
  | intro {text : List Char} : '"' ∉ text → Unclosed ⟨.illegal, String.ofList ('"' :: text)⟩

/-- How a token stands in a text: a string stands between quotes. -/
def written (t : Token) : List Char :=
  if t.kind = .string then '"' :: (t.literal.toList ++ ['"']) else t.literal.toList

/-- With this character behind it, the text of a token would be that of a longer token. -/
def ExtendedBy (t : Token) (c : Char) : Prop :=
  (t.kind.isWord = true ∧ isWordChar c = true) ∨ (t.kind = .int ∧ c.isDigit = true) ∨
    ((t.kind = .assign ∨ t.kind = .bang) ∧ c = '=')

/-- The characters behind a token do not extend it. -/
def Stops (t : Token) (behind : List Char) : Prop := ∀ c ∈ behind.head?, ¬ t.ExtendedBy c

end Token

/-- The text consists of these tokens and white space, and no token could be longer. -/
inductive LaidOut : List Char → List Token → Prop
  | blank {gap : List Char} : AllBlank gap → LaidOut gap []
  | token {gap behind : List Char} {t : Token} {ts : List Token} :
    AllBlank gap → t.Formed → t.Stops behind → LaidOut behind ts →
    LaidOut (gap ++ (t.written ++ behind)) (t :: ts)
  | unclosed {gap : List Char} {t : Token} :
    AllBlank gap → t.Unclosed → LaidOut (gap ++ t.written) [t]

/-! ## Kinds and texts -/

section Kinds

variable {kind : Kind} {c : Char} {text : String}

theorem sign?_of_ofSymbol? (symbol : Kind.ofSymbol? c = some kind) : kind.sign? = some c := by
  unfold Kind.ofSymbol? at symbol
  split at symbol <;> cases symbol <;> rfl

theorem ofSymbol?_of_sign? (sign : kind.sign? = some c) : Kind.ofSymbol? c = some kind := by
  cases kind <;> cases sign <;> rfl

theorem text?_of_sign? (sign : kind.sign? = some c) :
    kind.text? = some (String.singleton c) := by
  cases kind <;> cases sign <;> rfl

theorem isWord_of_sign? (sign : kind.sign? = some c) :
    kind.isWord = false ∧ kind ≠ .int ∧ kind ≠ .string := by
  cases kind <;> first | cases sign; done | decide

/-- A word is reserved with the kind that it has, or an identifier. -/
theorem text?_ofWord (text : String) :
    Kind.ofWord text = .ident ∨ (Kind.ofWord text).text? = some text := by
  unfold Kind.ofWord
  split <;> first | exact .inr rfl | exact .inl rfl

theorem IsName.ofWord_eq (isName : IsName text) : Kind.ofWord text = .ident :=
  (text?_ofWord text).resolve_right (isName.free _)

theorem isWord_ofWord (text : String) : (Kind.ofWord text).isWord = true := by
  unfold Kind.ofWord
  split <;> rfl

/-- The three sorts of tokens with a text of their own: single characters, words, and the
two operators of two characters. -/
theorem text?_cases (fixed : kind.text? = some text) :
    (∃ c, text = String.singleton c ∧ kind.sign? = some c) ∨
      (spellsWord text = true ∧ Kind.ofWord text = kind) ∨
      (kind = .eq ∧ text = "==") ∨ (kind = .notEq ∧ text = "!=") := by
  cases kind <;> cases fixed
  case eq => exact .inr (.inr (.inl ⟨rfl, rfl⟩))
  case notEq => exact .inr (.inr (.inr ⟨rfl, rfl⟩))
  case function | letWord | trueWord | falseWord | ifWord | elseWord | returnWord =>
    exact .inr (.inl ⟨by decide, rfl⟩)
  all_goals exact .inl ⟨_, rfl, rfl⟩

/-- A word that is read as an identifier is not reserved. -/
theorem IsName.of_ofWord (word : spellsWord text = true) (plain : Kind.ofWord text = .ident) :
    IsName text := by
  refine ⟨word, fun kind fixed => ?_⟩
  rcases text?_cases fixed with ⟨c, rfl, sign⟩ | ⟨_, same⟩ | ⟨rfl, rfl⟩ | ⟨rfl, rfl⟩
  · have letter : isLetter c = true := by simpa [spellsWord] using word
    have symbol := ofSymbol?_of_sign? sign
    rw [(isLetter_apart letter).2.1] at symbol
    cases symbol
  · rw [← same, plain] at fixed
    cases fixed
  · cases word
  · cases word

end Kinds

/-! ## Single tokens are read -/

/-- A row of characters ends in front of the first character that is none of them. -/
theorem span_of_stop {p : Char → Bool} {inside behind : List Char}
    (on : ∀ c ∈ inside, p c = true) (stops : ∀ c ∈ behind.head?, p c = false) :
    (inside ++ behind).span p = (inside, behind) := by
  have none : behind.takeWhile p = [] ∧ behind.dropWhile p = behind := by
    cases behind with
    | nil => exact ⟨rfl, rfl⟩
    | cons c behind => simp [stops c rfl]
  rw [List.span_eq_takeWhile_dropWhile, List.takeWhile_append_of_pos on,
    List.dropWhile_append_of_pos on, none.1, none.2, List.append_nil]

namespace Token

variable {c : Char} {behind : List Char} {kind : Kind} {text : String}

theorem lexeme_of_sign (sign : kind.sign? = some c) (stops : Stops ⟨kind, text⟩ behind) :
    lexeme c behind = (⟨kind, String.singleton c⟩, behind) := by
  have symbol := ofSymbol?_of_sign? sign
  have apart := ofSymbol?_apart symbol
  rw [lexeme_eq_plain apart.2.2]
  · unfold plainLexeme
    rw [symbol]
  · intro first next
    refine stops '=' next (.inr (.inr ⟨?_, rfl⟩))
    rcases first with rfl | rfl
    · cases symbol
      exact .inl rfl
    · cases symbol
      exact .inr rfl

theorem lexeme_of_letter {cs : List Char} (letter : isLetter c = true)
    (inside : ∀ d ∈ cs, isWordChar d = true) (stops : ∀ d ∈ behind.head?, isWordChar d = false) :
    lexeme c (cs ++ behind) =
      (⟨Kind.ofWord (String.ofList (c :: cs)), String.ofList (c :: cs)⟩, behind) := by
  have apart := isLetter_apart letter
  have on : isWordChar c = true := by rw [isWordChar, letter, Bool.true_or]
  rw [lexeme_eq_plain apart.2.2]
  · unfold plainLexeme
    rw [apart.2.1]
    dsimp only
    rw [if_pos letter, word, span_cons on, span_of_stop inside stops]
  · rintro (rfl | rfl)
    · cases letter
    · cases letter

theorem lexeme_of_digit {cs : List Char} (digit : c.isDigit = true)
    (inside : ∀ d ∈ cs, d.isDigit = true) (stops : ∀ d ∈ behind.head?, d.isDigit = false) :
    lexeme c (cs ++ behind) = (⟨.int, String.ofList (c :: cs)⟩, behind) := by
  have apart := isDigit_apart digit
  rw [lexeme_eq_plain apart.2.2]
  · unfold plainLexeme
    rw [apart.2.1]
    dsimp only
    rw [apart.1, if_neg (by decide), if_pos digit, number, span_cons digit,
      span_of_stop inside stops]
  · rintro (rfl | rfl)
    · cases digit
    · cases digit

theorem lexeme_of_quotes {cs : List Char} (inside : '"' ∉ cs) :
    lexeme '"' (cs ++ '"' :: behind) = (⟨.string, String.ofList cs⟩, behind) := by
  have on : ∀ d ∈ cs, (d != '"') = true := fun d member =>
    bne_iff_ne.mpr fun same => inside (same ▸ member)
  have spanned : (cs ++ '"' :: behind).span (· != '"') = (cs, '"' :: behind) :=
    span_of_stop on (by simp)
  change stringLiteral _ = _
  rw [stringLiteral, spanned]

theorem lexeme_of_quote {cs : List Char} (inside : '"' ∉ cs) :
    lexeme '"' cs = (⟨.illegal, String.ofList ('"' :: cs)⟩, []) := by
  have on : ∀ d ∈ cs, (d != '"') = true := fun d member =>
    bne_iff_ne.mpr fun same => inside (same ▸ member)
  have spanned : (cs ++ []).span (· != '"') = (cs, []) := span_of_stop on (by simp)
  rw [List.append_nil] at spanned
  change stringLiteral _ = _
  rw [stringLiteral, spanned]

theorem lexeme_of_none (letter : isLetter c = false) (digit : c.isDigit = false)
    (noQuote : c ≠ '"') (symbol : Kind.ofSymbol? c = none) :
    lexeme c behind = (⟨.illegal, String.singleton c⟩, behind) := by
  rw [lexeme_eq_plain noQuote]
  · unfold plainLexeme
    rw [symbol]
    dsimp only
    rw [letter, if_neg (by decide), digit, if_neg (by decide)]
  · rintro (rfl | rfl)
    · cases symbol
    · cases symbol

theorem written_of_ne (noString : kind ≠ .string) : written ⟨kind, text⟩ = text.toList :=
  if_neg noString

/-- Most kinds of tokens are extended by nothing. -/
theorem stops_of_kind (noWord : kind.isWord = false) (noNumber : kind ≠ .int)
    (noSign : kind ≠ .assign ∧ kind ≠ .bang) : Stops ⟨kind, text⟩ behind := by
  rintro d - (⟨word, _⟩ | ⟨number, _⟩ | ⟨sign | sign, _⟩)
  · exact Bool.eq_false_iff.mp noWord word
  · exact noNumber number
  · exact noSign.1 sign
  · exact noSign.2 sign

/-- A word is extended by letters and digits. -/
theorem stops_of_isWord (word : kind.isWord = true)
    (stops : ∀ d ∈ behind.head?, isWordChar d = false) : Stops ⟨kind, text⟩ behind := by
  have other {kind' : Kind} (noWord : kind'.isWord = false) : kind ≠ kind' := by
    rintro rfl
    exact Bool.eq_false_iff.mp noWord word
  rintro d next (⟨_, on⟩ | ⟨number, _⟩ | ⟨sign | sign, _⟩)
  · exact Bool.eq_false_iff.mp (stops d next) on
  · exact other rfl number
  · exact other rfl sign
  · exact other rfl sign

/-- A token that nothing extends is read from its own text. -/
theorem Formed.lexeme_eq {t : Token} (formed : t.Formed) (stops : t.Stops behind) :
    ∃ c cs, t.written = c :: cs ∧ isBlank c = false ∧ lexeme c (cs ++ behind) = (t, behind) := by
  -- A word, whether it is reserved or not.
  have ofWord {word : String} (spells : spellsWord word = true)
      (stops : Stops ⟨Kind.ofWord word, word⟩ behind) :
      ∃ c cs, word.toList = c :: cs ∧ isBlank c = false ∧
        lexeme c (cs ++ behind) = (⟨Kind.ofWord word, word⟩, behind) := by
    unfold spellsWord at spells
    split at spells
    · cases spells
    · rename_i c cs chars
      obtain ⟨letter, inside⟩ := Bool.and_eq_true_iff.mp spells
      have stops' : ∀ d ∈ behind.head?, isWordChar d = false := fun d next =>
        Bool.eq_false_iff.mpr fun on => stops d next (.inl ⟨isWord_ofWord word, on⟩)
      refine ⟨c, cs, chars, (isLetter_apart letter).1, ?_⟩
      rw [lexeme_of_letter letter (List.all_eq_true.mp inside) stops', ← chars,
        String.ofList_toList]
  cases formed with
  | @fixed kind text fixed =>
    rcases text?_cases fixed with ⟨c, rfl, sign⟩ | ⟨spells, rfl⟩ | ⟨rfl, rfl⟩ | ⟨rfl, rfl⟩
    · refine ⟨c, [], ?_, (ofSymbol?_apart (ofSymbol?_of_sign? sign)).1, ?_⟩
      · rw [written_of_ne (by rintro rfl; cases sign), String.toList_singleton]
      · exact lexeme_of_sign sign stops
    · rw [written_of_ne (by intro same; rw [same] at fixed; cases fixed)]
      exact ofWord spells stops
    · exact ⟨'=', ['='], rfl, by decide, rfl⟩
    · exact ⟨'!', ['='], rfl, by decide, rfl⟩
  | @name name isName =>
    have plain := isName.ofWord_eq
    rw [← plain] at stops ⊢
    rw [written_of_ne (by rw [plain]; decide)]
    exact ofWord isName.word stops
  | @number digits some inside =>
    rw [written_of_ne (by decide)]
    cases chars : digits.toList with
    | nil => exact (some chars).elim
    | cons c cs =>
      rw [chars] at inside
      have digit : c.isDigit = true := inside c List.mem_cons_self
      have stops' : ∀ d ∈ behind.head?, d.isDigit = false := fun d next =>
        Bool.eq_false_iff.mpr fun on => stops d next (.inr (.inl ⟨rfl, on⟩))
      refine ⟨c, cs, rfl, ?_, ?_⟩
      · have word : isWordChar c = true := by rw [isWordChar, digit, Bool.or_true]
        exact Bool.eq_false_iff.mpr fun blank =>
          Bool.eq_false_iff.mp (isBlank_apart blank).1 word
      · rw [lexeme_of_digit digit (fun d member => inside d (List.mem_cons_of_mem _ member)) stops',
          ← chars, String.ofList_toList]
  | @string text inside =>
    refine ⟨'"', text.toList ++ ['"'], rfl, by decide, ?_⟩
    rw [List.append_assoc, List.singleton_append, lexeme_of_quotes inside, String.ofList_toList]
  | @illegal c blank letter digit noQuote free =>
    refine ⟨c, [], ?_, blank, lexeme_of_none letter digit noQuote ?_⟩
    · rw [written_of_ne (by decide), String.toList_singleton]
    · cases symbol : Kind.ofSymbol? c with
      | none => rfl
      | some kind => exact (free kind (sign?_of_ofSymbol? symbol)).elim

theorem Unclosed.lexeme_eq {t : Token} (unclosed : t.Unclosed) :
    ∃ c cs, t.written = c :: cs ∧ isBlank c = false ∧ lexeme c cs = (t, []) := by
  cases unclosed with
  | @intro text inside =>
    refine ⟨'"', text, ?_, by decide, lexeme_of_quote inside⟩
    rw [written_of_ne (by decide), String.toList_ofList]

/-! ## Every text starts with a token -/

/-- A row of characters of one class, up to the first one of another class. -/
theorem exists_row (p : Char → Bool) (cs : List Char) :
    ∃ inside behind, cs = inside ++ behind ∧ (∀ c ∈ inside, p c = true) ∧
      ∀ c ∈ behind.head?, p c = false := by
  refine ⟨cs.takeWhile p, cs.dropWhile p, List.takeWhile_append_dropWhile.symm,
    fun c member => List.mem_takeWhile_imp member, fun c next => ?_⟩
  have stop := List.head?_dropWhile_not p cs
  rw [next] at stop
  exact stop

/-- A token stands at the start of the text, and is extended by nothing, or all of it is a
string that is not closed. -/
def Begins (cs : List Char) : Prop :=
  ∃ t behind, cs = written t ++ behind ∧
    ((t.Formed ∧ t.Stops behind) ∨ (t.Unclosed ∧ behind = []))

theorem begins_of_quote (rest : List Char) : Begins ('"' :: rest) := by
  obtain ⟨inside, behind, rfl, on, stops⟩ := exists_row (· != '"') rest
  have noQuote : '"' ∉ inside := fun member => bne_iff_ne.mp (on _ member) rfl
  cases behind with
  | nil =>
    refine ⟨_, [], ?_, .inr ⟨.intro noQuote, rfl⟩⟩
    rw [written_of_ne (by decide), String.toList_ofList, List.append_nil, List.append_nil]
  | cons d behind =>
    have closes : d = '"' := by simpa using stops d rfl
    subst closes
    refine ⟨⟨.string, String.ofList inside⟩, behind, ?_, .inl ⟨.string ?_, ?_⟩⟩
    · simp [written]
    · rwa [String.toList_ofList]
    · exact stops_of_kind rfl (by decide) (by decide)

/-- The signs that are also the first character of an operator of two characters are taken
for themselves only if the second one does not follow. -/
theorem begins_of_sign {kind : Kind} (sign : kind.sign? = some c) (rest : List Char) :
    Begins (c :: rest) := by
  by_cases operator : (c = '=' ∨ c = '!') ∧ rest.head? = some '='
  · obtain ⟨first, second⟩ := operator
    obtain ⟨behind, rfl⟩ := List.head?_eq_some_iff.mp second
    rcases first with rfl | rfl
    · exact ⟨⟨.eq, "=="⟩, behind, rfl, .inl ⟨.fixed rfl, stops_of_kind rfl (by decide) (by decide)⟩⟩
    · exact ⟨⟨.notEq, "!="⟩, behind, rfl,
        .inl ⟨.fixed rfl, stops_of_kind rfl (by decide) (by decide)⟩⟩
  · obtain ⟨noWord, noNumber, noString⟩ := isWord_of_sign? sign
    refine ⟨⟨kind, String.singleton c⟩, rest, ?_, .inl ⟨.fixed (text?_of_sign? sign), ?_⟩⟩
    · rw [written_of_ne noString, String.toList_singleton, List.singleton_append]
    · rintro d next (⟨word, _⟩ | ⟨number, _⟩ | ⟨same, rfl⟩)
      · exact Bool.eq_false_iff.mp noWord word
      · exact noNumber number
      · refine operator ⟨?_, next⟩
        rcases same with rfl | rfl
        · exact .inl (Option.some.inj sign).symm
        · exact .inr (Option.some.inj sign).symm

theorem begins_of_letter (letter : isLetter c = true) (rest : List Char) : Begins (c :: rest) := by
  obtain ⟨inside, behind, rfl, on, stops⟩ := exists_row isWordChar rest
  have spells : spellsWord (String.ofList (c :: inside)) = true := by
    rw [spellsWord, String.toList_ofList]
    exact Bool.and_eq_true_iff.mpr ⟨letter, List.all_eq_true.mpr on⟩
  generalize same : String.ofList (c :: inside) = text at spells
  have chars : text.toList = c :: inside := by rw [← same, String.toList_ofList]
  have isWord := isWord_ofWord text
  refine ⟨⟨Kind.ofWord text, text⟩, behind, ?_, .inl ⟨?_, stops_of_isWord isWord stops⟩⟩
  · rw [written_of_ne (by intro same; rw [same] at isWord; cases isWord), chars, List.cons_append]
  · rcases text?_ofWord text with plain | fixed
    · rw [plain]
      exact .name (.of_ofWord spells plain)
    · exact .fixed fixed

theorem begins_of_digit (digit : c.isDigit = true) (rest : List Char) : Begins (c :: rest) := by
  obtain ⟨inside, behind, rfl, on, stops⟩ := exists_row Char.isDigit rest
  refine ⟨⟨.int, String.ofList (c :: inside)⟩, behind, ?_, .inl ⟨.number ?_ ?_, ?_⟩⟩
  · rw [written_of_ne (by decide), String.toList_ofList, List.cons_append]
  · rw [String.toList_ofList]
    exact List.cons_ne_nil c inside
  · rw [String.toList_ofList]
    intro d member
    rcases List.mem_cons.mp member with rfl | member
    · exact digit
    · exact on d member
  · rintro d next (⟨word, _⟩ | ⟨_, on⟩ | ⟨sign | sign, _⟩)
    · cases word
    · exact Bool.eq_false_iff.mp (stops d next) on
    · cases sign
    · cases sign

theorem begins_of_none (blank : isBlank c = false) (letter : isLetter c = false)
    (digit : c.isDigit = false) (noQuote : c ≠ '"') (symbol : Kind.ofSymbol? c = none)
    (rest : List Char) : Begins (c :: rest) := by
  refine ⟨⟨.illegal, String.singleton c⟩, rest, ?_, .inl ⟨?_, ?_⟩⟩
  · rw [written_of_ne (by decide), String.toList_singleton, List.singleton_append]
  · refine .illegal blank letter digit noQuote fun kind sign => ?_
    rw [ofSymbol?_of_sign? sign] at symbol
    cases symbol
  · exact stops_of_kind rfl (by decide) (by decide)

/-- Where there is no white space, there is a token. -/
theorem begins_of_notBlank (blank : isBlank c = false) (rest : List Char) : Begins (c :: rest) := by
  by_cases quote : c = '"'
  · exact quote ▸ begins_of_quote rest
  cases symbol : Kind.ofSymbol? c with
  | some kind => exact begins_of_sign (sign?_of_ofSymbol? symbol) rest
  | none =>
    cases letter : isLetter c with
    | true => exact begins_of_letter letter rest
    | false =>
      cases digit : c.isDigit with
      | true => exact begins_of_digit digit rest
      | false => exact begins_of_none blank letter digit quote symbol rest

theorem Formed.kind_ne_eof {t : Token} (formed : t.Formed) : t.kind ≠ .eof := by
  cases formed with
  | fixed fixed =>
    rintro rfl
    cases fixed
  | name | number | string | illegal => exact nofun

theorem Unclosed.kind_ne_eof {t : Token} (unclosed : t.Unclosed) : t.kind ≠ .eof := by
  cases unclosed
  exact nofun

theorem Formed.not_unclosed {t : Token} (formed : t.Formed) : ¬ t.Unclosed := by
  rintro ⟨_⟩
  generalize same : Token.mk .illegal _ = t at formed
  cases formed with
  | fixed fixed =>
    cases same
    cases fixed
  | name | number | string => cases same
  | illegal _ _ _ noQuote _ =>
    have same := congrArg (fun t => t.literal.toList) same
    simp only [String.toList_ofList, String.toList_singleton] at same
    exact noQuote (List.cons.inj same).1.symm

/-- A token can be told from its text. -/
theorem eq_of_written_eq {t u : Token} (lawful : t.Formed ∨ t.Unclosed)
    (lawful' : u.Formed ∨ u.Unclosed) (same : t.written = u.written) : t = u := by
  have alone {t : Token} (lawful : t.Formed ∨ t.Unclosed) :
      ∃ c cs, t.written = c :: cs ∧ lexeme c cs = (t, []) := by
    rcases lawful with formed | unclosed
    · have stops : t.Stops [] := nofun
      obtain ⟨c, cs, written, _, read⟩ := formed.lexeme_eq stops
      exact ⟨c, cs, written, List.append_nil cs ▸ read⟩
    · obtain ⟨c, cs, written, _, read⟩ := unclosed.lexeme_eq
      exact ⟨c, cs, written, read⟩
  obtain ⟨c, cs, written, read⟩ := alone lawful
  obtain ⟨d, ds, written', read'⟩ := alone lawful'
  rw [written, written'] at same
  obtain ⟨rfl, rfl⟩ := List.cons.inj same
  exact congrArg Prod.fst (read.symm.trans read')

end Token

/-! ## Whole texts -/

namespace LaidOut

variable {cs gap : List Char} {ts : List Token}

theorem dropWhile_gap {c : Char} (gapBlank : AllBlank gap) (blank : isBlank c = false)
    (rest : List Char) : (gap ++ c :: rest).dropWhile isBlank = c :: rest := by
  rw [List.dropWhile_append_of_pos gapBlank, List.dropWhile_cons_of_neg (by rw [blank]; decide)]

/-- A text is read as the tokens that it is laid out from. -/
theorem lexes (laidOut : LaidOut cs ts) : Lexes cs ts := by
  induction laidOut with
  | blank blank => exact .done (Token.next_of_blank (List.dropWhile_eq_nil_iff.mpr blank))
  | @token gap behind t ts gapBlank formed stops _ ih =>
    obtain ⟨c, cs, written, blank, read⟩ := formed.lexeme_eq stops
    refine .next ?_ formed.kind_ne_eof ih
    rw [written, List.cons_append, Token.next_of_lexeme (dropWhile_gap gapBlank blank _), read]
  | unclosed gapBlank unclosed =>
    obtain ⟨c, cs, written, blank, read⟩ := unclosed.lexeme_eq
    refine .next ?_ unclosed.kind_ne_eof (.done (Token.next_of_blank List.dropWhile_nil))
    rw [written, Token.next_of_lexeme (dropWhile_gap gapBlank blank _), read]

/-- Every text is laid out from tokens. -/
theorem exists_of (cs : List Char) : ∃ ts, LaidOut cs ts := by
  induction hn : cs.length using Nat.strongRecOn generalizing cs with
  | ind n ih =>
    subst hn
    obtain ⟨gap, rest, rfl, blank, stops⟩ := Token.exists_row isBlank cs
    cases rest with
    | nil => exact ⟨[], (List.append_nil gap).symm ▸ .blank blank⟩
    | cons c rest =>
      obtain ⟨t, behind, split, ⟨formed, stops⟩ | ⟨unclosed, rfl⟩⟩ :=
        Token.begins_of_notBlank (stops c rfl) rest
      · obtain ⟨d, ds, written, _⟩ := formed.lexeme_eq stops
        have shorter : behind.length < (gap ++ c :: rest).length := by
          rw [split, written]
          simp only [List.length_append, List.length_cons]
          omega
        obtain ⟨ts, laidOut⟩ := ih _ shorter behind rfl
        exact ⟨t :: ts, split ▸ .token blank formed stops laidOut⟩
      · rw [List.append_nil] at split
        exact ⟨[t], split ▸ .unclosed blank unclosed⟩

end LaidOut

end Stacklet
