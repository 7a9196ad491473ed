import Mathlib.Data.List.TakeDrop
import Mathlib.Data.List.TakeWhile
import Stacklet.Token.Scanner

/-!
# Texts and their tokens

`Lexes cs ts`: the tokens `ts` are read from the characters `cs`, one after the
other, up to their end; the end token is left out. Every text has such tokens, and
they are what scanning it yields (`Token.tokenize_eq`). Two texts with a line break
between them have the tokens of both, unless something in the first one is illegal:
no token but a string reaches over a line break (`Lexes.append`).
-/

namespace Stacklet

/-- The tokens of some characters, without the end token. -/
inductive Lexes : List Char → List Token → Prop
  | done {cs : List Char} : Token.next cs = (.eof, []) → Lexes cs []
  | next {cs rest : List Char} {t : Token} {ts : List Token} :
    Token.next cs = (t, rest) → t.kind ≠ .eof → Lexes rest ts → Lexes cs (t :: ts)

/-! ## Rows of characters -/

section Rows

variable {p : Char → Bool} {c : Char}

/-- A row of characters ends where it did, if it did so before the end or does not
go on behind it. -/
theorem span_append {cs : List Char} (ds : List Char)
    (stops : cs.dropWhile p ≠ [] ∨ p c = false) :
    (cs ++ c :: ds).span p = ((cs.span p).1, (cs.span p).2 ++ c :: ds) := by
  simp only [List.span_eq_takeWhile_dropWhile]
  induction cs with
  | nil =>
    have stops : p c = false := stops.resolve_left fun inside => inside rfl
    simp [stops]
  | cons d cs ih =>
    cases on : p d with
    | false => simp [on]
    | true =>
      rw [List.dropWhile_cons_of_pos on] at stops
      simpa [on] using ih stops

theorem length_span_le (p : Char → Bool) (cs : List Char) :
    (cs.span p).2.length ≤ cs.length := by
  rw [List.span_eq_takeWhile_dropWhile]
  exact (List.dropWhile_sublist p).length_le

theorem span_cons {cs : List Char} (on : p c = true) :
    (c :: cs).span p = (c :: (cs.span p).1, (cs.span p).2) := by
  simp [List.span_eq_takeWhile_dropWhile, on]

end Rows

namespace Token

variable {c : Char} {cs rest ds : List Char} {t : Token}

/-! ## Single tokens -/

/-- What can be said of the reading of a token from some characters: it is not the end
token, some of them are left, and a line break with more characters behind it does
not change it unless it is illegal. -/
structure Apart (read : List Char → Token × List Char) (cs : List Char) : Prop where
  notEnd : (read cs).1.kind ≠ .eof
  shorter : (read cs).2.length ≤ cs.length
  append : (read cs).1.kind ≠ .illegal → ∀ ds,
    read (cs ++ '\n' :: ds) = ((read cs).1, (read cs).2 ++ '\n' :: ds)

theorem ofWord_ne_eof (word : String) : Kind.ofWord word ≠ .eof := by
  unfold Kind.ofWord
  split <;> decide

theorem ofSymbol?_ne_eof {kind : Kind} (found : Kind.ofSymbol? c = some kind) : kind ≠ .eof := by
  unfold Kind.ofSymbol? at found
  split at found <;> cases found <;> decide

theorem stringLiteral_apart (cs : List Char) : Apart stringLiteral cs := by
  have shorter := length_span_le (· != '"') cs
  cases closed : (cs.span (· != '"')).2 with
  | nil =>
    have same : stringLiteral cs =
        (⟨.illegal, String.ofList ('"' :: (cs.span (· != '"')).1)⟩, []) := by
      simp only [stringLiteral, closed]
    rw [closed] at shorter
    exact ⟨by rw [same]; nofun, by rw [same]; exact shorter,
      fun legal => (legal (by rw [same])).elim⟩
  | cons quote rest =>
    have same : stringLiteral cs = (⟨.string, String.ofList (cs.span (· != '"')).1⟩, rest) := by
      simp only [stringLiteral, closed]
    rw [closed] at shorter
    refine ⟨by rw [same]; nofun, by rw [same]; exact Nat.le_of_succ_le shorter, ?_⟩
    intro _ ds
    have inside : cs.dropWhile (· != '"') ≠ [] := by
      simp only [List.span_eq_takeWhile_dropWhile] at closed
      simp [closed]
    rw [same]
    simp only [stringLiteral, span_append ds (.inl inside), closed, List.cons_append]

theorem word_apart (letter : isLetter c = true) (cs : List Char) :
    Apart (fun rest => word (c :: rest)) cs := by
  have on : isWordChar c = true := by rw [isWordChar, letter, Bool.true_or]
  have stops : isWordChar '\n' = false := by decide
  refine ⟨ofWord_ne_eof _, ?_, fun _ ds => ?_⟩
  · simp only [word, span_cons on]
    exact length_span_le ..
  · simp only [word, span_cons on, span_append ds (.inr stops)]

theorem number_apart (digit : c.isDigit = true) (cs : List Char) :
    Apart (fun rest => number (c :: rest)) cs := by
  refine ⟨nofun, ?_, fun _ ds => ?_⟩
  · simp only [number, span_cons digit]
    exact length_span_le ..
  · have stops : Char.isDigit '\n' = false := rfl
    simp only [number, span_cons digit, span_append ds (.inr stops)]

/-- A token that is only its first character, or starts with a letter or a digit. -/
def plainLexeme (c : Char) (rest : List Char) : Token × List Char :=
  match Kind.ofSymbol? c with
  | some kind => (⟨kind, String.singleton c⟩, rest)
  | none =>
    if isLetter c then word (c :: rest)
    else if c.isDigit then number (c :: rest)
    else (⟨.illegal, String.singleton c⟩, rest)

theorem plainLexeme_apart (c : Char) (rest : List Char) : Apart (plainLexeme c) rest := by
  unfold plainLexeme
  cases symbol : Kind.ofSymbol? c with
  | some kind => exact ⟨ofSymbol?_ne_eof symbol, Nat.le_refl _, fun _ _ => rfl⟩
  | none =>
    dsimp only
    by_cases letter : isLetter c = true
    · simp only [if_pos letter]
      exact word_apart letter rest
    · simp only [if_neg letter]
      by_cases digit : c.isDigit = true
      · simp only [if_pos digit]
        exact number_apart digit rest
      · simp only [if_neg digit]
        exact ⟨nofun, Nat.le_refl _, fun legal => (legal rfl).elim⟩

/-- Only a quote and the first characters of the two longer operators are special. -/
theorem lexeme_eq_plain (noQuote : c ≠ '"')
    (noOperator : c = '=' ∨ c = '!' → rest.head? ≠ some '=') :
    lexeme c rest = plainLexeme c rest := by
  unfold lexeme
  split
  · exact (noOperator (.inl rfl) rfl).elim
  · exact (noOperator (.inr rfl) rfl).elim
  · exact (noQuote rfl).elim
  · rfl

theorem lexeme_apart (c : Char) (rest : List Char) : Apart (lexeme c) rest := by
  by_cases quote : c = '"'
  · subst quote
    exact stringLiteral_apart rest
  by_cases operator : (c = '=' ∨ c = '!') ∧ rest.head? = some '='
  · obtain ⟨first, second⟩ := operator
    obtain ⟨rest, rfl⟩ : ∃ tail, rest = '=' :: tail := by
      cases rest with
      | nil => cases second
      | cons d rest =>
        cases second
        exact ⟨rest, rfl⟩
    rcases first with rfl | rfl
    · exact ⟨nofun, Nat.le_succ _, fun _ _ => rfl⟩
    · exact ⟨nofun, Nat.le_succ _, fun _ _ => rfl⟩
  · have plain : ∀ ds, lexeme c (rest ++ '\n' :: ds) = plainLexeme c (rest ++ '\n' :: ds) := by
      intro ds
      refine lexeme_eq_plain quote fun first second => operator ⟨first, ?_⟩
      cases rest with
      | nil => cases second
      | cons d rest => exact second
    have same : lexeme c rest = plainLexeme c rest :=
      lexeme_eq_plain quote fun first second => operator ⟨first, second⟩
    have apart := plainLexeme_apart c rest
    refine ⟨same ▸ apart.notEnd, same ▸ apart.shorter, fun legal ds => ?_⟩
    rw [plain, same, apart.append (same ▸ legal)]

/-! ## One token after the other -/

theorem next_of_blank (blank : cs.dropWhile isBlank = []) : next cs = (.eof, []) := by
  rw [next, blank]

theorem next_of_lexeme (starts : cs.dropWhile isBlank = c :: rest) : next cs = lexeme c rest := by
  rw [next, starts]

/-- The next token is the end token exactly if only white space is left. -/
theorem next_cases (cs : List Char) :
    (cs.dropWhile isBlank = [] ∧ next cs = (.eof, [])) ∨
      ∃ c rest, cs.dropWhile isBlank = c :: rest ∧ next cs = lexeme c rest := by
  cases starts : cs.dropWhile isBlank with
  | nil => exact .inl ⟨rfl, next_of_blank starts⟩
  | cons c rest => exact .inr ⟨c, rest, rfl, next_of_lexeme starts⟩

theorem length_next_lt (read : next cs = (t, rest)) (notEnd : t.kind ≠ .eof) :
    rest.length < cs.length := by
  rcases next_cases cs with ⟨_, ended⟩ | ⟨c, behind, starts, same⟩
  · rw [read] at ended
    cases ended
    exact (notEnd rfl).elim
  · have shorter := (lexeme_apart c behind).shorter
    have inside := (List.dropWhile_sublist isBlank : (cs.dropWhile isBlank).Sublist cs).length_le
    rw [starts, List.length_cons] at inside
    rw [← same, read] at shorter
    exact Nat.lt_of_le_of_lt shorter inside

/-- A line break and more text behind it do not change the next token. -/
theorem next_append (read : next cs = (t, rest)) (notEnd : t.kind ≠ .eof)
    (legal : t.kind ≠ .illegal) (ds : List Char) :
    next (cs ++ '\n' :: ds) = (t, rest ++ '\n' :: ds) := by
  rcases next_cases cs with ⟨_, ended⟩ | ⟨c, behind, starts, same⟩
  · rw [read] at ended
    cases ended
    exact (notEnd rfl).elim
  · have starts' : (cs ++ '\n' :: ds).dropWhile isBlank = c :: (behind ++ '\n' :: ds) := by
      have split := congrArg Prod.snd (span_append ds (.inl (by simp [starts])) :
        (cs ++ '\n' :: ds).span isBlank = _)
      simpa only [List.span_eq_takeWhile_dropWhile, starts, List.cons_append] using split
    rw [next_of_lexeme starts', (lexeme_apart c behind).append (by rw [← same, read]; exact legal),
      ← same, read]

theorem next_append_blank (ended : next cs = (.eof, [])) (ds : List Char) :
    next (cs ++ '\n' :: ds) = next ds := by
  rcases next_cases cs with ⟨blank, _⟩ | ⟨c, behind, _, same⟩
  · have skipped : (cs ++ '\n' :: ds).dropWhile isBlank = ds.dropWhile isBlank := by
      rw [List.dropWhile_append_of_pos (List.dropWhile_eq_nil_iff.mp blank),
        List.dropWhile_cons_of_pos (by decide)]
    rw [next, skipped, next]
  · have notEnd := (lexeme_apart c behind).notEnd
    rw [← same, ended] at notEnd
    exact (notEnd rfl).elim

end Token

/-! ## Whole texts -/

namespace Lexes

variable {cs ds : List Char} {ts us : List Token}

/-- Every text has tokens. -/
theorem exists_of (cs : List Char) : ∃ ts, Lexes cs ts := by
  induction hn : cs.length using Nat.strongRecOn generalizing cs with
  | ind n ih =>
    subst hn
    rcases read : Token.next cs with ⟨t, rest⟩
    by_cases ended : t.kind = .eof
    · rcases Token.next_cases cs with ⟨_, blank⟩ | ⟨c, behind, _, same⟩
      · exact ⟨[], .done blank⟩
      · have notEnd := (Token.lexeme_apart c behind).notEnd
        rw [← same, read] at notEnd
        exact (notEnd ended).elim
    · obtain ⟨ts, lexes⟩ := ih rest.length (Token.length_next_lt read ended) rest rfl
      exact ⟨t :: ts, .next read ended lexes⟩

/-- The end token is left out. -/
theorem inside (lexes : Lexes cs ts) : ∀ t ∈ ts, t.kind ≠ .eof := by
  induction lexes with
  | done _ => simp
  | next _ notEnd _ ih =>
    intro t member
    rcases List.mem_cons.mp member with rfl | member
    · exact notEnd
    · exact ih t member

/-- Every token takes a character at least. -/
theorem length_le (lexes : Lexes cs ts) : ts.length ≤ cs.length := by
  induction lexes with
  | done _ => exact Nat.zero_le _
  | next found notEnd _ ih => exact Nat.lt_of_le_of_lt ih (Token.length_next_lt found notEnd)

/-- Scanning yields the tokens of a text and the end token behind them. -/
theorem collect_eq (lexes : Lexes cs ts) {budget : List Char} (enough : ts.length ≤ budget.length)
    (read : Array Token) :
    (Token.collect budget cs read).toList = read.toList ++ (ts ++ [.eof]) := by
  induction lexes generalizing budget read with
  | done ended =>
    cases budget with
    | nil => simp [Token.collect, ended]
    | cons b budget => simp [Token.collect, ended, Token.eof]
  | next found notEnd _ ih =>
    cases budget with
    | nil => cases enough
    | cons b budget =>
      simp only [Token.collect, found, if_neg notEnd]
      rw [ih (Nat.le_of_succ_le_succ enough)]
      simp

/-- Text behind a line break has its tokens behind those of the text in front of it. -/
theorem append (lexes : Lexes cs ts) (legal : ∀ t ∈ ts, t.kind ≠ .illegal) (lexes' : Lexes ds us) :
    Lexes (cs ++ '\n' :: ds) (ts ++ us) := by
  induction lexes with
  | done ended =>
    have same := Token.next_append_blank ended ds
    cases lexes' with
    | done ended' => exact .done (same.trans ended')
    | next found notEnd rest => exact .next (same.trans found) notEnd rest
  | next found notEnd _ ih =>
    exact .next (Token.next_append found notEnd (legal _ List.mem_cons_self) ds) notEnd
      (ih fun t member => legal t (List.mem_cons_of_mem _ member))

end Lexes

/-- Scanning a text yields its tokens, and the end token behind them. -/
theorem Token.tokenize_eq {text : String} {ts : List Token} (lexes : Lexes text.toList ts) :
    Token.tokenize text = ts ++ [.eof] :=
  lexes.collect_eq lexes.length_le #[]

end Stacklet
