import Stacklet.Proofs.Token.Layout

/-!
# White space between tokens

Scanning loses nothing: the tokens of a text, with the white space between them, are
the text, and every token is as long as it can be (`Scanner.drain_ofString`). The
other way round, tokens that are written down with white space between them are
scanned as they were, however much white space there is (`Scanner.drain_spaced`).
-/

namespace Stacklet

/-- White space, and tokens with white space behind each of them. -/
def Token.spaced (lead : List Char) (pieces : List (Token × List Char)) : List Char :=
  lead ++ pieces.flatMap fun piece => piece.1.written ++ piece.2

/-- What ties a text to its tokens, each of which comes with the white space behind it. -/
structure Spaced (source lead : List Char) (pieces : List (Token × List Char)) : Prop where
  source_eq : source = Token.spaced lead pieces
  lead : AllBlank lead
  gaps : ∀ piece ∈ pieces, AllBlank piece.2
  tokens : ∀ piece ∈ pieces, piece.1.Formed ∨ piece.1.Unclosed
  /-- A string is left open only by the end of the text. -/
  open_last : ∀ front t gap back,
    pieces = front ++ (t, gap) :: back → t.Unclosed → gap = [] ∧ back = []
  /-- Where there is no white space, the token could not have been longer. -/
  longest : ∀ front t back, pieces = front ++ (t, []) :: back → t.Stops (Token.spaced [] back)

variable {source lead gap : List Char} {pieces : List (Token × List Char)} {ts : List Token}
  {t : Token}

namespace Token

theorem spaced_cons :
    spaced lead ((t, gap) :: pieces) = lead ++ (t.written ++ spaced gap pieces) := by
  simp [spaced]

/-- White space behind a token does not extend it. -/
theorem stops_of_gap (blank : AllBlank gap) (some : gap ≠ []) (behind : List Char) :
    t.Stops (gap ++ behind) := by
  cases gap with
  | nil => exact (some rfl).elim
  | cons c gap =>
    obtain ⟨word, symbol, _⟩ := isBlank_apart (blank c List.mem_cons_self)
    have digit : c.isDigit = false := (Bool.or_eq_false_iff.mp word).2
    rintro d ⟨⟩ (⟨_, on⟩ | ⟨_, on⟩ | ⟨_, rfl⟩)
    · exact Bool.eq_false_iff.mp word on
    · exact Bool.eq_false_iff.mp digit on
    · cases symbol

end Token

namespace Spaced

/-- The first token taken away. -/
theorem tail (spaced : Spaced source lead ((t, gap) :: pieces)) :
    Spaced (Token.spaced gap pieces) gap pieces where
  source_eq := rfl
  lead := spaced.gaps _ List.mem_cons_self
  gaps piece member := spaced.gaps piece (List.mem_cons_of_mem _ member)
  tokens piece member := spaced.tokens piece (List.mem_cons_of_mem _ member)
  open_last front _ _ _ split := spaced.open_last (_ :: front) _ _ _ (congrArg (_ :: ·) split)
  longest front _ _ split := spaced.longest (_ :: front) _ _ (congrArg (_ :: ·) split)

/-- A further token in front. -/
theorem cons (spaced : Spaced source gap pieces) (blank : AllBlank lead) (formed : t.Formed)
    (stops : t.Stops source) :
    Spaced (lead ++ (t.written ++ source)) lead ((t, gap) :: pieces) where
  source_eq := by rw [Token.spaced_cons, ← spaced.source_eq]
  lead := blank
  gaps := List.forall_mem_cons.mpr ⟨spaced.lead, spaced.gaps⟩
  tokens := List.forall_mem_cons.mpr ⟨.inl formed, spaced.tokens⟩
  open_last front _ _ _ split unclosed := by
    cases front with
    | nil =>
      cases split
      exact (formed.not_unclosed unclosed).elim
    | cons _ front => exact spaced.open_last front _ _ _ (List.cons.inj split).2 unclosed
  longest front _ _ split := by
    cases front with
    | nil =>
      cases split
      exact spaced.source_eq ▸ stops
    | cons _ front => exact spaced.longest front _ _ (List.cons.inj split).2

/-- Nothing but a string that is not closed. -/
theorem unclosed (blank : AllBlank lead) (unclosed : t.Unclosed) :
    Spaced (lead ++ t.written) lead [(t, [])] where
  source_eq := by simp [Token.spaced]
  lead := blank
  gaps := by simp [AllBlank]
  tokens := by simp [unclosed]
  open_last front _ _ _ split _ := by
    cases front with
    | nil =>
      cases split
      exact ⟨rfl, rfl⟩
    | cons _ front => simp at split
  longest front _ _ split := by
    cases front with
    | nil =>
      cases split
      exact nofun
    | cons _ front => simp at split

/-- Such a text is laid out from its tokens. -/
theorem laidOut (spaced : Spaced source lead pieces) : LaidOut source (pieces.map Prod.fst) := by
  induction pieces generalizing source lead with
  | nil =>
    rw [spaced.source_eq, Token.spaced, List.flatMap_nil, List.append_nil]
    exact .blank spaced.lead
  | cons piece pieces ih =>
    rcases piece with ⟨t, gap⟩
    have rest := ih spaced.tail
    rw [spaced.source_eq, Token.spaced_cons]
    rcases spaced.tokens _ List.mem_cons_self with formed | unclosed
    · refine .token spaced.lead formed ?_ rest
      cases gap with
      | nil => exact spaced.longest [] t _ rfl
      | cons c gap => exact Token.stops_of_gap spaced.tail.lead (List.cons_ne_nil c gap) _
    · obtain ⟨rfl, rfl⟩ := spaced.open_last [] t _ _ rfl unclosed
      have none : Token.spaced [] [] = [] := rfl
      rw [none, List.append_nil]
      exact .unclosed spaced.lead unclosed

/-- A text that is laid out from tokens has white space between them. -/
theorem exists_of (laidOut : LaidOut source ts) :
    ∃ lead pieces, pieces.map Prod.fst = ts ∧ Spaced source lead pieces := by
  induction laidOut with
  | @blank gap blank =>
    exact ⟨gap, [], rfl, (by simp [Token.spaced]), blank, nofun, nofun, (by simp), (by simp)⟩
  | @token gap behind t ts blank formed stops _ ih =>
    obtain ⟨lead, pieces, rfl, spaced⟩ := ih
    exact ⟨gap, (t, lead) :: pieces, rfl, spaced.cons blank formed stops⟩
  | @unclosed gap t blank unclosed => exact ⟨gap, [(t, [])], rfl, .unclosed blank unclosed⟩

/-- Tokens with white space between them. -/
theorem of_formed (formed : ∀ piece ∈ pieces, piece.1.Formed) (blank : AllBlank lead)
    (gaps : ∀ piece ∈ pieces, AllBlank piece.2) (apart : ∀ piece ∈ pieces.dropLast, piece.2 ≠ []) :
    Spaced (Token.spaced lead pieces) lead pieces where
  source_eq := rfl
  lead := blank
  gaps := gaps
  tokens piece member := .inl (formed piece member)
  open_last front t gap back split unclosed := by
    have member : (t, gap) ∈ pieces := by rw [split]; simp
    exact ((formed _ member).not_unclosed unclosed).elim
  longest front t back split := by
    cases back with
    | nil => exact nofun
    | cons p back =>
      have member : (t, []) ∈ pieces.dropLast := by
        rw [split, List.dropLast_append_of_ne_nil (by simp)]
        simp
      exact (apart _ member rfl).elim

end Spaced

/-! ## Scanning -/

namespace Scanner

theorem drain_of_laidOut {source : String} (laidOut : LaidOut source.toList ts) :
    (Scanner.ofString source).drain.1 = ts ++ [.eof] :=
  Token.tokenize_eq laidOut.lexes

/-- Scanning loses nothing: the tokens, with the white space between them, are the text. No
token could be longer, and each has the only kind that goes with its text. -/
theorem drain_ofString (source : String) :
    ∃ lead pieces, (Scanner.ofString source).drain.1 = pieces.map Prod.fst ++ [.eof] ∧
      (∀ piece ∈ pieces, piece.1.kind ≠ .eof) ∧ Spaced source.toList lead pieces ∧
      ∀ piece ∈ pieces, ∀ t : Token, t.Formed ∨ t.Unclosed → t.written = piece.1.written →
        t.kind = piece.1.kind := by
  obtain ⟨ts, laidOut⟩ := LaidOut.exists_of source.toList
  obtain ⟨lead, pieces, rfl, spaced⟩ := Spaced.exists_of laidOut
  refine ⟨lead, pieces, drain_of_laidOut laidOut, fun piece member => ?_, spaced,
    fun piece member t lawful same => ?_⟩
  · rcases spaced.tokens piece member with formed | unclosed
    · exact formed.kind_ne_eof
    · exact unclosed.kind_ne_eof
  · exact congrArg Token.kind (Token.eq_of_written_eq lawful (spaced.tokens piece member) same)

/-- Tokens that are written down with white space between them are scanned as they were. -/
theorem drain_spaced (lead : List Char) (pieces : List (Token × List Char))
    (formed : ∀ piece ∈ pieces, piece.1.Formed) (blank : AllBlank lead)
    (gaps : ∀ piece ∈ pieces, AllBlank piece.2) (apart : ∀ piece ∈ pieces.dropLast, piece.2 ≠ []) :
    (Scanner.ofString (String.ofList (Token.spaced lead pieces))).drain.1 =
      pieces.map Prod.fst ++ [.eof] := by
  have spaced := Spaced.of_formed formed blank gaps apart
  apply drain_of_laidOut
  rw [String.toList_ofList]
  exact spaced.laidOut

/-- One token of each form. The equality sign and the operator behind it stay apart, and the
semicolon stays in its string. -/
theorem drain_spaced_mixed :
    (Scanner.ofString " let x_1\t= ==\n\n007 \"a; b\" @").drain.1 =
      [⟨.letWord, "let"⟩, ⟨.ident, "x_1"⟩, ⟨.assign, "="⟩, ⟨.eq, "=="⟩, ⟨.int, "007"⟩,
        ⟨.string, "a; b"⟩, ⟨.illegal, "@"⟩, .eof] := by
  refine drain_spaced [' '] [(⟨.letWord, "let"⟩, [' ']), (⟨.ident, "x_1"⟩, ['\t']),
    (⟨.assign, "="⟩, [' ']), (⟨.eq, "=="⟩, ['\n', '\n']), (⟨.int, "007"⟩, [' ']),
    (⟨.string, "a; b"⟩, [' ']), (⟨.illegal, "@"⟩, [])] ?_ (by decide) (by decide) (by decide)
  have isName : IsName "x_1" := ⟨by decide, fun kind => by cases kind <;> decide⟩
  have digits : ∀ c ∈ "007".toList, c.isDigit = true := List.all_eq_true.mp (by decide)
  have noSign : ∀ kind : Kind, kind.sign? ≠ some '@' := fun kind => by cases kind <;> decide
  have other : Token.Formed ⟨.illegal, "@"⟩ :=
    .illegal (by decide) (by decide) (by decide) (by decide) noSign
  simp only [List.forall_mem_cons, List.not_mem_nil, false_implies, implies_true, and_true]
  exact ⟨.fixed rfl, .name isName, .fixed rfl, .fixed rfl, .number (by decide) digits,
    .string (by decide), other⟩

end Scanner

end Stacklet
