import Stacklet.Program.Parser
import Stacklet.Proofs.Effects
import Stacklet.Proofs.Program.Grammar

/-!
# What is read without a fault is derived

Reading never gives up, so a success of a routine inside a program says nothing
as long as faults may have been recorded on the way. Each lemma starts from a
cursor that has no faults in the end, and concludes that there were none at the
start, and that the tokens in between are derived.

A routine for an expression starts on the first token of what it reads and ends
on the last one. So what it has read is the part of `tokens` in front of `rest`,
the tokens ahead of the cursor where it ends.
-/

namespace Stacklet

/-- The tokens ahead. -/
def Cursor.rest (c : Cursor) : List Token := c.tokens.tail

namespace Parse

/-! ## Single tokens -/

/-- Anywhere, also behind the last token. -/
def Anywhere (_ : Cursor) : Prop := True

section Tokens

variable {α : Type} {c c' : Cursor}

theorem current_bind {f : Token → Parse α} : (current >>= f) c = f c.current c := rfl

theorem ahead_bind {f : Kind → Parse α} : (ahead >>= f) c = f c.ahead c := rfl

theorem advance_bind {f : PUnit → Parse α} : (advance >>= f) c = f ⟨⟩ c.advance := rfl

/-- Where a token of some kind is ahead, it is the first one of the rest. -/
theorem rest_of_ahead {kind : Kind} (inside : kind ≠ .eof) (ahead : c.ahead = kind) :
    ∃ t us, t.kind = kind ∧ c.rest = t :: us := by
  unfold Cursor.ahead at ahead
  unfold Cursor.rest
  cases tokens : c.tokens.tail with
  | nil =>
    rw [tokens] at ahead
    exact (inside ahead.symm).elim
  | cons t us =>
    rw [tokens] at ahead
    exact ⟨t, us, ahead, rfl⟩

/-- Where the cursor stands on a token of some kind, it is the first one. -/
theorem tokens_of_current {kind : Kind} (inside : kind ≠ .eof) (on : c.current.kind = kind) :
    c.current.kind = kind ∧ c.tokens = c.current :: c.rest := by
  refine ⟨on, ?_⟩
  unfold Cursor.current Cursor.rest at *
  cases tokens : c.tokens with
  | nil =>
    rw [tokens] at on
    exact (inside on.symm).elim
  | cons t us => rfl

theorem expect_eq_ok {kind : Kind} {u : PUnit} (inside : kind ≠ .eof)
    (success : expect kind c = .ok u c') :
    ∃ t, t.kind = kind ∧ c.rest = t :: c'.rest ∧ c' = c.advance := by
  unfold expect at success
  rw [ahead_bind] at success
  split at success
  · rename_i found
    obtain ⟨t, us, same, rest⟩ := rest_of_ahead inside found
    cases success
    refine ⟨t, same, ?_, rfl⟩
    change c.rest = t :: c.rest.tail
    rw [rest]
    rfl
  · cases success

theorem identifier_eq_ok {name : String} (success : identifier c = .ok name c') :
    ∃ t, t.kind = .ident ∧ name = t.literal ∧ c.rest = t :: c'.rest ∧ c'.faults = c.faults := by
  unfold identifier at success
  rcases bind_eq_ok.mp success with ⟨_, c₁, found, named⟩
  rcases expect_eq_ok (by decide) found with ⟨t, kind, rest, rfl⟩
  cases named
  refine ⟨t, kind, ?_, rest, rfl⟩
  change (c.rest.headD .eof).literal = _
  rw [rest]
  rfl

theorem semicolon_eq_ok {u : PUnit} (success : semicolon c = .ok u c') :
    c'.faults = c.faults ∧ ((∃ t, t.kind = .semicolon ∧ c.rest = t :: c'.rest) ∨ c' = c) := by
  unfold semicolon at success
  rw [ahead_bind] at success
  split at success
  · rename_i found
    obtain ⟨t, us, same, rest⟩ := rest_of_ahead (by decide) found
    cases success
    refine ⟨rfl, .inl ⟨t, same, ?_⟩⟩
    change c.rest = t :: c.rest.tail
    rw [rest]
    rfl
  · cases success
    exact ⟨rfl, .inr rfl⟩

end Tokens

/-! ## Loops -/

section Loops

variable {inner : Inner} {region : Region} {level : Precedence} {b : Token} {budget : List Token}
  {c d : Cursor}

theorem statements_of_end (inner : Inner) (budget : List Token) (read : Array Stmt)
    (ends : c.current.kind = region.closer ∨ c.current.kind = .eof) :
    statements inner region budget read c = (read, c) := by
  cases budget with
  | nil => rfl
  | cons b budget =>
    rw [statements, if_pos]
    rcases ends with closed | ended
    · rw [decide_eq_true closed, Bool.true_or]
    · rw [decide_eq_true ended, Bool.or_true]

theorem statements_of_ok {s : Stmt} {read : Array Stmt} (unclosed : c.current.kind ≠ region.closer)
    (more : c.current.kind ≠ .eof) (success : statement inner c = .ok s d) :
    statements inner region (b :: budget) read c =
      statements inner region budget (read.push s) d.advance := by
  rw [statements, decide_eq_false unclosed, decide_eq_false more, success]
  rfl

/-- What is left of a faulty statement is skipped. If that leads to the end of the block, it is
taken for its end. -/
theorem statements_of_error {fault : Fault} {read : Array Stmt}
    (unclosed : c.current.kind ≠ region.closer) (more : c.current.kind ≠ .eof)
    (failed : statement inner c = .error fault d) :
    statements inner region (b :: budget) read c =
      if region = .block && ((d.record fault).recover region).current.kind = .rbrace then
        (read, (d.record fault).recover region)
      else statements inner region budget read ((d.record fault).recover region).advance := by
  rw [statements, decide_eq_false unclosed, decide_eq_false more, failed]
  rfl

theorem moreItems_of_end (budget : List Token) (read : Array Expr) (noComma : c.ahead ≠ .comma) :
    moreItems inner budget read c = .ok read c := by
  cases budget with
  | nil => rfl
  | cons b budget =>
    rw [moreItems, ahead_bind, if_neg noComma]
    rfl

theorem moreItems_of_comma {read : Array Expr} (comma : c.ahead = .comma) :
    moreItems inner (b :: budget) read c =
      (inner .lowest >>= fun item => moreItems inner budget (read.push item))
        c.advance.advance := by
  rw [moreItems, ahead_bind, if_pos comma, advance_bind, advance_bind]

theorem moreParameters_of_end (budget : List Token) (read : Array String)
    (noComma : c.ahead ≠ .comma) : moreParameters budget read c = .ok read c := by
  cases budget with
  | nil => rfl
  | cons b budget =>
    rw [moreParameters, ahead_bind, if_neg noComma]
    rfl

theorem moreParameters_of_comma {read : Array String} (comma : c.ahead = .comma) :
    moreParameters (b :: budget) read c =
      (identifier >>= fun name => moreParameters budget (read.push name)) c.advance := by
  rw [moreParameters, ahead_bind, if_pos comma, advance_bind]

theorem links_of_end (budget : List Token) (left : Expr)
    (ends : c.ahead.linkAbove? level = none) : links inner level budget left c = .ok left c := by
  cases budget with
  | nil => rfl
  | cons b budget =>
    unfold links
    rw [ahead_bind, ends]
    rfl

/-- A link is followed where it opens above the level. -/
theorem links_of_link {link : Link} {left : Expr} (opens : c.ahead.linkAbove? level = some link) :
    links inner level (b :: budget) left c =
      (linked inner left link >>= links inner level budget) c.advance := by
  rw [links, ahead_bind, opens]
  rfl

/-- A loop stops at the token ahead, or it takes the token and makes a pass behind it. At a
semicolon, at a closing brace and at the end it stops. -/
structure Loops {α : Type} (loop : List Token → α → Parse α) (pass? : Kind → Option (α → Parse α)) :
    Prop where
  stops {budget : List Token} {a : α} {c : Cursor} :
    pass? c.ahead = none → loop budget a c = .ok a c
  goes {pass : α → Parse α} {b : Token} {budget : List Token} {a : α} {c : Cursor} :
    pass? c.ahead = some pass → loop (b :: budget) a c = (pass a >>= loop budget) c.advance
  inside {pass : α → Parse α} {kind : Kind} :
    pass? kind = some pass → kind ≠ .semicolon ∧ kind ≠ .rbrace ∧ kind ≠ .eof

/-- A loop over what is behind commas. -/
theorem Loops.of_comma {α : Type} {loop : List Token → α → Parse α} {pass : α → Parse α}
    (stops : ∀ {c : Cursor} budget a, c.ahead ≠ .comma → loop budget a c = .ok a c)
    (goes : ∀ {c : Cursor} b budget a, c.ahead = .comma →
      loop (b :: budget) a c = (pass a >>= loop budget) c.advance) :
    Loops loop fun kind => if kind = .comma then some pass else none where
  stops none := stops _ _ fun comma => by simp [comma] at none
  goes taken := by
    obtain ⟨comma, ⟨⟩⟩ := Option.ite_none_right_eq_some.mp taken
    exact goes _ _ _ comma
  inside taken := by
    obtain ⟨rfl, _⟩ := Option.ite_none_right_eq_some.mp taken
    decide

/-- What is done behind a comma in a list of expressions. -/
def nextItem (inner : Inner) (read : Array Expr) : Parse (Array Expr) := do
  advance
  return read.push (← inner .lowest)

/-- What is done behind a comma in a list of parameters. -/
def nextParameter (read : Array String) : Parse (Array String) :=
  return read.push (← identifier)

theorem loops_moreItems (inner : Inner) : Loops (moreItems inner) fun kind =>
    if kind = .comma then some (nextItem inner) else none := by
  refine .of_comma moreItems_of_end ?_
  intro c b budget read comma
  rw [moreItems_of_comma comma, nextItem, bind_assoc, advance_bind, bind_assoc]
  simp only [pure_bind]

theorem loops_moreParameters : Loops moreParameters fun kind =>
    if kind = .comma then some nextParameter else none := by
  refine .of_comma moreParameters_of_end ?_
  intro c b budget read comma
  rw [moreParameters_of_comma comma, nextParameter, bind_assoc]
  simp only [pure_bind]

theorem loops_links (inner : Inner) (level : Precedence) : Loops (links inner level) fun kind =>
    (kind.linkAbove? level).map fun link left => linked inner left link where
  stops none := links_of_end _ _ (Option.map_eq_none_iff.mp none)
  goes taken := by
    obtain ⟨link, opens, rfl⟩ := Option.map_eq_some_iff.mp taken
    exact links_of_link opens
  inside taken := by
    obtain ⟨link, opens, _⟩ := Option.map_eq_some_iff.mp taken
    refine ⟨?_, ?_, ?_⟩ <;> rintro rfl <;> cases opens

end Loops

/-! ## Expressions inside -/

/-- An expression of this layer can be read where a level is asked for. An operand
with a sign can be read everywhere. -/
def Admits (level layer : Precedence) : Prop :=
  level.rank < layer.rank ∨ Precedence.unary.rank ≤ layer.rank

/-- The parser for the next level reads expressions of the grammar, and leaves no
token ahead that would carry the expression on. -/
def Sound (inner : Inner) (room : Nat) : Prop :=
  ∀ {level : Precedence} {c c' : Cursor} {e : Expr}, inner level c = .ok e c' → c'.faults = #[] →
    c.faults = #[] ∧ c'.ahead.linkAbove? level = none ∧
      ∃ ts layer, c.tokens = ts ++ c'.rest ∧ Admits level layer ∧
        Derives room (.expr layer e) ts

section Inner

variable {inner : Inner} {room : Nat} {c c' : Cursor} {e : Expr}

theorem Sound.lowest (sound : Sound inner room) (success : inner .lowest c = .ok e c')
    (clean : c'.faults = #[]) :
    c.faults = #[] ∧ c'.ahead.linkAbove? .lowest = none ∧
      ∃ ts, c.tokens = ts ++ c'.rest ∧ Derives room (.expr .lowest e) ts := by
  obtain ⟨start, ends, ts, layer, tokens, _, derives⟩ := sound success clean
  exact ⟨start, ends, ts, tokens, derives.loosen (Nat.zero_le _)⟩

/-! ## Statements -/

/-- The tokens of a statement have been read, and the semicolon behind them if
there is one. -/
def Ended (c : Cursor) (ts : List Token) (c' : Cursor) : Prop :=
  (∃ mark, mark.kind = .semicolon ∧ c.tokens = ts ++ mark :: c'.rest) ∨
    (c.tokens = ts ++ c'.rest ∧ c'.ahead.linkAbove? .lowest = none)

theorem Ended.behind {c₁ : Cursor} {front ts : List Token} (ended : Ended c₁ ts c')
    (tokens : c.tokens = front ++ c₁.tokens) : Ended c (front ++ ts) c' := by
  rcases ended with ⟨mark, kind, same⟩ | ⟨same, ends⟩
  · exact .inl ⟨mark, kind, by rw [tokens, same, List.append_assoc]⟩
  · exact .inr ⟨by rw [tokens, same, List.append_assoc], ends⟩

theorem Ended.rest_lt {t : Token} {ts : List Token} (ended : Ended c (t :: ts) c') :
    c'.rest.length < c.tokens.length := by
  rcases ended with ⟨mark, _, tokens⟩ | ⟨tokens, _⟩
  · rw [tokens]
    simp only [List.length_append, List.length_cons]
    omega
  · rw [tokens]
    simp only [List.length_append, List.length_cons]
    omega

/-- Where an expression has ended, no token carries it on. -/
theorem not_carriesOn {kind : Kind} (ends : kind.linkAbove? .lowest = none) : ¬ kind.carriesOn := by
  rintro (rfl | rfl | rfl)
  · cases ends
  · cases ends
  · cases ends

theorem ahead_of_rest {t : Token} {ts : List Token} (rest : c.rest = t :: ts) :
    c.ahead = t.kind := by
  unfold Cursor.ahead
  rw [show c.tokens.tail = t :: ts from rest]
  rfl

/-- The expression of a statement, and what follows it. -/
theorem sentence_sound (sound : Sound inner room) {make : Expr → Stmt} {s : Stmt}
    (success : (do let value ← inner .lowest; semicolon; return make value : Parse Stmt) c =
      .ok s c')
    (clean : c'.faults = #[]) :
    c.faults = #[] ∧ ∃ e ts, s = make e ∧ Derives room (.expr .lowest e) ts ∧ Ended c ts c' := by
  rcases bind_eq_ok.mp success with ⟨e, c₁, read, rest⟩
  rcases bind_eq_ok.mp rest with ⟨u, c₂, closed, made⟩
  rcases pure_eq_ok.mp made with ⟨rfl, rfl⟩
  rcases semicolon_eq_ok closed with ⟨faults, mark⟩
  obtain ⟨start, ends, ts, tokens, derives⟩ := sound.lowest read (faults ▸ clean)
  refine ⟨start, e, ts, rfl, derives, ?_⟩
  rcases mark with ⟨t, kind, more⟩ | rfl
  · exact .inl ⟨t, kind, by rw [tokens, more]⟩
  · exact .inr ⟨tokens, ends⟩

theorem statement_sound (sound : Sound inner room) {s : Stmt}
    (success : statement inner c = .ok s c') (clean : c'.faults = #[]) :
    c.faults = #[] ∧ ∃ ts, Derives room (.statement s) ts ∧ Ended c ts c' := by
  unfold statement at success
  rw [current_bind] at success
  cases on : c.current.kind with
  | letWord =>
    rw [on] at success
    obtain ⟨word, tokens⟩ := tokens_of_current (by decide) on
    rcases bind_eq_ok.mp success with ⟨name, c₁, named, rest⟩
    rcases identifier_eq_ok named with ⟨t, ident, rfl, more, faults⟩
    rcases bind_eq_ok.mp rest with ⟨u, c₂, assigned, rest⟩
    rcases expect_eq_ok (by decide) assigned with ⟨sign, assign, more', rfl⟩
    rw [advance_bind] at rest
    obtain ⟨start, e, ts, rfl, derives, ended⟩ := sentence_sound sound rest clean
    have front : c.tokens = [c.current, t, sign] ++ c₁.advance.advance.tokens := by
      rw [tokens, more, more']
      rfl
    exact ⟨faults.symm.trans start, _, .define word ident assign derives, ended.behind front⟩
  | returnWord =>
    rw [on] at success
    dsimp only at success
    rw [advance_bind] at success
    obtain ⟨word, tokens⟩ := tokens_of_current (by decide) on
    obtain ⟨start, e, ts, rfl, derives, ended⟩ := sentence_sound sound success clean
    have front : c.tokens = [c.current] ++ c.advance.tokens := tokens
    exact ⟨start, _, .return word derives, ended.behind front⟩
  | _ =>
    rw [on] at success
    obtain ⟨start, e, ts, rfl, derives, ended⟩ := sentence_sound sound success clean
    exact ⟨start, ts, .alone derives, ended⟩

/-- A faulty statement leaves a fault behind, so if there are none in the end, all
statements were read. -/
theorem statements_sound (sound : Sound inner room) {region : Region} {budget : List Token}
    {read read' : Array Stmt} (done : statements inner region budget read c = (read', c'))
    (clean : c'.faults = #[]) :
    c.faults = #[] ∧ (c.tokens.length ≤ budget.length →
      ∃ ts ss, c.tokens = ts ++ c'.tokens ∧ read'.toList = read.toList ++ ss ∧
        Derives room (.statements ss) ts ∧
        (c'.current.kind = region.closer ∨ c'.current.kind = .eof)) := by
  induction budget generalizing read c with
  | nil =>
    cases done
    refine ⟨clean, fun short => ?_⟩
    have empty : c'.tokens = [] := List.eq_nil_of_length_eq_zero (Nat.le_zero.mp short)
    refine ⟨[], [], rfl, (List.append_nil _).symm, .done, .inr ?_⟩
    rw [Cursor.current, empty]
    rfl
  | cons t budget ih =>
    unfold statements at done
    split at done
    · rename_i stops
      cases done
      refine ⟨clean, fun _ => ⟨[], [], rfl, (List.append_nil _).symm, .done, ?_⟩⟩
      rcases Bool.or_eq_true_iff.mp stops with closed | ends
      · exact .inl (of_decide_eq_true closed)
      · exact .inr (of_decide_eq_true ends)
    · split at done
      · rename_i s c₁ success
        obtain ⟨start, later⟩ := ih done
        obtain ⟨start', ts, derives, ended⟩ := statement_sound sound success start
        refine ⟨start', fun short => ?_⟩
        obtain ⟨u, us, rfl, _⟩ := derives.opens
        have less := ended.rest_lt
        rw [List.length_cons] at short
        obtain ⟨vs, ss, tokens', read, derives', stops⟩ :=
          later (Nat.le_of_lt_succ (Nat.lt_of_lt_of_le less short))
        have rest : c₁.rest = vs ++ c'.tokens := tokens'
        rcases ended with ⟨mark, kind, tokens⟩ | ⟨tokens, ends⟩
        · refine ⟨_, s :: ss, ?_, ?_, .ended derives kind derives', stops⟩
          · rw [tokens, rest]
            simp
          · simp [read]
        · have free : ∀ v ∈ vs.head?, ¬ v.kind.carriesOn := by
            intro v first
            obtain ⟨ws, rfl⟩ := List.head?_eq_some_iff.mp first
            rw [ahead_of_rest rest] at ends
            exact not_carriesOn ends
          refine ⟨_, s :: ss, ?_, ?_, .unended derives free derives', stops⟩
          · rw [tokens, rest]
            simp
          · simp [read]
      · rename_i fault c₁ failed
        dsimp only at done
        split at done
        · cases done
          simp [Cursor.recover, Cursor.record] at clean
        · obtain ⟨start, _⟩ := ih done
          simp [Cursor.recover, Cursor.record, Cursor.advance] at start

/-- A block, from behind its opening brace on. -/
theorem block_sound (sound : Sound inner room) {ss : List Stmt}
    (success : block inner c = .ok ss c') (clean : c'.faults = #[]) :
    c.faults = #[] ∧ ∃ ts r, Derives room (.statements ss) ts ∧ r.kind = .rbrace ∧
      c.rest = ts ++ r :: c'.rest := by
  unfold block at success
  dsimp only at success
  cases done : statements inner .block c.advance.tokens #[] c.advance with
  | mk read c₁ =>
  rw [done] at success
  split at success
  · rename_i closed
    cases success
    obtain ⟨start, later⟩ := statements_sound sound done clean
    obtain ⟨ts, ss, tokens, read, derives, _⟩ := later (Nat.le_refl _)
    obtain ⟨kind, tokens'⟩ := tokens_of_current (by decide) closed
    refine ⟨start, ts, _, ?_, kind, ?_⟩
    · rw [read]
      exact derives
    · change c.advance.tokens = _
      rw [tokens, ← tokens']
  · cases success

theorem bracedBlock_sound (sound : Sound inner room) {ss : List Stmt}
    (success : bracedBlock inner c = .ok ss c') (clean : c'.faults = #[]) :
    c.faults = #[] ∧ ∃ ts, Derives room (.block ss) ts ∧ c.rest = ts ++ c'.rest := by
  unfold bracedBlock at success
  rcases bind_eq_ok.mp success with ⟨u, c₁, opened, success⟩
  rcases expect_eq_ok (by decide) opened with ⟨l, brace, rest, rfl⟩
  obtain ⟨start, ts, r, derives, brace', tokens⟩ := block_sound sound success clean
  refine ⟨start, _, .braced brace derives brace', ?_⟩
  rw [rest, tokens]
  simp

/-! ## Lists -/

/-- Further items turn every item in front of them into the first of a list. -/
theorem moreItems_sound (sound : Sound inner room) {budget : List Token} {read read' : Array Expr}
    (success : moreItems inner budget read c = .ok read' c') (clean : c'.faults = #[]) :
    c.faults = #[] ∧ ∃ es us, read'.toList = read.toList ++ es ∧ c.rest = us ++ c'.rest ∧
      ∀ {e ts}, Derives room (.expr .lowest e) ts → Derives room (.items (e :: es)) (ts ++ us) := by
  induction budget generalizing read c with
  | nil =>
    cases success
    refine ⟨clean, [], [], (List.append_nil _).symm, rfl, fun derives => ?_⟩
    rw [List.append_nil]
    exact .one derives
  | cons t budget ih =>
    unfold moreItems at success
    rw [ahead_bind] at success
    split at success
    · rename_i found
      obtain ⟨comma, us, kind, rest⟩ := rest_of_ahead (by decide) found
      rw [advance_bind, advance_bind] at success
      rcases bind_eq_ok.mp success with ⟨e, c₁, item, success⟩
      obtain ⟨start, es, vs, read, rest', items⟩ := ih success
      obtain ⟨start', _, ts, tokens, derives⟩ := sound.lowest item start
      refine ⟨start', e :: es, comma :: (ts ++ vs), ?_, ?_, fun derives' => ?_⟩
      · rw [read]
        simp
      · rw [List.cons_append, List.append_assoc, ← rest', ← tokens]
        change _ = comma :: c.rest.tail
        rw [rest]
        rfl
      · exact .more derives' kind (items derives)
    · cases success
      refine ⟨clean, [], [], (List.append_nil _).symm, rfl, fun derives => ?_⟩
      rw [List.append_nil]
      exact .one derives

/-- A list of expressions, from behind its opening token on. -/
theorem items_sound (sound : Sound inner room) {closer : Kind} {es : List Expr}
    (inside : closer ≠ .eof) (success : items inner closer c = .ok es c')
    (clean : c'.faults = #[]) :
    c.faults = #[] ∧ ∃ ts r, Derives room (.list es) ts ∧ r.kind = closer ∧
      c.rest = ts ++ r :: c'.rest := by
  unfold items at success
  rw [ahead_bind] at success
  split at success
  · rename_i found
    obtain ⟨r, us, kind, rest⟩ := rest_of_ahead inside found
    cases success
    refine ⟨clean, [], r, .noItems, kind, ?_⟩
    change c.rest = r :: c.rest.tail
    rw [rest]
    rfl
  · rw [advance_bind] at success
    rcases bind_eq_ok.mp success with ⟨first, c₁, item, success⟩
    rw [get_bind] at success
    rcases bind_eq_ok.mp success with ⟨read, c₂, more, success⟩
    rcases bind_eq_ok.mp success with ⟨u, c₃, closed, made⟩
    rcases pure_eq_ok.mp made with ⟨rfl, rfl⟩
    rcases expect_eq_ok inside closed with ⟨r, kind, rest, rfl⟩
    obtain ⟨start, es, us, read, rest', items⟩ := moreItems_sound sound more clean
    obtain ⟨start', _, ts, tokens, derives⟩ := sound.lowest item start
    refine ⟨start', ts ++ us, r, ?_, kind, ?_⟩
    · rw [read]
      exact .someItems (items derives)
    · change c.advance.tokens = _
      rw [tokens, rest', rest]
      simp

theorem moreParameters_eq_ok (room : Nat) {budget : List Token} {read read' : Array String}
    (success : moreParameters budget read c = .ok read' c') :
    c'.faults = c.faults ∧ ∃ names us, read'.toList = read.toList ++ names ∧
      c.rest = us ++ c'.rest ∧
      ∀ {t : Token}, t.kind = .ident → Derives room (.names (t.literal :: names)) (t :: us) := by
  induction budget generalizing read c with
  | nil =>
    cases success
    exact ⟨rfl, [], [], (List.append_nil _).symm, rfl, fun ident => .oneName ident⟩
  | cons t budget ih =>
    unfold moreParameters at success
    rw [ahead_bind] at success
    split at success
    · rename_i found
      obtain ⟨comma, us, kind, rest⟩ := rest_of_ahead (by decide) found
      rw [advance_bind] at success
      rcases bind_eq_ok.mp success with ⟨name, c₁, named, success⟩
      rcases identifier_eq_ok named with ⟨t, ident, rfl, rest', faults⟩
      obtain ⟨faults', names, vs, read, rest'', list⟩ := ih success
      refine ⟨faults'.trans faults, t.literal :: names, comma :: t :: vs, ?_, ?_, fun ident' => ?_⟩
      · rw [read]
        simp
      · rw [List.cons_append, List.cons_append, ← rest'', ← rest']
        change _ = comma :: c.rest.tail
        rw [rest]
        rfl
      · exact .moreNames ident' kind (list ident)
    · cases success
      exact ⟨rfl, [], [], (List.append_nil _).symm, rfl, fun ident => .oneName ident⟩

/-- The parameters of a function, from behind the opening parenthesis on. -/
theorem parameters_eq_ok (room : Nat) {names : List String}
    (success : parameters c = .ok names c') :
    c'.faults = c.faults ∧ ∃ ts r, Derives room (.parameters names) ts ∧ r.kind = .rparen ∧
      c.rest = ts ++ r :: c'.rest := by
  unfold parameters at success
  rw [ahead_bind] at success
  split at success
  · rename_i found
    obtain ⟨r, us, kind, rest⟩ := rest_of_ahead (by decide) found
    cases success
    refine ⟨rfl, [], r, .noNames, kind, ?_⟩
    change c.rest = r :: c.rest.tail
    rw [rest]
    rfl
  · rcases bind_eq_ok.mp success with ⟨name, c₁, named, success⟩
    rcases identifier_eq_ok named with ⟨t, ident, rfl, rest, faults⟩
    rw [get_bind] at success
    rcases bind_eq_ok.mp success with ⟨read, c₂, more, success⟩
    rcases bind_eq_ok.mp success with ⟨u, c₃, closed, made⟩
    rcases pure_eq_ok.mp made with ⟨rfl, rfl⟩
    rcases expect_eq_ok (by decide) closed with ⟨r, kind, rest', rfl⟩
    rcases moreParameters_eq_ok room more with ⟨faults', names, us, read, rest'', list⟩
    refine ⟨faults'.trans faults, t :: us, r, ?_, kind, ?_⟩
    · rw [read]
      exact .someNames (list ident)
    · rw [rest, rest'', rest']
      simp

/-! ## Operands -/

theorem conditional_sound (sound : Sound inner room) {e : Expr} (word : c.current.kind = .ifWord)
    (success : conditional inner c = .ok e c') (clean : c'.faults = #[]) :
    c.faults = #[] ∧ ∃ ts, c.tokens = ts ++ c'.rest ∧ Derives (room + 1) (.expr .call e) ts := by
  obtain ⟨word, tokens⟩ := tokens_of_current (by decide) word
  unfold conditional at success
  rcases bind_eq_ok.mp success with ⟨_, c₁, opened, success⟩
  rcases expect_eq_ok (by decide) opened with ⟨l, lparen, rest, rfl⟩
  rw [advance_bind] at success
  rcases bind_eq_ok.mp success with ⟨condition, c₂, read, success⟩
  rcases bind_eq_ok.mp success with ⟨_, c₃, closed, success⟩
  rcases expect_eq_ok (by decide) closed with ⟨r, rparen, rest', rfl⟩
  rcases bind_eq_ok.mp success with ⟨consequence, c₄, first, success⟩
  rw [ahead_bind] at success
  have front : ∀ {us : List Token}, c₂.advance.rest = us ++ c₄.rest → c₂.faults = #[] →
      c.faults = #[] ∧ ∃ ts, Derives room (.expr .lowest condition) ts ∧
        c.tokens = c.current :: l :: (ts ++ r :: (us ++ c₄.rest)) := by
    intro us rest'' start
    obtain ⟨start', _, ts, tokens', derives⟩ := sound.lowest read start
    refine ⟨start', ts, derives, ?_⟩
    rw [tokens, rest, ← rest'', ← rest', ← tokens']
    rfl
  split at success
  · rename_i found
    obtain ⟨other, ws, elseWord, rest''⟩ := rest_of_ahead (by decide) found
    rw [advance_bind] at success
    rcases bind_eq_ok.mp success with ⟨alternative, c₅, second, made⟩
    rcases pure_eq_ok.mp made with ⟨rfl, rfl⟩
    obtain ⟨start, vs, derives'', tokens''⟩ := bracedBlock_sound sound second clean
    obtain ⟨start', us, derives', tokens'⟩ := bracedBlock_sound sound first start
    obtain ⟨start'', ts, derives, tokens⟩ := front tokens' start'
    refine ⟨start'', _, ?_, .choiceElse word lparen derives rparen derives' elseWord derives''⟩
    have last : c₄.rest = other :: (vs ++ c₅.rest) := by
      rw [← tokens'']
      change _ = other :: c₄.rest.tail
      rw [rest'']
      rfl
    rw [tokens, last]
    simp
  · rcases pure_eq_ok.mp success with ⟨rfl, rfl⟩
    obtain ⟨start, us, derives', tokens'⟩ := bracedBlock_sound sound first clean
    obtain ⟨start', ts, derives, tokens⟩ := front tokens' start
    refine ⟨start', _, ?_, .choice word lparen derives rparen derives'⟩
    rw [tokens]
    simp

theorem function_sound (sound : Sound inner room) {e : Expr} (word : c.current.kind = .function)
    (success : function inner c = .ok e c') (clean : c'.faults = #[]) :
    c.faults = #[] ∧ ∃ ts, c.tokens = ts ++ c'.rest ∧ Derives (room + 1) (.expr .call e) ts := by
  obtain ⟨word, tokens⟩ := tokens_of_current (by decide) word
  unfold function at success
  rcases bind_eq_ok.mp success with ⟨_, c₁, opened, success⟩
  rcases expect_eq_ok (by decide) opened with ⟨l, lparen, rest, rfl⟩
  rcases bind_eq_ok.mp success with ⟨names, c₂, named, success⟩
  rcases bind_eq_ok.mp success with ⟨body, c₃, braced, made⟩
  rcases pure_eq_ok.mp made with ⟨rfl, rfl⟩
  obtain ⟨start, us, derives', rest'⟩ := bracedBlock_sound sound braced clean
  rcases parameters_eq_ok room named with ⟨faults, ts, r, derives, rparen, rest''⟩
  refine ⟨faults.symm.trans start, _, ?_, .function word lparen derives rparen derives'⟩
  rw [tokens, rest, rest'', rest']
  simp

/-- An operand has been read, and the token ahead does not bind tighter. -/
structure OperandRead (room : Nat) (e : Expr) (c c' : Cursor) : Prop where
  start : c.faults = #[]
  derives : ∃ ts layer, c.tokens = ts ++ c'.rest ∧ Derives (room + 1) (.expr layer e) ts ∧
    Precedence.unary.rank ≤ layer.rank ∧ c'.ahead.linkAbove? layer = none

/-- Nothing binds tighter than an operand without a sign. -/
theorem OperandRead.unsigned {ts : List Token} (start : c.faults = #[])
    (tokens : c.tokens = ts ++ c'.rest) (derives : Derives (room + 1) (.expr .call e) ts) :
    OperandRead room e c c' := by
  refine ⟨start, ts, .call, tokens, derives, by decide, ?_⟩
  cases c'.ahead <;> rfl

/-- A sign and the operand behind it. -/
theorem sign_sound (sound : Sound inner room) {op : UnaryOp} (on : c.current.kind = op.kind)
    (success : (do advance; return .unary op (← inner .unary) : Parse Expr) c = .ok e c')
    (clean : c'.faults = #[]) : OperandRead room e c c' := by
  have inside : op.kind ≠ .eof := by cases op <;> decide
  obtain ⟨sign, tokens⟩ := tokens_of_current inside on
  rw [advance_bind] at success
  rcases bind_eq_ok.mp success with ⟨value, c₁, read, made⟩
  rcases pure_eq_ok.mp made with ⟨rfl, rfl⟩
  obtain ⟨start, ends, ts, layer, tokens', admits, derives⟩ := sound read clean
  have tight : Precedence.unary.rank ≤ layer.rank := by
    rcases admits with above | signed
    · exact Nat.le_of_lt above
    · exact signed
  refine ⟨start, _, .unary, ?_, .unary sign (derives.loosen tight), Nat.le_refl _, ends⟩
  rw [tokens, List.cons_append, ← tokens']
  rfl

theorem group_sound (sound : Sound inner room) (on : c.current.kind = .lparen)
    (success : (do advance; let value ← inner .lowest; expect .rparen; return value : Parse Expr) c
      = .ok e c') (clean : c'.faults = #[]) : OperandRead room e c c' := by
  obtain ⟨lparen, tokens⟩ := tokens_of_current (by decide) on
  rw [advance_bind] at success
  rcases bind_eq_ok.mp success with ⟨value, c₁, read, success⟩
  rcases bind_eq_ok.mp success with ⟨_, c₂, closed, made⟩
  rcases pure_eq_ok.mp made with ⟨rfl, rfl⟩
  rcases expect_eq_ok (by decide) closed with ⟨r, rparen, rest, rfl⟩
  obtain ⟨start, _, ts, tokens', derives⟩ := sound.lowest read clean
  refine .unsigned start ?_ (.group lparen derives rparen)
  rw [tokens, show c.rest = _ from tokens', rest]
  simp

theorem operand_sound (sound : Sound inner room) (success : operand inner c = .ok e c')
    (clean : c'.faults = #[]) : OperandRead room e c c' := by
  unfold operand at success
  rw [current_bind] at success
  cases on : c.current.kind with
  | ident =>
    rw [on] at success
    rcases pure_eq_ok.mp success with ⟨rfl, rfl⟩
    obtain ⟨kind, tokens⟩ := tokens_of_current (by decide) on
    exact .unsigned clean tokens (.name kind)
  | string =>
    rw [on] at success
    rcases pure_eq_ok.mp success with ⟨rfl, rfl⟩
    obtain ⟨kind, tokens⟩ := tokens_of_current (by decide) on
    exact .unsigned clean tokens (.text kind)
  | trueWord =>
    rw [on] at success
    rcases pure_eq_ok.mp success with ⟨rfl, rfl⟩
    obtain ⟨kind, tokens⟩ := tokens_of_current (by decide) on
    exact .unsigned clean tokens (.boolean kind)
  | falseWord =>
    rw [on] at success
    rcases pure_eq_ok.mp success with ⟨rfl, rfl⟩
    obtain ⟨kind, tokens⟩ := tokens_of_current (by decide) on
    exact .unsigned clean tokens (.boolean kind)
  | int =>
    rw [on] at success
    obtain ⟨kind, tokens⟩ := tokens_of_current (by decide) on
    dsimp only at success
    cases value : readInt64? c.current.literal with
    | none =>
      rw [value] at success
      cases success
    | some n =>
      rw [value] at success
      rcases pure_eq_ok.mp success with ⟨rfl, rfl⟩
      exact .unsigned clean tokens (.integer kind (readInt64?_eq_some_iff.mp value))
  | bang =>
    rw [on] at success
    exact sign_sound sound (show c.current.kind = UnaryOp.not.kind from on) success clean
  | minus =>
    rw [on] at success
    exact sign_sound sound (show c.current.kind = UnaryOp.negate.kind from on) success clean
  | lparen =>
    rw [on] at success
    exact group_sound sound on success clean
  | ifWord =>
    rw [on] at success
    obtain ⟨start, ts, tokens, derives⟩ := conditional_sound sound on success clean
    exact .unsigned start tokens derives
  | function =>
    rw [on] at success
    obtain ⟨start, ts, tokens, derives⟩ := function_sound sound on success clean
    exact .unsigned start tokens derives
  | lbracket =>
    rw [on] at success
    obtain ⟨lbracket, tokens⟩ := tokens_of_current (by decide) on
    rcases bind_eq_ok.mp success with ⟨es, c₁, read, made⟩
    rcases pure_eq_ok.mp made with ⟨rfl, rfl⟩
    obtain ⟨start, ts, r, derives, rbracket, rest⟩ := items_sound sound (by decide) read clean
    refine .unsigned start ?_ (.array lbracket derives rbracket)
    rw [tokens, rest]
    simp
  | _ =>
    rw [on] at success
    cases success

/-! ## Links -/

/-- A right operand lies in the layer behind that of its operator. -/
theorem Admits.tighter {op : BinaryOp} {layer : Precedence} (admits : Admits op.precedence layer) :
    op.precedence.tighter.rank ≤ layer.rank := by
  have binary : op.precedence.tighter.rank ≤ Precedence.unary.rank := by cases op <;> decide
  have next : op.precedence.tighter.rank = op.precedence.rank + 1 := by cases op <;> rfl
  rcases admits with above | signed
  · rw [next]
    exact above
  · exact Nat.le_trans binary signed

/-- A link makes a longer expression of its own layer. -/
theorem linked_sound (sound : Sound inner room) {link : Link} {left : Expr}
    (found : c.current.kind.link? = some link) (success : linked inner left link c = .ok e c')
    (clean : c'.faults = #[]) :
    c.faults = #[] ∧ c'.ahead.linkAbove? link.precedence = none ∧
      ∃ us, c.tokens = c.current :: (us ++ c'.rest) ∧
        ∀ {ts}, Derives (room + 1) (.expr link.precedence left) ts →
          Derives (room + 1) (.expr link.precedence e) (ts ++ c.current :: us) := by
  have inside : c.current.kind ≠ .eof := by
    intro ended
    rw [ended] at found
    cases found
  obtain ⟨_, tokens⟩ := tokens_of_current inside rfl
  cases link with
  | operator op =>
    rw [linked, advance_bind] at success
    rcases bind_eq_ok.mp success with ⟨right, c₁, read, made⟩
    rcases pure_eq_ok.mp made with ⟨rfl, rfl⟩
    obtain ⟨start, ends, us, layer, tokens', admits, derives'⟩ := sound read clean
    have sign := BinaryOp.kind_of_link? found
    refine ⟨start, ends, us, ?_, fun derives => ?_⟩
    · rw [tokens, ← tokens']
      rfl
    · have member := Precedence.mem_operators.mpr (rfl : op.precedence = op.precedence)
      exact .binary member derives sign (derives'.loosen admits.tighter)
  | call =>
    rw [linked] at success
    have lparen : c.current.kind = .lparen := by
      cases kind : c.current.kind <;> rw [kind] at found <;> cases found
    rcases bind_eq_ok.mp success with ⟨es, c₁, read, made⟩
    rcases pure_eq_ok.mp made with ⟨rfl, rfl⟩
    obtain ⟨start, us, r, derives', rparen, rest⟩ := items_sound sound (by decide) read clean
    refine ⟨start, by cases c₁.ahead <;> rfl, us ++ [r], ?_,
      fun derives => .call derives lparen derives' rparen⟩
    rw [tokens, rest]
    simp
  | subscript =>
    have lbracket : c.current.kind = .lbracket := by
      cases kind : c.current.kind <;> rw [kind] at found <;> cases found
    rw [linked, advance_bind] at success
    rcases bind_eq_ok.mp success with ⟨subscript, c₁, read, success⟩
    rcases bind_eq_ok.mp success with ⟨_, c₂, closed, made⟩
    rcases pure_eq_ok.mp made with ⟨rfl, rfl⟩
    rcases expect_eq_ok (by decide) closed with ⟨r, rbracket, rest, rfl⟩
    obtain ⟨start, _, us, tokens', derives'⟩ := sound.lowest read clean
    refine ⟨start, by cases c₁.advance.ahead <;> rfl, us ++ [r], ?_,
      fun derives => .index derives lbracket derives' rbracket⟩
    rw [tokens, show c.rest = _ from tokens', rest]
    simp

/-- Following links keeps an expression that no token ahead carries on within its
layer. The budget lasts, since every link takes a token. -/
theorem links_sound (sound : Sound inner room) {level : Precedence} {budget : List Token}
    {left : Expr} (success : links inner level budget left c = .ok e c') (clean : c'.faults = #[]) :
    c.faults = #[] ∧ ∀ {layer ts}, c.rest.length ≤ budget.length →
      Derives (room + 1) (.expr layer left) ts → Admits level layer →
      c.ahead.linkAbove? layer = none →
      c'.ahead.linkAbove? level = none ∧ ∃ us layer', c.rest = us ++ c'.rest ∧
        Admits level layer' ∧ Derives (room + 1) (.expr layer' e) (ts ++ us) := by
  induction budget generalizing c left with
  | nil =>
    cases success
    refine ⟨clean, fun {layer ts} short derives admits _ => ?_⟩
    have empty : c'.rest = [] := List.eq_nil_of_length_eq_zero (Nat.le_zero.mp short)
    refine ⟨?_, [], layer, rfl, admits, by rw [List.append_nil]; exact derives⟩
    rw [Cursor.ahead, show c'.tokens.tail = [] from empty]
    rfl
  | cons t budget ih =>
    unfold links at success
    rw [ahead_bind] at success
    cases found : c.ahead.linkAbove? level with
    | none =>
      rw [found] at success
      rcases pure_eq_ok.mp success with ⟨rfl, rfl⟩
      refine ⟨clean, fun {layer ts} _ derives admits _ => ?_⟩
      exact ⟨found, [], layer, rfl, admits, by rw [List.append_nil]; exact derives⟩
    | some link =>
      rw [found] at success
      dsimp only at success
      rw [advance_bind] at success
      rcases bind_eq_ok.mp success with ⟨longer, c₁, made, success⟩
      obtain ⟨opens, above⟩ := linkAbove?_eq_some found
      obtain ⟨start, later⟩ := ih success
      obtain ⟨start', ends', us, tokens, longer⟩ :=
        linked_sound sound (show c.advance.current.kind.link? = _ from opens) made start
      refine ⟨start', fun {layer ts} short derives _ ends => ?_⟩
      have rest : c.rest = c.advance.current :: us ++ c₁.rest := tokens
      rw [rest] at short
      simp only [List.length_append, List.length_cons] at short
      have derives' := derives.loosen (rank_le_of_linkAbove? opens ends)
      obtain ⟨done, vs, layer', rest', admits', result⟩ :=
        later (by omega) (longer derives') (.inl above) ends'
      refine ⟨done, c.advance.current :: us ++ vs, layer', ?_, admits', ?_⟩
      · rw [rest, rest', List.append_assoc]
      · rw [← List.append_assoc]
        exact result

end Inner

/-- What is read as an expression is one of the grammar. -/
theorem expression_sound (room : Nat) : Sound (expression room) room := by
  induction room with
  | zero =>
    intro level c c' e success
    cases success
  | succ room ih =>
    intro level c c' e success clean
    unfold expression at success
    rcases bind_eq_ok.mp success with ⟨left, c₁, read, success⟩
    rw [get_bind] at success
    obtain ⟨start, later⟩ := links_sound ih success clean
    obtain ⟨start', ts, layer, tokens, derives, signed, ends⟩ := operand_sound ih read start
    have short : c₁.rest.length ≤ c₁.tokens.length := by
      rw [Cursor.rest, List.length_tail]
      exact Nat.sub_le ..
    obtain ⟨done, us, layer', rest, admits, derives'⟩ := later short derives (.inr signed) ends
    refine ⟨start', done, ts ++ us, layer', ?_, admits, derives'⟩
    rw [tokens, rest, List.append_assoc]

end Parse

/-- A program that is read without a fault is derived from the tokens in front of the
end token. -/
theorem parse_sound_front {tokens : List Token} {program : Program}
    (read : parse tokens = (program, [])) :
    ∃ ts rest, tokens = ts ++ rest ∧ Derives maxNesting (.statements program) ts ∧
      (rest.headD .eof).kind = .eof := by
  unfold parse Parse.program at read
  dsimp only at read
  cases done : Parse.statements (Parse.expression maxNesting) .program
    (Cursor.ofTokens tokens).tokens #[] (Cursor.ofTokens tokens) with
  | mk stmts c =>
  rw [done] at read
  obtain ⟨rfl, clean⟩ := Prod.mk.inj read
  have clean : c.faults = #[] := Array.toList_inj.mp clean
  obtain ⟨_, later⟩ := Parse.statements_sound (Parse.expression_sound maxNesting) done clean
  obtain ⟨ts, ss, split, result, derives, stops⟩ := later (Nat.le_refl _)
  have whole : stmts.toList = ss := result
  exact ⟨ts, c.tokens, split, whole ▸ derives, stops.elim id id⟩

/-- A program that is read without a fault is derived. -/
theorem parse_sound {tokens : List Token} {program : Program} (inside : ∀ t ∈ tokens, t.kind ≠ .eof)
    (read : parse tokens = (program, [])) : Derives maxNesting (.statements program) tokens := by
  obtain ⟨ts, rest, rfl, derives, stops⟩ := parse_sound_front read
  cases rest with
  | nil => exact (List.append_nil ts).symm ▸ derives
  | cons t us => exact (inside t (by simp) stops).elim

end Stacklet
