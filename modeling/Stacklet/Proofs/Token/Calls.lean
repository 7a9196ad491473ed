import Stacklet.Proofs.Token.Lexing

/-!
# One scanner, asked in different ways

A scanner can be asked for the next token, for the next item of its stream, and for all items that
are left. Whatever the order of the calls, they share the tokens of one text: each call hands out
those that are next and leaves the others (`Ready.ask`). So what is handed out are the first tokens
of the text, in order, and nothing but the end comes behind the end (`answers_ofString`).

The end is kept in two places, as the end of the text and as a flag that the stream is over. Only
the stream raises the flag, and it does so where no token is left. A call for the next token may
have met the end before: the stream still has its end token to yield then.
-/

namespace Stacklet

namespace Scanner

/-- The ways to ask a scanner. -/
inductive Call
  | nextToken | next | drain
  deriving DecidableEq, Repr

/-- The answers, one kind for each way to ask. -/
inductive Answer
  | token (t : Token)
  | item (item? : Option Token)
  | items (ts : List Token)
  deriving DecidableEq, Repr

/-- The answer to a call, and the scanner behind it. -/
def ask (s : Scanner) : Call → Answer × Scanner
  | .nextToken => (.token s.nextToken.1, s.nextToken.2)
  | .next => (.item s.next?.1, s.next?.2)
  | .drain => (.items s.drain.1, s.drain.2)

/-- The answers to calls one behind the other. -/
def answers : Scanner → List Call → List Answer
  | _, [] => []
  | s, call :: calls => (s.ask call).1 :: answers (s.ask call).2 calls

/-- Tokens but for the end tokens among them. -/
def withoutEnd (ts : List Token) : List Token := ts.filter fun t => decide (t.kind ≠ .eof)

namespace Answer

/-- All that an answer hands out. -/
def handed : Answer → List Token
  | .token t => [t]
  | .item item? => item?.toList
  | .items ts => ts

/-- What it hands out from the stream. A call for the next token is none of the stream. -/
def streamed : Answer → List Token
  | .token _ => []
  | .item item? => item?.toList
  | .items ts => ts

/-- The end is reported: by an end token, by a stream that has no next item, or by handing out all
that is left. -/
def ReportsEnd : Answer → Prop
  | .token t => t.kind = .eof
  | .item item? => ∀ t ∈ item?, t.kind = .eof
  | .items _ => True

/-- No token comes any more. A call for the next token is answered by the end token. -/
structure BehindEnd (answer : Answer) : Prop where
  nothing : withoutEnd answer.handed = []
  token : ∀ t, answer = .token t → t = .eof

/-- The stream yields its end token. -/
def EndsStream (answer : Answer) : Prop := ∃ t ∈ answer.streamed, t.kind = .eof

/-- The stream is over: it has no next item, and no items are left. -/
structure StreamOver (answer : Answer) : Prop where
  item : ∀ item?, answer = .item item? → item? = none
  items : ∀ ts, answer = .items ts → ts = []

end Answer

/-- These are the tokens that are left, and the stream is over only if there are none. -/
structure Ready (s : Scanner) (ts : List Token) : Prop where
  lexes : Lexes s.rest ts
  finished : s.done = true → ts = []

/-! ## Tokens and end tokens -/

theorem withoutEnd_append (ts us : List Token) :
    withoutEnd (ts ++ us) = withoutEnd ts ++ withoutEnd us := List.filter_append ts us

theorem withoutEnd_eq_self {ts : List Token} (inside : ∀ t ∈ ts, t.kind ≠ .eof) :
    withoutEnd ts = ts :=
  List.filter_eq_self.mpr fun t member => decide_eq_true (inside t member)

theorem withoutEnd_singleton {t : Token} (notEnd : t.kind ≠ .eof) : withoutEnd [t] = [t] :=
  withoutEnd_eq_self fun _ member => List.mem_singleton.mp member ▸ notEnd

/-- The number of end tokens. -/
def ends (ts : List Token) : Nat := ts.countP fun t => decide (t.kind = .eof)

theorem ends_append (ts us : List Token) : ends (ts ++ us) = ends ts + ends us := List.countP_append

theorem ends_eq_zero {ts : List Token} (inside : ∀ t ∈ ts, t.kind ≠ .eof) : ends ts = 0 :=
  List.countP_eq_zero.mpr fun t member => by simpa using inside t member

/-! ## One call -/

section Call

variable {s : Scanner} {ts : List Token}

theorem ready_ofString {text : String} (lexes : Lexes text.toList ts) : (ofString text).Ready ts :=
  ⟨lexes, nofun⟩

/-- At the end of a text no token is left, whether or not the stream is over. -/
theorem ready_nil (done : Bool) : Ready ⟨[], done⟩ [] := ⟨.done rfl, fun _ => rfl⟩

/-- Nothing is left, or there is a next token, and the stream is not over. -/
theorem Ready.cases (ready : s.Ready ts) :
    (ts = [] ∧ Token.next s.rest = (.eof, [])) ∨
      ∃ t rest left, ts = t :: left ∧ t.kind ≠ .eof ∧ Token.next s.rest = (t, rest) ∧
        Lexes rest left ∧ s.done = false := by
  obtain ⟨lexes, finished⟩ := ready
  cases lexes with
  | done ended => exact .inl ⟨rfl, ended⟩
  | next found notEnd behind =>
    refine .inr ⟨_, _, _, rfl, notEnd, found, behind, ?_⟩
    exact Bool.eq_false_iff.mpr fun done => List.cons_ne_nil _ _ (finished done)

theorem next?_of_done (done : s.done = true) : s.next? = (none, s) := by
  rw [next?, if_pos done]

theorem next?_of_not_done (notDone : s.done = false) :
    s.next? = (some (Token.next s.rest).1,
      ⟨(Token.next s.rest).2, (Token.next s.rest).1.kind = .eof⟩) := by
  rw [next?, if_neg (by rw [notDone]; decide)]

theorem drain_of_done (done : s.done = true) : s.drain = ([], s) := by
  rw [drain, if_pos done]

/-- All tokens that are left, and the end token behind them. -/
theorem Ready.drain_eq (ready : s.Ready ts) (notDone : s.done = false) :
    s.drain = (ts ++ [.eof], ⟨[], true⟩) := by
  have collected := ready.lexes.collect_eq ready.lexes.length_le #[]
  rw [drain, if_neg (by rw [notDone]; decide), collected]
  rfl

/-- A call hands out the tokens that are next, and leaves the others. Where it reports the end,
it leaves none. -/
theorem Ready.step (ready : s.Ready ts) (call : Call) :
    ∃ left, (s.ask call).2.Ready left ∧ ts = withoutEnd (s.ask call).1.handed ++ left ∧
      ((s.ask call).1.ReportsEnd → left = []) := by
  cases call with
  | nextToken =>
    rcases ready.cases with ⟨rfl, ended⟩ | ⟨t, rest, left, rfl, notEnd, found, behind, notDone⟩
    · rw [ask, nextToken, ended]
      exact ⟨[], ready_nil _, rfl, fun _ => rfl⟩
    · rw [ask, nextToken, found]
      refine ⟨left, ⟨behind, fun done => ?_⟩, ?_, fun ends => (notEnd ends).elim⟩
      · exact (Bool.eq_false_iff.mp notDone done).elim
      · exact congrArg (· ++ left) (withoutEnd_singleton notEnd).symm
  | next =>
    cases done : s.done with
    | true =>
      obtain rfl := ready.finished done
      rw [ask, next?_of_done done]
      exact ⟨[], ready, rfl, fun _ => rfl⟩
    | false =>
      rcases ready.cases with ⟨rfl, ended⟩ | ⟨t, rest, left, rfl, notEnd, found, behind, _⟩
      · rw [ask, next?_of_not_done done, ended]
        exact ⟨[], ready_nil _, rfl, fun _ => rfl⟩
      · rw [ask, next?_of_not_done done, found]
        refine ⟨left, ⟨behind, fun ends => ?_⟩, ?_, fun ends => (notEnd (ends t rfl)).elim⟩
        · exact (notEnd (of_decide_eq_true ends)).elim
        · exact congrArg (· ++ left) (withoutEnd_singleton notEnd).symm
  | drain =>
    cases done : s.done with
    | true =>
      obtain rfl := ready.finished done
      rw [ask, drain_of_done done]
      exact ⟨[], ready, rfl, fun _ => rfl⟩
    | false =>
      rw [ask, ready.drain_eq done]
      refine ⟨[], ready_nil true, ?_, fun _ => rfl⟩
      change ts = withoutEnd (ts ++ [.eof]) ++ []
      rw [withoutEnd_append, withoutEnd_eq_self ready.lexes.inside]
      simp [withoutEnd, Token.eof]

/-- Where nothing is left, a call hands out nothing but the end. -/
theorem Ready.behindEnd (ready : s.Ready []) (call : Call) : (s.ask call).1.BehindEnd := by
  obtain ⟨left, _, none, _⟩ := ready.step call
  refine ⟨(List.append_eq_nil_iff.mp none.symm).1, fun t same => ?_⟩
  cases call with
  | nextToken =>
    rcases ready.cases with ⟨_, ended⟩ | ⟨_, _, _, some, _⟩
    · rw [ask, nextToken, ended] at same
      exact (Answer.token.inj same).symm
    · cases some
  | next | drain => cases same

/-- A stream that is over yields nothing and stays over. -/
theorem ask_of_done (done : s.done = true) (call : Call) :
    (s.ask call).1.streamed = [] ∧ (s.ask call).2.done = true := by
  cases call with
  | nextToken => exact ⟨rfl, done⟩
  | next =>
    rw [ask, next?_of_done done]
    exact ⟨rfl, done⟩
  | drain =>
    rw [ask, drain_of_done done]
    exact ⟨rfl, done⟩

/-- A stream is over once it has yielded its end token. -/
theorem Ready.ends_streamed (ready : s.Ready ts) (notDone : s.done = false) (call : Call) :
    ends (s.ask call).1.streamed = (s.ask call).2.done.toNat := by
  cases call with
  | nextToken =>
    change 0 = s.done.toNat
    rw [notDone]
    rfl
  | next =>
    rw [ask, next?_of_not_done notDone]
    change List.countP _ [_] = _
    rw [List.countP_singleton]
    cases decide ((Token.next s.rest).1.kind = .eof) <;> rfl
  | drain =>
    rw [ask, ready.drain_eq notDone]
    change ends (ts ++ [.eof]) = 1
    rw [ends_append, ends_eq_zero ready.lexes.inside]
    rfl

end Call

/-! ## Calls in any order -/

section Calls

variable {s : Scanner} {ts : List Token}

/-- The tokens that are handed out are the first of those that are left. -/
theorem Ready.answers_prefix (ready : s.Ready ts) (calls : List Call) :
    withoutEnd ((s.answers calls).flatMap Answer.handed) <+: ts := by
  induction calls generalizing s ts with
  | nil => exact List.nil_prefix
  | cons call calls ih =>
    obtain ⟨left, ready', rfl, _⟩ := ready.step call
    rw [answers, List.flatMap_cons, withoutEnd_append]
    exact (List.prefix_append_right_inj _).mpr (ih ready')

/-- Where nothing is left, nothing comes any more. -/
theorem Ready.answers_behindEnd (ready : s.Ready []) (calls : List Call) :
    ∀ answer ∈ s.answers calls, answer.BehindEnd := by
  induction calls generalizing s with
  | nil => exact nofun
  | cons call calls ih =>
    obtain ⟨left, ready', none, _⟩ := ready.step call
    obtain rfl := (List.append_eq_nil_iff.mp none.symm).2
    exact List.forall_mem_cons.mpr ⟨ready.behindEnd call, ih ready'⟩

/-- Nothing comes behind an answer that reports the end. -/
theorem Ready.pairwise_behindEnd (ready : s.Ready ts) (calls : List Call) :
    (s.answers calls).Pairwise fun earlier later => earlier.ReportsEnd → later.BehindEnd := by
  induction calls generalizing s ts with
  | nil => exact .nil
  | cons call calls ih =>
    obtain ⟨left, ready', _, ended⟩ := ready.step call
    refine .cons (fun later member reports => ?_) (ih ready')
    obtain rfl := ended reports
    exact ready'.answers_behindEnd calls later member

/-- A stream that is over yields nothing, in whatever way it is asked. -/
theorem streamed_of_done (done : s.done = true) (calls : List Call) :
    ∀ answer ∈ s.answers calls, answer.streamed = [] := by
  induction calls generalizing s with
  | nil => exact nofun
  | cons call calls ih =>
    obtain ⟨none, done'⟩ := ask_of_done done call
    exact List.forall_mem_cons.mpr ⟨none, ih done'⟩

/-- The stream yields one end token at most. -/
theorem Ready.ends_answers (ready : s.Ready ts) (calls : List Call) :
    ends ((s.answers calls).flatMap Answer.streamed) ≤ 1 := by
  induction calls generalizing s ts with
  | nil => exact Nat.zero_le 1
  | cons call calls ih =>
    cases done : s.done with
    | true =>
      rw [List.flatMap_eq_nil_iff.mpr (streamed_of_done done (call :: calls))]
      exact Nat.zero_le 1
    | false =>
      obtain ⟨left, ready', _⟩ := ready.step call
      rw [answers, List.flatMap_cons, ends_append, ready.ends_streamed done]
      cases done' : (s.ask call).2.done with
      | true =>
        rw [List.flatMap_eq_nil_iff.mpr (streamed_of_done done' calls)]
        exact Nat.le_refl 1
      | false =>
        rw [Bool.toNat_false, Nat.zero_add]
        exact ih ready'

theorem Answer.streamOver_of_nil {answer : Answer} (nothing : answer.streamed = []) :
    answer.StreamOver where
  item item? same := by
    subst same
    exact Option.toList_eq_nil_iff.mp nothing
  items ts same := by
    subst same
    exact nothing

/-- Nothing is yielded by the stream behind its end token. -/
theorem Ready.pairwise_streamOver (ready : s.Ready ts) (calls : List Call) :
    (s.answers calls).Pairwise fun earlier later => earlier.EndsStream → later.StreamOver := by
  induction calls generalizing s ts with
  | nil => exact .nil
  | cons call calls ih =>
    obtain ⟨left, ready', _⟩ := ready.step call
    refine .cons (fun later member endsStream => ?_) (ih ready')
    have done : (s.ask call).2.done = true := by
      cases done : s.done with
      | true => exact (ask_of_done done call).2
      | false =>
        obtain ⟨t, inside, ended⟩ := endsStream
        have some : 0 < ends (s.ask call).1.streamed :=
          List.countP_pos_iff.mpr ⟨t, inside, decide_eq_true ended⟩
        rw [ready.ends_streamed done] at some
        cases done' : (s.ask call).2.done with
        | true => rfl
        | false =>
          rw [done'] at some
          cases some
    exact Answer.streamOver_of_nil (streamed_of_done done calls later member)

end Calls

/-- However a scanner is asked, call by call, it hands out the first tokens of its text in order,
those that a fresh scanner has in its stream. Behind an answer that reports the end there is no
token but the end token, which every call for the next token gives then. The stream yields one end
token at most, and nothing behind it. -/
theorem answers_ofString (text : String) (calls : List Call) :
    let answers := (ofString text).answers calls
    withoutEnd (answers.flatMap Answer.handed) <+: withoutEnd (ofString text).drain.1 ∧
    (answers.Pairwise fun earlier later => earlier.ReportsEnd → later.BehindEnd) ∧
    ends (answers.flatMap Answer.streamed) ≤ 1 ∧
    answers.Pairwise fun earlier later => earlier.EndsStream → later.StreamOver := by
  intro answers
  obtain ⟨ts, lexes⟩ := Lexes.exists_of text.toList
  have ready := ready_ofString lexes
  have all : withoutEnd (ofString text).drain.1 = ts := by
    obtain ⟨left, _, split, none⟩ := ready.step .drain
    rw [none trivial, List.append_nil] at split
    exact split.symm
  rw [all]
  exact ⟨ready.answers_prefix calls, ready.pairwise_behindEnd calls, ready.ends_answers calls,
    ready.pairwise_streamOver calls⟩

/-- A call for the next token meets the end first. The stream yields its end token all the same,
once. -/
example : (ofString "").answers [.nextToken, .next, .nextToken, .next, .drain] =
    [.token .eof, .item (some .eof), .token .eof, .item none, .items []] := rfl

end Scanner

end Stacklet
