import Stacklet.Proofs.Program.Soundness

/-!
# Reading the same tokens with others behind them

Two runs of one routine: the first one on some tokens, the second one on the same
tokens with others behind them. If those in front end in a semicolon, or an end token comes
behind them, no routine looks further. An expression takes neither of the two, so what is
ahead of the cursor is still in front of the others, and with it everything that is decided.
`Agrees` says so of one routine, in a form that composes.

There is one exception. In a block the first run may come to the end of its tokens
where the second one goes on. It fails then, since a brace is missing.
-/

namespace Stacklet

/-! ## Joined cursors -/

/-- What the second run has behind the tokens of the first one: other tokens behind a semicolon,
which those of the first one end in, or an end token, which is the first one, and other
tokens. -/
inductive Seam
  | semicolon (others : List Token)
  | eof (others : List Token)

namespace Seam

/-- All tokens behind those of the first run. -/
def tokens : Seam → List Token
  | .semicolon others => others
  | .eof others => .eof :: others

/-- The tokens that no routine looks at. -/
def others : Seam → List Token
  | .semicolon others | .eof others => others

/-- The kind of the token in front of the others. -/
def mark : Seam → Kind
  | .semicolon _ => .semicolon
  | .eof _ => .eof

theorem length_others_le (seam : Seam) : seam.others.length ≤ seam.tokens.length := by
  cases seam with
  | semicolon others => exact Nat.le_refl _
  | eof others => exact Nat.le_succ _

end Seam

namespace Cursor

/-- The tokens end in a semicolon, and no end token is among them. -/
def Ends (c : Cursor) : Prop :=
  (∀ t ∈ c.tokens, t.kind ≠ .eof) ∧
    ∃ front mark, c.tokens = front ++ [mark] ∧ mark.kind = .semicolon

/-- The tokens are such that the seam can come behind them. -/
def Meets (c : Cursor) : Seam → Prop
  | .semicolon _ => c.Ends
  | .eof _ => ∀ t ∈ c.tokens, t.kind ≠ .eof

/-- The cursor stands on a token of this kind. -/
def On (kind : Kind) (c : Cursor) : Prop := c.current.kind = kind

/-- The cursor is not at the end. -/
def OnToken (c : Cursor) : Prop := c.current.kind ≠ .eof

/-- The cursor stands on a token that is no semicolon. -/
def Within (c : Cursor) : Prop := c.current.kind ≠ .semicolon ∧ c.current.kind ≠ .eof

variable {c : Cursor}

theorem On.within {kind : Kind} (on : c.On kind) (other : kind ≠ .semicolon ∧ kind ≠ .eof) :
    c.Within := by
  subst on
  exact other

/-- A cursor within is not in front of the seam. -/
theorem Within.not_on_mark (within : c.Within) (seam : Seam) : ¬ c.On seam.mark := by
  cases seam with
  | semicolon others => exact within.1
  | eof others => exact within.2

theorem current_of_nil (none : c.tokens = []) : c.current = .eof := by
  rw [current, none]
  rfl

theorem length_advance_le {n : Nat} (le : c.tokens.length ≤ n + 1) :
    c.advance.tokens.length ≤ n := by
  change c.tokens.tail.length ≤ n
  rw [List.length_tail]
  exact Nat.sub_le_of_le_add le

theorem OnToken.ne_nil (onToken : c.OnToken) : c.tokens ≠ [] := fun none =>
  onToken (congrArg Token.kind (current_of_nil none))

theorem Ends.of_suffix {d : Cursor} (ends : c.Ends) (suffix : d.tokens <:+ c.tokens)
    (some : d.tokens ≠ []) : d.Ends := by
  obtain ⟨inside, front, mark, tokens, kind⟩ := ends
  refine ⟨fun t member => inside t (suffix.subset member), ?_⟩
  rw [tokens] at suffix
  rcases List.suffix_concat_iff.mp suffix with none | ⟨back, same, _⟩
  · exact (some none).elim
  · exact ⟨back, mark, same, kind⟩

theorem Ends.ne_nil (ends : c.Ends) : c.tokens ≠ [] := by
  obtain ⟨_, front, mark, tokens, _⟩ := ends
  rw [tokens]
  exact List.concat_ne_nil mark front

theorem onToken_of_inside (inside : ∀ t ∈ c.tokens, t.kind ≠ .eof) (some : c.tokens ≠ []) :
    c.OnToken := by
  obtain ⟨t, rest, tokens⟩ := List.exists_cons_of_ne_nil some
  rw [tokens] at inside
  rw [OnToken, current, tokens]
  exact inside t List.mem_cons_self

theorem Ends.current_ne_eof (ends : c.Ends) : c.current.kind ≠ .eof :=
  onToken_of_inside ends.1 ends.ne_nil

end Cursor

/-- The second cursor has the tokens of the first one and behind them those of the seam, and it
had recorded some faults before. The first cursor has no more tokens than the limit. -/
structure Joined (seam : Seam) (before : Array Fault) (limit : Nat) (c c' : Cursor) :
    Prop where
  tokens : c'.tokens = c.tokens ++ seam.tokens
  faults : c'.faults = before ++ c.faults
  length : c.tokens.length ≤ limit
  seam : seam.tokens = [] ∨ c.Meets seam

namespace Joined

variable {seam : Seam} {before : Array Fault} {limit limit' : Nat} {c c' : Cursor}

theorem mono (joined : Joined seam before limit c c') (le : limit ≤ limit') :
    Joined seam before limit' c c' :=
  ⟨joined.tokens, joined.faults, Nat.le_trans joined.length le, joined.seam⟩

/-- The first cursor has as many tokens as it has. -/
theorem tight (joined : Joined seam before limit c c') :
    Joined seam before c.tokens.length c c' :=
  ⟨joined.tokens, joined.faults, Nat.le_refl _, joined.seam⟩

theorem of_zero (joined : Joined seam before 0 c c') : c.tokens = [] :=
  List.length_eq_zero_iff.mp (Nat.le_zero.mp joined.length)

/-- At the end of the first run's tokens the second one sees the end, too. -/
theorem current_eq (joined : Joined seam before limit c c') : c'.current = c.current := by
  unfold Cursor.current
  rw [joined.tokens]
  rcases joined.seam with none | meets
  · rw [none, List.append_nil]
  · cases some : c.tokens with
    | cons t rest => rfl
    | nil =>
      cases seam with
      | semicolon others => exact (Cursor.Ends.ne_nil meets some).elim
      | eof others => rfl

/-- In front of the last token, which is a semicolon, there is one ahead. In front of an end
token the two see the same anyway. -/
theorem ahead_eq (joined : Joined seam before limit c c') (within : c.Within) :
    c'.ahead = c.ahead := by
  unfold Cursor.ahead
  rw [joined.tokens]
  rcases joined.seam with none | meets
  · rw [none, List.append_nil]
  · obtain ⟨t, rest, tokens⟩ := List.exists_cons_of_ne_nil (Cursor.OnToken.ne_nil within.2)
    rw [tokens]
    cases rest with
    | cons s rest => rfl
    | nil =>
      cases seam with
      | eof others => rfl
      | semicolon others =>
        obtain ⟨_, front, mark, last, kind⟩ := meets
        cases front with
        | nil =>
          rw [Cursor.Within, Cursor.current, last] at within
          exact (within.1 kind).elim
        | cons s front =>
          rw [tokens] at last
          exact (List.concat_ne_nil mark front (List.cons.inj last).2.symm).elim

/-- Both cursors move on together, unless the first one is in front of the seam. -/
theorem advance_cases (joined : Joined seam before limit c c') :
    (Joined seam before (limit - 1) c.advance c'.advance ∧ (seam.tokens = [] ∨ c.OnToken)) ∨
      (seam.tokens ≠ [] ∧ c.On seam.mark ∧ c.advance = ⟨[], c.faults⟩ ∧
        c'.advance = ⟨seam.others, before ++ c.faults⟩) := by
  have length : c.tokens.tail.length ≤ limit - 1 := by
    rw [List.length_tail]
    exact Nat.sub_le_sub_right joined.length 1
  rw [Cursor.advance, Cursor.advance, joined.tokens, joined.faults]
  by_cases follow : seam.tokens = []
  · refine .inl ⟨⟨?_, rfl, length, .inl follow⟩, .inl follow⟩
    rw [follow, List.append_nil, List.append_nil]
  have meets := joined.seam.resolve_left follow
  cases some : c.tokens with
  | nil =>
    cases seam with
    | semicolon others => exact (Cursor.Ends.ne_nil meets some).elim
    | eof others => exact .inr ⟨follow, congrArg Token.kind (Cursor.current_of_nil some), rfl, rfl⟩
  | cons t rest =>
    rw [some] at length
    cases seam with
    | eof others =>
      have onToken := Cursor.onToken_of_inside meets (by rw [some]; exact List.cons_ne_nil t rest)
      have inside : ∀ s ∈ rest, s.kind ≠ .eof := fun s member =>
        meets s (by rw [some]; exact List.mem_cons_of_mem t member)
      exact .inl ⟨⟨rfl, rfl, length, .inr inside⟩, .inr onToken⟩
    | semicolon others =>
      obtain ⟨front, mark, last, kind⟩ := meets.2
      by_cases none : rest = []
      · -- The cursor stands on the last token, which is the semicolon.
        subst none
        refine .inr ⟨follow, ?_, rfl, rfl⟩
        rw [some] at last
        obtain rfl : t = mark := by simpa using congrArg List.getLast? last
        rw [Cursor.On, Cursor.current, some]
        exact kind
      · have ends : Cursor.Ends ⟨rest, c.faults⟩ :=
          Cursor.Ends.of_suffix meets (by rw [some]; exact List.suffix_cons t rest) none
        exact .inl ⟨⟨rfl, rfl, length, .inr ends⟩, .inr (Cursor.Ends.current_ne_eof meets)⟩

/-- Within, both cursors move on together. -/
theorem advance (joined : Joined seam before limit c c') (within : c.Within) :
    Joined seam before (limit - 1) c.advance c'.advance := by
  rcases joined.advance_cases with ⟨moved, _⟩ | ⟨_, on, _⟩
  · exact moved
  · exact (within.not_on_mark seam on).elim

theorem record (joined : Joined seam before limit c c') (fault : Fault) :
    Joined seam before limit (c.record fault) (c'.record fault) where
  tokens := joined.tokens
  faults := by
    change c'.faults.push fault = before ++ c.faults.push fault
    rw [joined.faults, Array.append_push]
  length := joined.length
  seam := by
    refine joined.seam.imp_right fun meets => ?_
    cases seam with
    | semicolon others => exact meets
    | eof others => exact meets

theorem dropWhile_append_of_stop {α : Type} {p : α → Bool} {a : α} (stops : p a = false)
    (front back : List α) :
    (front ++ a :: back).dropWhile p = front.dropWhile p ++ a :: back := by
  rw [List.dropWhile_append]
  split
  · rename_i none
    rw [List.isEmpty_iff.mp none, List.dropWhile_cons_of_neg (by simp [stops]), List.nil_append]
  · rfl

/-- What is skipped does not reach behind the last semicolon, nor behind the end. -/
theorem recover (joined : Joined seam before limit c c') (region : Region) :
    Joined seam before limit (c.recover region) (c'.recover region) := by
  have length : (c.recover region).tokens.length ≤ limit :=
    Nat.le_trans (List.dropWhile_suffix _).length_le joined.length
  have kept {t : Token} (marks : t.kind = .semicolon ∨ t.kind = .eof) (front back : List Token) :
      (front ++ t :: back).dropWhile (fun t => !region.resumesAt t.kind) =
        front.dropWhile (fun t => !region.resumesAt t.kind) ++ t :: back := by
    refine dropWhile_append_of_stop ?_ front back
    rcases marks with same | same <;> rw [same] <;> rfl
  have suffix : (c.recover region).tokens <:+ c.tokens := List.dropWhile_suffix _
  unfold Cursor.recover at length suffix ⊢
  rw [joined.tokens]
  rcases joined.seam with none | meets
  · refine ⟨?_, joined.faults, length, .inl none⟩
    rw [none, List.append_nil, List.append_nil]
  · cases seam with
    | eof others =>
      exact ⟨kept (.inr rfl) c.tokens others, joined.faults, length,
        .inr fun t member => meets t (suffix.subset member)⟩
    | semicolon others =>
      obtain ⟨front, mark, tokens, kind⟩ := meets.2
      refine ⟨?_, joined.faults, length, .inr (Cursor.Ends.of_suffix meets suffix ?_)⟩
      · change (c.tokens ++ others).dropWhile _ = c.tokens.dropWhile _ ++ others
        rw [tokens, List.append_assoc, List.singleton_append, kept (.inl kind), kept (.inl kind),
          List.append_assoc, List.singleton_append]
      · change c.tokens.dropWhile _ ≠ []
        rw [tokens, kept (.inl kind)]
        exact List.concat_ne_nil mark _

end Joined

/-! ## Runs that agree -/

namespace Parse

/-- The outcomes of two runs agree: they are the same, at joined cursors, or the first run
has come to the end of its tokens in a block. -/
inductive Agree (seam : Seam) (before : Array Fault) (limit : Nat) (Post : Cursor → Prop)
    {α : Type} : EStateM.Result Fault Cursor α → EStateM.Result Fault Cursor α → Prop
  | ok {a : α} {c c' : Cursor} :
    Joined seam before limit c c' → Post c → Agree seam before limit Post (.ok a c) (.ok a c')
  | error {fault : Fault} {c c' : Cursor} :
    Joined seam before limit c c' →
    Agree seam before limit Post (.error fault c) (.error fault c')
  | lost {c : Cursor} {outcome : EStateM.Result Fault Cursor α} :
    seam.tokens ≠ [] → c.tokens = [] →
    Agree seam before limit Post (.error (.unexpected .rbrace .eof) c) outcome

/-- From joined cursors on, the routine agrees with itself. -/
structure Agrees {α : Type} (Pre Post : Cursor → Prop) (x : Parse α) : Prop where
  agree {seam : Seam} {before : Array Fault} {limit : Nat} {c c' : Cursor} :
    Joined seam before limit c c' → Pre c → Agree seam before limit Post (x c) (x c')

section Agree

variable {seam : Seam} {before : Array Fault} {limit limit' : Nat} {α β : Type}
  {Pre Pre' Post Post' : Cursor → Prop} {c c' : Cursor}

theorem Agree.mono {r r' : EStateM.Result Fault Cursor α}
    (agree : Agree seam before limit Post r r') (le : limit ≤ limit') :
    Agree seam before limit' Post r r' := by
  cases agree with
  | ok joined post => exact .ok (joined.mono le) post
  | error joined => exact .error (joined.mono le)
  | lost follow none => exact .lost follow none

theorem Agree.bind {x x' : Parse α} {f f' : α → Parse β}
    (first : Agree seam before limit Post (x c) (x' c'))
    (second : ∀ a d d', Joined seam before limit d d' → Post d →
      Agree seam before limit Post' (f a d) (f' a d')) :
    Agree seam before limit Post' ((x >>= f) c) ((x' >>= f') c') := by
  generalize outcome : x c = r at first
  generalize outcome' : x' c' = r' at first
  cases first with
  | ok joined post =>
    rw [bind_of_ok outcome, bind_of_ok outcome']
    exact second _ _ _ joined post
  | error joined =>
    rw [bind_of_error outcome, bind_of_error outcome']
    exact .error joined
  | lost follow none =>
    rw [bind_of_error outcome]
    exact .lost follow none

theorem Agrees.bind {x : Parse α} {f : α → Parse β} (first : Agrees Pre Post x)
    (second : ∀ a, Agrees Post Post' (f a)) : Agrees Pre Post' (x >>= f) := by
  constructor
  intro seam before limit c c' joined pre
  exact (first.agree joined pre).bind fun a d d' joined' post => (second a).agree joined' post

theorem Agrees.narrow {x : Parse α} (agrees : Agrees Pre Post x) (pre : ∀ c, Pre' c → Pre c) :
    Agrees Pre' Post x :=
  ⟨fun joined holds => agrees.agree joined (pre _ holds)⟩

theorem Agrees.weaken {x : Parse α} (agrees : Agrees Pre Post x) (post : ∀ c, Post c → Post' c) :
    Agrees Pre Post' x := by
  constructor
  intro seam before limit c c' joined pre
  have agree := agrees.agree joined pre
  generalize x c = r at agree
  generalize x c' = r' at agree
  cases agree with
  | ok joined' holds => exact .ok joined' (post _ holds)
  | error joined' => exact .error joined'
  | lost follow none => exact .lost follow none

/-- A routine that starts within. -/
theorem Agrees.on_token {kind : Kind} {t : Token} {x : Parse α}
    (agrees : Agrees Cursor.Within Post x) (same : t.kind = kind)
    (other : kind ≠ .semicolon ∧ kind ≠ .eof) :
    Agrees (fun c => Pre c ∧ c.current = t) Post x := by
  apply agrees.narrow
  rintro c ⟨_, rfl⟩
  exact Cursor.On.within same other

/-- A routine that ends on some other token is still within. -/
theorem Agrees.within {kind : Kind} {x : Parse α} (agrees : Agrees Pre (Cursor.On kind) x)
    (other : kind ≠ .semicolon ∧ kind ≠ .eof) : Agrees Pre Cursor.Within x :=
  agrees.weaken fun _ on => on.within other

theorem agrees_pure (a : α) : Agrees Pre Pre (pure a : Parse α) :=
  ⟨fun joined pre => .ok joined pre⟩

theorem agrees_throw (fault : Fault) : Agrees Pre Post (throw fault : Parse α) :=
  ⟨fun joined _ => .error joined⟩

/-- Both runs see the same token. -/
theorem agrees_current {f : Token → Parse α}
    (each : ∀ t, Agrees (fun c => Pre c ∧ c.current = t) Post (f t)) :
    Agrees Pre Post (current >>= f) := by
  constructor
  intro seam before limit c c' joined pre
  rw [current_bind, current_bind, joined.current_eq]
  exact (each c.current).agree joined ⟨pre, rfl⟩

/-- Within, both runs see the same token ahead. -/
theorem agrees_ahead {f : Kind → Parse α}
    (each : ∀ kind, Agrees (fun c => c.Within ∧ c.ahead = kind) Post (f kind)) :
    Agrees Cursor.Within Post (ahead >>= f) := by
  constructor
  intro seam before limit c c' joined within
  rw [ahead_bind, ahead_bind, joined.ahead_eq within]
  exact (each c.ahead).agree joined ⟨within, rfl⟩

theorem agrees_advance {kind : Kind} :
    Agrees (fun c => c.Within ∧ c.ahead = kind) (Cursor.On kind) advance :=
  ⟨fun joined pre => .ok ((joined.advance pre.1).mono (Nat.sub_le ..)) pre.2⟩

/-- A routine behind the next token. -/
theorem agrees_advance_bind {f : PUnit → Parse α} (behind : Agrees (fun _ => True) Post (f ⟨⟩)) :
    Agrees Cursor.Within Post (advance >>= f) := by
  constructor
  intro seam before limit c c' joined within
  exact behind.agree ((joined.advance within).mono (Nat.sub_le ..)) trivial

theorem agrees_expect (kind : Kind) : Agrees Cursor.Within (Cursor.On kind) (expect kind) := by
  apply agrees_ahead
  intro got
  split
  · rename_i found
    subst found
    exact agrees_advance
  · exact agrees_throw _

theorem agrees_semicolon : Agrees Cursor.Within Cursor.OnToken semicolon := by
  apply agrees_ahead
  intro got
  split
  · rename_i found
    subst found
    exact agrees_advance.weaken fun _ on ends => nomatch on.symm.trans ends
  · exact (agrees_pure _).narrow fun _ pre => pre.1.2

theorem agrees_identifier : Agrees Cursor.Within (Cursor.On .ident) identifier := by
  refine (agrees_expect .ident).bind fun _ => agrees_current fun t => ?_
  exact (agrees_pure _).narrow fun _ pre => pre.1

end Agree

end Parse

end Stacklet
