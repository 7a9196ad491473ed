import Stacklet.Proofs.Program.Joined
import Stacklet.Proofs.Program.Watched

/-!
# What an account has to say

Every routine takes the cursor on, and no statement is entered twice at one token: what is
entered inside a statement stands behind its first token, and what is entered after it stands
behind what it has read (`Passage`). `Observes` says so of one routine, in a form that composes,
together with all else that the account of its work contains. A loop ends because of the token
it comes to, since each pass takes at least one.
-/

namespace Stacklet

/-! ## Counting statements -/

mutual

/-- The number of statements in an expression, at all depths. -/
def Expr.statements : Expr → Nat
  | .name _ | .integer _ | .text _ | .boolean _ => 0
  | .unary _ operand => operand.statements
  | .binary _ left right => left.statements + right.statements
  | .conditional condition consequence alternative =>
    condition.statements + Stmt.statementsAll consequence + Stmt.statementsAlternative alternative
  | .function _ body => Stmt.statementsAll body
  | .call callee arguments => callee.statements + Expr.statementsAll arguments
  | .array items => Expr.statementsAll items
  | .index base subscript => base.statements + subscript.statements

/-- The number of statements in several expressions. -/
def Expr.statementsAll : List Expr → Nat
  | [] => 0
  | e :: rest => e.statements + Expr.statementsAll rest

/-- The number of statements in a statement, itself included. -/
def Stmt.statements : Stmt → Nat
  | .define _ value | .return value | .expr value => value.statements + 1

/-- The number of statements in a block. -/
def Stmt.statementsAll : List Stmt → Nat
  | [] => 0
  | s :: rest => s.statements + Stmt.statementsAll rest

/-- The number of statements in a second block, if there is one. -/
def Stmt.statementsAlternative : Option (List Stmt) → Nat
  | none => 0
  | some block => Stmt.statementsAll block

end

theorem Expr.statementsAll_append (es es' : List Expr) :
    Expr.statementsAll (es ++ es') = Expr.statementsAll es + Expr.statementsAll es' := by
  induction es with
  | nil => exact (Nat.zero_add _).symm
  | cons e es ih => rw [List.cons_append, statementsAll, statementsAll, ih, Nat.add_assoc]

theorem Stmt.statementsAll_append (ss ss' : List Stmt) :
    Stmt.statementsAll (ss ++ ss') = Stmt.statementsAll ss + Stmt.statementsAll ss' := by
  induction ss with
  | nil => exact (Nat.zero_add _).symm
  | cons s ss ih => rw [List.cons_append, statementsAll, statementsAll, ih, Nat.add_assoc]

theorem Expr.statementsAll_push (es : Array Expr) (e : Expr) :
    Expr.statementsAll (es.push e).toList = Expr.statementsAll es.toList + e.statements := by
  rw [Array.toList_push, statementsAll_append, statementsAll, statementsAll, Nat.add_zero]

theorem Stmt.statementsAll_push (ss : Array Stmt) (s : Stmt) :
    Stmt.statementsAll (ss.push s).toList = Stmt.statementsAll ss.toList + s.statements := by
  rw [Array.toList_push, statementsAll_append, statementsAll, statementsAll, Nat.add_zero]

theorem Stmt.statements_pos (s : Stmt) : 0 < s.statements := by
  cases s <;> exact Nat.succ_pos _

theorem Attempt.successes_append (attempts attempts' : List Attempt) :
    Attempt.successes (attempts ++ attempts') =
      Attempt.successes attempts + Attempt.successes attempts' := List.countP_append

/-- Each attempt comes to a statement or to a fault. -/
theorem Attempt.successes_add_faults (attempts : List Attempt) :
    Attempt.successes attempts + (attempts.filterMap Attempt.fault?).length = attempts.length := by
  induction attempts with
  | nil => rfl
  | cons a rest ih =>
    unfold Attempt.successes at ih ⊢
    rw [List.countP_cons, List.filterMap_cons, List.length_cons, ← ih]
    cases a.fault? with
    | none => simp; omega
    | some fault => simp; omega

namespace Watched

open Parse (Anywhere)

/-! ## From one state to another -/

/-- The cursor has moved on, and these attempts have ended meanwhile. They started at different
tokens behind the bound, which the cursor has left behind. No loop has run out of budget. -/
structure Passage (bound : Nat) (w w' : Watch) (new : List Attempt) : Prop where
  tokens : w'.cursor.tokens <:+ w.cursor.tokens
  attempts : w'.attempts = w.attempts ++ new
  faults : w'.cursor.faults.toList = w.cursor.faults.toList ++ new.filterMap Attempt.fault?
  starts : ∀ a ∈ new, w'.left < a.start ∧ a.start < bound
  apart : (new.map Attempt.start).Nodup
  starved : w'.starved = w.starved

section Passage

variable {bound bound' : Nat} {w w₁ w₂ w' : Watch} {new new' : List Attempt}

theorem Passage.left_le (passage : Passage bound w w' new) : w'.left ≤ w.left :=
  passage.tokens.length_le

theorem left_pos (onToken : w.cursor.OnToken) : 0 < w.left :=
  List.length_pos_iff.mpr onToken.ne_nil

/-- Only the cursor has moved. -/
theorem passage_onCursor {f : Cursor → Cursor} (tokens : (f w.cursor).tokens <:+ w.cursor.tokens)
    (faults : (f w.cursor).faults = w.cursor.faults) : Passage bound w (w.onCursor f) [] where
  tokens := tokens
  attempts := (List.append_nil _).symm
  faults := (congrArg Array.toList faults).trans (List.append_nil _).symm
  starts := nofun
  apart := .nil
  starved := rfl

theorem passage_advance (bound : Nat) (w : Watch) : Passage bound w (w.onCursor .advance) [] :=
  passage_onCursor (List.tail_suffix _) rfl

theorem passage_refl : Passage bound w w [] :=
  passage_onCursor (f := id) (List.suffix_refl _) rfl

/-- What comes second starts behind what came first. -/
theorem Passage.trans (first : Passage bound w w₁ new) (second : Passage bound' w₁ w₂ new')
    (le : bound' ≤ bound) (behind : bound' ≤ w₁.left + 1) : Passage bound w w₂ (new ++ new') where
  tokens := second.tokens.trans first.tokens
  attempts := by rw [second.attempts, first.attempts, List.append_assoc]
  faults := by rw [second.faults, first.faults, List.filterMap_append, List.append_assoc]
  starts a member := by
    rcases List.mem_append.mp member with old | late
    · have starts := first.starts a old
      exact ⟨Nat.lt_of_le_of_lt second.left_le starts.1, starts.2⟩
    · have starts := second.starts a late
      exact ⟨starts.1, Nat.lt_of_lt_of_le starts.2 le⟩
  apart := by
    rw [List.map_append]
    refine List.nodup_append.mpr ⟨first.apart, second.apart, fun start old start' late => ?_⟩
    obtain ⟨a, member, rfl⟩ := List.mem_map.mp old
    obtain ⟨a', member', rfl⟩ := List.mem_map.mp late
    have above := (first.starts a member).1
    have below := (second.starts a' member').2
    omega
  starved := second.starved.trans first.starved

/-- A statement is over, and the cursor has left its first token behind. -/
theorem Passage.log (passage : Passage w.left w w₁ new) (outcome : Except Fault Stmt)
    {c : Cursor} (tokens : c.tokens <:+ w₁.cursor.tokens) (less : c.tokens.length < w.left)
    (faults : c.faults.toList =
      w₁.cursor.faults.toList ++ (Attempt.fault? ⟨w.left, outcome⟩).toList) :
    Passage (w.left + 1) w ((w₁.log ⟨w.left, outcome⟩).onCursor fun _ => c)
      (new ++ [⟨w.left, outcome⟩]) where
  tokens := tokens.trans passage.tokens
  attempts := by
    change w₁.attempts ++ _ = _
    rw [passage.attempts, List.append_assoc]
  faults := by
    change c.faults.toList = _
    rw [faults, passage.faults, List.filterMap_append, List.append_assoc]
    cases outcome <;> rfl
  starts a member := by
    rcases List.mem_append.mp member with old | last
    · have starts := passage.starts a old
      exact ⟨Nat.lt_of_le_of_lt tokens.length_le starts.1, Nat.lt_succ_of_lt starts.2⟩
    · rw [List.mem_singleton.mp last]
      exact ⟨less, Nat.lt_succ_self _⟩
  apart := by
    rw [List.map_append]
    refine List.nodup_append.mpr ⟨passage.apart, List.pairwise_singleton .., ?_⟩
    intro start old start' last
    obtain ⟨a, member, rfl⟩ := List.mem_map.mp old
    rw [List.mem_singleton.mp last]
    exact Nat.ne_of_lt (passage.starts a member).2
  starved := passage.starved

end Passage

/-! ## Routines under observation -/

section Observes

variable {α β : Type} {debt credit : Nat} {weight : α → Nat} {weight' : β → Nat}
  {Pre Pre' Mid Post : Cursor → Prop} {w w₁ : Watch}

/-- The outcome of a routine, and the one under observation. They are the same. The attempts on
the way started behind the token that the routine starts on. Each expression that was opened has
cost a token, except for the debt, and each statement in the result comes from an attempt, except
for the credit. -/
inductive Observed (debt credit : Nat) (weight : α → Nat) (Post : Cursor → Prop) (w : Watch) :
    EStateM.Result Fault Cursor α → EStateM.Result Fault Watch α → Prop
  | ok {a : α} {w' : Watch} {new : List Attempt} :
    Passage w.left w w' new → w'.opened + w'.left ≤ w.opened + w.left + debt →
    weight a ≤ credit + Attempt.successes new → Post w'.cursor →
    Observed debt credit weight Post w (.ok a w'.cursor) (.ok a w')
  | error {fault : Fault} {w' : Watch} {new : List Attempt} :
    Passage w.left w w' new → w'.opened + w'.left ≤ w.opened + w.left + debt →
    Observed debt credit weight Post w (.error fault w'.cursor) (.error fault w')

/-- The second routine does what the first one does, and keeps the account. -/
structure Observes (debt credit : Nat) (weight : α → Nat) (Pre Post : Cursor → Prop)
    (x : Parse α) (y : Watched α) : Prop where
  observed {w : Watch} : Pre w.cursor → Observed debt credit weight Post w (x w.cursor) (y w)

/-- What is observed from a later state on, in view of what has been paid until there. -/
theorem Observed.later {debt' credit' : Nat} {new : List Attempt}
    {r : EStateM.Result Fault Cursor α} {r' : EStateM.Result Fault Watch α}
    (first : Passage w.left w w₁ new)
    (paid : w₁.opened + w₁.left + debt' ≤ w.opened + w.left + debt)
    (read : credit' ≤ credit + Attempt.successes new)
    (observed : Observed debt' credit' weight Post w₁ r r') :
    Observed debt credit weight Post w r r' := by
  cases observed with
  | ok second opened counted post =>
    refine .ok (first.trans second first.left_le (Nat.le_succ _)) (by omega) ?_ post
    rw [Attempt.successes_append]
    omega
  | error second opened =>
    exact .error (first.trans second first.left_le (Nat.le_succ _)) (by omega)

theorem Observed.bind {x : Parse α} {y : Watched α} {f : α → Parse β} {g : α → Watched β}
    (first : Observed debt credit weight Mid w (x w.cursor) (y w))
    (second : ∀ a w₁, w₁.left ≤ w.left → Mid w₁.cursor →
      Observed 0 (weight a) weight' Post w₁ (f a w₁.cursor) (g a w₁)) :
    Observed debt credit weight' Post w ((x >>= f) w.cursor) ((y >>= g) w) := by
  generalize outcome : x w.cursor = r at first
  generalize outcome' : y w = r' at first
  cases first with
  | ok passage opened counted mid =>
    rw [bind_of_ok outcome, bind_of_ok outcome']
    exact (second _ _ passage.left_le mid).later passage opened counted
  | error passage opened =>
    rw [bind_of_error outcome, bind_of_error outcome']
    exact .error passage opened

theorem Observes.bind {x : Parse α} {y : Watched α} {f : α → Parse β} {g : α → Watched β}
    (first : Observes debt credit weight Pre Mid x y)
    (second : ∀ a, Observes 0 (weight a) weight' Mid Post (f a) (g a)) :
    Observes debt credit weight' Pre Post (x >>= f) (y >>= g) :=
  ⟨fun pre => (first.observed pre).bind fun a _ _ mid => (second a).observed mid⟩

theorem Observes.narrow {x : Parse α} {y : Watched α}
    (observes : Observes debt credit weight Pre Post x y) (pre : ∀ c, Pre' c → Pre c) :
    Observes debt credit weight Pre' Post x y :=
  ⟨fun holds => observes.observed (pre _ holds)⟩

theorem Observes.anywhere {x : Parse α} {y : Watched α}
    (observes : Observes debt credit weight Pre Post x y) :
    Observes debt credit weight Pre Anywhere x y := by
  constructor
  intro w pre
  have observed := observes.observed pre
  generalize x w.cursor = r at observed
  generalize y w = r' at observed
  cases observed with
  | ok passage opened counted _ => exact .ok passage opened counted trivial
  | error passage opened => exact .error passage opened

theorem Observes.loosen {debt' : Nat} {x : Parse α} {y : Watched α}
    (observes : Observes debt credit weight Pre Post x y) (le : debt ≤ debt') :
    Observes debt' credit weight Pre Post x y :=
  ⟨fun pre => (observes.observed pre).later passage_refl (Nat.add_le_add_left le _)
    (Nat.le_add_right ..)⟩

/-- What was counted before is counted as well. -/
theorem Observes.frame {x : Parse α} {y : Watched α}
    (observes : Observes debt credit weight Pre Post x y) (before : Nat) :
    Observes debt (before + credit) (fun a => before + weight a) Pre Post x y := by
  constructor
  intro w pre
  have observed := observes.observed pre
  generalize x w.cursor = r at observed
  generalize y w = r' at observed
  cases observed with
  | ok passage opened counted post => exact .ok passage opened (by omega) post
  | error passage opened => exact .error passage opened

/-- A routine that starts on a token of some kind. -/
theorem Observes.on_token {kind : Kind} {t : Token} {x : Parse α} {y : Watched α}
    (observes : Observes debt credit weight Cursor.OnToken Post x y) (same : t.kind = kind)
    (inside : kind ≠ .eof) :
    Observes debt credit weight (fun c => Pre c ∧ c.current = t) Post x y := by
  refine observes.narrow fun c pre ends => inside ?_
  rw [← same, ← pre.2, ends]

theorem observes_pure {a : α} (counted : weight a ≤ credit) :
    Observes debt credit weight Pre Pre (pure a) (pure a) :=
  ⟨fun pre => .ok passage_refl (Nat.le_add_right ..) counted pre⟩

theorem observes_throw (fault : Fault) :
    Observes debt credit weight Pre Post (throw fault) (throw fault) :=
  ⟨fun _ => .error passage_refl (Nat.le_add_right ..)⟩

theorem observes_current {f : Token → Parse α} {g : Token → Watched α}
    (each : ∀ t, Observes debt credit weight (fun c => Pre c ∧ c.current = t) Post (f t) (g t)) :
    Observes debt credit weight Pre Post (Parse.current >>= f) (plain Parse.current >>= g) :=
  ⟨fun {w} pre => (each w.cursor.current).observed ⟨pre, rfl⟩⟩

theorem observes_ahead {f : Kind → Parse α} {g : Kind → Watched α}
    (each : ∀ kind, Observes debt credit weight (fun c => Pre c ∧ c.ahead = kind) Post
      (f kind) (g kind)) :
    Observes debt credit weight Pre Post (Parse.ahead >>= f) (plain Parse.ahead >>= g) :=
  ⟨fun {w} pre => (each w.cursor.ahead).observed ⟨pre, rfl⟩⟩

/-- Moving on costs nothing. -/
theorem Observed.advance {r : EStateM.Result Fault Cursor α} {r' : EStateM.Result Fault Watch α}
    (observed : Observed debt credit weight Post (w.onCursor .advance) r r') :
    Observed debt credit weight Post w r r' := by
  have behind := passage_advance w.left w
  have less : w.opened + (w.onCursor .advance).left + debt ≤ w.opened + w.left + debt :=
    Nat.add_le_add_right (Nat.add_le_add_left behind.left_le _) _
  exact observed.later behind less (Nat.le_add_right ..)

theorem observes_advance_bind {f : PUnit → Parse α} {g : PUnit → Watched α}
    (behind : Observes debt credit weight Anywhere Post (f ⟨⟩) (g ⟨⟩)) :
    Observes debt credit weight Pre Post (Parse.advance >>= f) (plain Parse.advance >>= g) :=
  ⟨fun {w} _ => (behind.observed (w := w.onCursor .advance) trivial).advance⟩

/-- Moving off a token pays for one expression. -/
theorem observes_advance_paid {f : PUnit → Parse α} {g : PUnit → Watched α}
    (behind : Observes 1 credit weight Anywhere Post (f ⟨⟩) (g ⟨⟩)) :
    Observes 0 credit weight Cursor.OnToken Post (Parse.advance >>= f)
      (plain Parse.advance >>= g) := by
  constructor
  intro w onToken
  have some : 0 < w.cursor.tokens.length := left_pos onToken
  refine (behind.observed trivial).later (passage_advance ..) (Nat.le_of_eq ?_)
    (Nat.le_add_right ..)
  change w.opened + (w.cursor.tokens.tail).length + 1 = w.opened + w.cursor.tokens.length
  rw [List.length_tail]
  omega

/-- A step that moves on, or fails where it is. -/
theorem observes_plain {x : Parse α}
    (steps : ∀ c,
      (∃ a c', x c = .ok a c' ∧ c'.tokens <:+ c.tokens ∧ c'.faults = c.faults ∧ Post c') ∨
        ∃ fault, x c = .error fault c) :
    Observes debt credit (fun _ => credit) Pre Post x (plain x) := by
  constructor
  intro w _
  unfold plain
  rcases steps w.cursor with ⟨a, c, done, tokens, faults, post⟩ | ⟨fault, failed⟩
  · have passage : Passage w.left w (w.onCursor fun _ => c) [] := passage_onCursor tokens faults
    rw [done]
    exact .ok passage (Nat.le_add_right_of_le (Nat.add_le_add_left passage.left_le _))
      (Nat.le_add_right ..) post
  · rw [failed]
    exact .error passage_refl (Nat.le_add_right ..)

theorem expect_cases {kind : Kind} (inside : kind ≠ .eof) (c : Cursor) :
    (Parse.expect kind c = .ok ⟨⟩ c.advance ∧ c.advance.OnToken) ∨
      ∃ fault, Parse.expect kind c = .error fault c := by
  unfold Parse.expect
  rw [Parse.ahead_bind]
  split
  · rename_i found
    exact .inl ⟨rfl, fun ends => inside (found.symm.trans ends)⟩
  · exact .inr ⟨_, rfl⟩

theorem observes_expect {kind : Kind} (inside : kind ≠ .eof) :
    Observes debt credit (fun _ => credit) Pre Cursor.OnToken (Parse.expect kind)
      (plain (Parse.expect kind)) := by
  refine observes_plain fun c => ?_
  rcases expect_cases inside c with ⟨done, onToken⟩ | failed
  · exact .inl ⟨_, _, done, List.tail_suffix _, rfl, onToken⟩
  · exact .inr failed

theorem observes_identifier :
    Observes debt credit (fun _ => credit) Pre Cursor.OnToken Parse.identifier
      (plain Parse.identifier) := by
  refine observes_plain fun c => ?_
  unfold Parse.identifier
  rcases expect_cases (by decide : Kind.ident ≠ .eof) c with ⟨done, onToken⟩ | ⟨fault, failed⟩
  · rw [bind_of_ok done]
    exact .inl ⟨_, _, rfl, List.tail_suffix _, rfl, onToken⟩
  · rw [bind_of_error failed]
    exact .inr ⟨fault, rfl⟩

theorem observes_semicolon :
    Observes debt credit (fun _ => credit) Pre Anywhere Parse.semicolon
      (plain Parse.semicolon) := by
  refine observes_plain fun c => .inl ?_
  unfold Parse.semicolon
  rw [Parse.ahead_bind]
  split
  · exact ⟨_, _, rfl, List.tail_suffix _, rfl, trivial⟩
  · exact ⟨_, _, rfl, List.suffix_refl _, rfl, trivial⟩

end Observes

/-! ## Loops -/

section Loops

variable {α β : Type} {weight : α → Nat} {loop : List Token → α → Parse α}
  {pass? : Kind → Option (α → Parse α)} {watched? : Kind → Option (α → Watched α)}

/-- The two loops make the same passes, each of which pays for what it opens. -/
structure Paired (weight : α → Nat) (pass? : Kind → Option (α → Parse α))
    (watched? : Kind → Option (α → Watched α)) : Prop where
  stops {kind : Kind} : pass? kind = none → watched? kind = none
  goes {kind : Kind} {pass : α → Parse α} : pass? kind = some pass →
    ∃ watched, watched? kind = some watched ∧
      ∀ a, Observes 0 (weight a) weight Cursor.OnToken Anywhere (pass a) (watched a)

/-- Two loops over what is behind commas. -/
theorem paired_of_comma {pass : α → Parse α} {watched : α → Watched α}
    (observes : ∀ a, Observes 0 (weight a) weight Cursor.OnToken Anywhere (pass a) (watched a)) :
    Paired weight (fun kind => if kind = .comma then some pass else none)
      (behindComma watched) where
  stops {kind} none := by
    unfold behindComma
    split
    · rename_i comma
      rw [if_pos comma] at none
      cases none
    · rfl
  goes taken := by
    obtain ⟨comma, ⟨⟩⟩ := Option.ite_none_right_eq_some.mp taken
    exact ⟨watched, if_pos comma, observes⟩

theorem ahead_bind {f : Kind → Watched β} {w : Watch} :
    ((liftM Parse.ahead : Watched Kind) >>= f) w = f w.cursor.ahead w := rfl

theorem loop_of_stop {a : α} {w : Watch} (budget : List Token)
    (stop : watched? w.cursor.ahead = none) : Watched.loop watched? budget a w = .ok a w := by
  cases budget <;> rw [Watched.loop, ahead_bind, stop] <;> rfl

theorem loop_of_pass {a : α} {w : Watch} {b : Token} {budget : List Token} {pass : α → Watched α}
    (taken : watched? w.cursor.ahead = some pass) :
    Watched.loop watched? (b :: budget) a w =
      (pass a >>= Watched.loop watched? budget) (w.onCursor .advance) := by
  rw [Watched.loop, ahead_bind, taken]
  rfl

/-- Each pass takes a token, so the loop comes to its end before the budget does. -/
theorem observed_loop (loops : Parse.Loops loop pass?) (paired : Paired weight pass? watched?)
    {budget : List Token} {a : α} {w : Watch} (enough : w.left ≤ budget.length) :
    Observed 0 (weight a) weight Anywhere w (loop budget a w.cursor)
      (Watched.loop watched? budget a w) := by
  induction budget generalizing a w with
  | nil =>
    -- No token is left, so the end is ahead and no pass would be made.
    have atEnd : w.cursor.ahead = .eof := by
      rw [Cursor.ahead, List.length_eq_zero_iff.mp (Nat.le_zero.mp enough)]
      rfl
    have stop : pass? w.cursor.ahead = none :=
      Option.eq_none_iff_forall_ne_some.mpr fun pass taken => (loops.inside taken).2.2 atEnd
    rw [loops.stops stop, loop_of_stop [] (paired.stops stop)]
    exact .ok passage_refl (Nat.le_refl _) (Nat.le_add_right ..) trivial
  | cons b budget ih =>
    cases taken : pass? w.cursor.ahead with
    | none =>
      rw [loops.stops taken, loop_of_stop (b :: budget) (paired.stops taken)]
      exact .ok passage_refl (Nat.le_refl _) (Nat.le_add_right ..) trivial
    | some pass =>
      obtain ⟨watched, taken', observes⟩ := paired.goes taken
      rw [loops.goes taken, loop_of_pass taken']
      have onToken : w.cursor.advance.OnToken := (loops.inside taken).2.2
      have less : (w.onCursor .advance).left ≤ budget.length := Cursor.length_advance_le enough
      refine (((observes a).observed onToken).bind fun longer w₁ le _ => ?_).advance
      exact ih (Nat.le_trans le less)

/-- A loop whose budget is what the cursor has in front of it, and what follows the loop. -/
theorem observes_loop (loops : Parse.Loops loop pass?) (paired : Paired weight pass? watched?)
    {weight' : β → Nat} {Pre Post : Cursor → Prop} {a : α} {f : α → Parse β} {g : α → Watched β}
    (behind : ∀ a, Observes 0 (weight a) weight' Anywhere Post (f a) (g a)) :
    Observes 0 (weight a) weight' Pre Post (do f (← loop (← get).tokens a))
      (do g (← Watched.loop watched? (← get).cursor.tokens a)) :=
  ⟨fun _ => (observed_loop loops paired (Nat.le_refl _)).bind fun a _ _ _ =>
    (behind a).observed trivial⟩

end Loops

end Watched

end Stacklet
