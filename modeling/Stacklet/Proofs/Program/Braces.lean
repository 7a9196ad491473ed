import Stacklet.Proofs.Program.Attempts
import Stacklet.Proofs.Program.Lasting

/-!
# Braces

Where a block ends depends on how the braces inside it are taken. A block takes its two braces
together, and no other routine that succeeds takes any. So behind what has been read as many
braces are open as blocks are, unless some broken statement has been given up between the
braces of a pair (`Attempt.Contained`). There are three ways to stand at a token: it may be read
next (`Fresh`), it has been read (`Used`), or it has been read and opens a block (`Opened`).

`Keeps` says so of one routine, in a form that composes. It accounts for the tokens spent since
some place further ahead, and for the attempts made since then.
-/

namespace Stacklet

/-! ## Depth -/

namespace Token

/-- How many braces are open behind a token, if so many are open in front of it. None must be
closed that was not opened. -/
def deepen (k : Nat) (t : Token) : Option Nat :=
  match t.kind, k with
  | .lbrace, k => some (k + 1)
  | .rbrace, 0 => none
  | .rbrace, k + 1 => some k
  | _, k => some k

/-- How many braces are open behind some tokens, if so many are open in front of them. -/
def depth (k : Nat) (ts : List Token) : Option Nat := ts.foldlM deepen k

/-- Each brace has its counterpart. -/
def Balanced (ts : List Token) : Prop := depth 0 ts = some 0

instance (ts : List Token) : Decidable (Balanced ts) := inferInstanceAs (Decidable (_ = _))

section Depth

variable {t : Token} {ts us : List Token} {i j k : Nat}

theorem deepen_lbrace (opens : t.kind = .lbrace) (k : Nat) : deepen k t = some (k + 1) := by
  unfold deepen
  rw [opens]

theorem deepen_rbrace (closes : t.kind = .rbrace) (k : Nat) : deepen (k + 1) t = some k := by
  unfold deepen
  rw [closes]

theorem deepen_zero (closes : t.kind = .rbrace) : deepen 0 t = none := by
  unfold deepen
  rw [closes]

theorem deepen_other (notOpen : t.kind ≠ .lbrace) (notClose : t.kind ≠ .rbrace) (k : Nat) :
    deepen k t = some k := by
  unfold deepen
  split <;> first | contradiction | rfl

theorem depth_append (k : Nat) (ts us : List Token) :
    depth k (ts ++ us) = (depth k ts).bind fun j => depth j us := List.foldlM_append

theorem depth_cons (k : Nat) (t : Token) (ts : List Token) :
    depth k (t :: ts) = (deepen k t).bind fun j => depth j ts := List.foldlM_cons

theorem depth_singleton (k : Nat) (t : Token) : depth k [t] = deepen k t := by
  rw [depth_cons]
  cases deepen k t <;> rfl

theorem deepen_add (deeper : deepen k t = some j) (i : Nat) :
    deepen (k + i) t = some (j + i) := by
  by_cases opens : t.kind = .lbrace
  · rw [deepen_lbrace opens] at deeper ⊢
    cases deeper
    rw [Nat.add_right_comm]
  by_cases closes : t.kind = .rbrace
  · cases k with
    | zero =>
      rw [deepen_zero closes] at deeper
      cases deeper
    | succ k =>
      rw [deepen_rbrace closes] at deeper
      cases deeper
      rw [Nat.add_right_comm, deepen_rbrace closes]
  · rw [deepen_other opens closes] at deeper ⊢
    cases deeper
    rfl

/-- Braces that are open in front stay open. -/
theorem depth_add (deeper : depth k ts = some j) (i : Nat) : depth (k + i) ts = some (j + i) := by
  induction ts generalizing k with
  | nil =>
    cases deeper
    rfl
  | cons t ts ih =>
    rw [depth_cons] at deeper ⊢
    obtain ⟨k', first, rest⟩ := Option.bind_eq_some_iff.mp deeper
    rw [deepen_add first i]
    exact ih rest

theorem depth_behind (deeper : depth 0 ts = some j) (k : Nat) : depth k ts = some (k + j) := by
  have shifted := depth_add deeper k
  rwa [Nat.zero_add, Nat.add_comm] at shifted

theorem depth_trans (first : depth 0 ts = some j) (second : depth 0 us = some k) :
    depth 0 (ts ++ us) = some (j + k) := by
  rw [depth_append, first, Option.bind_some, depth_behind second]

/-- As long as no brace is closed, the depth is a number. -/
theorem exists_depth (noClose : ∀ t ∈ ts, t.kind ≠ .rbrace) (k : Nat) :
    ∃ j, depth k ts = some j := by
  induction ts generalizing k with
  | nil => exact ⟨k, rfl⟩
  | cons t ts ih =>
    have notClose := noClose t List.mem_cons_self
    have rest (k : Nat) := ih (fun s member => noClose s (List.mem_cons_of_mem t member)) k
    rw [depth_cons]
    by_cases opens : t.kind = .lbrace
    · rw [deepen_lbrace opens]
      exact rest (k + 1)
    · rw [deepen_other opens notClose]
      exact rest k

end Depth

end Token

/-! ## Broken statements -/

/-- What is given up with a broken statement of a block, from its first token up to the place
where reading goes on; nothing, if the statement can be read. -/
def Attempt.dropped? (ts : List Token) (attempt : Attempt) : Option (List Token) :=
  let left := ts.drop (ts.length - attempt.start)
  match Parse.statement (Parse.expression maxNesting) (.ofTokens left) with
  | .ok _ _ => none
  | .error _ c => some (left.take (left.length - (c.recover .block).tokens.length))

/-- What is given up takes its braces in pairs. -/
def Attempt.Contained (ts : List Token) (attempt : Attempt) : Prop :=
  ∀ us ∈ attempt.dropped? ts, Token.Balanced us

instance (ts : List Token) (attempt : Attempt) : Decidable (attempt.Contained ts) :=
  inferInstanceAs (Decidable (∀ us ∈ attempt.dropped? ts, _))

namespace Watched

/-! ## What has been spent -/

/-- It has been recorded that expressions nest too deeply. -/
def Deep (w : Watch) : Prop := .nestingTooDeep ∈ w.cursor.faults

/-- While these tokens were spent, these attempts were made. So many braces are open behind the
tokens, which is none just if all broken statements were contained. -/
structure Reckoned (ts : List Token) (old now : List Attempt) (spent : List Token)
    (new : List Attempt) (k : Nat) : Prop where
  attempts : now = old ++ new
  depth : Token.depth 0 spent = some k
  contained : k = 0 ↔ ∀ a ∈ new, a.Contained ts

/-- The token that the cursor stands on has not been spent yet. -/
def Fresh (ts : List Token) (o w : Watch) : Prop :=
  ∃ spent new k, o.cursor.tokens = spent ++ w.cursor.tokens ∧
    Reckoned ts o.attempts w.attempts spent new k

/-- The token that the cursor stands on has been spent as well. -/
def Used (ts : List Token) (o w : Watch) : Prop :=
  ∃ spent t rest new k, o.cursor.tokens = spent ++ t :: rest ∧ w.cursor.tokens = t :: rest ∧
    t.kind ≠ .lbrace ∧ Reckoned ts o.attempts w.attempts (spent ++ [t]) new k

/-- The cursor stands on the opening brace of a block. -/
def Opened (ts : List Token) (o w : Watch) : Prop :=
  ∃ spent t rest new k, o.cursor.tokens = spent ++ t :: rest ∧ w.cursor.tokens = t :: rest ∧
    t.kind = .lbrace ∧ Reckoned ts o.attempts w.attempts spent new k

/-- The cursor stands where a routine has given up, on a token that it may have spent. -/
def Broken (ts : List Token) (o w : Watch) : Prop :=
  ∃ spent new k, o.cursor.tokens = spent ++ w.cursor.tokens ∧ w.attempts = o.attempts ++ new ∧
    Token.depth 0 spent = some k ∧ (k = 0 → ∀ a ∈ new, a.Contained ts)

section States

variable {ts spent : List Token} {o w w' : Watch} {new : List Attempt} {k : Nat}

theorem fresh_refl (ts : List Token) (w : Watch) : Fresh ts w w :=
  ⟨[], [], 0, rfl, (List.append_nil _).symm, rfl, iff_of_true rfl nofun⟩

theorem Reckoned.trans {old mid now : List Attempt} {spent' : List Token} {new' : List Attempt}
    {k' : Nat} (first : Reckoned ts old mid spent new k)
    (second : Reckoned ts mid now spent' new' k') :
    Reckoned ts old now (spent ++ spent') (new ++ new') (k + k') where
  attempts := by rw [second.attempts, first.attempts, List.append_assoc]
  depth := Token.depth_trans first.depth second.depth
  contained := by
    rw [Nat.add_eq_zero_iff, first.contained, second.contained, List.forall_mem_append]

theorem Fresh.trans (first : Fresh ts o w) (second : Fresh ts w w') : Fresh ts o w' := by
  obtain ⟨spent, new, k, tokens, reckoned⟩ := first
  obtain ⟨spent', new', k', tokens', reckoned'⟩ := second
  exact ⟨spent ++ spent', new ++ new', k + k', by rw [tokens, tokens', List.append_assoc],
    reckoned.trans reckoned'⟩

theorem Fresh.broken (fresh : Fresh ts o w) : Broken ts o w := by
  obtain ⟨spent, new, k, tokens, reckoned⟩ := fresh
  exact ⟨spent, new, k, tokens, reckoned.attempts, reckoned.depth, reckoned.contained.mp⟩

/-- If it is a closing brace, one more is open in front of it. -/
theorem Used.broken (used : Used ts o w) : Broken ts o w := by
  obtain ⟨spent, t, rest, new, k, tokens, left, notOpen, reckoned⟩ := used
  have deeper := reckoned.depth
  rw [Token.depth_append] at deeper
  obtain ⟨j, front, last⟩ := Option.bind_eq_some_iff.mp deeper
  rw [Token.depth_singleton] at last
  refine ⟨spent, new, j, left ▸ tokens, reckoned.attempts, front, ?_⟩
  rintro rfl
  refine reckoned.contained.mp ?_
  by_cases closes : t.kind = .rbrace
  · rw [Token.deepen_zero closes] at last
    cases last
  · rw [Token.deepen_other notOpen closes] at last
    exact (Option.some.inj last).symm

theorem Used.advance (used : Used ts o w) : Fresh ts o (w.onCursor .advance) := by
  obtain ⟨spent, t, rest, new, k, tokens, left, _, reckoned⟩ := used
  refine ⟨spent ++ [t], new, k, ?_, reckoned⟩
  change _ = _ ++ w.cursor.tokens.tail
  rw [tokens, left, List.append_assoc]
  rfl

/-- A token that is no brace, and not the end. -/
def Inert (kind : Kind) : Prop := kind ≠ .lbrace ∧ kind ≠ .rbrace ∧ kind ≠ .eof

instance (kind : Kind) : Decidable (Inert kind) := inferInstanceAs (Decidable (_ ∧ _ ∧ _))

theorem Fresh.used (fresh : Fresh ts o w) (inert : Inert w.cursor.current.kind) : Used ts o w := by
  obtain ⟨spent, new, k, tokens, reckoned⟩ := fresh
  have left := (Parse.tokens_of_current inert.2.2 rfl).2
  refine ⟨spent, _, _, new, k, left ▸ tokens, left, inert.1, reckoned.attempts, ?_,
    reckoned.contained⟩
  rw [Token.depth_append, reckoned.depth, Option.bind_some, Token.depth_singleton,
    Token.deepen_other inert.1 inert.2.1]

theorem Fresh.opened (fresh : Fresh ts o w) (opens : w.cursor.current.kind = .lbrace) :
    Opened ts o w := by
  obtain ⟨spent, new, k, tokens, reckoned⟩ := fresh
  have left := (Parse.tokens_of_current (by decide) opens).2
  exact ⟨spent, _, _, new, k, left ▸ tokens, left, opens, reckoned⟩

/-- Behind a token that is skipped, and at the end. -/
theorem Fresh.advance (fresh : Fresh ts o w) (notOpen : w.cursor.current.kind ≠ .lbrace)
    (notClose : w.cursor.current.kind ≠ .rbrace) : Fresh ts o (w.onCursor .advance) := by
  obtain ⟨spent, new, k, tokens, reckoned⟩ := fresh
  unfold Cursor.current at notOpen notClose
  cases left : w.cursor.tokens with
  | nil =>
    refine ⟨spent, new, k, ?_, reckoned⟩
    change _ = _ ++ w.cursor.tokens.tail
    rw [tokens, left]
    rfl
  | cons t rest =>
    rw [left, List.headD_cons] at notOpen notClose
    refine ⟨spent ++ [t], new, k, ?_, reckoned.attempts, ?_, reckoned.contained⟩
    · change _ = _ ++ w.cursor.tokens.tail
      rw [tokens, left, List.append_assoc]
      rfl
    · rw [Token.depth_append, reckoned.depth, Option.bind_some, Token.depth_singleton,
        Token.deepen_other notOpen notClose]

theorem Used.log {attempt : Attempt} (used : Used ts o w) (contained : attempt.Contained ts) :
    Used ts o (w.log attempt) := by
  obtain ⟨spent, t, rest, new, k, tokens, left, notOpen, reckoned⟩ := used
  refine ⟨spent, t, rest, new ++ [attempt], k, tokens, left, notOpen, ?_, reckoned.depth, ?_⟩
  · change w.attempts ++ [attempt] = _
    rw [reckoned.attempts, List.append_assoc]
  · rw [reckoned.contained, List.forall_mem_append, List.forall_mem_singleton]
    exact (and_iff_left contained).symm

end States

/-! ## Routines -/

/-- A routine leads from one assertion to the other, or it gives up somewhere, or expressions nest
too deeply. If that has been recorded before, nothing is said but that it stays so. -/
structure Keeps (ts : List Token) (o : Watch) (Pre Post : Watch → Prop) {α : Type}
    (y : Watched α) : Prop where
  ok {w w' : Watch} {a : α} : Deep w ∨ Pre w → y w = .ok a w' → Deep w' ∨ Post w'
  error {w w' : Watch} {fault : Fault} : Deep w ∨ Pre w → y w = .error fault w' →
    fault = .nestingTooDeep ∨ Deep w' ∨ Broken ts o w'

section Keeps

variable {α β : Type} {ts : List Token} {o : Watch} {Pre Pre' Mid Post : Watch → Prop}

theorem Keeps.bind {y : Watched α} {g : α → Watched β} (first : Keeps ts o Pre Mid y)
    (second : ∀ a, Keeps ts o Mid Post (g a)) : Keeps ts o Pre Post (y >>= g) where
  ok pre done := by
    obtain ⟨a, w₁, done₁, rest⟩ := bind_eq_ok.mp done
    exact (second a).ok (first.ok pre done₁) rest
  error pre failed := by
    rcases bind_eq_error.mp failed with failed₁ | ⟨a, w₁, done₁, rest⟩
    · exact first.error pre failed₁
    · exact (second a).error (first.ok pre done₁) rest

theorem Keeps.narrow {y : Watched α} (keeps : Keeps ts o Pre Post y)
    (pre : ∀ w, Pre' w → Pre w) : Keeps ts o Pre' Post y where
  ok holds done := keeps.ok (holds.imp_right (pre _)) done
  error holds failed := keeps.error (holds.imp_right (pre _)) failed

theorem keeps_pure (a : α) : Keeps ts o Pre Pre (pure a) where
  ok pre done := by
    obtain ⟨_, rfl⟩ := pure_eq_ok.mp done
    exact pre
  error _ failed := (pure_ne_error failed).elim

theorem keeps_throw {fault : Fault} (broken : ∀ w, Pre w → Broken ts o w) :
    Keeps ts o Pre Post (throw fault : Watched α) where
  ok _ done := (throw_ne_ok done).elim
  error pre failed := by
    obtain ⟨_, rfl⟩ := throw_eq_error.mp failed
    exact .inr (pre.imp_right (broken _))

theorem keeps_tooDeep : Keeps ts o Pre Post (throw .nestingTooDeep : Watched α) where
  ok _ done := (throw_ne_ok done).elim
  error _ failed := .inl (throw_eq_error.mp failed).1.symm

theorem keeps_current {g : Token → Watched α}
    (each : ∀ t, Keeps ts o (fun w => Pre w ∧ w.cursor.current = t) Post (g t)) :
    Keeps ts o Pre Post (plain Parse.current >>= g) where
  ok {w} _ _ pre done := (each w.cursor.current).ok (pre.imp_right fun holds => ⟨holds, rfl⟩) done
  error {w} _ _ pre failed :=
    (each w.cursor.current).error (pre.imp_right fun holds => ⟨holds, rfl⟩) failed

theorem keeps_ahead {g : Kind → Watched α}
    (each : ∀ kind, Keeps ts o (fun w => Pre w ∧ w.cursor.ahead = kind) Post (g kind)) :
    Keeps ts o Pre Post (plain Parse.ahead >>= g) where
  ok {w} _ _ pre done := (each w.cursor.ahead).ok (pre.imp_right fun holds => ⟨holds, rfl⟩) done
  error {w} _ _ pre failed :=
    (each w.cursor.ahead).error (pre.imp_right fun holds => ⟨holds, rfl⟩) failed

/-- A routine that starts on a token of some kind, which is no brace. -/
theorem Keeps.on_token {kind : Kind} {t : Token} {y : Watched α}
    (keeps : Keeps ts o (Used ts o) Post y) (same : t.kind = kind) (inert : Inert kind) :
    Keeps ts o (fun w => Fresh ts o w ∧ w.cursor.current = t) Post y := by
  refine keeps.narrow fun w pre => pre.1.used ?_
  rw [pre.2, same]
  exact inert

theorem keeps_get {g : Watch → Watched α} (each : ∀ w, Keeps ts o Pre Post (g w)) :
    Keeps ts o Pre Post (get >>= g) where
  ok {w} _ _ pre done := (each w).ok pre done
  error {w} _ _ pre failed := (each w).error pre failed

/-- What else is counted makes no difference. -/
theorem keeps_modify {f : Watch → Watch} (same : ∀ w, Deep w ∨ Pre w → Deep (f w) ∨ Pre (f w)) :
    Keeps ts o Pre Pre (modify f) where
  ok pre done := by
    cases done
    exact same _ pre
  error _ failed := by cases failed

theorem keeps_advance {g : PUnit → Watched α} (behind : Keeps ts o (Fresh ts o) Post (g ⟨⟩)) :
    Keeps ts o (Used ts o) Post (plain Parse.advance >>= g) where
  ok {w} _ _ pre done := behind.ok (w := w.onCursor .advance) (pre.imp_right Used.advance) done
  error {w} _ _ pre failed :=
    behind.error (w := w.onCursor .advance) (pre.imp_right Used.advance) failed

/-- Moving onto a token that is no brace uses it. -/
theorem keeps_advance_onto {kind : Kind} {g : PUnit → Watched α} (inert : Inert kind)
    (behind : Keeps ts o (Used ts o) Post (g ⟨⟩)) :
    Keeps ts o (fun w => Used ts o w ∧ w.cursor.ahead = kind) Post
      (plain Parse.advance >>= g) := by
  have onto {w : Watch} (pre : Deep w ∨ Used ts o w ∧ w.cursor.ahead = kind) :
      Deep (w.onCursor .advance) ∨ Used ts o (w.onCursor .advance) := by
    refine pre.imp_right fun ⟨used, ahead⟩ => used.advance.used ?_
    change Inert w.cursor.ahead
    rwa [ahead]
  exact ⟨fun pre done => behind.ok (onto pre) done,
    fun pre failed => behind.error (onto pre) failed⟩

/-- A step that moves on, or fails where it is. -/
theorem keeps_plain {x : Parse α}
    (steps : ∀ w : Watch, (∃ a c, x w.cursor = .ok a c ∧ c.faults = w.cursor.faults ∧
      (Used ts o w → Post (w.onCursor fun _ => c))) ∨
        ∃ fault, x w.cursor = .error fault w.cursor) :
    Keeps ts o (Used ts o) Post (plain x) := by
  constructor
  · intro w w' a pre done
    unfold plain at done
    rcases steps w with ⟨b, c, same, faults, post⟩ | ⟨fault, same⟩
    · rw [same] at done
      cases done
      refine pre.imp (fun deep => ?_) post
      change _ ∈ c.faults
      rwa [faults]
    · rw [same] at done
      cases done
  · intro w w' fault pre failed
    unfold plain at failed
    rcases steps w with ⟨b, c, same, _⟩ | ⟨fault', same⟩
    · rw [same] at failed
      cases failed
    · rw [same] at failed
      cases failed
      exact .inr (pre.imp_right Used.broken)

theorem expect_eq (kind : Kind) (c : Cursor) :
    (Parse.expect kind c = .ok ⟨⟩ c.advance ∧ c.advance.current.kind = kind) ∨
      ∃ fault, Parse.expect kind c = .error fault c := by
  unfold Parse.expect
  rw [Parse.ahead_bind]
  split
  · rename_i found
    exact .inl ⟨rfl, found⟩
  · exact .inr ⟨_, rfl⟩

theorem keeps_expect {kind : Kind} (inert : Inert kind) :
    Keeps ts o (Used ts o) (Used ts o) (plain (Parse.expect kind)) := by
  refine keeps_plain fun w => ?_
  rcases expect_eq kind w.cursor with ⟨done, on⟩ | failed
  · exact .inl ⟨_, _, done, rfl, fun used => used.advance.used (on ▸ inert)⟩
  · exact .inr failed

/-- A block can be opened. -/
theorem keeps_expect_lbrace :
    Keeps ts o (Used ts o) (Opened ts o) (plain (Parse.expect .lbrace)) := by
  refine keeps_plain fun w => ?_
  rcases expect_eq .lbrace w.cursor with ⟨done, on⟩ | failed
  · exact .inl ⟨_, _, done, rfl, fun used => used.advance.opened on⟩
  · exact .inr failed

theorem keeps_identifier :
    Keeps ts o (Used ts o) (Used ts o) (plain Parse.identifier) := by
  refine keeps_plain fun w => ?_
  unfold Parse.identifier
  rcases expect_eq .ident w.cursor with ⟨done, on⟩ | ⟨fault, failed⟩
  · rw [bind_of_ok done]
    exact .inl ⟨_, _, rfl, rfl, fun used => used.advance.used (on ▸ by decide)⟩
  · rw [bind_of_error failed]
    exact .inr ⟨fault, rfl⟩

theorem keeps_semicolon : Keeps ts o (Used ts o) (Used ts o) (plain Parse.semicolon) := by
  refine keeps_plain fun w => .inl ?_
  unfold Parse.semicolon
  rw [Parse.ahead_bind]
  split
  · rename_i found
    have on : w.cursor.advance.current.kind = .semicolon := found
    exact ⟨_, _, rfl, rfl, fun used => used.advance.used (on ▸ by decide)⟩
  · exact ⟨_, _, rfl, rfl, id⟩

/-- A loop whose passes start on tokens that are no braces. -/
theorem keeps_loop {pass? : Kind → Option (α → Watched α)}
    (passes : ∀ {kind : Kind} {pass : α → Watched α}, pass? kind = some pass →
      Inert kind ∧ ∀ a, Keeps ts o (Used ts o) (Used ts o) (pass a))
    (budget : List Token) (a : α) : Keeps ts o (Used ts o) (Used ts o) (loop pass? budget a) := by
  induction budget generalizing a with
  | nil =>
    refine keeps_ahead fun kind => ?_
    split
    · have counted : Keeps ts o (Used ts o) (Used ts o) starve := keeps_modify fun _ pre => pre
      exact (counted.bind fun _ => keeps_pure a).narrow fun _ pre => pre.1
    · exact (keeps_pure a).narrow fun _ pre => pre.1
  | cons b budget ih =>
    refine keeps_ahead fun kind => ?_
    cases taken : pass? kind with
    | none => exact (keeps_pure a).narrow fun _ pre => pre.1
    | some pass =>
      obtain ⟨inert, keeps⟩ := passes taken
      exact keeps_advance_onto inert ((keeps a).bind fun longer => ih longer)

end Keeps

end Watched

end Stacklet
