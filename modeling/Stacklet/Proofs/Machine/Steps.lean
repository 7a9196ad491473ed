import Stacklet.Machine.Run
import Stacklet.Proofs.Effects

/-!
# Runs as sequences of steps

`Step` is the execution of one instruction without an error, `Steps` a sequence
of them together with the offsets that it visits. A run is such a sequence and
one of four endings behind it (`runFrom_cases`): the end of the code, an error
of the next instruction, bytes that are no instruction, or the step limit.
-/

namespace Stacklet.Machine

theorem eq_instr_of_decode {entry : Entry} {i : Instr} (decoded : entry.decode = .ok i) :
    entry = .instr i := by
  cases entry <;> cases decoded
  rfl

/-! ## Sequences of steps -/

/-- The instruction at offset `o` takes the machine from `m` to `m'` and goes on at `o'`. -/
inductive Step (b : Bytecode) (o : Nat) (m : Machine) (o' : Nat) (m' : Machine) : Prop
  | intro {i : Instr} :
    b.code.entryAt? o = some (.instr i) → execute b.constants (o + i.size) i m = .ok o' m' →
    Step b o m o' m'

/-- A sequence of steps, with the offsets of the instructions executed. -/
inductive Steps (b : Bytecode) : List Nat → Nat → Machine → Nat → Machine → Prop
  | refl {o : Nat} {m : Machine} : Steps b [] o m o m
  | head {visited : List Nat} {o o' o'' : Nat} {m m' m'' : Machine} :
    Step b o m o' m' → Steps b visited o' m' o'' m'' → Steps b (o :: visited) o m o'' m''

/-- The instruction at offset `o` fails and leaves the machine at `m'`. -/
inductive Fails (b : Bytecode) (o : Nat) (m : Machine) (e : RuntimeError) (m' : Machine) : Prop
  | intro {i : Instr} :
    b.code.entryAt? o = some (.instr i) → execute b.constants (o + i.size) i m = .error e m' →
    Fails b o m e m'

variable {b : Bytecode} {visited visited' : List Nat} {o o' o'' : Nat} {m m' m'' : Machine}
  {e : RuntimeError}

theorem Step.steps (step : Step b o m o' m') : Steps b [o] o m o' m' := .head step .refl

theorem Steps.trans (left : Steps b visited o m o' m') (right : Steps b visited' o' m' o'' m'') :
    Steps b (visited ++ visited') o m o'' m'' := by
  induction left with
  | refl => exact right
  | head step _ ih => exact .head step (ih right)

/-! ## Runs with a step limit -/

/-- A run takes the steps that there are and goes on behind them. -/
theorem Steps.runFrom_eq (steps : Steps b visited o m o' m') (more : Nat) :
    runFrom b (visited.length + more) o m = runFrom b more o' m' := by
  induction steps with
  | refl => rw [List.length_nil, Nat.zero_add]
  | head step _ ih =>
    rcases step with ⟨entry, executed⟩
    rw [List.length_cons, Nat.add_right_comm, runFrom, entry]
    change (execute _ _ _ >>= _) _ = _
    rw [bind_of_ok executed]
    exact ih

theorem size_lt_patience (b : Bytecode) : b.code.size < patience b := by
  unfold patience
  exact Nat.lt_add_of_pos_left (by decide)

theorem run_of_ok (done : runFrom b (patience b) 0 m = .ok () m') : run b m = (.ok (), m') := by
  rw [run, done, ended]

theorem run_of_error (failed : runFrom b (patience b) 0 m = .error e m') :
    run b m = (.error e, m') := by
  rw [run, failed, ended]

/-- A run that reaches an offset behind the code ends there. -/
theorem runFrom_of_end (steps : Nat) (stops : b.code.entryAt? o = none) :
    runFrom b steps o m = .ok () m := by
  cases steps <;> rw [runFrom, stops] <;> rfl

/-- A run that has taken all its steps is broken off. -/
theorem runFrom_zero {entry : Entry} (found : b.code.entryAt? o = some entry) :
    runFrom b 0 o m = .error .stepLimit m := by
  rw [runFrom, found]
  rfl

/-- A run that reaches bytes that are no instruction ends there. -/
theorem runFrom_of_broken {entry : Entry} {error : DecodeError} {steps : Nat}
    (found : b.code.entryAt? o = some entry) (decoded : entry.decode = .error error) :
    runFrom b (steps + 1) o m = .error (.badInstruction o error) m := by
  rw [runFrom, found]
  dsimp only
  rw [decoded]
  rfl

theorem runFrom_of_step {steps : Nat} (step : Step b o m o' m') :
    runFrom b (steps + 1) o m = runFrom b steps o' m' := by
  rw [Nat.add_comm]
  exact step.steps.runFrom_eq steps

/-- A run that reaches a failing instruction fails with it. -/
theorem Fails.runFrom_eq (fails : Fails b o m e m') (more : Nat) :
    runFrom b (more + 1) o m = .error e m' := by
  rcases fails with ⟨entry, executed⟩
  rw [runFrom, entry]
  change (execute _ _ _ >>= _) _ = _
  exact bind_of_error executed

/-- A run has steps enough for a way that is no longer than the code. -/
theorem Steps.run_of_end (steps : Steps b visited 0 m o m') (short : visited.length ≤ b.code.size)
    (stops : b.code.entryAt? o = none) : run b m = (.ok (), m') := by
  obtain ⟨more, patient⟩ := Nat.exists_eq_add_of_lt (Nat.lt_of_le_of_lt short (size_lt_patience b))
  apply run_of_ok
  rw [patient, Nat.add_assoc, steps.runFrom_eq]
  exact runFrom_of_end _ stops

theorem Steps.run_of_fails (steps : Steps b visited 0 m o m')
    (short : visited.length ≤ b.code.size) (fails : Fails b o m' e m'') :
    run b m = (.error e, m'') := by
  obtain ⟨more, patient⟩ := Nat.exists_eq_add_of_lt (Nat.lt_of_le_of_lt short (size_lt_patience b))
  apply run_of_error
  rw [patient, Nat.add_assoc, steps.runFrom_eq]
  exact fails.runFrom_eq more

/-- What a run meets at an offset: the end of the code, bytes that are no instruction, or an
instruction that succeeds or fails. -/
theorem offset_cases (b : Bytecode) (o : Nat) (m : Machine) :
    b.code.entryAt? o = none ∨
      (∃ entry error, b.code.entryAt? o = some entry ∧ entry.decode = .error error) ∨
      (∃ o' m', Step b o m o' m') ∨ ∃ e m', Fails b o m e m' := by
  cases found : b.code.entryAt? o with
  | none => exact .inl rfl
  | some entry =>
    cases decoded : entry.decode with
    | error error => exact .inr (.inl ⟨entry, error, rfl, decoded⟩)
    | ok i =>
      obtain rfl := eq_instr_of_decode decoded
      cases executed : execute b.constants (o + i.size) i m with
      | ok o' m' => exact .inr (.inr (.inl ⟨o', m', found, executed⟩))
      | error e m' => exact .inr (.inr (.inr ⟨e, m', found, executed⟩))

/-- Every run is a sequence of steps with one of four endings. -/
theorem runFrom_cases (b : Bytecode) (steps o : Nat) (m : Machine) :
    ∃ visited o' m', Steps b visited o m o' m' ∧
      ((b.code.entryAt? o' = none ∧ runFrom b steps o m = .ok () m') ∨
        (∃ e m'', Fails b o' m' e m'' ∧ runFrom b steps o m = .error e m'') ∨
        (∃ entry error, b.code.entryAt? o' = some entry ∧ entry.decode = .error error ∧
          runFrom b steps o m = .error (.badInstruction o' error) m') ∨
        (visited.length = steps ∧ b.code.entryAt? o' ≠ none ∧
          runFrom b steps o m = .error .stepLimit m')) := by
  induction steps generalizing o m with
  | zero =>
    refine ⟨[], o, m, .refl, ?_⟩
    cases found : b.code.entryAt? o with
    | none => exact .inl ⟨rfl, runFrom_of_end 0 found⟩
    | some entry => exact .inr (.inr (.inr ⟨rfl, by simp, runFrom_zero found⟩))
  | succ steps ih =>
    rcases offset_cases b o m with stops | ⟨entry, error, found, decoded⟩ | ⟨o', m', step⟩ |
      ⟨e, m', fails⟩
    · exact ⟨[], o, m, .refl, .inl ⟨stops, runFrom_of_end _ stops⟩⟩
    · exact ⟨[], o, m, .refl, .inr (.inr (.inl ⟨entry, error, found, decoded,
        runFrom_of_broken found decoded⟩))⟩
    · obtain ⟨visited, o'', m'', rest, ending⟩ := ih o' m'
      refine ⟨o :: visited, o'', m'', .head step rest, ?_⟩
      rw [runFrom_of_step step]
      simpa using ending
    · exact ⟨[], o, m, .refl, .inr (.inl ⟨e, m', fails, fails.runFrom_eq steps⟩)⟩

/-- Once a run has come to an end by itself, further steps change nothing. -/
theorem runFrom_add {steps : Nat} {result : Except RuntimeError Unit}
    (ends : ended (runFrom b steps o m) = (result, m')) (own : result ≠ .error .stepLimit)
    (more : Nat) : ended (runFrom b (steps + more) o m) = (result, m') := by
  induction steps generalizing o m with
  | zero =>
    cases found : b.code.entryAt? o with
    | none =>
      rw [runFrom_of_end _ found] at ends ⊢
      exact ends
    | some entry =>
      rw [runFrom_zero found] at ends
      cases ends
      exact (own rfl).elim
  | succ steps ih =>
    rw [Nat.add_right_comm]
    rcases offset_cases b o m with stops | ⟨entry, error, found, decoded⟩ | ⟨o', m₁, step⟩ |
      ⟨e, m₁, fails⟩
    · rw [runFrom_of_end _ stops] at ends ⊢
      exact ends
    · rw [runFrom_of_broken found decoded] at ends ⊢
      exact ends
    · rw [runFrom_of_step step] at ends ⊢
      exact ih ends
    · rw [fails.runFrom_eq] at ends ⊢
      exact ends

end Stacklet.Machine
