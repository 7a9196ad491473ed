import Stacklet.Proofs.Session.Assignment

/-!
# Inputs that fail

An input that is rejected, since it has faults or cannot be compiled, might as well
not have been given: the other inputs have the same answers without it
(`Session.transcript_accepted`). An input that fails while it runs leaves its
definitions behind, executed or not, and the globals that it has set by then. Both is
what `Session.failing_inputs` says.
-/

namespace Stacklet

open Machine

namespace Session

variable {s : Session} {source : String}

/-! ## Rejected inputs -/

/-- The answer to an input that is not run. -/
def rejected : Except SessionError Value → Bool
  | .error (.parse _) | .error (.compile _) => true
  | _ => false

theorem rejected_runIn (globals : Array Value) (b : Bytecode) (env : Env) :
    rejected (Session.runIn globals b env).1 = false := by
  unfold Session.runIn
  split <;> rfl

theorem eval_of_rejected (noRun : rejected (s.eval source).1 = true) : (s.eval source).2 = s := by
  rcases read : parseText source with ⟨program, _ | ⟨fault, faults⟩⟩
  · cases compiled : Program.compile program s.env with
    | error e => simp only [Session.eval, read, compiled]
    | ok result =>
      rw [eval_of_compiled read compiled, rejected_runIn] at noRun
      cases noRun
  · simp only [Session.eval, read]

/-- Inputs with their answers. -/
def transcript (s : Session) : List String → List (String × Except SessionError Value)
  | [] => []
  | source :: rest => (source, (s.eval source).1) :: (s.eval source).2.transcript rest

/-- The inputs that are not rejected, with their answers. -/
def accepted (s : Session) (inputs : List String) : List (String × Except SessionError Value) :=
  (s.transcript inputs).filter fun entry => !rejected entry.2

/-- Without the rejected inputs the answers to the others are the same, and so is the
session at the end. -/
theorem transcript_accepted (s : Session) (inputs : List String) :
    s.transcript ((s.accepted inputs).map Prod.fst) = s.accepted inputs ∧
      s.evalAll ((s.accepted inputs).map Prod.fst) = s.evalAll inputs := by
  induction inputs generalizing s with
  | nil => exact ⟨rfl, rfl⟩
  | cons source inputs ih =>
    obtain ⟨answers, ends⟩ := ih (s.eval source).2
    have behind : s.evalAll (source :: inputs) = (s.eval source).2.evalAll inputs := rfl
    cases noRun : rejected (s.eval source).1 with
    | true =>
      have same := eval_of_rejected noRun
      have left : s.accepted (source :: inputs) = s.accepted inputs := by
        rw [accepted, transcript, same]
        exact List.filter_cons_of_neg (by simp [noRun])
      rw [same] at answers ends
      rw [left, behind, same]
      exact ⟨answers, ends⟩
    | false =>
      have kept : s.accepted (source :: inputs) =
          (source, (s.eval source).1) :: (s.eval source).2.accepted inputs :=
        List.filter_cons_of_pos (by simp [noRun])
      rw [kept, behind, List.map_cons, transcript, answers]
      exact ⟨rfl, ends⟩

/-! ## Inputs that are run -/

/-- What a run leaves behind of a program that defines these names, in the order in
which they are compiled: the session that it has come to, given its events. -/
structure Ran (s : Session) (names : List String) (events : List Event) (s' : Session) :
    Prop where
  /-- Every definition takes a slot of its own, executed or not. -/
  count : s'.env.slots.count = s.env.slots.count + names.length
  /-- A name is bound to the slot of its last definition. -/
  latest : ∀ name place, IsLatest name names place →
    s'.env.slots.find? name = some (s.env.slots.count + place)
  others : ∀ name, name ∉ names → s'.env.slots.find? name = s.env.slots.find? name
  /-- The definitions that are executed set their slots in order, each of them once. -/
  inOrder : (Event.written events).Sublist (List.range' s.env.slots.count names.length)
  executed : ∀ slot value, (.write slot, value) ∈ events → s'.globals[slot]? = some value
  skipped : ∀ slot, s.env.slots.count ≤ slot → slot < 65536 → slot ∉ Event.written events →
    s'.globals[slot]? = some .null
  earlier : ∀ slot < s.env.slots.count, s'.globals[slot]? = s.globals[slot]?
  size : s'.globals.size = 65536

/-- An input that is compiled runs in this way, whatever comes of it. -/
theorem Sound.ran (sound : s.Sound) {program : Program} {b : Bytecode} {env : Env}
    (read : parseText source = (program, [])) (compiled : program.compile s.env = .ok (b, env)) :
    Ran s (Mention.definitions (Stmt.mentionsAll .compiled program)) (s.events source)
      (s.eval source).2 := by
  have sound' : (s.eval source).2.Sound := (sound.eval source).sound
  obtain ⟨as, resolves, sublist, behind, recounts⟩ := sound.executed_of_compiled read compiled
  have inOrder := Recounts.written_sublist resolves sublist
  have leads : Leads s (s.events source) (s.eval source).2.env.slots (s.eval source).2.globals :=
    sound.leads source
  refine ⟨?_, ?_, ?_, inOrder, ?_, ?_, ?_, sound'.globalsSize⟩
  · rw [behind, Slots.count_behind]
  · intro name place latest
    rw [behind]
    exact Slots.find?_foldl_of_isLatest _ latest
  · intro name notIn
    rw [behind]
    exact Slots.find?_foldl_of_not_mem _ notIn
  · intro slot value set
    exact leads.holds sound sound'.slotsRoom set
  · intro slot new inStore notSet
    rw [recounts.getElem?_of_not_written notSet]
    exact sound.unused slot new inStore
  · intro slot old
    apply recounts.getElem?_of_not_written
    intro set
    have new := (List.mem_range'_1.mp (inOrder.subset set)).1
    omega

/-- An input that fails while it runs has been compiled. -/
theorem compiled_of_runtime {e : RuntimeError}
    (failed : (s.eval source).1 = .error (.runtime e)) :
    ∃ program b env, parseText source = (program, []) ∧
      Program.compile program s.env = .ok (b, env) := by
  rcases read : parseText source with ⟨program, _ | ⟨fault, faults⟩⟩
  · cases compiled : Program.compile program s.env with
    | error e =>
      simp only [Session.eval, read, compiled] at failed
      cases failed
    | ok result => exact ⟨program, result.1, result.2, rfl, compiled⟩
  · simp only [Session.eval, read] at failed
    cases failed

/-- Inputs that fail do a session no harm. Without the rejected ones the others have
the same answers. One that fails while it runs has been compiled to code that sets a
slot of its own for each definition, and leaves exactly what it has done by then. -/
theorem failing_inputs (inputs : List String) :
    (fresh.transcript ((fresh.accepted inputs).map Prod.fst) = fresh.accepted inputs ∧
        fresh.evalAll ((fresh.accepted inputs).map Prod.fst) = after inputs) ∧
      ∀ source e, ((after inputs).eval source).1 = .error (.runtime e) →
        ∃ program b env code, parseText source = (program, []) ∧
          Program.compile program (after inputs).env = .ok (b, env) ∧
          b.code.toList = Instr.bytesOf code ∧
          Instr.stores code = List.range' (after inputs).env.slots.count
            (Mention.definitions (Stmt.mentionsAll .compiled program)).length ∧
          Ran (after inputs) (Mention.definitions (Stmt.mentionsAll .compiled program))
            ((after inputs).events source) ((after inputs).eval source).2 := by
  refine ⟨transcript_accepted fresh inputs, ?_⟩
  intro source e failed
  obtain ⟨program, b, env, read, compiled⟩ := compiled_of_runtime failed
  obtain ⟨code, q, lowers, bytes, _, _⟩ := program.lowers compiled
  exact ⟨program, b, env, code, read, compiled, bytes, lowers.resolves.writes,
    (sound_after inputs).ran read compiled⟩

/-- Of two definitions around a division by zero the first one is executed. -/
theorem failing_inputs_division :
    let s := after ["let b = 2;", "let"]
    let s' := (s.eval "let a = 5; 1 / 0; let c = 7;").2
    s = after ["let b = 2;"] ∧
      (s.eval "let a = 5; 1 / 0; let c = 7;").1 = .error (.runtime .divisionByZero) ∧
      s'.globals[0]? = some (.integer 2) ∧
      (s'.env.slots.find? "a" = some 1 ∧ s'.globals[1]? = some (.integer 5)) ∧
      s'.env.slots.find? "c" = some 2 ∧ s'.globals[2]? = some .null := by
  intro s s'
  have facts : fresh.accepted ["let b = 2;", "let"] = [("let b = 2;", .ok (.integer 2))] ∧
      (s.eval "let a = 5; 1 / 0; let c = 7;").1 = .error (.runtime .divisionByZero) ∧
      s.env.slots.count = 1 ∧ s.globals[0]? = some (.integer 2) ∧
      s.events "let a = 5; 1 / 0; let c = 7;" = [(.write 1, .integer 5)] := by
    decide +kernel
  obtain ⟨accepted, failed, count, first, events⟩ := facts
  obtain ⟨⟨-, ends⟩, runs⟩ := failing_inputs ["let b = 2;", "let"]
  obtain ⟨program, b, env, code, read, -, -, -, ran⟩ := runs _ _ failed
  have names : Mention.definitions (Stmt.mentionsAll .compiled program) = ["a", "c"] := by
    have same : parseText "let a = 5; 1 / 0; let c = 7;" =
        ([.define "a" (.integer 5), .expr (.binary .divide (.integer 1) (.integer 0)),
          .define "c" (.integer 7)], []) := rfl
    cases same.symm.trans read
    rfl
  have ran : s.Ran ["a", "c"] [(.write 1, .integer 5)] s' := names ▸ events ▸ ran
  have alone : s = after ["let b = 2;"] := by
    rw [accepted] at ends
    exact ends.symm
  have latest : IsLatest "a" ["a", "c"] 0 := ⟨[], ["c"], rfl, by decide, rfl⟩
  have latest' : IsLatest "c" ["a", "c"] 1 := ⟨["a"], [], rfl, by decide, rfl⟩
  have set := ran.executed 1 (.integer 5) (List.mem_singleton_self _)
  have old := (ran.earlier 0 (by rw [count]; exact Nat.zero_lt_one)).trans first
  have skipped := ran.skipped 2 (by rw [count]; decide) (by omega) (by decide)
  refine ⟨alone, failed, old, ⟨?_, set⟩, ?_, skipped⟩
  · rw [ran.latest "a" 0 latest, count]
  · rw [ran.latest "c" 1 latest', count]

end Session

end Stacklet
