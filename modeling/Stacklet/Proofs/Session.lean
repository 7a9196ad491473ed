import Mathlib.Data.List.Induction
import Mathlib.Data.List.Nodup
import Stacklet.Proofs.Compile.WellFormed
import Stacklet.Session

/-!
# What every session keeps

A session ties three stores together: the slots of names, the constants and the
globals. `Session.Sound` says how they fit. A fresh session is sound, and every
input leaves a sound session sound, whatever comes of it (`Session.Sound.eval`):
a parse or compile error leaves it as it was, and a run, also one that stops
halfway, sets only slots that have been handed out by then.
-/

namespace Stacklet

open Machine

/-! ## Kinds of values -/

/-- A value that a global can have. -/
def Value.IsPlain : Value → Prop
  | .integer _ | .boolean _ | .null | .string _ => True
  | _ => False

theorem Value.IsLiteral.isPlain {value : Value} (literal : value.IsLiteral) : value.IsPlain := by
  cases value with
  | integer _ | string _ => trivial
  | _ => exact literal.elim

theorem Machine.IsScalar.isPlain {value : Value} (scalar : IsScalar value) : value.IsPlain := by
  cases value with
  | integer _ | boolean _ | null => trivial
  | _ => exact scalar.elim

/-! ## Owners of slots -/

namespace Slots

variable {s : Slots} {name other : String} {slot : Nat}

theorem mem_of_find? (found : s.find? name = some slot) : (name, slot) ∈ s.bound := by
  obtain ⟨front, back, split, _⟩ := List.lookup_eq_some_iff.mp found
  simp [split]

/-- A slot has one owner. -/
theorem owner_eq (member : (name, slot) ∈ s.bound) (member' : (other, slot) ∈ s.bound) :
    name = other := by
  have once : (s.bound.map Prod.snd).Nodup := by
    rw [s.numbered]
    exact List.nodup_reverse.mpr List.nodup_range
  exact congrArg Prod.fst (List.inj_on_of_nodup_map once member member' rfl)

/-- Two names never mean the same slot. -/
theorem eq_of_find?_eq (found : s.find? name = some slot) (found' : s.find? other = some slot) :
    name = other := owner_eq (mem_of_find? found) (mem_of_find? found')

end Slots

/-! ## Runs of well-formed code -/

namespace WellFormed

variable {b : Bytecode} {slots : Nat} {code : List Instr} {height : Nat → Nat}
  {visited : List Nat} {o o' : Nat} {m m' : Machine}

/-- A run keeps the kind of all values. -/
theorem steps_only {kind : Value → Prop} (wellFormed : WellFormed b slots code height)
    (scalar : ∀ value, IsScalar value → kind value) (pool : ∀ value ∈ b.constants, kind value)
    (boundary : Instr.Boundary code o) (top : m.top = height o) (only : m.Only kind)
    (steps : Steps b visited o m o' m') : m'.Only kind := by
  induction steps with
  | refl => exact only
  | head first rest ih =>
    obtain ⟨⟨i, _, enough, executed⟩, _, boundary', top'⟩ := wellFormed.step boundary top first
    exact ih boundary' top' (execute_only scalar pool only enough executed)

/-- A run sets no slot that has not been handed out. -/
theorem steps_unused (wellFormed : WellFormed b slots code height)
    (boundary : Instr.Boundary code o) (top : m.top = height o)
    (steps : Steps b visited o m o' m') {slot : Nat} (unused : slots ≤ slot) :
    m'.globals[slot]? = m.globals[slot]? := by
  induction steps with
  | refl => rfl
  | head first rest ih =>
    obtain ⟨⟨i, member, enough, executed⟩, _, boundary', top'⟩ :=
      wellFormed.step boundary top first
    rw [ih boundary' top']
    apply (execute_ok enough executed).1.globals
    rintro target rfl
    have inSlots : target.toNat < slots := wellFormed.inRange _ member
    omega

end WellFormed

/-! ## Sound sessions -/

namespace Session

/-- How the three stores of a session fit together. -/
structure Sound (s : Session) : Prop where
  globalsSize : s.globals.size = 65536
  slotsRoom : s.env.slots.count ≤ 65536
  /-- A slot that has not been handed out is null. -/
  unused : ∀ slot, s.env.slots.count ≤ slot → slot < 65536 → s.globals[slot]? = some .null
  globals : ∀ value ∈ s.globals, value.IsPlain
  constants : ∀ value ∈ s.env.constants, value.IsLiteral
  constantsRoom : s.env.constants.size ≤ 65536

theorem sound_fresh : fresh.Sound where
  globalsSize := Array.size_replicate ..
  slotsRoom := Nat.zero_le _
  unused slot _ inStore := by
    change (Array.replicate 65536 Value.null)[slot]? = _
    rw [Array.getElem?_replicate, if_pos inStore]
  globals value member := by
    rw [Array.eq_of_mem_replicate member]
    trivial
  constants value member := (Array.not_mem_empty value member).elim
  constantsRoom := Nat.zero_le _

variable {s : Session}

/-- What an input does to a sound session: whatever comes of it, the session
stays sound, no constant is dropped or renumbered, and no error is one of broken
code. -/
structure Kept (s s' : Session) (result : Except SessionError Value) : Prop where
  sound : s'.Sound
  pool : s.env.constants.toList <+: s'.env.constants.toList
  errors : ∀ e, result = .error (.runtime e) → e.OfProgram

/-- An input that is not run leaves the session as it was. -/
theorem Sound.rejected (sound : s.Sound) {result : Except SessionError Value}
    (notRun : ∀ e, result ≠ .error (.runtime e)) : Kept s s result :=
  ⟨sound, List.prefix_refl _, fun e same => (notRun e same).elim⟩

/-- Running what was compiled for a session. -/
theorem Sound.runIn (sound : s.Sound) {program : Program} {b : Bytecode} {env : Env}
    (compiled : program.compile s.env = .ok (b, env)) :
    Kept s (runIn s.globals b env).2 (runIn s.globals b env).1 := by
  obtain ⟨code, q, lowers, bytes, constants, rfl⟩ := program.lowers compiled
  have wellFormed := lowers.wellFormed bytes constants
  have literals := lowers.constants_literal sound.constants
  -- The machine that the run starts from, and the one that it has come to.
  have top : (withGlobals defaultStackSize s.globals).top = Instr.heightAt code 0 0 :=
    wellFormed.start.symm
  have only : (withGlobals defaultStackSize s.globals).Only Value.IsPlain := by
    refine ⟨fun value member => ?_, sound.globals⟩
    rw [Array.eq_of_mem_replicate member]
    trivial
  obtain ⟨visited, o, m', steps, ending⟩ :=
    wellFormed.run_cases (m := withGlobals defaultStackSize s.globals) rfl
      (Nat.le_of_eq sound.globalsSize.symm)
  have size := (wellFormed.steps (Instr.boundary_zero code) top steps).2.2.1
  have unused : ∀ slot, q.slots.count ≤ slot → m'.globals[slot]? = s.globals[slot]? :=
    fun slot => wellFormed.steps_unused (Instr.boundary_zero code) top steps
  have plain : m'.Only Value.IsPlain := by
    refine wellFormed.steps_only (fun _ => IsScalar.isPlain) ?_ (Instr.boundary_zero code) top only
      steps
    intro value member
    rw [constants] at member
    exact (literals value member).isPlain
  have sound' : Sound ⟨q.toEnv, m'.globals⟩ := {
    globalsSize := size.trans sound.globalsSize
    slotsRoom := lowers.slots_room sound.slotsRoom
    unused := by
      intro slot above inStore
      rw [unused slot above]
      exact sound.unused slot (Nat.le_trans lowers.count_le above) inStore
    globals := plain.globals
    constants := literals
    constantsRoom := lowers.constants_room sound.constantsRoom }
  rcases ending with ⟨_, done⟩ | ⟨e, m'', ofProgram, same, _, failed⟩
  · unfold Session.runIn
    rw [done]
    exact ⟨sound', lowers.constants_prefix, by simp⟩
  · unfold Session.runIn
    rw [failed]
    refine ⟨?_, lowers.constants_prefix, ?_⟩
    · change Sound ⟨q.toEnv, m''.globals⟩
      rw [same]
      exact sound'
    · intro e' equal
      cases equal
      exact ofProgram

/-- A run has no part in the names and constants. -/
theorem env_runIn (globals : Array Value) (b : Bytecode) (env : Env) :
    (Session.runIn globals b env).2.env = env := by
  unfold Session.runIn
  split <;> rfl

theorem globals_runIn (globals : Array Value) (b : Bytecode) (env : Env) :
    (Session.runIn globals b env).2.globals =
      (run b (withGlobals defaultStackSize globals)).2.globals := by
  unfold Session.runIn
  split <;> simp only [*]

/-- An input that is compiled is run. -/
theorem eval_of_compiled {source : String} {program : Program} {b : Bytecode} {env : Env}
    (read : parseText source = (program, [])) (compiled : program.compile s.env = .ok (b, env)) :
    s.eval source = runIn s.globals b env := by
  simp only [Session.eval, read, compiled]

/-- Every input leaves a sound session sound. -/
theorem Sound.eval (sound : s.Sound) (source : String) :
    Kept s (s.eval source).2 (s.eval source).1 := by
  unfold Session.eval
  split
  · split
    · rename_i compiled
      exact sound.runIn compiled
    · exact sound.rejected (by simp)
  · exact sound.rejected (by simp)

/-- The session after a list of inputs. -/
def after (inputs : List String) : Session :=
  inputs.foldl (fun s source => (s.eval source).2) fresh

/-- The session after further inputs. From a fresh one on it is `after`. -/
def evalAll (s : Session) (inputs : List String) : Session :=
  inputs.foldl (fun s source => (s.eval source).2) s

theorem after_concat (inputs : List String) (source : String) :
    after (inputs ++ [source]) = ((after inputs).eval source).2 := by
  simp [after]

theorem sound_after (inputs : List String) : (after inputs).Sound := by
  induction inputs using List.reverseRec with
  | nil => exact sound_fresh
  | append_singleton inputs source ih =>
    rw [after_concat]
    exact (ih.eval source).sound

/-- What holds of every session, after any inputs and of any next input. -/
theorem invariant (inputs : List String) (source : String) :
    (after inputs).Sound ∧
      (∀ name slot, (after inputs).env.slots.find? name = some slot →
        slot < (after inputs).env.slots.count ∧
          ∀ other, (after inputs).env.slots.find? other = some slot → name = other) ∧
      (after inputs).env.constants.toList <+:
        (after (inputs ++ [source])).env.constants.toList ∧
      ∀ e, ((after inputs).eval source).1 = .error (.runtime e) → e.OfProgram := by
  have kept := (sound_after inputs).eval source
  refine ⟨sound_after inputs, fun name slot found => ?_, ?_, kept.errors⟩
  · exact ⟨Slots.lt_count found, fun other found' => Slots.eq_of_find?_eq found found'⟩
  · rw [after_concat]
    exact kept.pool

end Session

end Stacklet
