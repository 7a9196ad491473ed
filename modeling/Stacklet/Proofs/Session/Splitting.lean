import Stacklet.Proofs.Machine.Mirror
import Stacklet.Proofs.Program.Texts
import Stacklet.Proofs.Session

/-!
# Inputs in parts

An input can be given in two parts, the first one ending with a semicolon: the
session answers the second part as it would have answered the whole, and is the same
afterwards (`Session.eval_append`). The whole is read, compiled and run in two parts.
What is compiled for the second part stands behind the first part's code with its
jumps shifted (`Lowers.relocated`), and a run of it mirrors the run on its own
(`Session.runIn_append`).
-/

namespace Stacklet

open Machine

/-! ## Code in two parts -/

namespace Session

section Parts

variable {b₁ b₂ b : Bytecode} {slots₁ slots₂ slots : Nat} {front back : List Instr}
  {height₁ height₂ height : Nat → Nat}

theorem embedded_back {shifted : List Instr}
    (bytes : b.code.toList = Instr.bytesOf (front ++ shifted))
    (behind : Shifted (Instr.extent front) back shifted)
    (pool : b₂.constants.toList <+: b.constants.toList) :
    Embedded b₂ b back (Instr.extent front) where
  holds := behind.row ▸ (Code.Holds.of_toList bytes).right (Nat.zero_add _).symm
  shifts := behind.room
  pool := pool

/-- The run of code in two parts ends as that of the second part on the globals that
the first part has left. -/
theorem runIn_append {shifted : List Instr} {globals : Array Value} {env₁ env : Env} {value : Value}
    (whole : WellFormed b slots (front ++ shifted) height)
    (first : WellFormed b₁ slots₁ front height₁) (second : WellFormed b₂ slots₂ back height₂)
    (behind : Shifted (Instr.extent front) back shifted) (nonempty : back ≠ [])
    (pool₁ : b₁.constants.toList <+: b.constants.toList)
    (pool₂ : b₂.constants.toList <+: b.constants.toList) (room : 65536 ≤ globals.size)
    (success : (runIn globals b₁ env₁).1 = .ok value) :
    runIn globals b env = runIn (runIn globals b₁ env₁).2.globals b₂ env := by
  -- The first part comes to its end, also in the whole.
  obtain ⟨visited, o, m, steps, ⟨rfl, done⟩ | ⟨e, m', _, _, _, failed⟩⟩ :=
    first.run_cases (m := withGlobals defaultStackSize globals) rfl room
  swap
  · unfold runIn at success
    rw [failed] at success
    cases success
  have start := Instr.boundary_zero front
  obtain ⟨_, top, size, _⟩ := first.steps start first.start.symm steps
  obtain ⟨_, m', reached, mirrors, _⟩ := first.mirrored_steps
    (.front whole.bytes pool₁) start first.start.symm room (.refl _) steps
  rw [first.size_eq, Nat.add_zero, Nat.add_zero] at reached
  -- The second part does not see on what stack it starts.
  have stackSize := (first.steps_stackSize start first.start.symm steps).trans
    (Array.size_replicate ..)
  have last : b₂.code.size + Instr.extent front = b.code.size := by
    rw [second.size_eq, whole.size_eq, Instr.extent_append, behind.row, Instr.extent_shifted,
      Nat.add_comm]
  obtain ⟨result, m₂, m₂', ran, ran', same, answer⟩ := second.run_behind whole
    (embedded_back whole.bytes behind pool₂) last rfl (size ▸ room)
    (mirrors.restarted stackSize (top.trans first.stop)) rfl reached
  rw [globals_runIn, done]
  unfold runIn
  rw [ran, ran']
  cases result with
  | ok _ => simp only [answer nonempty rfl, same]
  | error e => simp only [same]

end Parts

/-! ## Inputs in two parts -/

/-- An input in two parts, of which the first one ends with a semicolon, is answered
like the second part after the first one, and leaves the same session behind. -/
theorem eval_append (inputs : List String) {first second : String} {program program' : Program}
    {front : List Token} {mark : Token} {value : Value} (read : parseText first = (program, []))
    (ends : Token.tokenize first = front ++ [mark, .eof]) (kind : mark.kind = .semicolon)
    (read' : parseText second = (program', [])) (nonempty : program' ≠ [])
    (success : ((after inputs).eval first).1 = .ok value)
    (compiled : ∃ b env, Program.compile (parseText (first ++ "\n" ++ second)).1
      (after inputs).env = .ok (b, env)) :
    (after inputs).eval (first ++ "\n" ++ second) =
      ((after inputs).eval first).2.eval second := by
  have sound := sound_after inputs
  generalize after inputs = s at sound success compiled ⊢
  have readWhole := parseText_append read ends kind read'
  obtain ⟨b, env, compiled⟩ := compiled
  rw [readWhole] at compiled
  obtain ⟨code, q, lowers, bytes, pool, rfl⟩ := Program.lowers compiled
  -- What is compiled for the whole falls into two parts.
  obtain ⟨q₁, row, q₂, back, shifted, rfl, lowers₁, lowers₂, behind, same⟩ := lowers.program_append
  obtain ⟨b₁, compiled₁, bytes₁, pool₁⟩ := Program.compile_of_lowers lowers₁
  obtain ⟨b₂, compiled₂, bytes₂, pool₂⟩ := Program.compile_of_lowers lowers₂
  have compiled₂' : Program.compile program' (runIn s.globals b₁ q₁.toEnv).2.env =
      .ok (b₂, q₂.toEnv) := by
    rw [env_runIn]
    exact compiled₂
  have backNonempty : back ≠ [] := by
    obtain ⟨s, rest, rfl⟩ := List.exists_cons_of_ne_nil nonempty
    exact lowers₂.code_ne_nil
  have inFirst := eval_of_compiled read compiled₁
  rw [inFirst] at success
  rw [eval_of_compiled readWhole compiled, inFirst, eval_of_compiled read' compiled₂', same]
  have wholePool : b.constants = b₂.constants := by rw [pool, same, pool₂]
  refine runIn_append (lowers.wellFormed bytes pool) (lowers₁.wellFormed bytes₁ pool₁)
    (lowers₂.wellFormed bytes₂ pool₂) behind backNonempty ?_ (wholePool ▸ List.prefix_refl _)
    (Nat.le_of_eq sound.globalsSize.symm) success
  rw [wholePool, pool₁, pool₂]
  exact lowers₂.constants_prefix

theorem eval_append_conditional :
    fresh.eval ("let one = 1;" ++ "\n" ++ "if (one < 2) \x7b one + 1 \x7d") =
      (fresh.eval "let one = 1;").2.eval "if (one < 2) \x7b one + 1 \x7d" := by
  have read : parseText "let one = 1;" = ([.define "one" (.integer 1)], []) := rfl
  have ends : Token.tokenize "let one = 1;" =
      [⟨.letWord, "let"⟩, ⟨.ident, "one"⟩, ⟨.assign, "="⟩, ⟨.int, "1"⟩] ++
        [⟨.semicolon, ";"⟩, .eof] := rfl
  have read' : parseText "if (one < 2) \x7b one + 1 \x7d" = ([.expr (.conditional
      (.binary .less (.name "one") (.integer 2))
      [.expr (.binary .add (.name "one") (.integer 1))] none)], []) := rfl
  have success : (fresh.eval "let one = 1;").1 = .ok (.integer 1) := by decide +kernel
  exact eval_append [] read ends rfl read' (by simp) success ⟨_, _, rfl⟩

end Session

end Stacklet
