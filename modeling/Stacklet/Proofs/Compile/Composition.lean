import Stacklet.Proofs.Compile.Patching
import Stacklet.Proofs.Compile.Relocation

/-!
# Programs compiled one behind the other

A compiler goes on from the code, the names and the constants that earlier programs have
left, whether these were compiled or refused, and the names and constants can be carried
over to a new compiler. What it appends for a program is what a new compiler would make of
it, with all jumps shifted by the length of the code so far; the code so far is not touched
(`Compiler.Appends`). If the program is refused, no code is left. Either way, constants
keep their numbers and no slot is taken back (`Env.Grows`).

All this holds of the compiler that patches its buffer as well
(`Compiler.compile_after`), although what it remembers of the last two instructions
outlives a program.
-/

namespace Stacklet

/-! ## What is never taken back -/

/-- The constants keep their numbers, and the slots stay taken. -/
structure Env.Grows (env env' : Env) : Prop where
  constants : env.constants.toList <+: env'.constants.toList
  slots : env.slots.count ≤ env'.slots.count

namespace Env.Grows

variable {env env₁ env₂ : Env}

theorem refl (env : Env) : env.Grows env := ⟨List.prefix_refl _, Nat.le_refl _⟩

theorem trans (first : env.Grows env₁) (second : env₁.Grows env₂) : env.Grows env₂ :=
  ⟨first.constants.trans second.constants, Nat.le_trans first.slots second.slots⟩

end Env.Grows

section Grows

variable {f : Fragment} {p q : Progress} {code : List Instr} {e : CompileError}

theorem Lowers.grows (lowers : Lowers f p code q) : p.toEnv.Grows q.toEnv :=
  ⟨lowers.constants_prefix, lowers.count_le⟩

/-- Nothing is taken back by a failure either. -/
theorem Refused.grows (refused : Refused f p e q) : p.toEnv.Grows q.toEnv := by
  induction refused with
  | integer | text | undefined | unreachable | unsupported | «return» => exact .refl _
  | unary _ ih | left _ _ ih | lessRight _ ih | condition _ ih | value _ ih | dropped _ ih
  | first _ ih | branch _ ih | present _ ih => exact ih
  | right _ lower _ ih | lessLeft lower _ ih | consequence lower _ ih | later lower _ ih =>
    exact lower.grows.trans ih
  | otherwise lower lower' => exact lower.grows.trans lower'.grows
  | alternative lower lower' _ _ ih => exact lower.grows.trans (lower'.grows.trans ih)
  | after lower lower' _ lower'' =>
    exact lower.grows.trans (lower'.grows.trans lower''.grows)
  | slot lower => exact lower.grows.trans ⟨List.prefix_refl _, Nat.le_succ _⟩

end Grows

/-! ## One program behind others -/

/-- The second compiler has the code of the first one, and behind it the code that a new
compiler makes of the program, with all jumps shifted. -/
def Compiler.Appends (c : Compiler) (program : Program) (c' : Compiler) : Prop :=
  ∃ alone code, (Compiler.ofEnv c.env).compile program = (.ok (), alone) ∧ alone.env = c'.env ∧
    alone.code.toList = Instr.bytesOf code ∧ (∀ i ∈ code, i.Shifts c.code.size) ∧
    c'.code.toList =
      c.code.toList ++ Instr.bytesOf (code.map (Instr.shifted c.code.size))

namespace Compiler

variable {c c' : Compiler} {program : Program}

theorem compile_appends (compiled : c.compile program = (.ok (), c')) : c.Appends program c' := by
  cases outcome : Stmt.compileAll program .empty ⟨c.env, c.code.size⟩ with
  | error e q => cases (compile_of_error outcome).symm.trans compiled
  | ok segment q =>
    obtain ⟨row, split, lowers⟩ := Stmt.lowersAll program outcome
    obtain ⟨c₁, compiled', bytes, env⟩ := compile_of_lowers lowers
    cases compiled'.symm.trans compiled
    have place : (⟨c.env, c.code.size⟩ : Progress) = Progress.advance ⟨c.env, 0⟩ c.code.size := by
      rw [Progress.advance, Nat.zero_add]
    rw [place] at lowers
    obtain ⟨code, q', alone, rfl, shifted⟩ := lowers.relocated
    obtain ⟨c₀, compiled₀, bytes₀, env₀⟩ := compile_of_lowers (c := .ofEnv c.env) alone
    refine ⟨c₀, code, compiled₀, env₀.trans env.symm, bytes₀, shifted.room, ?_⟩
    rw [bytes, shifted.row]

theorem code_of_error {e : CompileError} (failed : c.compile program = (.error e, c')) :
    c'.code = #[] := by
  cases outcome : Stmt.compileAll program .empty ⟨c.env, c.code.size⟩ with
  | error e' q =>
    cases (compile_of_error outcome).symm.trans failed
    rfl
  | ok segment q => cases (compile_of_ok outcome).symm.trans failed

theorem compile_grows (c : Compiler) (program : Program) :
    c.env.Grows (c.compile program).2.env := by
  cases outcome : Stmt.compileAll program .empty ⟨c.env, c.code.size⟩ with
  | error e q =>
    rw [compile_of_error outcome]
    exact (Stmt.refusedAll program outcome).grows
  | ok segment q =>
    rw [compile_of_ok outcome]
    obtain ⟨_, _, lowers⟩ := Stmt.lowersAll program outcome
    exact lowers.grows

end Compiler

/-! ## Sequences of programs -/

/-- What is done with a compiler: it compiles a program, or its names and constants are
carried over to a new one. -/
inductive Action
  | compile (program : Program)
  | carry

/-- The compiler after an action, whether it has succeeded or not. -/
def Compiler.act (c : Compiler) : Action → Compiler
  | .compile program => (c.compile program).2
  | .carry => .ofEnv c.env

/-- The compiler after some actions. -/
def Compiler.after (env : Env) (actions : List Action) : Compiler :=
  actions.foldl Compiler.act (.ofEnv env)

/-- The patcher after an action, whether it has succeeded or not. -/
def Patcher.act (p : Patcher) : Action → Patcher
  | .compile program => (p.compile program).2
  | .carry => .ofEnv p.env

/-- The patcher after some actions. -/
def Patcher.after (env : Env) (actions : List Action) : Patcher :=
  actions.foldl Patcher.act (.ofEnv env)

theorem Patcher.compiler_act (p : Patcher) (action : Action) :
    (p.act action).compiler = p.compiler.act action := by
  cases action with
  | carry => rfl
  | compile program =>
    obtain ⟨result, p', compiled, compiled'⟩ := p.compile_eq program
    rw [act, Compiler.act, compiled, compiled']

theorem Patcher.compiler_after (env : Env) (actions : List Action) :
    (after env actions).compiler = Compiler.after env actions :=
  (List.foldl_hom Patcher.compiler fun p action => (p.compiler_act action).symm).symm

/-- Whatever a compiler has compiled or failed to compile before, and whatever has been
carried over: a program that compiles is appended to the code so far as a new compiler would
compile it, one that is refused leaves no code, and nothing defined is taken back. Writing
jumps before their targets are known comes to the same. -/
theorem Compiler.compile_after (env : Env) (actions : List Action) (program : Program) :
    let c := after env actions
    let p := Patcher.after env actions
    ∃ result c' p', c.compile program = (result, c') ∧
      p.compile program = (result.mapError .refused, p') ∧
      p.compiler = c ∧ p'.compiler = c' ∧ c.env.Grows c'.env ∧
      (result = .ok () → c.Appends program c') ∧ ∀ e, result = .error e → c'.code = #[] := by
  intro c p
  have same : p.compiler = c := Patcher.compiler_after env actions
  obtain ⟨result, p', patched, compiled⟩ := p.compile_eq program
  rw [same] at compiled
  refine ⟨result, p'.compiler, p', compiled, patched, same, rfl, ?_, ?_, ?_⟩
  · have grows := c.compile_grows program
    rw [compiled] at grows
    exact grows
  · rintro rfl
    exact compile_appends compiled
  · rintro e rfl
    exact code_of_error compiled

/-- A compiler that has refused `return 1` and then compiled `let a = 1`. -/
def Compiler.afterDefinition : Compiler :=
  after .empty [.compile [.return (.integer 1)], .compile [.define "a" (.integer 1)]]

/-- The program `if (true) { a }`. -/
def Program.guardedName : Program :=
  [.expr (.conditional (.boolean true) [.expr (.name "a")] none)]

/-- Both jumps of the conditional are shifted by the six bytes of the definition. -/
theorem Compiler.compile_after_conditional :
    ∃ c', afterDefinition.compile Program.guardedName = (.ok (), c') ∧
      afterDefinition.Appends Program.guardedName c' ∧
      c'.code = #[0, 0, 0, 17, 0, 0, 6, 14, 0, 16, 16, 0, 0, 15, 0, 17, 8, 5] := by
  have facts : (afterDefinition.compile Program.guardedName).1 = .ok () ∧
      (afterDefinition.compile Program.guardedName).2.code =
        #[0, 0, 0, 17, 0, 0, 6, 14, 0, 16, 16, 0, 0, 15, 0, 17, 8, 5] := ⟨rfl, by rfl⟩
  obtain ⟨result, c', _, compiled, _, _, _, _, appends, _⟩ := compile_after .empty
    [.compile [.return (.integer 1)], .compile [.define "a" (.integer 1)]] Program.guardedName
  change afterDefinition.compile Program.guardedName = _ at compiled
  rw [compiled] at facts
  obtain ⟨rfl, bytes⟩ : result = .ok () ∧ _ := facts
  exact ⟨c', compiled, appends rfl, bytes⟩

end Stacklet
