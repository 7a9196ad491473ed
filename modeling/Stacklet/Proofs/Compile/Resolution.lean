import Mathlib.Data.List.Forall2
import Mathlib.Data.List.Perm.Basic
import Stacklet.Proofs.Compile.Limits

/-!
# What names mean in compiled code

Every use of a name becomes one instruction that reads a slot and every definition
one that sets a slot, in the order in which they are compiled (`Lowers.resolves`).
A use reads the slot of the latest definition of its name in front of it, and the
definitions take the slots in order. If there is no such definition the program is
refused. As long as no operand of "less" defines a name, "in front of it" can be
taken as it is written (`Program.compile_resolves`).
-/

namespace Stacklet

/-! ## Accesses to slots -/

/-- An access to a slot. -/
inductive Access
  | read (slot : Nat)
  | write (slot : Nat)
  deriving DecidableEq

namespace Access

/-- The slot that is read or set. -/
def slot : Access → Nat
  | .read slot | .write slot => slot

/-- The slot that is read, if one is. -/
def read? : Access → Option Nat
  | .read slot => some slot
  | .write _ => none

/-- The slot that is set, if one is. -/
def write? : Access → Option Nat
  | .read _ => none
  | .write slot => some slot

end Access

/-- The access that an instruction makes. -/
def Instr.access? : Instr → Option Access
  | .getGlobal slot => some (.read slot.toNat)
  | .setGlobal slot => some (.write slot.toNat)
  | _ => none

/-- The accesses that a row of instructions makes. -/
def Instr.accesses (code : List Instr) : List Access := code.filterMap Instr.access?

/-- The slots that a row of instructions reads. -/
def Instr.loads (code : List Instr) : List Nat := (accesses code).filterMap Access.read?

/-- The slots that a row of instructions sets. -/
def Instr.stores (code : List Instr) : List Nat := (accesses code).filterMap Access.write?

theorem Instr.accesses_append (code code' : List Instr) :
    accesses (code ++ code') = accesses code ++ accesses code' := List.filterMap_append

/-! ## Resolving mentions -/

/-- The mentions of names, with the slots in front of them, make these accesses. -/
inductive Resolves : Slots → List Mention → List Access → Prop
  | nil {slots : Slots} : Resolves slots [] []
  | use {slots : Slots} {name : String} {slot : Nat} {ms : List Mention} {as : List Access} :
    slots.find? name = some slot → Resolves slots ms as →
    Resolves slots (.use name :: ms) (.read slot :: as)
  | define {slots : Slots} {name : String} {ms : List Mention} {as : List Access} :
    Resolves (slots.define name) ms as →
    Resolves slots (.define name :: ms) (.write slots.count :: as)

namespace Resolves

variable {slots : Slots} {ms ns : List Mention} {as bs : List Access}

theorem append (first : Resolves slots ms as) (second : Resolves (slots.behind ms) ns bs) :
    Resolves slots (ms ++ ns) (as ++ bs) := by
  induction first with
  | nil => exact second
  | use found _ ih => exact .use found (ih second)
  | define _ ih => exact .define (ih second)

/-- Where the accesses are broken off, so can the mentions be. -/
theorem split (resolves : Resolves slots ms (as ++ bs)) :
    ∃ ms₁ ms₂, ms = ms₁ ++ ms₂ ∧ Resolves slots ms₁ as ∧ Resolves (slots.behind ms₁) ms₂ bs := by
  induction as generalizing slots ms with
  | nil => exact ⟨[], ms, rfl, .nil, resolves⟩
  | cons access as ih =>
    cases resolves with
    | @use _ name _ _ _ found rest =>
      obtain ⟨ms₁, ms₂, rfl, before, behind⟩ := ih rest
      exact ⟨.use name :: ms₁, ms₂, rfl, .use found before, behind⟩
    | @define _ name _ _ rest =>
      obtain ⟨ms₁, ms₂, rfl, before, behind⟩ := ih rest
      exact ⟨.define name :: ms₁, ms₂, rfl, .define before, behind⟩

/-- The definitions take the slots in order. -/
theorem writes (resolves : Resolves slots ms as) :
    as.filterMap Access.write? = List.range' slots.count (Mention.definitions ms).length := by
  induction resolves with
  | nil => rfl
  | use _ _ ih => exact ih
  | @define slots name ms as _ ih =>
    change slots.count :: as.filterMap Access.write? = List.range' _ (_ + 1)
    rw [ih, List.range'_succ]
    rfl

theorem count_le_of_write (resolves : Resolves slots ms as) {slot : Nat}
    (set : .write slot ∈ as) : slots.count ≤ slot := by
  have member : slot ∈ as.filterMap Access.write? := List.mem_filterMap.mpr ⟨_, set, rfl⟩
  rw [resolves.writes] at member
  exact (List.mem_range'_1.mp member).1

/-- No slot is set behind an access to it: the one definition that sets it comes first. -/
theorem settled (resolves : Resolves slots ms as) :
    as.Pairwise fun access later => later ≠ .write access.slot := by
  induction resolves with
  | nil => exact .nil
  | use found rest ih =>
    refine List.pairwise_cons.mpr ⟨fun later member same => ?_, ih⟩
    have above := rest.count_le_of_write (same ▸ member)
    have below := Slots.lt_count found
    exact Nat.lt_irrefl _ (Nat.lt_of_lt_of_le below above)
  | define rest ih =>
    refine List.pairwise_cons.mpr ⟨fun later member same => ?_, ih⟩
    exact Nat.lt_irrefl _ (rest.count_le_of_write (same ▸ member))

/-- Every use reads the slot that its name has behind the definitions in front of it. -/
theorem reads {base : Slots} {before : List String}
    (resolves : Resolves (before.foldl Slots.define base) ms as) :
    List.Forall₂ (fun occurrence slot =>
        (occurrence.2.foldl Slots.define base).find? occurrence.1 = some slot)
      (Mention.occurrences ms before) (as.filterMap Access.read?) := by
  generalize same : before.foldl Slots.define base = slots at resolves
  induction resolves generalizing before with
  | nil => exact .nil
  | use found _ ih =>
    subst same
    exact .cons found (ih rfl)
  | @define slots name _ _ _ ih =>
    subst same
    exact ih (by rw [List.foldl_append]; rfl)

/-- A name that is used has a slot there. -/
theorem found {base : Slots} {before defined : List String} {name : String}
    (resolves : Resolves (before.foldl Slots.define base) ms as)
    (member : (name, defined) ∈ Mention.occurrences ms before) :
    ∃ slot, (defined.foldl Slots.define base).find? name = some slot := by
  have every : ∀ use ∈ Mention.occurrences ms before,
      ∃ slot, (use.2.foldl Slots.define base).find? use.1 = some slot :=
    ((List.forall₂_and_left _ _).mp (resolves.reads.imp fun _ slot found => ⟨⟨slot, found⟩, found⟩)).1
  exact every _ member

end Resolves

/-- Compiled code accesses the slots that the mentions of names resolve to. -/
theorem Lowers.resolves {f : Fragment} {p q : Progress} {code : List Instr}
    (lowers : Lowers f p code q) : Resolves p.slots f.mentions (Instr.accesses code) := by
  induction lowers with
  | integer | text | done | valueless | absent => exact .nil
  | @boolean _ b => cases b <;> exact .nil
  | @name _ _ slot found fits =>
    have same : (UInt16.ofNat slot).toNat = slot := UInt16.toNat_ofNat_of_lt' fits
    change Resolves _ _ [.read (UInt16.ofNat slot).toNat]
    rw [same]
    exact .use found .nil
  | @unary _ _ op _ _ _ ih =>
    rw [Instr.accesses_append]
    cases op <;> exact (List.append_nil _).symm ▸ ih
  | @binary p _ _ op left right _ _ notLess lower _ ih ih' =>
    rw [Instr.accesses_append, Instr.accesses_append]
    have last : Instr.accesses [op.instr] = [] := by cases op <;> rfl
    rw [last, List.append_nil, Fragment.mentions, Expr.mentions_binary notLess]
    exact ih.append (lower.needed.slots ▸ ih')
  | less lower _ ih ih' =>
    rw [Instr.accesses_append, Instr.accesses_append]
    change Resolves _ _ (_ ++ _ ++ [])
    rw [List.append_nil]
    exact ih.append (lower.needed.slots ▸ ih')
  | @conditional p q r _ condition consequence alternative test whenTrue whenFalse lower lower' _ _ _
      ih ih' ih'' =>
    have atTrue : Resolves (p.slots.behind (condition.mentions .compiled))
        (Stmt.mentionsAll .compiled consequence) (Instr.accesses whenTrue) :=
      lower.needed.slots ▸ ih'
    have atFalse : Resolves ((p.slots.behind (condition.mentions .compiled)).behind
          (Stmt.mentionsAll .compiled consequence))
        (Stmt.mentionsAlternative .compiled alternative) (Instr.accesses whenFalse) :=
      lower.needed.slots ▸ lower'.needed.slots ▸ ih''
    simp only [Instr.accesses_append, List.append_assoc]
    exact ih.append (atTrue.append atFalse)
  | @define p q name value _ lower fits ih =>
    have same : (UInt16.ofNat q.slots.count).toNat = q.slots.count := UInt16.toNat_ofNat_of_lt' fits
    have last : Resolves q.slots [.define name] [.write (UInt16.ofNat q.slots.count).toNat] := by
      rw [same]
      exact .define .nil
    rw [Instr.accesses_append]
    exact ih.append (lower.needed.slots ▸ last)
  | dropped _ ih =>
    rw [Instr.accesses_append]
    exact (List.append_nil _).symm ▸ ih
  | next lower _ ih ih' | before _ lower _ ih ih' =>
    rw [Instr.accesses_append]
    exact ih.append (lower.needed.slots ▸ ih')
  | @kept _ _ e _ _ ih =>
    rw [Fragment.mentions, Stmt.mentionsAll, Stmt.mentionsAll, List.append_nil]
    exact ih
  | present _ ih => exact ih

/-! ## Uses without a definition -/

theorem Mention.mem_occurrences {name : String} {before defined : List String}
    {ms : List Mention} : (name, before) ∈ Mention.occurrences ms defined ↔
      ∃ front back, ms = front ++ .use name :: back ∧
        before = defined ++ Mention.definitions front := by
  constructor
  · intro member
    induction ms generalizing defined with
    | nil => cases member
    | cons mention ms ih =>
      cases mention with
      | use other =>
        rcases List.mem_cons.mp member with same | later
        · cases same
          exact ⟨[], ms, rfl, (List.append_nil _).symm⟩
        · obtain ⟨front, back, rfl, rfl⟩ := ih later
          exact ⟨.use other :: front, back, rfl, rfl⟩
      | define other =>
        obtain ⟨front, back, rfl, rfl⟩ := ih member
        exact ⟨.define other :: front, back, rfl, List.append_assoc ..⟩
  · rintro ⟨front, back, rfl, rfl⟩
    rw [Mention.occurrences_append]
    exact List.mem_append_right _ List.mem_cons_self

/-- Some use of a name has no slot exactly if it has no definition in front of it. -/
theorem Slots.unbound_empty {ms : List Mention} {name : String} :
    Slots.empty.Unbound ms name ↔
      ∃ before, (name, before) ∈ Mention.occurrences ms [] ∧ name ∉ before := by
  constructor
  · rintro ⟨front, back, split, none⟩
    exact ⟨_, Mention.mem_occurrences.mpr ⟨front, back, split, rfl⟩,
      (Slots.find?_foldl_eq_none.mp none).2⟩
  · rintro ⟨before, member, notIn⟩
    obtain ⟨front, back, split, rfl⟩ := Mention.mem_occurrences.mp member
    exact ⟨front, back, split, Slots.find?_foldl_eq_none.mpr ⟨rfl, notIn⟩⟩

/-! ## Resolved programs -/

/-- Taken in an order, the names in a program mean the latest definitions in front
of them. -/
structure Program.ResolvedIn (program : Program) (order : Order) : Prop where
  /-- The program is refused for a name that has no definition in front of it. -/
  undefined :
    (∃ name, program.compile .empty = .error (.undefinedVariable name)) ↔
      ∃ name before, (name, before) ∈ program.occurrences order ∧ name ∉ before
  /-- The definitions set the slots in order, and every use of a name reads the slot
  of the latest definition in front of it. -/
  loads {b : Bytecode} {env : Env} : program.compile .empty = .ok (b, env) →
    ∃ code slots, b.code.toList = Instr.bytesOf code ∧
      Instr.stores code =
        List.range (Mention.definitions (Stmt.mentionsAll order program)).length ∧
      List.Forall₂ (fun use slot => IsLatest use.1 use.2 slot) (program.occurrences order) slots ∧
      slots.Perm (Instr.loads code) ∧ (order = .compiled → slots = Instr.loads code)

namespace Program

variable {program : Program}

/-- In the order in which they are compiled, names always mean the latest definitions. -/
theorem resolvedIn_compiled (supported : Stmt.SupportedAll program)
    (within : Fragment.Within (.block program) ⟨.empty, 0⟩) : program.ResolvedIn .compiled where
  undefined := by
    cases outcome : program.compile .empty with
    | error e =>
      obtain ⟨q, refused⟩ := program.refused outcome
      obtain ⟨name, rfl, unbound⟩ := refused.unbound supported within
      exact ⟨fun _ => ⟨name, Slots.unbound_empty.mp unbound⟩, fun _ => ⟨name, rfl⟩⟩
    | ok result =>
      obtain ⟨code, q, lowers, _⟩ := program.lowers outcome
      constructor
      · rintro ⟨_, same⟩
        cases same
      · rintro ⟨name, before, member, notIn⟩
        have resolves : Resolves ([].foldl Slots.define .empty) _ _ := lowers.resolves
        obtain ⟨slot, found⟩ := resolves.found member
        rw [Slots.find?_foldl_eq_none.mpr ⟨rfl, notIn⟩] at found
        cases found
  loads compiled := by
    obtain ⟨code, q, lowers, bytes, _, _⟩ := program.lowers compiled
    have resolves : Resolves ([].foldl Slots.define .empty) _ _ := lowers.resolves
    refine ⟨code, Instr.loads code, bytes, ?_, ?_, .refl _, fun _ => rfl⟩
    · rw [List.range_eq_range']
      exact resolves.writes
    · exact resolves.reads.imp fun use slot => Slots.isLatest_of_find?

/-- In a program in which no operand of "less" defines a name, the order as written
will do as well. -/
theorem ResolvedIn.written (resolved : program.ResolvedIn .compiled)
    (quiet : Stmt.QuietAll program) : program.ResolvedIn .written where
  undefined := by
    have alike := (Stmt.mentionsAll_alike program quiet).occurrences []
    rw [resolved.undefined]
    exact exists_congr fun name => exists_congr fun before => and_congr_left fun _ =>
      alike.mem_iff.symm
  loads compiled := by
    obtain ⟨code, slots, bytes, stores, latest, perm, _⟩ := resolved.loads compiled
    have alike := Stmt.mentionsAll_alike program quiet
    obtain ⟨slots', latest', perm'⟩ := List.perm_comp_forall₂ (alike.occurrences []) latest
    refine ⟨code, slots', bytes, ?_, latest', perm'.trans perm, fun same => by cases same⟩
    rw [alike.definitions]
    exact stores

/-- What names mean in compiled code. Taken in the order in which they are compiled, a
supported program within the limits is refused for an undefined name exactly if one
of its names has no definition in front of it, and otherwise every name means its
latest definition. If no operand of "less" defines a name, the order as written will do. -/
theorem compile_resolves (supported : Stmt.SupportedAll program)
    (within : Fragment.Within (.block program) ⟨.empty, 0⟩) :
    program.ResolvedIn .compiled ∧ (Stmt.QuietAll program → program.ResolvedIn .written) := by
  have resolved := resolvedIn_compiled supported within
  exact ⟨resolved, fun quiet => resolved.written quiet⟩

/-- The program `let x = 1; let y = x; x < y`. -/
def comparison : Program :=
  [.define "x" (.integer 1), .define "y" (.name "x"), .expr (.binary .less (.name "x") (.name "y"))]

theorem compile_resolves_comparison :
    Stmt.SupportedAll comparison ∧ Fragment.Within (.block comparison) ⟨.empty, 0⟩ ∧
      Stmt.QuietAll comparison ∧ comparison.ResolvedIn .compiled ∧ comparison.ResolvedIn .written := by
  have supported : Stmt.SupportedAll comparison := by repeat' constructor
  have within : Fragment.Within (.block comparison) ⟨.empty, 0⟩ :=
    ⟨by decide, by decide, by decide⟩
  have quiet : Stmt.QuietAll comparison := by
    refine ⟨trivial, trivial, ⟨trivial, trivial, fun _ => ⟨rfl, rfl⟩⟩, trivial⟩
  obtain ⟨compiled, written⟩ := compile_resolves supported within
  exact ⟨supported, within, quiet, compiled, written quiet⟩

/-- The program `(if (true) { let y = 1; y }) < y`. -/
def definedLeft : Program :=
  [.expr (.binary .less
    (.conditional (.boolean true) [.define "y" (.integer 1), .expr (.name "y")] none) (.name "y"))]

/-- The order as written will not always do: here both uses have a definition in
front of them, and the program is refused all the same. -/
theorem not_resolvedIn_written :
    Stmt.SupportedAll definedLeft ∧ Fragment.Within (.block definedLeft) ⟨.empty, 0⟩ ∧
      definedLeft.occurrences .written = [("y", ["y"]), ("y", ["y"])] ∧
      definedLeft.compile .empty = .error (.undefinedVariable "y") ∧
      ¬ definedLeft.ResolvedIn .written := by
  have refused : definedLeft.compile .empty = .error (.undefinedVariable "y") := rfl
  have occurrences : definedLeft.occurrences .written = [("y", ["y"]), ("y", ["y"])] := rfl
  refine ⟨by repeat' constructor, ⟨by decide, by decide, by decide⟩, occurrences, refused, ?_⟩
  intro resolved
  obtain ⟨name, before, member, notIn⟩ := resolved.undefined.mp ⟨"y", refused⟩
  rw [occurrences] at member
  simp only [List.mem_cons, List.not_mem_nil, or_false, or_self, Prod.mk.injEq] at member
  rcases member with ⟨rfl, rfl⟩
  exact notIn List.mem_cons_self

end Program

end Stacklet
