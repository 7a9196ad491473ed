import Stacklet.Proofs.Compile.Correctness
import Stacklet.Proofs.Compile.Refusal
import Stacklet.Proofs.Program.Mentions

/-!
# The limits of compilation

An operand has 16 bits. So there are limits for the number of constants, for the
number of slots and for the offsets that jumps lead to. All three can be told
from the syntax tree (`Fragment.Within`): literals and definitions are counted,
and the code is laid out without being made (`extent`, `targets`). A program that
is supported and within the limits can only be refused because of a name that is
used without a definition in front of it (`Refused.unbound`).
-/

namespace Stacklet

/-! ## Counting and laying out -/

mutual

/-- There is code for all parts of the expression. -/
def Expr.Supported : Expr → Prop
  | .unary _ operand => operand.Supported
  | .binary _ left right => left.Supported ∧ right.Supported
  | .conditional condition consequence alternative =>
    condition.Supported ∧ Stmt.SupportedAll consequence ∧ Stmt.SupportedAlternative alternative
  | .function .. | .call .. | .array _ | .index .. => False
  | _ => True

/-- There is code for all parts of the statement. -/
def Stmt.Supported : Stmt → Prop
  | .define _ value | .expr value => value.Supported
  | .return _ => False

/-- There is code for all parts of the block. -/
def Stmt.SupportedAll : List Stmt → Prop
  | [] => True
  | s :: rest => s.Supported ∧ Stmt.SupportedAll rest

/-- There is code for all parts of the second block of a conditional. -/
def Stmt.SupportedAlternative : Option (List Stmt) → Prop
  | none => True
  | some block => Stmt.SupportedAll block

end

mutual

/-- The literals in an expression. -/
def Expr.literals : Expr → Nat
  | .integer _ | .text _ => 1
  | .unary _ operand => operand.literals
  | .binary _ left right => left.literals + right.literals
  | .conditional condition consequence alternative =>
    condition.literals + (Stmt.literalsAll consequence + Stmt.literalsAlternative alternative)
  | _ => 0

/-- The literals in a statement. -/
def Stmt.literals : Stmt → Nat
  | .define _ value | .return value | .expr value => value.literals

/-- The literals in a block. -/
def Stmt.literalsAll : List Stmt → Nat
  | [] => 0
  | s :: rest => s.literals + Stmt.literalsAll rest

/-- The literals in the second block of a conditional. -/
def Stmt.literalsAlternative : Option (List Stmt) → Nat
  | none => 0
  | some block => Stmt.literalsAll block

end

mutual

/-- The bytes that the code of an expression takes. -/
def Expr.extent : Expr → Nat
  | .integer _ | .text _ | .name _ => 3
  | .boolean _ => 1
  | .unary _ operand => operand.extent + 1
  | .binary _ left right => left.extent + right.extent + 1
  | .conditional condition consequence alternative =>
    condition.extent + 3 + Stmt.extentBranch consequence + 3 + Stmt.extentAlternative alternative
  | _ => 0

/-- The bytes that the code of a statement takes. -/
def Stmt.extent : Stmt → Nat
  | .define _ value => value.extent + 3
  | .expr value => value.extent + 1
  | .return _ => 0

/-- The bytes that the code of a block takes. -/
def Stmt.extentAll : List Stmt → Nat
  | [] => 0
  | s :: rest => s.extent + Stmt.extentAll rest

/-- The bytes that the code of a block of a conditional takes. Its last value is
not dropped, and if it has none it yields null. -/
def Stmt.extentBranch : List Stmt → Nat
  | [] => 1
  | [.expr value] => value.extent
  | s :: rest => s.extent + Stmt.extentBranch rest

/-- The bytes that the code of the second block of a conditional takes. -/
def Stmt.extentAlternative : Option (List Stmt) → Nat
  | none => 1
  | some block => Stmt.extentBranch block

end

mutual

/-- The offsets that the code of an expression jumps to, if it starts at an offset. -/
def Expr.targets : Expr → Nat → List Nat
  | .unary _ operand, offset => operand.targets offset
  | .binary op left right, offset =>
    if op = .less then right.targets offset ++ left.targets (offset + right.extent)
    else left.targets offset ++ right.targets (offset + left.extent)
  | .conditional condition consequence alternative, offset =>
    let whenTrue := offset + condition.extent + 3
    let otherwise := whenTrue + Stmt.extentBranch consequence + 3
    condition.targets offset ++ Stmt.targetsAll consequence whenTrue ++
      otherwise :: (Stmt.targetsAlternative alternative otherwise ++
        [otherwise + Stmt.extentAlternative alternative])
  | _, _ => []

/-- The offsets that the code of a statement jumps to. -/
def Stmt.targets : Stmt → Nat → List Nat
  | .define _ value, offset | .return value, offset | .expr value, offset => value.targets offset

/-- The offsets that the code of a block jumps to. -/
def Stmt.targetsAll : List Stmt → Nat → List Nat
  | [], _ => []
  | s :: rest, offset => s.targets offset ++ Stmt.targetsAll rest (offset + s.extent)

/-- The offsets that the code of the second block of a conditional jumps to. -/
def Stmt.targetsAlternative : Option (List Stmt) → Nat → List Nat
  | none, _ => []
  | some block, offset => Stmt.targetsAll block offset

end

namespace Fragment

/-- There is code for all parts of the fragment. -/
def Supported : Fragment → Prop
  | .expr e => e.Supported
  | .stmt s => s.Supported
  | .block statements | .branch statements => Stmt.SupportedAll statements
  | .alternative second => Stmt.SupportedAlternative second

/-- The mentions of names in a fragment, as they are compiled. -/
def mentions : Fragment → List Mention
  | .expr e => e.mentions .compiled
  | .stmt s => s.mentions .compiled
  | .block statements | .branch statements => Stmt.mentionsAll .compiled statements
  | .alternative second => Stmt.mentionsAlternative .compiled second

/-- The literals in a fragment. -/
def literals : Fragment → Nat
  | .expr e => e.literals
  | .stmt s => s.literals
  | .block statements | .branch statements => Stmt.literalsAll statements
  | .alternative second => Stmt.literalsAlternative second

/-- The bytes that the code of a fragment takes. -/
def extent : Fragment → Nat
  | .expr e => e.extent
  | .stmt s => s.extent
  | .block statements => Stmt.extentAll statements
  | .branch statements => Stmt.extentBranch statements
  | .alternative second => Stmt.extentAlternative second

/-- The offsets that the code of a fragment jumps to, if it starts at an offset. -/
def targets : Fragment → Nat → List Nat
  | .expr e => e.targets
  | .stmt s => s.targets
  | .block statements | .branch statements => Stmt.targetsAll statements
  | .alternative second => Stmt.targetsAlternative second

/-- All numbers in the code of a fragment, compiled at a progress, have 16 bits. -/
structure Within (f : Fragment) (p : Progress) : Prop where
  constants : p.constants.size + f.literals ≤ 65536
  slots : p.slots.count + (Mention.definitions f.mentions).length ≤ 65536
  jumps : ∀ target ∈ f.targets p.position, target < 65536

end Fragment

/-! ## What compiled code needs -/

theorem Slots.count_behind (slots : Slots) (ms : List Mention) :
    (slots.behind ms).count = slots.count + (Mention.definitions ms).length := by
  unfold Slots.behind
  induction Mention.definitions ms generalizing slots with
  | nil => rfl
  | cons name names ih =>
    rw [List.foldl_cons, ih, Slots.count_define, List.length_cons]
    omega

/-- What a fragment has needed between two progresses. -/
structure Needed (f : Fragment) (p q : Progress) : Prop where
  constants : q.constants.size = p.constants.size + f.literals
  position : q.position = p.position + f.extent
  slots : q.slots = p.slots.behind f.mentions

theorem Stmt.extentBranch_cons {s : Stmt} {rest : List Stmt} (inner : rest = [] → ¬ s.IsExpr) :
    Stmt.extentBranch (s :: rest) = s.extent + Stmt.extentBranch rest := by
  rw [Stmt.extentBranch]
  rintro value rfl rfl
  exact inner rfl ⟨value, rfl⟩

theorem Fragment.scope_eq (f : Fragment) (slots : Slots) :
    f.scope slots = slots.behind f.mentions := by
  cases f with
  | expr e => exact e.scope_eq slots
  | stmt s => exact s.scope_eq slots
  | block statements | branch statements => exact Stmt.scopeAll_eq statements slots
  | alternative second => exact Stmt.scopeAlternative_eq second slots

theorem Lowers.needed {f : Fragment} {p q : Progress} {code : List Instr}
    (lowers : Lowers f p code q) : Needed f p q := by
  refine ⟨?_, ?_, lowers.slots_eq.trans (f.scope_eq _)⟩
  · induction lowers with
    | integer | text => exact Array.size_push _
    | boolean | name | done | valueless | absent => rfl
    | unary _ ih | define _ _ ih | dropped _ ih | present _ ih => exact ih
    | binary _ _ _ ih ih' | next _ _ ih ih' | before _ _ _ ih ih' =>
      exact ih'.trans (by rw [ih, Nat.add_assoc]; rfl)
    | less _ _ ih ih' => exact ih'.trans (by
        rw [ih, Nat.add_assoc, Nat.add_comm (Fragment.literals _)]
        rfl)
    | conditional _ _ _ _ _ ih ih' ih'' =>
      rw [ih'', Progress.constants_advance, ih', Progress.constants_advance, ih]
      simp only [Fragment.literals, Expr.literals, Nat.add_assoc]
    | kept _ ih => exact ih
  · induction lowers with
    | integer | text | boolean | name | done | valueless | absent => rfl
    | unary _ ih | define _ _ ih | dropped _ ih =>
      simp only [Progress.position_advance, Progress.position_define, ih, Fragment.extent,
        Expr.extent, Stmt.extent]
      omega
    | binary _ _ _ ih ih' | less _ _ ih ih' =>
      simp only [Progress.position_advance, ih', ih, Fragment.extent, Expr.extent]
      omega
    | conditional _ _ _ _ _ ih ih' ih'' =>
      simp only [ih'', ih', ih, Progress.position_advance, Fragment.extent, Expr.extent]
      omega
    | next _ _ ih ih' => rw [ih', ih, Nat.add_assoc]; rfl
    | before inner _ _ ih ih' =>
      rw [ih', ih, Nat.add_assoc]
      exact congrArg _ (Stmt.extentBranch_cons inner).symm
    | kept _ ih | present _ ih => exact ih

/-! ## Refusals within the limits -/

/-- One of the mentions is a use of a name that has no slot there. -/
def Slots.Unbound (slots : Slots) (mentions : List Mention) (name : String) : Prop :=
  ∃ front back, mentions = front ++ .use name :: back ∧ (slots.behind front).find? name = none

/-- Compiling `f` at `p` comes to compiling `g` at `q`. -/
structure Part (f : Fragment) (p : Progress) (g : Fragment) (q : Progress) : Prop where
  constants : ∃ n, q.constants.size = p.constants.size + n ∧ n + g.literals ≤ f.literals
  mentions : ∃ front back,
    f.mentions = front ++ (g.mentions ++ back) ∧ q.slots = p.slots.behind front
  targets : ∀ target ∈ g.targets q.position, target ∈ f.targets p.position

namespace Part

variable {f g : Fragment} {p q : Progress}

theorem within (part : Part f p g q) (within : f.Within p) : g.Within q where
  constants := by
    obtain ⟨n, size, fewer⟩ := part.constants
    have total := within.constants
    omega
  slots := by
    obtain ⟨front, back, mentions, slots⟩ := part.mentions
    have total := within.slots
    rw [mentions, Mention.definitions_append, Mention.definitions_append, List.length_append,
      List.length_append] at total
    rw [slots, Slots.count_behind]
    omega
  jumps target member := within.jumps target (part.targets target member)

theorem unbound (part : Part f p g q) {name : String} (unbound : q.slots.Unbound g.mentions name) :
    p.slots.Unbound f.mentions name := by
  obtain ⟨front, back, mentions, slots⟩ := part.mentions
  rcases unbound with ⟨front', back', split, none⟩
  refine ⟨front ++ front', back' ++ back, by simp [mentions, split], ?_⟩
  rw [Slots.behind_append, ← slots]
  exact none

/-- What holds of a part holds of the whole. -/
theorem lift {e : CompileError}
    (inside : g.Within q → ∃ name, e = .undefinedVariable name ∧ q.slots.Unbound g.mentions name)
    (within : f.Within p) (part : Part f p g q) :
    ∃ name, e = .undefinedVariable name ∧ p.slots.Unbound f.mentions name := by
  obtain ⟨name, same, unbound⟩ := inside (part.within within)
  exact ⟨name, same, part.unbound unbound⟩

/-- What is compiled first. -/
theorem first (literals : g.literals ≤ f.literals)
    (mentions : ∃ back, f.mentions = g.mentions ++ back)
    (targets : ∀ target ∈ g.targets p.position, target ∈ f.targets p.position) : Part f p g p where
  constants := ⟨0, rfl, by omega⟩
  mentions := by
    obtain ⟨back, same⟩ := mentions
    exact ⟨[], back, same, rfl⟩
  targets := targets

/-- What is compiled behind another part. -/
theorem second {h : Fragment} (needed : Needed h p q) (literals : h.literals + g.literals ≤ f.literals)
    (mentions : f.mentions = h.mentions ++ g.mentions)
    (targets : ∀ target ∈ g.targets (p.position + h.extent), target ∈ f.targets p.position) :
    Part f p g q where
  constants := ⟨_, needed.constants, literals⟩
  mentions := ⟨_, [], by rw [mentions, List.append_nil], needed.slots⟩
  targets := by
    rw [needed.position]
    exact targets

end Part

section Conditional

variable {p q r : Progress} {condition : Expr} {consequence : List Stmt}
  {alternative : Option (List Stmt)}

theorem Needed.part_consequence (needed : Needed (.expr condition) p q) :
    Part (.expr (.conditional condition consequence alternative)) p (.branch consequence)
      (q.advance 3) where
  constants := by
    refine ⟨_, needed.constants, ?_⟩
    simp only [Fragment.literals, Expr.literals]
    omega
  mentions := ⟨condition.mentions .compiled, Stmt.mentionsAlternative .compiled alternative, rfl,
    needed.slots⟩
  targets target member := by
    rw [Progress.position_advance, needed.position] at member
    simp only [Fragment.targets, Expr.targets, List.mem_append]
    exact .inl (.inr member)

theorem Needed.otherwise_mem (needed : Needed (.expr condition) p q)
    (needed' : Needed (.branch consequence) (q.advance 3) r) :
    r.position + 3 ∈ (Expr.conditional condition consequence alternative).targets p.position := by
  rw [needed'.position, Progress.position_advance, needed.position]
  exact List.mem_append_right _ List.mem_cons_self

theorem Needed.part_alternative (needed : Needed (.expr condition) p q)
    (needed' : Needed (.branch consequence) (q.advance 3) r) :
    Part (.expr (.conditional condition consequence alternative)) p (.alternative alternative)
      (r.advance 3) where
  constants := by
    refine ⟨condition.literals + Stmt.literalsAll consequence, ?_, ?_⟩
    · rw [Progress.constants_advance, needed'.constants, Progress.constants_advance,
        needed.constants, Nat.add_assoc]
      rfl
    · simp only [Fragment.literals, Expr.literals]
      omega
  mentions := by
    refine ⟨condition.mentions .compiled ++ Stmt.mentionsAll .compiled consequence, [], ?_, ?_⟩
    · simp [Fragment.mentions, Expr.mentions]
    · rw [Progress.slots_advance, needed'.slots, Progress.slots_advance, needed.slots,
        Slots.behind_append]
      rfl
  targets target member := by
    rw [Progress.position_advance, needed'.position, Progress.position_advance,
      needed.position] at member
    simp only [Fragment.targets, Expr.targets, List.mem_append, List.mem_cons]
    exact .inr (.inr (.inl member))

theorem Needed.after_mem {s : Progress} (needed : Needed (.expr condition) p q)
    (needed' : Needed (.branch consequence) (q.advance 3) r)
    (needed'' : Needed (.alternative alternative) (r.advance 3) s) :
    s.position ∈ (Expr.conditional condition consequence alternative).targets p.position := by
  rw [needed''.position, Progress.position_advance, needed'.position, Progress.position_advance,
    needed.position]
  exact List.mem_append_right _ (List.mem_cons_of_mem _ (List.mem_append_right _ List.mem_cons_self))

end Conditional

/-- Within the limits only a name that has no slot can make the compiler refuse what
is supported. -/
theorem Refused.unbound {f : Fragment} {p q : Progress} {e : CompileError}
    (refused : Refused f p e q) (supported : f.Supported) (within : f.Within p) :
    ∃ name, e = .undefinedVariable name ∧ p.slots.Unbound f.mentions name := by
  induction refused with
  | @integer p _ full | @text p _ full =>
    have room : p.constants.size + 1 ≤ 65536 := within.constants
    omega
  | @undefined p name none => exact ⟨name, rfl, [], [], rfl, none⟩
  | @unreachable p name slot found wide =>
    have room : p.slots.count + 0 ≤ 65536 := within.slots
    have inRange := Slots.lt_count found
    omega
  | unary _ ih | dropped _ ih | present _ ih | branch _ ih =>
    exact ih supported ⟨within.constants, within.slots, within.jumps⟩
  | value _ ih =>
    exact Part.lift (ih supported) within (.first (Nat.le_refl _) ⟨_, rfl⟩ fun _ member => member)
  | @left p _ op left right _ notLess _ ih =>
    refine Part.lift (ih supported.1) within (.first (Nat.le_add_right ..)
      ⟨_, Expr.mentions_binary notLess left right⟩ fun target member => ?_)
    rw [Fragment.targets, Expr.targets, if_neg notLess]
    exact List.mem_append_left _ member
  | @right p _ _ op left right _ _ notLess lower _ ih =>
    refine Part.lift (ih supported.2) within (.second lower.needed (Nat.le_refl _)
      (Expr.mentions_binary notLess left right) fun target member => ?_)
    rw [Fragment.targets, Expr.targets, if_neg notLess]
    exact List.mem_append_right _ member
  | lessRight _ ih =>
    exact Part.lift (ih supported.2) within (.first (Nat.le_add_left ..) ⟨_, rfl⟩
      fun _ member => List.mem_append_left _ member)
  | lessLeft lower _ ih =>
    exact Part.lift (ih supported.1) within (.second lower.needed (Nat.le_of_eq (Nat.add_comm ..)) rfl
      fun _ member => List.mem_append_right _ member)
  | condition _ ih =>
    exact Part.lift (ih supported.1) within (.first (Nat.le_add_right ..) ⟨_, rfl⟩
      fun _ member => List.mem_append_left _ (List.mem_append_left _ member))
  | consequence lower _ ih => exact Part.lift (ih supported.2.1) within lower.needed.part_consequence
  | otherwise lower lower' wide =>
    have fits := within.jumps _ (lower.needed.otherwise_mem lower'.needed)
    omega
  | alternative lower lower' _ _ ih =>
    exact Part.lift (ih supported.2.2) within (lower.needed.part_alternative lower'.needed)
  | after lower lower' _ lower'' wide =>
    have fits := within.jumps _ (lower.needed.after_mem lower'.needed lower''.needed)
    omega
  | @unsupported p e noCode =>
    cases e with
    | function | call | array | index => exact supported.elim
    | _ => cases noCode
  | @slot p q name value _ lower full =>
    have room := within.slots
    have count := congrArg Slots.count lower.needed.slots
    rw [Slots.count_behind] at count
    have one : (Mention.definitions (value.mentions .compiled ++ [.define name])).length =
        (Mention.definitions (value.mentions .compiled)).length + 1 := by
      rw [Mention.definitions_append, List.length_append]
      rfl
    simp only [Fragment.mentions, Stmt.mentions, one] at room count
    omega
  | «return» => exact supported.elim
  | first _ ih =>
    exact Part.lift (ih supported.1) within (.first (Nat.le_add_right ..) ⟨_, rfl⟩
      fun _ member => List.mem_append_left _ member)
  | later lower _ ih =>
    exact Part.lift (ih supported.2) within (.second lower.needed (Nat.le_refl _) rfl
      fun _ member => List.mem_append_right _ member)

end Stacklet
