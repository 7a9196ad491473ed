import Stacklet.Proofs.Compile.Lowering
import Stacklet.Proofs.Machine.Execution

/-!
# Static heights of the stack

Compiled code has one height of the stack for each offset, whatever way a run
takes to it. It can be read off the row of instructions from the front: each
instruction adds its balance, and a jump, behind which the other branch of a
conditional stands, takes away the value that the branch in front of it has left
(`Instr.heightBehind`, `Instr.heightAt`).

`Scanned` says of a table of heights that it follows this reading over a row and
knows the boundaries of the row; `Checked` is what a verifier of byte code
checks. `Lowers.checked` is the induction: in compiled code, what was scanned
passes the check.
-/

namespace Stacklet

/-! ## Reading the heights off a row -/

/-- The height behind an instruction in a row that starts at some height. -/
def Instr.heightBehind (height : Nat) : Instr → Nat
  | .jump _ => height - 1
  | i => height - i.pops + i.pushes

theorem Instr.heightBehind_eq {i : Instr} (stays : ∀ target, i ≠ .jump target) (height : Nat) :
    i.heightBehind height = height - i.pops + i.pushes := by
  cases i with
  | jump target => exact (stays target rfl).elim
  | _ => rfl

/-- The height at an offset of a row that starts at some height. -/
def Instr.heightAt : List Instr → (height : Nat) → (offset : Nat) → Nat
  | [], height, _ => height
  | i :: is, height, offset =>
    if offset = 0 then height else heightAt is (i.heightBehind height) (offset - i.size)

section Tables

variable (height : Nat → Nat) (boundary : Nat → Prop)

/-- The table of heights follows the row from an offset on, and every boundary of
the row is one of the table. -/
def Scanned : Nat → List Instr → Prop
  | offset, [] => boundary offset
  | offset, i :: is =>
    boundary offset ∧ height (offset + i.size) = i.heightBehind (height offset) ∧
      Scanned (offset + i.size) is

/-- No instruction of the row takes more than there is, and every jump leads on
to a boundary where the height is the one that the jump brings along. -/
def Checked : Nat → List Instr → Prop
  | _, [] => True
  | offset, i :: is =>
    i.pops ≤ height offset ∧
      (∀ target, i.target? = some target →
        offset < target ∧ boundary target ∧
          height target + i.pops = height offset + i.pushes) ∧
      Checked (offset + i.size) is

end Tables

variable {height : Nat → Nat} {boundary : Nat → Prop} {o o' : Nat} {is js : List Instr}

namespace Scanned

theorem boundary_start (scanned : Scanned height boundary o is) : boundary o := by
  cases is with
  | nil => exact scanned
  | cons i is => exact scanned.1

theorem left (scanned : Scanned height boundary o (is ++ js)) : Scanned height boundary o is := by
  induction is generalizing o with
  | nil => exact scanned.boundary_start
  | cons i is ih => exact ⟨scanned.1, scanned.2.1, ih scanned.2.2⟩

theorem right (scanned : Scanned height boundary o (is ++ js)) (there : o' = o + Instr.extent is) :
    Scanned height boundary o' js := by
  induction is generalizing o with
  | nil =>
    rw [there]
    exact scanned
  | cons i is ih =>
    rw [Instr.extent_cons, ← Nat.add_assoc] at there
    exact ih scanned.2.2 there

theorem boundary_stop (scanned : Scanned height boundary o is) (there : o' = o + Instr.extent is) :
    boundary o' := by
  rw [← List.append_nil is] at scanned
  exact scanned.right there

end Scanned

theorem Checked.append (left : Checked height boundary o is)
    (right : Checked height boundary o' js) (there : o' = o + Instr.extent is) :
    Checked height boundary o (is ++ js) := by
  induction is generalizing o with
  | nil =>
    rw [there] at right
    exact right
  | cons i is ih =>
    rw [Instr.extent_cons, ← Nat.add_assoc] at there
    exact ⟨left.1, left.2.1, ih left.2.2 there⟩

theorem Checked.right (checked : Checked height boundary o (is ++ js))
    (there : o' = o + Instr.extent is) : Checked height boundary o' js := by
  induction is generalizing o with
  | nil =>
    rw [there]
    exact checked
  | cons i is ih =>
    rw [Instr.extent_cons, ← Nat.add_assoc] at there
    exact ih checked.2.2 there

/-- One instruction that does not jump. -/
theorem Scanned.single {i : Instr} (scanned : Scanned height boundary o [i])
    (straight : i.target? = none) (enough : i.pops ≤ height o) :
    height (o + i.size) + i.pops = height o + i.pushes ∧ Checked height boundary o [i] := by
  constructor
  · have stays : ∀ target, i ≠ .jump target := by
      rintro target rfl
      cases straight
    rw [scanned.2.1, Instr.heightBehind_eq stays]
    omega
  · exact ⟨enough, by simp [straight], trivial⟩

/-- One instruction that does not jump, behind a row that has been checked. -/
theorem Scanned.snoc {i : Instr} (scanned : Scanned height boundary o (is ++ [i]))
    (there : o' = o + Instr.extent is) (checked : Checked height boundary o is)
    (straight : i.target? = none) (enough : i.pops ≤ height o') :
    height (o' + i.size) + i.pops = height o' + i.pushes ∧
      Checked height boundary o (is ++ [i]) := by
  obtain ⟨balance, last⟩ := (scanned.right there).single straight enough
  exact ⟨balance, checked.append last there⟩

/-- The number of values that the code of a fragment leaves on the stack. -/
def Fragment.leaves : Fragment → Nat
  | .expr _ | .branch _ | .alternative _ => 1
  | .stmt _ | .block _ => 0

theorem UnaryOp.balance (op : UnaryOp) :
    op.instr.target? = none ∧ op.instr.pops = 1 ∧ op.instr.pushes = 1 := by
  cases op <;> exact ⟨rfl, rfl, rfl⟩

theorem BinaryOp.balance (op : BinaryOp) :
    op.instr.target? = none ∧ op.instr.pops = 2 ∧ op.instr.pushes = 1 := by
  cases op <;> exact ⟨rfl, rfl, rfl⟩

/-- Two operands and an operator behind them. -/
theorem Scanned.operator (op : BinaryOp) {o'' : Nat}
    (scanned : Scanned height boundary o (is ++ js ++ [op.instr]))
    (there : o' = o + Instr.extent is) (there' : o'' = o' + Instr.extent js)
    (first : height o' = height o + 1 ∧ Checked height boundary o is)
    (second : height o'' = height o' + 1 ∧ Checked height boundary o' js) :
    height (o'' + 1) = height o + 1 ∧ Checked height boundary o (is ++ js ++ [op.instr]) := by
  obtain ⟨straight, pops, pushes⟩ := op.balance
  have there'' : o'' = o + Instr.extent (is ++ js) := by
    rw [there', there, Instr.extent_append, Nat.add_assoc]
  obtain ⟨balance, checked⟩ := scanned.snoc there'' (first.2.append second.2 there) straight
    (by rw [pops, second.1, first.1]; exact Nat.le_add_left ..)
  refine ⟨?_, checked⟩
  rw [op.size_instr, pops, pushes, second.1, first.1] at balance
  exact Nat.add_right_cancel balance

/-- Along compiled code the height rises by what the fragment leaves, and nothing
takes more than there is. -/
theorem Lowers.checked {f : Fragment} {p q : Progress} {code : List Instr}
    (lowers : Lowers f p code q) (scanned : Scanned height boundary p.position code) :
    height q.position = height p.position + f.leaves ∧
      Checked height boundary p.position code := by
  induction lowers with
  | integer | text | name | valueless | absent =>
    exact scanned.single rfl (Nat.zero_le _)
  | @boolean p b =>
    cases b with
    | true => exact scanned.single rfl (Nat.zero_le _)
    | false => exact scanned.single rfl (Nat.zero_le _)
  | @unary p q op e code lower ih =>
    obtain ⟨rises, checked⟩ := ih scanned.left
    obtain ⟨straight, pops, pushes⟩ := op.balance
    obtain ⟨balance, checked⟩ := scanned.snoc lower.position_eq checked straight
      (by rw [pops, rises]; exact Nat.le_add_left ..)
    refine ⟨?_, checked⟩
    rw [op.size_instr, pops, pushes, rises] at balance
    exact Nat.add_right_cancel balance
  | @binary p q r op left right first second notLess lower lower' ih ih' =>
    exact Scanned.operator op scanned lower.position_eq lower'.position_eq (ih scanned.left.left)
      (ih' (scanned.left.right lower.position_eq))
  | @less p q r left right first second lower lower' ih ih' =>
    exact Scanned.operator .less scanned lower.position_eq lower'.position_eq
      (ih scanned.left.left) (ih' (scanned.left.right lower.position_eq))
  | @conditional p q r s condition consequence alternative test whenTrue whenFalse
      lower lower' fits lower'' fits' ih ih' ih'' =>
    -- Where each part of the row starts.
    obtain ⟨atTrue, atJump, atFalse⟩ :=
      lower.branch_positions lower' (.ofNat (r.position + 3)) (.ofNat s.position)
    -- The heights of its parts, from the condition on.
    obtain ⟨risesTest, checkedTest⟩ := ih scanned.left.left.left.left
    have scannedTest := scanned.left.left.left.right lower.position_eq
    obtain ⟨risesTrue, checkedTrue⟩ := ih' (scanned.left.left.right atTrue)
    have scannedJump := scanned.left.right atJump
    obtain ⟨risesFalse, checkedFalse⟩ := ih'' (scanned.right atFalse)
    have fallsTest := scannedTest.2.1
    have fallsJump := scannedJump.2.1
    simp only [Instr.heightBehind, Instr.pops, Instr.pushes, Instr.size, Instr.operand?,
      Fragment.leaves, Progress.position_advance]
      at fallsTest fallsJump risesTest risesTrue risesFalse
    have reach := lower'.position_eq
    have reach' := lower''.position_eq
    simp only [Progress.position_advance] at reach reach'
    -- Both jumps lead on to where the other branch starts or ends.
    have checkedIf : Checked height boundary q.position
        [.jumpNotTruthy (.ofNat (r.position + 3))] := by
      refine ⟨?_, ?_, trivial⟩
      · rw [risesTest]
        exact Nat.le_add_left ..
      · intro target same
        cases same
        rw [UInt16.toNat_ofNat_of_lt' fits]
        refine ⟨by omega, (scanned.right atFalse).boundary_start, ?_⟩
        simp only [Instr.pops, Instr.pushes]
        omega
    have checkedJump : Checked height boundary r.position [.jump (.ofNat s.position)] := by
      refine ⟨Nat.zero_le _, ?_, trivial⟩
      intro target same
      cases same
      rw [UInt16.toNat_ofNat_of_lt' fits']
      refine ⟨by omega, (scanned.right atFalse).boundary_stop lower''.position_eq, ?_⟩
      simp only [Instr.pops, Instr.pushes]
      omega
    refine ⟨?_, ?_⟩
    · simp only [Fragment.leaves]
      omega
    · exact (((checkedTest.append checkedIf lower.position_eq).append checkedTrue atTrue).append
        checkedJump atJump).append checkedFalse atFalse
  | define lower fits ih | dropped lower ih =>
    obtain ⟨rises, checked⟩ := ih scanned.left
    obtain ⟨balance, checked⟩ := scanned.snoc lower.position_eq checked rfl
      (by rw [rises]; exact Nat.le_add_left ..)
    refine ⟨?_, checked⟩
    rw [rises] at balance
    exact Nat.add_right_cancel balance
  | done => exact ⟨rfl, trivial⟩
  | next lower lower' ih ih' | before _ lower lower' ih ih' =>
    obtain ⟨rises, checked⟩ := ih scanned.left
    obtain ⟨rises', checked'⟩ := ih' (scanned.right lower.position_eq)
    exact ⟨by rw [rises', rises]; rfl, checked.append checked' lower.position_eq⟩
  | kept _ ih | present _ ih => exact ih scanned

/-! ## The table that is read off -/

/-- The offsets at which the instructions of a row start and the row ends. -/
def Instr.Boundary (code : List Instr) (offset : Nat) : Prop :=
  ∃ front back, code = front ++ back ∧ Instr.extent front = offset

theorem Instr.heightAt_extent (front back : List Instr) (h : Nat) :
    heightAt (front ++ back) h (extent front) = front.foldl heightBehind h := by
  induction front generalizing h with
  | nil => cases back <;> rfl
  | cons i front ih =>
    have positive := i.size_pos
    rw [List.cons_append, heightAt, extent_cons, if_neg (by omega), Nat.add_sub_cancel_left, ih]
    rfl

/-- Reading the heights off a row gives a table for that row. -/
theorem scanned_heightAt (front back : List Instr) (h : Nat) :
    Scanned (Instr.heightAt (front ++ back) h) (Instr.Boundary (front ++ back))
      (Instr.extent front) back := by
  induction back generalizing front with
  | nil => exact ⟨front, [], rfl, rfl⟩
  | cons i back ih =>
    have behind : front ++ i :: back = front ++ [i] ++ back := by simp
    refine ⟨⟨front, i :: back, rfl, rfl⟩, ?_, ?_⟩
    · have next : Instr.extent front + i.size = Instr.extent (front ++ [i]) := by simp
      rw [Instr.heightAt_extent front, next, behind, Instr.heightAt_extent (front ++ [i]),
        List.foldl_append]
      rfl
    · have rest := ih (front ++ [i])
      rw [← behind] at rest
      simpa using rest

end Stacklet
