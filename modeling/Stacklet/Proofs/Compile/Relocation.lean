import Stacklet.Proofs.Compile.Converse

/-!
# Code at another place

Only the targets of jumps tell where code stands. A fragment compiled at a later
place has the code that it has at an earlier one, with all targets shifted by the
distance (`Lowers.relocated`). The converse fails only for want of room: shifted
targets may no longer fit into an operand. So a program falls into parts that are
each compiled on their own (`Lowers.program_append`).
-/

namespace Stacklet

/-! ## Shifting jumps -/

namespace Instr

/-- The instruction with its target a distance further on, if it has one. -/
def shifted (distance : Nat) : Instr → Instr
  | .jump target => .jump (.ofNat (target.toNat + distance))
  | .jumpNotTruthy target => .jumpNotTruthy (.ofNat (target.toNat + distance))
  | i => i

/-- There is room for the target a distance further on. -/
def Shifts (distance : Nat) (i : Instr) : Prop :=
  ∀ target, i.target? = some target → target + distance < 65536

theorem size_shifted (distance : Nat) (i : Instr) : (i.shifted distance).size = i.size := by
  cases i <;> rfl

theorem extent_shifted (distance : Nat) (code : List Instr) :
    extent (code.map (shifted distance)) = extent code := by
  induction code with
  | nil => rfl
  | cons i code ih => rw [List.map_cons, extent_cons, extent_cons, size_shifted, ih]

@[simp] theorem shifted_zero (i : Instr) : i.shifted 0 = i := by
  cases i <;> simp [shifted]

theorem shifts_zero (i : Instr) : i.Shifts 0 := by
  intro target same
  cases i with
  | jump word | jumpNotTruthy word =>
    cases same
    exact word.toNat_lt
  | _ => cases same

end Instr

/-- The second row is the first one with its targets a distance further on, and there
is room for them. -/
structure Shifted (distance : Nat) (code code' : List Instr) : Prop where
  row : code' = code.map (Instr.shifted distance)
  room : ∀ i ∈ code, i.Shifts distance

namespace Shifted

variable {distance : Nat} {code code' more more' : List Instr}

theorem nil : Shifted distance [] [] := ⟨rfl, by simp⟩

theorem append (first : Shifted distance code code') (second : Shifted distance more more') :
    Shifted distance (code ++ more) (code' ++ more') where
  row := by rw [first.row, second.row, List.map_append]
  room i member := (List.mem_append.mp member).elim (first.room i) (second.room i)

/-- An instruction without a target stays as it is. -/
theorem plain {i : Instr} (none : i.target? = none) : Shifted distance [i] [i] where
  row := by
    cases i with
    | jump _ | jumpNotTruthy _ => cases none
    | _ => rfl
  room j member := by
    rcases List.mem_singleton.mp member with rfl
    intro target found
    rw [none] at found
    cases found

theorem jump {target : Nat} (fits : target + distance < 65536) :
    Shifted distance [.jump (.ofNat target)] [.jump (.ofNat (target + distance))] ∧
      Shifted distance [.jumpNotTruthy (.ofNat target)]
        [.jumpNotTruthy (.ofNat (target + distance))] := by
  have inRange : target < 65536 := by omega
  have same : (UInt16.ofNat target).toNat = target := UInt16.toNat_ofNat_of_lt' inRange
  refine ⟨⟨by simp [Instr.shifted, same], ?_⟩, ⟨by simp [Instr.shifted, same], ?_⟩⟩
  · simp [Instr.Shifts, Instr.target?, same, fits]
  · simp [Instr.Shifts, Instr.target?, same, fits]

end Shifted

theorem UnaryOp.target?_instr (op : UnaryOp) : op.instr.target? = none := by
  cases op <;> rfl

theorem BinaryOp.target?_instr (op : BinaryOp) : op.instr.target? = none := by
  cases op <;> rfl

/-! ## Relocation -/

namespace Progress

variable (p : Progress) (size distance : Nat)

theorem advance_comm : (p.advance size).advance distance = (p.advance distance).advance size := by
  simp only [advance, Nat.add_right_comm]

end Progress

/-- Code that has been compiled further on is the code from here, shifted. -/
theorem Lowers.relocated {f : Fragment} {distance : Nat} {p q : Progress} {code : List Instr}
    (lowers : Lowers f (p.advance distance) code q) : ∃ code' q', Lowers f p code' q' ∧
      q = q'.advance distance ∧ Shifted distance code' code := by
  generalize same : p.advance distance = start at lowers
  induction lowers generalizing p with
  | integer room =>
    subst same
    exact ⟨_, _, .integer room, (Progress.advance_comm (p.addConstant _) ..).symm, .plain rfl⟩
  | text room =>
    subst same
    exact ⟨_, _, .text room, (Progress.advance_comm (p.addConstant _) ..).symm, .plain rfl⟩
  | @boolean _ b =>
    subst same
    exact ⟨_, _, .boolean, Progress.advance_comm .., .plain (by cases b <;> rfl)⟩
  | name found fits =>
    subst same
    exact ⟨_, _, .name found fits, Progress.advance_comm .., .plain rfl⟩
  | @unary _ _ op _ _ _ ih =>
    obtain ⟨code, q, lower, rfl, shifted⟩ := ih same
    exact ⟨_, _, .unary lower, Progress.advance_comm .., shifted.append (.plain op.target?_instr)⟩
  | @binary _ _ _ op _ _ _ _ notLess _ _ ih ih' =>
    obtain ⟨first, q, lower, rfl, shifted⟩ := ih same
    obtain ⟨second, r, lower', rfl, shifted'⟩ := ih' rfl
    exact ⟨_, _, .binary notLess lower lower', Progress.advance_comm ..,
      (shifted.append shifted').append (.plain op.target?_instr)⟩
  | less _ _ ih ih' =>
    obtain ⟨first, q, lower, rfl, shifted⟩ := ih same
    obtain ⟨second, r, lower', rfl, shifted'⟩ := ih' rfl
    exact ⟨_, _, .less lower lower', Progress.advance_comm ..,
      (shifted.append shifted').append (.plain rfl)⟩
  | conditional _ _ fits _ fits' ih ih' ih'' =>
    obtain ⟨test, q, lower, rfl, shifted⟩ := ih same
    obtain ⟨whenTrue, r, lower', rfl, shifted'⟩ := ih' (Progress.advance_comm q 3 distance)
    obtain ⟨whenFalse, s, lower'', rfl, shifted''⟩ := ih'' (Progress.advance_comm r 3 distance)
    simp only [Progress.position_advance] at fits fits'
    have otherwise : (r.advance distance).position + 3 = r.position + 3 + distance :=
      Nat.add_right_comm ..
    refine ⟨_, _, .conditional lower lower' (by omega) lower'' (by omega), rfl, ?_⟩
    rw [otherwise]
    exact (((shifted.append (Shifted.jump (by omega)).2).append shifted').append
      (Shifted.jump (by omega)).1).append shifted''
  | define _ fits ih =>
    obtain ⟨code, q, lower, rfl, shifted⟩ := ih same
    exact ⟨_, _, .define lower fits, (Progress.advance_comm (q.define _) ..).symm,
      shifted.append (.plain rfl)⟩
  | dropped _ ih =>
    obtain ⟨code, q, lower, rfl, shifted⟩ := ih same
    exact ⟨_, _, .dropped lower, Progress.advance_comm .., shifted.append (.plain rfl)⟩
  | done =>
    subst same
    exact ⟨_, _, .done, rfl, .nil⟩
  | next _ _ ih ih' =>
    obtain ⟨first, q, lower, rfl, shifted⟩ := ih same
    obtain ⟨code, r, lower', rfl, shifted'⟩ := ih' rfl
    exact ⟨_, _, .next lower lower', rfl, shifted.append shifted'⟩
  | valueless =>
    subst same
    exact ⟨_, _, .valueless, Progress.advance_comm .., .plain rfl⟩
  | kept _ ih =>
    obtain ⟨code, q, lower, rfl, shifted⟩ := ih same
    exact ⟨_, _, .kept lower, rfl, shifted⟩
  | before inner _ _ ih ih' =>
    obtain ⟨first, q, lower, rfl, shifted⟩ := ih same
    obtain ⟨code, r, lower', rfl, shifted'⟩ := ih' rfl
    exact ⟨_, _, .before inner lower lower', rfl, shifted.append shifted'⟩
  | absent =>
    subst same
    exact ⟨_, _, .absent, Progress.advance_comm .., .plain rfl⟩
  | present _ ih =>
    obtain ⟨code, q, lower, rfl, shifted⟩ := ih same
    exact ⟨_, _, .present lower, rfl, shifted⟩

/-! ## One block behind another -/

/-- A block is compiled in two parts as it is in one. -/
theorem Lowers.block_append {first second : List Stmt} {p r : Progress} {code : List Instr}
    (lowers : Lowers (.block (first ++ second)) p code r) :
    ∃ q front back, code = front ++ back ∧ Lowers (.block first) p front q ∧
      Lowers (.block second) q back r := by
  induction first generalizing p code with
  | nil => exact ⟨p, [], code, rfl, .done, lowers⟩
  | cons s first ih =>
    cases lowers with
    | @next _ _ _ _ _ head _ lower lower' =>
      obtain ⟨q, front, back, rfl, lowerFront, lowerBack⟩ := ih lower'
      exact ⟨q, head ++ front, back, (List.append_assoc ..).symm, .next lower lowerFront, lowerBack⟩

/-- A program in two parts: the second part is compiled as on its own, for the names and
constants that the first part leaves, and stands further on. -/
theorem Lowers.program_append {first second : List Stmt} {env : Env} {r : Progress}
    {code : List Instr} (lowers : Lowers (.block (first ++ second)) ⟨env, 0⟩ code r) :
    ∃ q front q' back shifted, code = front ++ shifted ∧
      Lowers (.block first) ⟨env, 0⟩ front q ∧ Lowers (.block second) ⟨q.toEnv, 0⟩ back q' ∧
      Shifted (Instr.extent front) back shifted ∧ r.toEnv = q'.toEnv := by
  obtain ⟨q, front, shifted, rfl, lower, lower'⟩ := lowers.block_append
  have place : q = (⟨q.toEnv, 0⟩ : Progress).advance (Instr.extent front) := by
    have position := lower.position_eq
    rw [Progress.advance, ← position]
  rw [place] at lower'
  obtain ⟨back, q', alone, rfl, behind⟩ := lower'.relocated
  exact ⟨q, front, q', back, shifted, rfl, lower, alone, behind, rfl⟩

end Stacklet
