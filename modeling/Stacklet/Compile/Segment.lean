import Stacklet.Code.Instr

/-!
Code under construction. Segments are joined in constant time, whatever their
lengths; the row of instructions is made once, at the end.
-/

namespace Stacklet

/-- A row of instructions, put together from parts. -/
inductive Segment
  | empty
  | one (instr : Instr)
  | join (left right : Segment)
  deriving Inhabited

namespace Segment

instance : Append Segment := ⟨join⟩

/-- The instructions of a segment in front of those given. -/
def onto : Segment → List Instr → List Instr
  | .empty, rest => rest
  | .one i, rest => i :: rest
  | .join left right, rest => left.onto (right.onto rest)

/-- The instructions of a segment in order. -/
def toList (s : Segment) : List Instr := s.onto []

/-- The last instruction of a segment, and the segment without it. -/
def unsnoc? : Segment → Option (Segment × Instr)
  | .empty => none
  | .one i => some (.empty, i)
  | .join left right =>
    match right.unsnoc? with
    | some (init, last) => some (.join left init, last)
    | none => left.unsnoc?

theorem onto_eq (s : Segment) (rest : List Instr) : s.onto rest = s.toList ++ rest := by
  induction s generalizing rest with
  | empty => rfl
  | one i => rfl
  | join left right ihl ihr =>
    rw [toList, onto, onto, ihl, ihr, ihl (right.onto []), ihr []]
    simp

@[simp] theorem toList_empty : empty.toList = [] := rfl

@[simp] theorem toList_one (i : Instr) : (one i).toList = [i] := rfl

@[simp] theorem toList_append (a b : Segment) : (a ++ b).toList = a.toList ++ b.toList := by
  show (join a b).onto [] = _
  rw [onto, onto_eq a, onto_eq b, List.append_nil]

theorem unsnoc?_eq_none {s : Segment} (absent : s.unsnoc? = none) : s.toList = [] := by
  induction s with
  | empty => rfl
  | one i => simp [unsnoc?] at absent
  | join left right ihl ihr =>
    simp only [unsnoc?] at absent
    split at absent
    · simp at absent
    · rename_i none
      show (left ++ right).toList = []
      rw [toList_append, ihl absent, ihr none, List.append_nil]

theorem toList_of_unsnoc? {s init : Segment} {last : Instr}
    (found : s.unsnoc? = some (init, last)) : s.toList = init.toList ++ [last] := by
  induction s generalizing init with
  | empty => simp [unsnoc?] at found
  | one i =>
    simp only [unsnoc?, Option.some.injEq, Prod.mk.injEq] at found
    obtain ⟨rfl, rfl⟩ := found
    rfl
  | join left right ihl ihr =>
    show (left ++ right).toList = _
    simp only [unsnoc?] at found
    rw [toList_append]
    split at found
    · rename_i kept i inRight
      simp only [Option.some.injEq, Prod.mk.injEq] at found
      obtain ⟨rfl, rfl⟩ := found
      show _ = (left ++ kept).toList ++ _
      rw [toList_append, ihr inRight, List.append_assoc]
    · rename_i none
      rw [unsnoc?_eq_none none, List.append_nil, ihl found]

end Segment

end Stacklet
