import Mathlib.Data.List.Count
import Stacklet.Proofs.Code.Lines
import Stacklet.Proofs.Machine.Guarded

/-!
# What is seen of a byte string

Byte code is shown, counted and run, and each of these goes through its bytes in a way of
its own. All of them agree on the one cut of the bytes, also on bytes that no compiler has
written (`Bytecode.views_agree`): they see its operations at the same offsets with the same
operands, and they stop in front of its rest. The texts in which it is shown are stated as
the lines of the cut.

There are two lemmas for the two walks, `Code.decodeFrom_eq` and `Code.skipFrom_eq`, and
each view is one of them with its own leaves.
-/

namespace Stacklet

/-! ## What there is to see -/

namespace Cut

/-- The opcodes of the operations, and the one at the start of the rest. -/
def opcodes (cut : Cut) : List Opcode := cut.operations.map Operation.op ++ cut.opcode?.toList

end Cut

/-- The views of byte code show the operations of a cut and stop in front of its rest. -/
structure Bytecode.Shows (b : Bytecode) (cut : Cut) : Prop where
  listing : b.code.listing = unlines (cut.lines.map Line.listed)
  disassembly : b.disassembly = unlines (headingLines b.code.size ++
    cut.lines.map (Line.disassembled b.constants) ++ constantLines b.constants)
  counts (op : Opcode) : b.code.countOf op = cut.opcodes.count op
  /-- The statistics list the names that occur, each once, the more frequent ones first. -/
  statistics : ∃ table,
    b.statistics = unlines
      (statisticsLines cut.opcodes.length b.code.size b.constants.size table) ∧
    table.Pairwise (fun a c => c.2 < a.2 ∨ a.2 = c.2 ∧ a.1 < c.1) ∧
    ∀ name count, (name, count) ∈ table ↔
      0 < count ∧ ∃ op, op.mnemonic = name ∧ count = cut.opcodes.count op
  /-- At the offset of an operation the machine decodes it, and goes on behind it. -/
  runs : ∀ offset o, (offset, o) ∈ Operation.placed 0 cut.operations → ∀ m : Machine,
    Guarded.decode offset ⟨b, m⟩ = .ok (o.op, o.operands, offset + o.length) ⟨b, m⟩ ∧
      ∃ i : Instr, i.operation = o ∧ ∀ steps, Machine.runFrom b (steps + 1) offset m =
        (Machine.execute b.constants (offset + o.length) i >>= Machine.runFrom b steps) m
  /-- At the offset of the rest the machine stops, with an error unless the rest is empty. -/
  stops : ∀ (steps : Nat) (m : Machine), Machine.runFrom b (steps + 1) cut.stop m =
    match cut.error? with
    | some error => .error (.badInstruction cut.stop error) m
    | none => .ok () m

/-! ## The two walks -/

section Walks

variable {cut : Cut} {is : List Instr} {budget : Nat}

/-- A walk that decodes comes to the offset of each instruction and stops at the rest. -/
theorem Code.decodeFrom_eq {α : Type} (say : Nat → Except DecodeError (Opcode × List Nat) → α)
    (leftover : Leftover cut.rest) {offset : Nat}
    (enough : (Instr.bytesOf is ++ cut.rest).length ≤ budget) (said : Array α) :
    (Code.decodeFrom say budget offset (Instr.bytesOf is ++ cut.rest) said).toList =
      said.toList ++ ((Operation.placed offset (is.map Instr.operation)).map
        (fun (offset, o) => say offset (.ok (o.op, o.operands))) ++
        (cut.error?.map fun error => say (offset + Instr.extent is) (.error error)).toList) := by
  induction is generalizing offset budget said with
  | nil =>
    obtain ⟨operations, rest⟩ := cut
    cases rest with
    | nil => cases budget <;> simp [Code.decodeFrom, Cut.error?, Instr.bytesOf, Operation.placed]
    | cons byte behind =>
      obtain ⟨error, refused, fails⟩ := leftover.decode_eq operations
      obtain ⟨budget, rfl⟩ := Nat.exists_eq_succ_of_ne_zero (Nat.ne_zero_of_lt enough)
      change (Code.decodeFrom say (budget + 1) offset (byte :: behind) said).toList = _
      rw [Code.decodeFrom, fails, Array.toList_push, refused]
      rfl
  | cons i is ih =>
    rw [Instr.bytesOf_cons, i.bytes_eq, List.append_assoc, List.cons_append] at enough ⊢
    obtain ⟨budget, rfl⟩ := Nat.exists_eq_succ_of_ne_zero (Nat.ne_zero_of_lt enough)
    have next : offset + 1 + i.fields.length = offset + i.size := by rw [i.size_eq]; omega
    have enough' : (Instr.bytesOf is ++ cut.rest).length ≤ budget := by
      rw [List.length_cons, List.length_append] at enough
      omega
    rw [Code.decodeFrom, i.decode_eq]
    dsimp only
    rw [List.drop_left, next, ih enough', Array.toList_push, List.map_cons, Operation.placed,
      List.map_cons, i.length_operation, Instr.extent_cons, ← Nat.add_assoc]
    simp [Instr.operation]

/-- A walk that skips operands meets the operation of each instruction and the one at the
start of the rest. -/
theorem Code.skipFrom_eq {σ : Type} {update : σ → Opcode → List UInt8 → σ} {step : σ → Instr → σ}
    (sees : ∀ state i behind, update state i.opcode (i.fields ++ behind) = step state i)
    (leftover : Leftover cut.rest) (enough : (Instr.bytesOf is ++ cut.rest).length ≤ budget)
    (state : σ) :
    Code.skipFrom update budget (Instr.bytesOf is ++ cut.rest) state =
      (cut.opcode?.map fun op => update (is.foldl step state) op cut.rest.tail).getD
        (is.foldl step state) := by
  induction is generalizing budget state with
  | nil =>
    obtain ⟨operations, rest⟩ := cut
    change Code.skipFrom update budget rest state = _
    change rest.length ≤ budget at enough
    cases leftover with
    | nothing => cases budget <;> rfl
    | @unknown byte behind unknown =>
      obtain ⟨budget, rfl⟩ := Nat.exists_eq_succ_of_ne_zero (Nat.ne_zero_of_lt enough)
      rw [Cut.opcode?, List.head?_cons, Option.bind_some, unknown, Code.skipFrom, unknown]
      rfl
    | @truncated op behind short =>
      obtain ⟨budget, rfl⟩ := Nat.exists_eq_succ_of_ne_zero (Nat.ne_zero_of_lt enough)
      have known := op.ofByte?_toByte
      have none : (op.toByte :: behind).drop (instructionLength op.widths) = [] := by
        have widths := Leftover.widths_of_truncated short
        rw [widths] at short ⊢
        exact List.drop_eq_nil_of_le (Nat.le_of_lt short)
      rw [Cut.opcode?, List.head?_cons, Option.bind_some, known, Code.skipFrom, known]
      dsimp only
      rw [none]
      cases budget <;> rfl
  | cons i is ih =>
    rw [Instr.bytesOf_cons, i.bytes_eq, List.append_assoc, List.cons_append] at enough ⊢
    obtain ⟨budget, rfl⟩ := Nat.exists_eq_succ_of_ne_zero (Nat.ne_zero_of_lt enough)
    have enough' : (Instr.bytesOf is ++ cut.rest).length ≤ budget := by
      rw [List.length_cons, List.length_append] at enough
      omega
    have behind : (i.opcode.toByte :: (i.fields ++ (Instr.bytesOf is ++ cut.rest))).drop
        (instructionLength i.opcode.widths) = Instr.bytesOf is ++ cut.rest := by
      rw [i.length_eq, i.size_eq, List.drop_succ_cons, List.drop_left]
    rw [Code.skipFrom, i.opcode.ofByte?_toByte]
    dsimp only
    rw [behind, sees, ih enough', List.foldl_cons]

end Walks

section Views

variable {code : Code} {cut : Cut} {is : List Instr}

theorem Code.decoded_eq {α : Type} (say : Nat → Except DecodeError (Opcode × List Nat) → α)
    (of : cut.Of code.toList) : code.decoded say = cut.said say := by
  obtain ⟨is, operations, bytes, leftover⟩ := Cut.of_iff.mp of
  rw [Code.decoded, ← Array.length_toList, bytes, Code.decodeFrom_eq say leftover (Nat.le_refl _),
    Nat.zero_add, operations, ← Cut.stop_eq operations]
  rfl

theorem Code.skimmed_eq {σ : Type} {update : σ → Opcode → List UInt8 → σ} (step : σ → Instr → σ)
    (sees : ∀ state i behind, update state i.opcode (i.fields ++ behind) = step state i)
    (leftover : Leftover cut.rest) (bytes : code.toList = Instr.bytesOf is ++ cut.rest)
    (state : σ) :
    code.skimmed update state =
      (cut.opcode?.map fun op => update (is.foldl step state) op cut.rest.tail).getD
        (is.foldl step state) := by
  rw [Code.skimmed, ← Array.length_toList, bytes]
  exact Code.skipFrom_eq sees leftover (Nat.le_refl _) state

/-- A walk that does not look at the operands sees the opcodes. -/
theorem Code.skimmed_opcodes {σ : Type} (update : σ → Opcode → σ) (of : cut.Of code.toList)
    (state : σ) :
    code.skimmed (fun state op _ => update state op) state = cut.opcodes.foldl update state := by
  obtain ⟨is, operations, bytes, leftover⟩ := Cut.of_iff.mp of
  rw [Code.skimmed_eq (fun state i => update state i.opcode) (fun _ _ _ => rfl) leftover bytes,
    Cut.opcodes, ← operations, List.map_map, List.foldl_append, List.foldl_map]
  cases cut.opcode? <;> rfl

/-! ## Counts -/

theorem foldl_count (wanted : Opcode) (ops : List Opcode) (start : Nat) :
    ops.foldl (fun count op => if op = wanted then count + 1 else count) start =
      start + ops.count wanted := by
  induction ops generalizing start with
  | nil => rfl
  | cons op ops ih =>
    rw [List.foldl_cons, ih, List.count_cons]
    by_cases same : op = wanted <;> simp [same]
    omega

theorem Code.countOf_eq (of : cut.Of code.toList) (op : Opcode) :
    code.countOf op = cut.opcodes.count op :=
  (Code.skimmed_opcodes _ of 0).trans ((foldl_count op _ 0).trans (Nat.zero_add _))

theorem lookup_entry (name first : String) (count : Nat) (table : List (String × Nat)) :
    List.lookup name ((first, count) :: table) =
      if name = first then some count else table.lookup name := by
  rw [List.lookup_cons]
  by_cases found : name = first
  · simp [found]
  · simp [found, beq_eq_false_iff_ne.mpr found]

theorem lookup_tally (name other : String) (table : List (String × Nat)) :
    (tally name table).lookup other =
      if other = name then some ((table.lookup name).getD 0 + 1) else table.lookup other := by
  induction table with
  | nil => exact lookup_entry ..
  | cons entry table ih =>
    obtain ⟨first, count⟩ := entry
    rw [tally, lookup_entry, lookup_entry]
    by_cases found : first = name
    · subst found
      rw [if_pos rfl, if_pos rfl, lookup_entry]
      split <;> rfl
    · rw [if_neg found, if_neg (Ne.symm found), lookup_entry, ih]
      by_cases same : other = name
      · subst same
        rw [if_pos rfl, if_neg (Ne.symm found), if_pos rfl]
      · rw [if_neg same, if_neg same]

theorem map_fst_tally (name : String) (table : List (String × Nat)) :
    (tally name table).map Prod.fst =
      if name ∈ table.map Prod.fst then table.map Prod.fst else table.map Prod.fst ++ [name] := by
  induction table with
  | nil => rfl
  | cons entry table ih =>
    obtain ⟨first, count⟩ := entry
    rw [tally]
    by_cases found : first = name
    · simp [found]
    · rw [if_neg found, List.map_cons, ih]
      by_cases listed : name ∈ table.map Prod.fst <;> simp [listed, Ne.symm found]

theorem mem_iff_lookup {table : List (String × Nat)} (once : (table.map Prod.fst).Nodup)
    {name : String} {count : Nat} : (name, count) ∈ table ↔ table.lookup name = some count := by
  induction table with
  | nil => simp
  | cons entry table ih =>
    obtain ⟨first, count'⟩ := entry
    obtain ⟨fresh, distinct⟩ := List.nodup_cons.mp once
    rw [List.mem_cons, ih distinct, lookup_entry, Prod.mk.injEq]
    by_cases found : name = first
    · subst found
      have absent : table.lookup name ≠ some count := fun listed =>
        fresh (List.mem_map.mpr ⟨_, (ih distinct).mpr listed, rfl⟩)
      simp [absent, eq_comm]
    · simp [found]

/-- The table has each of the names once, with the number of times that it occurs. -/
structure Tallies (table : List (String × Nat)) (names : List String) : Prop where
  once : (table.map Prod.fst).Nodup
  lookup (name : String) :
    table.lookup name = if 0 < names.count name then some (names.count name) else none

namespace Tallies

variable {table : List (String × Nat)} {names : List String}

theorem tally (tallies : Tallies table names) (name : String) :
    Tallies (tally name table) (names ++ [name]) where
  once := by
    rw [map_fst_tally]
    split
    · exact tallies.once
    · rename_i fresh
      refine List.nodup_append.mpr ⟨tallies.once, by simp, fun other listed last here => ?_⟩
      rw [List.mem_singleton] at here
      rintro rfl
      exact fresh (here ▸ listed)
  lookup other := by
    rw [lookup_tally, tallies.lookup, tallies.lookup, List.count_append, List.count_singleton]
    by_cases same : other = name
    · subst same
      by_cases before : 0 < names.count other
      · simp [before]
      · simp [Nat.eq_zero_of_not_pos before]
    · simp [same, Ne.symm same]

theorem foldl (tallies : Tallies table names) (more : List String) :
    Tallies (more.foldl (fun table name => Stacklet.tally name table) table) (names ++ more) := by
  induction more generalizing table names with
  | nil =>
    rw [List.append_nil]
    exact tallies
  | cons name more ih =>
    rw [List.append_cons]
    exact ih (tallies.tally name)

theorem mem_iff (tallies : Tallies table names) {name : String} {count : Nat} :
    (name, count) ∈ table ↔ 0 < count ∧ count = names.count name := by
  rw [mem_iff_lookup tallies.once, tallies.lookup]
  split
  · rename_i positive
    rw [Option.some.injEq]
    exact ⟨fun same => ⟨same ▸ positive, same.symm⟩, fun same => same.2.symm⟩
  · rename_i none
    exact ⟨nofun, fun same => (none (same.2 ▸ same.1)).elim⟩

end Tallies

/-- How the statistics are sorted is a total order. -/
theorem beforeInStatistics_iff {a c : String × Nat} :
    beforeInStatistics a c = true ↔ c.2 < a.2 ∨ a.2 = c.2 ∧ a.1 ≤ c.1 := by
  unfold beforeInStatistics
  simp only [Bool.or_eq_true, Bool.and_eq_true, decide_eq_true_eq, Bool.not_eq_true',
    decide_eq_false_iff_not, String.not_lt]

theorem beforeInStatistics_trans (a c d : String × Nat) (first : beforeInStatistics a c = true)
    (second : beforeInStatistics c d = true) : beforeInStatistics a d = true := by
  rw [beforeInStatistics_iff] at first second ⊢
  rcases first with more | ⟨same, names⟩ <;> rcases second with more' | ⟨same', names'⟩
  · exact .inl (Nat.lt_trans more' more)
  · exact .inl (same' ▸ more)
  · exact .inl (same ▸ more')
  · exact .inr ⟨same.trans same', String.le_trans names names'⟩

theorem beforeInStatistics_total (a c : String × Nat) :
    (beforeInStatistics a c || beforeInStatistics c a) = true := by
  rw [Bool.or_eq_true, beforeInStatistics_iff, beforeInStatistics_iff]
  rcases Nat.lt_trichotomy a.2 c.2 with less | same | more
  · exact .inr (.inl less)
  · exact (String.le_total a.1 c.1).imp (.inr ⟨same, ·⟩) (.inr ⟨same.symm, ·⟩)
  · exact .inl (.inl more)

theorem foldl_frequencies (ops : List Opcode) (table : List (String × Nat)) (total : Nat) :
    ops.foldl (fun state op => (tally op.name state.1, state.2 + 1)) (table, total) =
      ((ops.map Opcode.name).foldl (fun table name => tally name table) table,
        total + ops.length) := by
  induction ops generalizing table total with
  | nil => rfl
  | cons op ops ih =>
    rw [List.foldl_cons, ih, List.map_cons, List.foldl_cons, List.length_cons]
    congr 1
    omega

theorem Code.frequencies_eq (of : cut.Of code.toList) :
    Tallies code.frequencies.1 (cut.opcodes.map Opcode.name) ∧
      code.frequencies.2 = cut.opcodes.length := by
  have walk : code.frequencies =
      cut.opcodes.foldl (fun state op => (tally op.name state.1, state.2 + 1)) ([], 0) :=
    Code.skimmed_opcodes _ of ([], 0)
  have none : Tallies [] [] := ⟨List.nodup_nil, fun _ => rfl⟩
  rw [walk, foldl_frequencies]
  exact ⟨none.foldl _, Nat.zero_add _⟩

theorem Opcode.ofName?_name (op : Opcode) : ofName? op.name = some op := by
  cases op <;> decide

theorem Opcode.name_injective : Function.Injective name := fun op op' same =>
  Option.some.inj (op.ofName?_name.symm.trans ((congrArg ofName? same).trans op'.ofName?_name))

theorem Bytecode.statistics_eq {b : Bytecode} (of : cut.Of b.code.toList) : ∃ table,
    b.statistics = unlines
      (statisticsLines cut.opcodes.length b.code.size b.constants.size table) ∧
    table.Pairwise (fun a c => c.2 < a.2 ∨ a.2 = c.2 ∧ a.1 < c.1) ∧
    ∀ name count, (name, count) ∈ table ↔
      0 < count ∧ ∃ op, op.mnemonic = name ∧ count = cut.opcodes.count op := by
  obtain ⟨tallies, total⟩ := Code.frequencies_eq of
  have sorted := b.code.frequencies.1.mergeSort_perm beforeInStatistics
  refine ⟨b.code.frequencies.1.mergeSort beforeInStatistics, ?_, ?_, fun name count => ?_⟩
  · rw [← total, ← statisticsText_eq]
    rfl
  · -- Names differ, so one that comes before another is really smaller.
    have distinct := List.pairwise_map.mp ((sorted.map Prod.fst).symm.nodup tallies.once)
    have ordered := List.pairwise_mergeSort beforeInStatistics_trans beforeInStatistics_total
      b.code.frequencies.1
    refine (ordered.and distinct).imp fun ⟨before, other⟩ => ?_
    refine (beforeInStatistics_iff.mp before).imp_right fun ⟨same, names⟩ => ⟨same, ?_⟩
    exact String.not_le.mp fun names' => other (String.le_antisymm names names')
  · simp only [← Opcode.name_eq_mnemonic]
    rw [sorted.mem_iff, tallies.mem_iff]
    refine and_congr_right fun positive => ⟨fun counted => ?_, ?_⟩
    · rw [counted, List.count_pos_iff] at positive
      obtain ⟨op, _, rfl⟩ := List.mem_map.mp positive
      exact ⟨op, rfl, by rw [counted, List.count_map_of_injective _ _ Opcode.name_injective]⟩
    · rintro ⟨op, rfl, counted⟩
      rw [counted, List.count_map_of_injective _ _ Opcode.name_injective]

/-! ## Jumps -/

theorem Instr.target?_eq (i : Instr) : i.target? =
    if i.opcode = .jump ∨ i.opcode = .jumpNotTruthy then i.operand?.map UInt16.toNat else none := by
  cases i <;> rfl

/-- No operand can be read from an operation that is cut off. -/
theorem Leftover.readWord?_eq {op : Opcode} (leftover : Leftover cut.rest)
    (found : cut.opcode? = some op) : readWord? cut.rest.tail = none := by
  obtain ⟨operations, rest⟩ := cut
  cases leftover with
  | nothing => cases found
  | unknown unknown => cases unknown.symm.trans found
  | @truncated _ behind short =>
    rcases cases_of_truncated short with rfl | ⟨byte, rfl⟩ <;> rfl

theorem Code.jumpTargets_eq (leftover : Leftover cut.rest)
    (bytes : code.toList = Instr.bytesOf is ++ cut.rest) :
    code.jumpTargets.toList = is.filterMap Instr.target? := by
  have collected (targets : Array Nat) :
      (is.foldl (fun targets i => (i.target?.map targets.push).getD targets) targets).toList =
        targets.toList ++ is.filterMap Instr.target? := by
    clear bytes
    induction is generalizing targets with
    | nil => simp
    | cons i is ih =>
      rw [List.foldl_cons, ih, List.filterMap_cons]
      cases i.target? with
      | none => rfl
      | some target => exact (congrArg (· ++ _) Array.toList_push).trans (List.append_cons ..).symm
  rw [Code.jumpTargets,
    Code.skimmed_eq (fun targets i => (i.target?.map targets.push).getD targets) ?_ leftover bytes]
  · cases found : cut.opcode? with
    | none => exact collected #[]
    | some op =>
      rw [leftover.readWord?_eq found]
      change (if _ then _ else _ : Array Nat).toList = _
      rw [ite_self]
      exact collected #[]
  · intro targets i behind
    rw [i.target?_eq]
    by_cases jump : i.opcode = .jump ∨ i.opcode = .jumpNotTruthy
    · obtain ⟨word, operand⟩ : ∃ word, i.operand? = some word := by
        cases i <;> first | exact ⟨_, rfl⟩ | (rcases jump with jump | jump <;> cases jump)
      rw [if_pos jump, if_pos jump, i.readWord?_fields behind operand, operand]
      rfl
    · rw [if_neg jump, if_neg jump]
      rfl

/-- The marks of the disassembly are where the jumps of the cut lead to. -/
theorem Code.contains_jumpTargets (of : cut.Of code.toList) :
    (Std.HashSet.ofArray code.jumpTargets).contains = cut.leadsTo := by
  obtain ⟨is, operations, bytes, leftover⟩ := Cut.of_iff.mp of
  funext offset
  rw [Std.HashSet.ofArray_eq_ofList, Std.HashSet.contains_ofList,
    Code.jumpTargets_eq leftover bytes, Cut.leadsTo, ← operations, Bool.eq_iff_iff,
    List.contains_iff_mem, List.mem_filterMap, List.any_map, List.any_eq_true]
  refine exists_congr fun i => and_congr_right fun _ => ?_
  change _ ↔ decide ((i.opcode = .jump ∨ i.opcode = .jumpNotTruthy) ∧ i.operands = [offset]) = true
  rw [decide_eq_true_iff, i.target?_eq, Instr.operands]
  split
  · rename_i jump
    cases i.operand? with
    | none => simp
    | some word => simp [jump]
  · rename_i other
    exact ⟨fun none => (by cases none), fun both => (other both.1).elim⟩

/-! ## Runs -/

theorem Operation.mem_placed {offset start : Nat} {o : Operation}
    (member : (offset, o) ∈ placed start (is.map Instr.operation)) :
    ∃ front i back, is = front ++ i :: back ∧ offset = start + Instr.extent front ∧
      o = i.operation := by
  induction is generalizing start with
  | nil => cases member
  | cons i is ih =>
    rcases List.mem_cons.mp member with here | later
    · cases here
      exact ⟨[], i, is, rfl, rfl, rfl⟩
    · obtain ⟨front, j, back, rfl, rfl, same⟩ := ih later
      refine ⟨i :: front, j, back, rfl, ?_, same⟩
      rw [i.length_operation, Instr.extent_cons, Nat.add_assoc]

variable {b : Bytecode}

/-- At the offset of an operation the machine decodes it, and goes on behind it. -/
theorem Cut.Of.runs (of : cut.Of b.code.toList) {offset : Nat} {o : Operation}
    (member : (offset, o) ∈ Operation.placed 0 cut.operations) (m : Machine) :
    Guarded.decode offset ⟨b, m⟩ = .ok (o.op, o.operands, offset + o.length) ⟨b, m⟩ ∧
      ∃ i : Instr, i.operation = o ∧ ∀ steps, Machine.runFrom b (steps + 1) offset m =
        (Machine.execute b.constants (offset + o.length) i >>= Machine.runFrom b steps) m := by
  obtain ⟨is, operations, bytes, leftover⟩ := Cut.of_iff.mp of
  rw [← operations] at member
  obtain ⟨front, i, back, rfl, rfl, rfl⟩ := Operation.mem_placed member
  rw [Nat.zero_add, i.length_operation]
  have holds : b.code.Holds (Instr.extent front) (i :: back) :=
    ⟨Instr.bytesOf front, cut.rest, by rw [bytes, Instr.bytesOf_append], Instr.length_bytesOf front⟩
  have entry := holds.entryAt?_eq
  refine ⟨Guarded.decode_eq entry m, i, rfl, fun steps => ?_⟩
  rw [Machine.runFrom, entry]
  rfl

/-- What stands at the start of what is left over is no instruction. -/
theorem Leftover.entryAt?_cases {code : Code} {front : List UInt8} (leftover : Leftover cut.rest)
    (bytes : code.toList = front ++ cut.rest) :
    (cut.error? = none ∧ code.entryAt? front.length = none) ∨
      ∃ error entry, cut.error? = some error ∧ code.entryAt? front.length = some entry ∧
        entry.decode = .error error := by
  rw [Cut.error?]
  have first : code[front.length]? = cut.rest.head? := by
    rw [← Array.getElem?_toList, bytes, List.getElem?_append_right (Nat.le_refl _), Nat.sub_self,
      List.head?_eq_getElem?]
  cases same : cut.rest with
  | nil =>
    rw [same] at first
    refine .inl ⟨rfl, ?_⟩
    rw [Code.entryAt?, first]
    rfl
  | cons byte behind =>
    rw [same] at leftover bytes first
    cases leftover with
    | unknown unknown =>
      refine .inr ⟨_, .unknown byte, rfl, ?_, ?_⟩
      · simp only [Code.entryAt?, first, List.head?_cons, unknown]
      · dsimp only
        rw [unknown]
        rfl
    | @truncated op _ short =>
      have known := op.ofByte?_toByte
      refine .inr ⟨_, .truncated op, rfl, ?_, ?_⟩
      · have form := op.form_cases
        have behind' : code.toList.drop (front.length + 1) = behind := by
          rw [bytes, List.drop_append]
          simp
        rw [Leftover.widths_of_truncated short] at form
        rw [Guarded.entryAt?_of_op first known, behind']
        cases same : op.form with
        | plain i =>
          rw [same] at form
          cases form.1
        | wide i =>
          rcases Leftover.cases_of_truncated short with rfl | ⟨byte, rfl⟩ <;> rfl
      · dsimp only
        rw [known]
        rfl

/-- At the offset of the rest the machine stops. -/
theorem Cut.Of.stops (of : cut.Of b.code.toList) (steps : Nat) (m : Machine) :
    Machine.runFrom b (steps + 1) cut.stop m =
      match cut.error? with
      | some error => .error (.badInstruction cut.stop error) m
      | none => .ok () m := by
  obtain ⟨is, operations, bytes, leftover⟩ := Cut.of_iff.mp of
  rw [Cut.stop_eq operations, ← Instr.length_bytesOf]
  rcases leftover.entryAt?_cases bytes with ⟨none, ends⟩ | ⟨error, entry, some, found, broken⟩
  · rw [none, Machine.runFrom_of_end _ ends]
  · rw [some, Machine.runFrom_of_broken found broken]

end Views

/-- All views of byte code agree on one cut of its bytes, and every operation that can be
written is a part of it. -/
theorem Bytecode.views_agree (b : Bytecode) :
    (∃ cut : Cut, cut.Of b.code.toList ∧ (∀ other : Cut, other.Of b.code.toList → other = cut) ∧
      b.Shows cut) ∧
    ∀ o : Operation,
      match o.op.make o.operands with
      | .ok bytes => o.Fits ∧ bytes.length = o.length ∧
          ∀ (cut : Cut) (behind : List UInt8), cut.Of behind →
            Cut.Of ⟨o :: cut.operations, cut.rest⟩ (bytes ++ behind)
      | .error _ => ¬ o.Fits := by
  constructor
  · obtain ⟨cut, of⟩ := Cut.exists_of b.code.toList
    refine ⟨cut, of, fun _ => Cut.unique of, ?_⟩
    exact {
      listing := by
        rw [Code.listing, Code.decoded_eq listingLine of, cut.join_said_listingLine]
      disassembly := by
        rw [Bytecode.disassembly, Code.decoded_eq _ of, Code.contains_jumpTargets of,
          cut.join_said_disassemblyLine, disassemblyHeading_eq, constantTable_eq, unlines_append,
          unlines_append]
      counts := Code.countOf_eq of
      statistics := Bytecode.statistics_eq of
      runs := fun _ _ => of.runs
      stops := of.stops
    }
  · intro o
    cases made : o.op.make o.operands with
    | ok bytes =>
      exact ⟨Opcode.make_fits.mp ⟨bytes, made⟩, o.length_of_make made, fun _ _ => .cons made⟩
    | error error =>
      intro fits
      obtain ⟨bytes, made'⟩ := Opcode.make_fits.mpr fits
      cases made.symm.trans made'

end Stacklet
