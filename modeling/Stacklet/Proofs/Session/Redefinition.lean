import Stacklet.Proofs.Compile.Converse
import Stacklet.Proofs.Machine.Events
import Stacklet.Proofs.Program.Texts
import Stacklet.Proofs.Session

/-!
# Redefined names

Which slot a name means is settled when an input is compiled: that of its latest
definition, whether or not this definition is going to be executed. So a name keeps
its value, or has the value of the definition executed last, only if its latest
definition has been executed; if a conditional has left that one out, the name reads
as null (`Session.redefinition`). What a name was given in a run, and which slots were
left out, is told by the events of the run (`Event.assigned`, `Event.Skipped`).
-/

namespace Stacklet

open Machine

/-! ## Slots of a name -/

namespace Slots

variable {s : Slots} {name : String} {slot slot' : Nat}

/-- The latest slot of a name is the last one that it owns. -/
theorem le_of_find? (found : s.find? name = some slot) (member : (name, slot') ∈ s.bound) :
    slot' ≤ slot := by
  obtain ⟨front, back, split, none⟩ := List.lookup_eq_some_iff.mp found
  have falling : (s.bound.map Prod.snd).Pairwise (· > ·) := by
    rw [s.numbered]
    exact List.pairwise_reverse.mpr List.pairwise_lt_range
  rw [split] at member falling
  rcases List.mem_append.mp member with inFront | inBack
  · have other := none _ inFront
    simp at other
  · rcases List.mem_cons.mp inBack with same | inBack
    · exact Nat.le_of_eq (Prod.mk.inj same).2
    · rw [List.map_append, List.map_cons] at falling
      have later := (List.pairwise_append.mp falling).2.1
      exact Nat.le_of_lt ((List.pairwise_cons.mp later).1 slot' (List.mem_map_of_mem inBack))

/-- Definitions leave the slots alone that were handed out before. -/
theorem mem_behind (ms : List Mention) (before : slot < s.count) :
    (name, slot) ∈ (s.behind ms).bound ↔ (name, slot) ∈ s.bound := by
  unfold behind
  induction Mention.definitions ms generalizing s with
  | nil => rfl
  | cons last names ih =>
    rw [List.foldl_cons, ih (Nat.lt_succ_of_lt before)]
    simp only [define, List.mem_cons, Prod.mk.injEq]
    constructor
    · rintro (⟨_, same⟩ | member)
      · omega
      · exact member
    · exact .inr

theorem find?_of_behind {ms : List Mention} (found : (s.behind ms).find? name = some slot)
    (before : slot < s.count) : s.find? name = some slot := by
  unfold behind at found
  generalize Mention.definitions ms = names at found
  induction names generalizing s with
  | nil => exact found
  | cons last names ih =>
    have found := ih (Nat.lt_succ_of_lt before) found
    rw [find?_define] at found
    split at found
    · cases found
      exact (Nat.lt_irrefl _ before).elim
    · exact found

theorem exists_find?_behind (ms : List Mention) (found : s.find? name = some slot) :
    ∃ slot', (s.behind ms).find? name = some slot' := by
  unfold behind
  induction Mention.definitions ms generalizing s slot with
  | nil => exact ⟨slot, found⟩
  | cons last names ih =>
    by_cases same : name = last
    · exact ih (by rw [find?_define, if_pos same])
    · exact ih (by rw [find?_define, if_neg same]; exact found)

end Slots

/-! ## What a run has assigned -/

namespace Event

/-- The value that a name is given, if the event sets a slot of it. -/
def value? (slots : Slots) (name : String) : Event → Option Value
  | (.write slot, value) => if (name, slot) ∈ slots.bound then some value else none
  | (.read _, _) => none

/-- The values that a name is given, in order. -/
def assigned (slots : Slots) (name : String) (events : List Event) : List Value :=
  events.filterMap (value? slots name)

/-- The slot is one of those handed out from `first` on, and it has not been set. -/
def Skipped (first slot : Nat) (events : List Event) : Prop := first ≤ slot ∧ slot ∉ written events

instance (first slot : Nat) (events : List Event) : Decidable (Skipped first slot events) :=
  inferInstanceAs (Decidable (_ ∧ _))

/-- What a name reads as behind events if it means that slot then, and has had that
value in front of them: null if the slot has been left out, and otherwise what the name
was given last, or else the value it had. -/
def meaning (first : Nat) (slots : Slots) (name : String) (slot : Nat) (value : Value)
    (events : List Event) : Value :=
  if Skipped first slot events then .null else (assigned slots name events).getLast?.getD value

theorem written_append (events events' : List Event) :
    written (events ++ events') = written events ++ written events' := by
  simp [written]

theorem assigned_append (slots : Slots) (name : String) (events events' : List Event) :
    assigned slots name (events ++ events') =
      assigned slots name events ++ assigned slots name events' :=
  List.filterMap_append

/-- A name is given nothing where no slot of it is set. -/
theorem assigned_eq_nil {slots : Slots} {name : String} {events : List Event}
    (others : ∀ slot ∈ written events, (name, slot) ∉ slots.bound) :
    assigned slots name events = [] := by
  refine List.filterMap_eq_nil_iff.mpr fun event member => ?_
  rcases event with ⟨slot | slot, value⟩
  · rfl
  · have set : slot ∈ written events :=
      List.mem_filterMap.mpr ⟨.write slot, List.mem_map_of_mem member, rfl⟩
    exact if_neg (others slot set)

end Event

/-! ## Globals behind events -/

namespace Machine.Recounts

variable {globals globals' : Array Value} {events : List Event} {slots : Slots} {ms : List Mention}
  {as : List Access} {name : String} {slot : Nat} {value : Value}

theorem getD_of_not_written (recounts : Recounts globals events globals')
    (kept : slot ∉ Event.written events) : globals'.getD slot .null = globals.getD slot .null := by
  rw [Array.getD_eq_getD_getElem?, Array.getD_eq_getD_getElem?,
    recounts.getElem?_of_not_written kept]

/-- A slot that is set has that value, unless it is set again. -/
theorem getElem?_of_write {front back : List Event}
    (recounts : Recounts globals (front ++ (.write slot, value) :: back) globals')
    (inStore : slot < globals.size) (once : slot ∉ Event.written back) :
    globals'[slot]? = some value := by
  obtain ⟨middle, before, behind⟩ := recounts.split
  cases behind with
  | write behind =>
    rw [behind.getElem?_of_not_written once]
    exact Array.getElem?_setIfInBounds_self_of_lt (before.size_eq ▸ inStore)

theorem getD_of_write {front back : List Event}
    (recounts : Recounts globals (front ++ (.write slot, value) :: back) globals')
    (inStore : slot < globals.size) (once : slot ∉ Event.written back) :
    globals'.getD slot .null = value := by
  rw [Array.getD_eq_getD_getElem?, recounts.getElem?_of_write inStore once]
  rfl

/-- Code sets its slots in order, and only those that it has been handed out. -/
theorem written_sublist (resolves : Resolves slots ms as)
    (sublist : (events.map Prod.fst).Sublist as) :
    (Event.written events).Sublist
      (List.range' slots.count (Mention.definitions ms).length) :=
  resolves.writes ▸ sublist.filterMap Access.write?

/-- Where an event sets a slot. -/
theorem written_split (set : slot ∈ Event.written events) :
    ∃ front value back, events = front ++ (.write slot, value) :: back ∧
      Event.written events = Event.written front ++ slot :: Event.written back := by
  obtain ⟨access, inside, isWrite⟩ := List.mem_filterMap.mp set
  obtain ⟨⟨access, value⟩, member, rfl⟩ := List.mem_map.mp inside
  obtain ⟨front, back, rfl⟩ := List.append_of_mem member
  cases access with
  | read _ => cases isWrite
  | write k =>
    cases isWrite
    exact ⟨front, value, back, rfl, Event.written_append ..⟩

section Latest

variable (resolves : Resolves slots ms as) (sublist : (events.map Prod.fst).Sublist as)
  (found : (slots.behind ms).find? name = some slot) (more : List Mention)

include resolves sublist found

/-- Slots of a name that code sets do not lie behind the latest one. -/
theorem owned_le {k : Nat} (member : k ∈ Event.written events)
    (owned : (name, k) ∈ ((slots.behind ms).behind more).bound) : slots.count ≤ k ∧ k ≤ slot := by
  obtain ⟨low, high⟩ := List.mem_range'_1.mp ((written_sublist resolves sublist).subset member)
  rw [← Slots.count_behind] at high
  exact ⟨low, Slots.le_of_find? found ((Slots.mem_behind more high).mp owned)⟩

/-- If the latest definition of a name has been executed, the name has been given the
value of that definition last. -/
theorem assigned_last (set : slot ∈ Event.written events) :
    ∃ front value back, events = front ++ (.write slot, value) :: back ∧
      slot ∉ Event.written back ∧
      (Event.assigned ((slots.behind ms).behind more) name events).getLast? = some value := by
  obtain ⟨front, value, back, split, written⟩ := written_split set
  have rising : ∀ k ∈ Event.written back, slot < k := by
    have pairs := List.Pairwise.sublist (written_sublist resolves sublist) List.pairwise_lt_range'
    rw [written] at pairs
    exact (List.pairwise_cons.mp (List.pairwise_append.mp pairs).2.1).1
  have behind : Event.assigned ((slots.behind ms).behind more) name back = [] := by
    refine Event.assigned_eq_nil fun k member owned => ?_
    have inEvents : k ∈ Event.written events := by
      rw [written]
      exact List.mem_append_right _ (List.mem_cons_of_mem _ member)
    have later := rising k member
    have bound := (owned_le resolves sublist found more inEvents owned).2
    omega
  have owned : (name, slot) ∈ ((slots.behind ms).behind more).bound :=
    (Slots.mem_behind more (Slots.lt_count found)).mpr (Slots.mem_of_find? found)
  have shown :
      Event.value? ((slots.behind ms).behind more) name (.write slot, value) = some value :=
    if_pos owned
  refine ⟨front, value, back, split, fun again => Nat.lt_irrefl _ (rising slot again), ?_⟩
  rw [split, Event.assigned_append]
  change (_ ++ List.filterMap _ (_ :: back)).getLast? = _
  rw [List.filterMap_cons_some shown]
  change (_ ++ value :: Event.assigned _ name back).getLast? = _
  rw [behind, List.getLast?_concat]

/-- If it is old, the name has been given nothing. -/
theorem assigned_none (old : slot < slots.count) :
    Event.assigned ((slots.behind ms).behind more) name events = [] := by
  refine Event.assigned_eq_nil fun k member owned => ?_
  obtain ⟨low, high⟩ := owned_le resolves sublist found more member owned
  omega

end Latest

/-- The value of the slot that a name means. -/
theorem getD_eq (recounts : Recounts globals events globals') (resolves : Resolves slots ms as)
    (sublist : (events.map Prod.fst).Sublist as) (room : (slots.behind ms).count ≤ globals.size)
    (unused : ∀ slot, slots.count ≤ slot → globals.getD slot .null = .null)
    (found : (slots.behind ms).find? name = some slot)
    (before : slot < slots.count → globals.getD slot .null = value) (more : List Mention) :
    globals'.getD slot .null =
      Event.meaning slots.count ((slots.behind ms).behind more) name slot value events := by
  unfold Event.meaning
  by_cases set : slot ∈ Event.written events
  · obtain ⟨front, last, back, rfl, once, given⟩ :=
      assigned_last resolves sublist found more set
    rw [if_neg fun skipped => skipped.2 set, given]
    exact recounts.getD_of_write (Nat.lt_of_lt_of_le (Slots.lt_count found) room) once
  · rw [recounts.getD_of_not_written set]
    by_cases new : slots.count ≤ slot
    · rw [if_pos ⟨new, set⟩, unused slot new]
    · have old : slot < slots.count := Nat.lt_of_not_le new
      rw [if_neg fun skipped => new skipped.1, assigned_none resolves sublist found more old,
        before old]
      rfl

/-- A value that is read is what the name means by then. -/
theorem read_eq {front back : List Event} {shown : Value}
    (recounts : Recounts globals (front ++ (.read slot, shown) :: back) globals')
    (resolves : Resolves slots ms as)
    (sublist : ((front ++ (.read slot, shown) :: back).map Prod.fst).Sublist as)
    (room : (slots.behind ms).count ≤ globals.size)
    (unused : ∀ slot, slots.count ≤ slot → globals.getD slot .null = .null)
    (owned : (name, slot) ∈ (slots.behind ms).bound)
    (before : ∀ slot, slots.find? name = some slot → globals.getD slot .null = value) :
    shown = Event.meaning slots.count (slots.behind ms) name slot value front := by
  -- The instruction that reads, and the use that it was made for.
  rw [List.map_append, List.map_cons] at sublist
  obtain ⟨as₁, as₂, rfl, inFront, rest⟩ := List.append_sublist_iff.mp sublist
  obtain ⟨as₃, as₄, rfl, member, _⟩ := List.cons_sublist_iff.mp rest
  obtain ⟨as₅, as₆, rfl⟩ := List.append_of_mem member
  have resolves' : Resolves slots ms ((as₁ ++ as₅) ++ .read slot :: (as₆ ++ as₄)) := by
    simpa using resolves
  obtain ⟨ms₁, ms₂, rfl, resolves₁, resolves₂⟩ := resolves'.split
  cases resolves₂ with
  | @use _ other _ ms₂ _ found _ =>
    rw [Slots.behind_append] at owned room ⊢
    have mine := Slots.lt_count found
    obtain rfl : other = name :=
      Slots.owner_eq ((Slots.mem_behind _ mine).mpr (Slots.mem_of_find? found)) owned
    obtain ⟨middle, recounts₁, recounts₂⟩ := recounts.split
    cases recounts₂ with
    | read _ =>
      have within := inFront.trans (List.sublist_append_left as₁ as₅)
      refine recounts₁.getD_eq resolves₁ within ?_ unused found ?_ (.use other :: ms₂)
      · rw [Slots.count_behind] at room
        omega
      · intro old
        exact before slot (Slots.find?_of_behind found old)

end Machine.Recounts

/-! ## Names in a session -/

namespace Session

variable {s : Session} {source name : String} {slot : Nat} {value : Value}

/-- What the run of an input does with the globals, if the input is run. -/
def events (s : Session) (source : String) : List Event :=
  match parseText source with
  | (program, []) =>
    match Program.compile program s.env with
    | .ok (b, _) => Machine.events b (withGlobals defaultStackSize s.globals)
    | .error _ => []
  | _ => []

/-- The run of an input that is compiled follows the names in it. -/
theorem Sound.executed_of_compiled (sound : s.Sound) {program : Program} {b : Bytecode} {env : Env}
    (read : parseText source = (program, [])) (compiled : program.compile s.env = .ok (b, env)) :
    ∃ as, Resolves s.env.slots (Stmt.mentionsAll .compiled program) as ∧
      ((s.events source).map Prod.fst).Sublist as ∧
      (s.eval source).2.env.slots = s.env.slots.behind (Stmt.mentionsAll .compiled program) ∧
      Recounts s.globals (s.events source) (s.eval source).2.globals := by
  obtain ⟨code, q, lowers, bytes, pool, rfl⟩ := program.lowers compiled
  obtain ⟨recounts, sublist⟩ := (lowers.wellFormed bytes pool).run_events
    (m := withGlobals defaultStackSize s.globals) rfl (Nat.le_of_eq sound.globalsSize.symm)
  rw [eval_of_compiled read compiled, env_runIn, globals_runIn]
  simp only [events, read, compiled]
  exact ⟨_, lowers.resolves, sublist, lowers.needed.slots, recounts⟩

/-- A run follows the names of the input. -/
theorem Sound.executed (sound : s.Sound) (source : String) :
    ∃ ms as, Resolves s.env.slots ms as ∧ ((s.events source).map Prod.fst).Sublist as ∧
      (s.eval source).2.env.slots = s.env.slots.behind ms ∧
      Recounts s.globals (s.events source) (s.eval source).2.globals := by
  rcases read : parseText source with ⟨program, _ | ⟨fault, faults⟩⟩
  · cases compiled : Program.compile program s.env with
    | error e =>
      simp only [events, Session.eval, read, compiled]
      exact ⟨[], [], .nil, .refl _, rfl, .nil⟩
    | ok result => exact ⟨_, sound.executed_of_compiled read compiled⟩
  · simp only [events, Session.eval, read]
    exact ⟨[], [], .nil, .refl _, rfl, .nil⟩

theorem Sound.getD_unused (sound : s.Sound) (slot : Nat) (unused : s.env.slots.count ≤ slot) :
    s.globals.getD slot .null = .null := by
  rw [Array.getD_eq_getD_getElem?]
  by_cases inStore : slot < 65536
  · rw [sound.unused slot unused inStore]
    rfl
  · rw [Array.getElem?_eq_none (by rw [sound.globalsSize]; omega)]
    rfl

/-- An input that has code, and whose meaning is a value, is answered with this value. -/
theorem Sound.eval_of_lowers (sound : s.Sound) {program : Program} {code : List Instr}
    {q : Progress} {globals : Array Value} (read : parseText source = (program, []))
    (lowers : Lowers (.block program) ⟨s.env, 0⟩ code q)
    (cells : program.nodes ≤ defaultStackSize)
    (means : program.eval s.env.slots s.globals = .ok value globals) :
    (s.eval source).1 = .ok value := by
  obtain ⟨b, compiled, bytes, pool⟩ := Program.compile_of_lowers lowers
  have wellFormed := lowers.wellFormed bytes pool
  have performs := lowers.realizes (m := withGlobals defaultStackSize s.globals)
    (Code.Holds.of_toList bytes) (pool ▸ List.prefix_refl _)
    (Nat.le_of_eq sound.globalsSize.symm) (by
      change 0 + program.nodes ≤ (Array.replicate _ _).size
      rw [Nat.zero_add, Array.size_replicate]
      exact cells)
  rw [lastPopped_withGlobals] at performs
  change Performs b _ 0 _ q.position (program.eval s.env.slots s.globals) at performs
  rw [means] at performs
  obtain ⟨visited, m, steps, left⟩ := performs
  have ends : q.position = b.code.size := by
    rw [lowers.position_eq, wellFormed.size_eq, Nat.zero_add]
  have done : run b (withGlobals defaultStackSize s.globals) = (.ok (), m) :=
    wellFormed.run_of_end rfl (ends ▸ steps)
  have answer : m.lastPopped = value := by
    rw [lastPopped, left.top]
    exact left.value
  rw [eval_of_compiled read compiled, Session.runIn, done]
  exact congrArg Except.ok answer

section Name

variable (isName : Token.tokenize name = [⟨.ident, name⟩, .eof])

include isName

/-- A name without a slot is not compiled. -/
theorem eval_unbound (unbound : s.env.slots.find? name = none) (value : Value) :
    (s.eval name).1 ≠ .ok value := by
  have read := parseText_name isName
  cases compiled : Program.compile [.expr (.name name)] s.env with
  | error e => simp [Session.eval, read, compiled]
  | ok result =>
    obtain ⟨_, _, lowers, _⟩ := Program.lowers compiled
    cases lowers with
    | next lower _ => cases lower with
      | dropped lower => cases lower with
        | name found _ => cases unbound.symm.trans found

/-- A name has the value of its slot. -/
theorem Sound.eval_bound (sound : s.Sound) (found : s.env.slots.find? name = some slot) :
    (s.eval name).1 = .ok (s.globals.getD slot .null) := by
  have fits : slot < 65536 := Nat.lt_of_lt_of_le (Slots.lt_count found) sound.slotsRoom
  have lowers : Lowers (.block [.expr (.name name)]) ⟨s.env, 0⟩ _ _ :=
    .next (.dropped (.name found fits)) .done
  have means : Program.eval [.expr (.name name)] s.env.slots s.globals =
      .ok (s.globals.getD slot .null) s.globals := by
    simp only [Program.eval, Stmt.evalAll, Stmt.eval, Expr.eval, found]
    rfl
  have cells : 2 ≤ defaultStackSize := by decide
  exact sound.eval_of_lowers (parseText_name isName) lowers cells means

theorem Sound.eval_name (sound : s.Sound) : (s.eval name).1 = .ok value ↔
    ∃ slot, s.env.slots.find? name = some slot ∧ s.globals.getD slot .null = value := by
  constructor
  · intro means
    cases found : s.env.slots.find? name with
    | none => exact (eval_unbound isName found value means).elim
    | some slot =>
      rw [sound.eval_bound isName found] at means
      exact ⟨slot, rfl, Except.ok.inj means⟩
  · rintro ⟨slot, found, rfl⟩
    exact sound.eval_bound isName found

end Name

/-- What a name means behind an input, and wherever it is read in it. Let it have a
value in front of the input. Then it has the value of the definition executed last, or
else the value from before, as long as the latest definition in front of the use has
been executed or there is none. If that definition has been left out, the name reads
as null, whatever it was given before. -/
theorem redefinition (inputs : List String) (source : String)
    (isName : Token.tokenize name = [⟨.ident, name⟩, .eof])
    (means : ((after inputs).eval name).1 = .ok value) :
    let s := after inputs
    let s' := (s.eval source).2
    (∃ slot, s'.env.slots.find? name = some slot ∧
      (s'.eval name).1 = .ok (Event.meaning s.env.slots.count s'.env.slots name slot value
        (s.events source))) ∧
      ∀ front slot shown back, s.events source = front ++ (.read slot, shown) :: back →
        (name, slot) ∈ s'.env.slots.bound →
        shown = Event.meaning s.env.slots.count s'.env.slots name slot value front := by
  intro s s'
  have sound : s.Sound := sound_after inputs
  have sound' : s'.Sound := (sound.eval source).sound
  obtain ⟨ms, as, resolves, sublist, behind, recounts⟩ := sound.executed source
  obtain ⟨old, foundOld, same⟩ := (sound.eval_name isName).mp means
  have before : ∀ slot, s.env.slots.find? name = some slot → s.globals.getD slot .null = value := by
    intro slot found
    cases foundOld.symm.trans found
    exact same
  have room : (s.env.slots.behind ms).count ≤ s.globals.size := by
    rw [← behind, sound.globalsSize]
    exact sound'.slotsRoom
  constructor
  · obtain ⟨slot, found⟩ := Slots.exists_find?_behind ms foundOld
    have found' : s'.env.slots.find? name = some slot := behind ▸ found
    refine ⟨slot, found', (sound'.eval_name isName).mpr ⟨slot, found', ?_⟩⟩
    rw [behind]
    exact recounts.getD_eq resolves sublist room sound.getD_unused found
      (fun inOld => before slot (Slots.find?_of_behind found inOld)) []
  · intro front slot shown back split owned
    rw [split] at recounts sublist
    rw [behind] at owned ⊢
    exact recounts.read_eq resolves sublist room sound.getD_unused owned before

theorem redefinition_left_out :
    ((after ["let x = 1;"]).eval "x").1 = .ok (.integer 1) ∧
      (((after ["let x = 1;"]).eval "if (false) \x7b let x = 2; \x7d").2.eval "x").1 =
        .ok .null := by
  have facts : ((after ["let x = 1;"]).eval "x").1 = .ok (.integer 1) ∧
      (after ["let x = 1;"]).env.slots.count = 1 ∧
      (after ["let x = 1;"]).events "if (false) \x7b let x = 2; \x7d" = [] ∧
      ((after ["let x = 1;"]).eval "if (false) \x7b let x = 2; \x7d").2.env.slots.find? "x" =
        some 1 := by
    decide +kernel
  obtain ⟨means, count, quiet, latest⟩ := facts
  obtain ⟨⟨slot, found, reads⟩, _⟩ :=
    redefinition ["let x = 1;"] "if (false) \x7b let x = 2; \x7d" rfl means
  cases latest.symm.trans found
  rw [count, quiet] at reads
  exact ⟨means, reads⟩

end Session

end Stacklet
