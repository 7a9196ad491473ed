import Stacklet.Proofs.Session.Redefinition

/-!
# Globals are set once

Every definition takes a slot that none has had before, and code only jumps forward.
So over a whole session no slot is set twice, and the value that is set once stays
there (`Session.set_once`): neither a later instruction nor a later input changes it,
also if its name is redefined. What the runs of a session do is one row of events
(`Session.history`), which sets the slots in order.
-/

namespace Stacklet

open Machine

namespace Machine.Recounts

variable {globals globals' : Array Value} {events : List Event} {slot : Nat} {value : Value}

/-- If no slot is set twice, every slot has the value that it was set to. -/
theorem getElem?_of_once (recounts : Recounts globals events globals')
    (once : (Event.written events).Nodup) (set : (.write slot, value) ∈ events)
    (inStore : slot < globals.size) : globals'[slot]? = some value := by
  obtain ⟨front, back, rfl⟩ := List.append_of_mem set
  have split : Event.written (front ++ (.write slot, value) :: back) =
      Event.written front ++ slot :: Event.written back := Event.written_append ..
  rw [split] at once
  have never := (List.nodup_cons.mp (List.nodup_append.mp once).2.1).1
  exact recounts.getElem?_of_write inStore never

end Machine.Recounts

namespace Session

variable {s : Session} {inputs : List String} {slot : Nat} {value : Value}

/-! ## The events of a session -/

/-- The events lead from one session to another and set, in order, slots that have been
handed out in between. -/
structure Leads (s : Session) (events : List Event) (slots : Slots) (globals : Array Value) :
    Prop where
  recounts : Recounts s.globals events globals
  handedOut : s.env.slots.count ≤ slots.count
  written : (Event.written events).Sublist
    (List.range' s.env.slots.count (slots.count - s.env.slots.count))

/-- Events on the way through an input, and those of all inputs in front of it. -/
theorem Leads.append {s' : Session} {events events' : List Event} {slots : Slots}
    {globals : Array Value} (first : Leads s events s'.env.slots s'.globals)
    (second : Leads s' events' slots globals) : Leads s (events ++ events') slots globals where
  recounts := first.recounts.append second.recounts
  handedOut := Nat.le_trans first.handedOut second.handedOut
  written := by
    have before := first.handedOut
    have behind := second.handedOut
    have apart : slots.count - s.env.slots.count =
        (s'.env.slots.count - s.env.slots.count) + (slots.count - s'.env.slots.count) := by omega
    rw [Event.written_append, apart, ← List.range'_append_1, Nat.add_sub_cancel' before]
    exact first.written.append second.written

theorem Leads.count_le_one {events : List Event} {slots : Slots} {globals : Array Value}
    (leads : Leads s events slots globals) (slot : Nat) :
    (Event.written events).count slot ≤ 1 :=
  List.nodup_iff_count_le_one.mp (leads.written.nodup List.nodup_range') slot

/-- What is set on the way stays as it was set. -/
theorem Leads.holds (sound : s.Sound) {events : List Event} {slots : Slots} {globals : Array Value}
    (leads : Leads s events slots globals) (room : slots.count ≤ 65536)
    (set : (.write slot, value) ∈ events) : globals[slot]? = some value := by
  refine leads.recounts.getElem?_of_once (leads.written.nodup List.nodup_range') set ?_
  have member : slot ∈ Event.written events :=
    List.mem_filterMap.mpr ⟨.write slot, List.mem_map_of_mem set, rfl⟩
  have before := leads.handedOut
  have inRange := List.mem_range'_1.mp (leads.written.subset member)
  rw [sound.globalsSize]
  omega

/-- Events of code that follow the names in it. -/
theorem Leads.of_resolves {events : List Event} {globals : Array Value} {ms : List Mention}
    {as : List Access} (resolves : Resolves s.env.slots ms as)
    (sublist : (events.map Prod.fst).Sublist as) (recounts : Recounts s.globals events globals) :
    Leads s events (s.env.slots.behind ms) globals where
  recounts := recounts
  handedOut := by
    rw [Slots.count_behind]
    exact Nat.le_add_right ..
  written := by
    rw [Slots.count_behind, Nat.add_sub_cancel_left]
    exact Recounts.written_sublist resolves sublist

/-- The events of an input. -/
theorem Sound.leads (sound : s.Sound) (source : String) :
    Leads s (s.events source) (s.eval source).2.env.slots (s.eval source).2.globals := by
  obtain ⟨ms, as, resolves, sublist, behind, recounts⟩ := sound.executed source
  rw [behind]
  exact .of_resolves resolves sublist recounts

/-- The events of the run of an input, up to any offset that it comes to. -/
theorem leads_steps {program : Program} {b : Bytecode} {env : Env} {visited : List Nat} {o : Nat}
    {m : Machine} (compiled : program.compile s.env = .ok (b, env))
    (steps : Steps b visited 0 (withGlobals defaultStackSize s.globals) o m) :
    Leads s (eventsFrom b visited.length 0 (withGlobals defaultStackSize s.globals)) env.slots
      m.globals := by
  obtain ⟨code, q, lowers, bytes, constants, rfl⟩ := program.lowers compiled
  have wellFormed := lowers.wellFormed bytes constants
  obtain ⟨events, taken, recounts, sublist⟩ :=
    wellFormed.steps_events (List.nil_append code).symm Instr.extent_nil wellFormed.start.symm steps
  have whole := taken 0
  rw [Nat.add_zero, eventsFrom, List.append_nil] at whole
  rw [whole, lowers.needed.slots]
  exact .of_resolves lowers.resolves sublist recounts

/-- What the runs of a list of inputs do with the globals, one after the other. -/
def history (s : Session) : List String → List Event
  | [] => []
  | source :: rest => s.events source ++ (s.eval source).2.history rest

theorem history_append (s : Session) (inputs later : List String) :
    s.history (inputs ++ later) = s.history inputs ++ (s.evalAll inputs).history later := by
  induction inputs generalizing s with
  | nil => rfl
  | cons source inputs ih =>
    change s.events source ++ (s.eval source).2.history (inputs ++ later) = _
    rw [ih, ← List.append_assoc]
    rfl

theorem Sound.leads_history (sound : s.Sound) (inputs : List String) :
    Leads s (s.history inputs) (s.evalAll inputs).env.slots (s.evalAll inputs).globals := by
  induction inputs generalizing s with
  | nil => exact .of_resolves .nil (.refl _) .nil
  | cons source inputs ih => exact (sound.leads source).append (ih (sound.eval source).sound)

/-! ## What is set once -/

/-- No slot is ever set twice. So a slot that was set to a value, by an input that ran
to its end or by one that stopped halfway, has that value after all further inputs, and
from then on while the next one runs. -/
theorem set_once (inputs : List String) :
    (∀ slot, (Event.written (fresh.history inputs)).count slot ≤ 1) ∧
      (∀ slot value, (.write slot, value) ∈ fresh.history inputs →
        ∀ later, (after (inputs ++ later)).globals[slot]? = some value) ∧
      ∀ program b env, Program.compile program (after inputs).env = .ok (b, env) →
        let start := withGlobals defaultStackSize (after inputs).globals
        ∀ visited o m, Steps b visited 0 start o m →
          let events := fresh.history inputs ++ eventsFrom b visited.length 0 start
          (∀ slot, (Event.written events).count slot ≤ 1) ∧
            ∀ slot value, (.write slot, value) ∈ events →
              ∀ visited' o' m', Steps b visited' o m o' m' → m'.globals[slot]? = some value := by
  have leads : ∀ inputs, Leads fresh (fresh.history inputs) (after inputs).env.slots
      (after inputs).globals := sound_fresh.leads_history
  refine ⟨(leads inputs).count_le_one, ?_, ?_⟩
  · intro slot value set later
    apply (leads (inputs ++ later)).holds sound_fresh (sound_after (inputs ++ later)).slotsRoom
    rw [history_append]
    exact List.mem_append_left _ set
  · intro program b env compiled start visited o m steps events
    refine ⟨((leads inputs).append (leads_steps compiled steps)).count_le_one, ?_⟩
    intro slot value set visited' o' m' steps'
    have room : env.slots.count ≤ 65536 := by
      obtain ⟨code, q, lowers, _, _, rfl⟩ := program.lowers compiled
      exact lowers.slots_room (sound_after inputs).slotsRoom
    apply ((leads inputs).append (leads_steps compiled (steps.trans steps'))).holds sound_fresh room
    rw [List.length_append, steps.eventsFrom_add, ← List.append_assoc]
    exact List.mem_append_left _ set

end Session

end Stacklet
