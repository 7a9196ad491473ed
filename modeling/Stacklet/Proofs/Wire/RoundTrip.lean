import Stacklet.Wire.Bytecode

/-!
# Stored byte code reads back

What `Bytecode.toBytes` writes, `Bytecode.ofBytes` reads, whatever stands behind
it. Writing fails on built-in functions only and reading back on errors only,
since these are read under another number than they are written under; both may
stand in arrays at any depth.

A length is a number of 64 bits. `Bytecode.Addressable` says that the lengths are
small enough for that, as those of everything in memory are.
-/

namespace Stacklet

/-! ## Values inside values -/

namespace Value

/-- A value stands in another one: it is that value or stands in one of its items. -/
inductive Inside (inner : Value) : Value → Prop
  | self : Inside inner inner
  | item {items : List Value} {item : Value} :
    item ∈ items → Inside inner item → Inside inner (.array items)

/-- A value of some kind stands in a value. -/
def Contains (kind : Value → Prop) (value : Value) : Prop :=
  ∃ inner, Inside inner value ∧ kind inner

/-- Built-in functions. -/
def IsBuiltin : Value → Prop
  | .builtin _ => True
  | _ => False

/-- Errors. -/
def IsError (value : Value) : Prop := value.isError = true

/-- The length of a value, if it has one, is a number of 64 bits. -/
def Countable : Value → Prop
  | .string text | .error text => text.utf8ByteSize < UInt64.size
  | .array items => items.length < UInt64.size
  | _ => True

/-- The lengths of all that stands in a value are numbers of 64 bits. -/
def Addressable (value : Value) : Prop := ∀ inner, Inside inner value → inner.Countable

section Inside

variable {value : Value} {items : List Value} {kind : Value → Prop}

theorem contains_iff (scalar : ∀ items, value ≠ .array items) :
    value.Contains kind ↔ kind value := by
  constructor
  · rintro ⟨inner, inside, holds⟩
    cases inside with
    | self => exact holds
    | item => exact (scalar _ rfl).elim
  · exact fun holds => ⟨value, .self, holds⟩

theorem contains_array (noArray : ∀ items, ¬ kind (.array items)) :
    Contains kind (.array items) ↔ ∃ item ∈ items, item.Contains kind := by
  constructor
  · rintro ⟨inner, inside, holds⟩
    cases inside with
    | self => exact (noArray items holds).elim
    | @item _ item member inside => exact ⟨item, member, inner, inside, holds⟩
  · rintro ⟨item, member, inner, inside, holds⟩
    exact ⟨inner, .item member inside, holds⟩

theorem addressable_iff (scalar : ∀ items, value ≠ .array items) :
    value.Addressable ↔ value.Countable := by
  constructor
  · exact fun addressable => addressable value .self
  · intro countable inner inside
    cases inside with
    | self => exact countable
    | item => exact (scalar _ rfl).elim

theorem Addressable.item (addressable : Addressable (.array items)) {item : Value}
    (member : item ∈ items) : item.Addressable :=
  fun inner inside => addressable inner (.item member inside)

theorem addressable_array : Addressable (.array items) ↔
    items.length < UInt64.size ∧ ∀ item ∈ items, item.Addressable := by
  constructor
  · exact fun addressable => ⟨addressable _ .self, fun _ => addressable.item⟩
  · rintro ⟨length, inside⟩ inner (_ | ⟨member, deeper⟩)
    · exact length
    · exact inside _ member inner deeper

end Inside

end Value

namespace Wire

open Value

/-! ## Writing -/

section Writing

variable {value : Value}

/-- Writing in front of some bytes fails if something cannot be written, and else
puts bytes there that do not depend on those behind them. -/
def Writes (hindered : Prop) (write : List UInt8 → Except WireError (List UInt8)) : Prop :=
  (hindered ∧ ∀ rest, write rest = .error .builtin) ∨
    (¬ hindered ∧ ∃ front, ∀ rest, write rest = .ok (front ++ rest))

theorem Writes.scalar (front : List UInt8) (noArray : ∀ items, value ≠ .array items)
    (noBuiltin : ¬ value.IsBuiltin) (same : ∀ rest, valueOnto value rest = .ok (front ++ rest)) :
    Writes (value.Contains IsBuiltin) (valueOnto value) :=
  .inr ⟨fun contains => noBuiltin ((contains_iff noArray).mp contains), front, same⟩

mutual

theorem writes_valueOnto : (value : Value) → Writes (value.Contains IsBuiltin) (valueOnto value)
  | .integer n => .scalar (0 :: varint (zigzag n.toInt)) nofun id fun _ => rfl
  | .boolean b => .scalar [1, if b then 1 else 0] nofun id fun _ => rfl
  | .null => .scalar [2] nofun id fun _ => rfl
  | .string text => .scalar (3 :: textBytes text) nofun id fun _ => rfl
  | .error message => .scalar (6 :: textBytes message) nofun id fun _ => rfl
  | .builtin function => .inl ⟨⟨_, .self, trivial⟩, fun _ => rfl⟩
  | .array items => by
    rw [contains_array (fun _ => id)]
    rcases writes_valuesOnto items with ⟨inside, fails⟩ | ⟨free, front, writes⟩
    · refine .inl ⟨inside, fun rest => ?_⟩
      rw [valueOnto, fails]
      rfl
    · refine .inr ⟨free, 4 :: (varint items.length ++ front), fun rest => ?_⟩
      rw [valueOnto, writes, List.cons_append, List.append_assoc]
      rfl

theorem writes_valuesOnto : (values : List Value) →
    Writes (∃ value ∈ values, value.Contains IsBuiltin) (valuesOnto values)
  | [] => .inr ⟨by simp, [], fun _ => rfl⟩
  | value :: values => by
    simp only [List.mem_cons, exists_eq_or_imp]
    rcases writes_valuesOnto values with ⟨inside, fails⟩ | ⟨free, back, writes⟩
    · refine .inl ⟨.inr inside, fun rest => ?_⟩
      rw [valuesOnto, fails]
      rfl
    · have unfolded (rest : List UInt8) :
          valuesOnto (value :: values) rest = valueOnto value (back ++ rest) := by
        rw [valuesOnto, writes]
        rfl
      rcases writes_valueOnto value with ⟨inside, fails⟩ | ⟨free', front, writes'⟩
      · exact .inl ⟨.inl inside, fun rest => (unfolded rest).trans (fails _)⟩
      · refine .inr ⟨fun inside => inside.elim free' free, front ++ back, fun rest => ?_⟩
        rw [unfolded, writes', List.append_assoc]

end

end Writing

/-! ## Reading -/

section Reading

variable {α β : Type} {x : Reader α} {f : α → Reader β} {a : α} {bytes rest : List UInt8}

theorem read_of_ok (first : x bytes = .ok (a, rest)) : (x >>= f) bytes = f a rest := by
  change StateT.bind x f bytes = _
  rw [StateT.bind, first]
  rfl

theorem read_of_error {e : WireError} (failed : x bytes = .error e) :
    (x >>= f) bytes = .error e := by
  change StateT.bind x f bytes = _
  rw [StateT.bind, failed]
  rfl

theorem readBytes_append (field rest : List UInt8) :
    readBytes field.length (field ++ rest) = .ok (field, rest) := by
  simp [readBytes]

theorem fromUTF8?_toUTF8 (text : String) : String.fromUTF8? text.toUTF8 = some text :=
  dif_pos text.isValidUTF8

theorem readText_textBytes {text : String} (short : text.utf8ByteSize < UInt64.size) :
    readText (textBytes text ++ rest) = .ok (text, rest) := by
  have field := readBytes_append text.toUTF8.data.toList rest
  rw [Array.length_toList] at field
  unfold readText textBytes
  rw [List.append_assoc, read_of_ok (readNumber_varint (n := text.toUTF8.data.size) _ short),
    read_of_ok field, fromUTF8?_toUTF8 text]
  rfl

/-- What was written is read back and what follows it is left, unless it is spoiled. -/
def ReadsBack (spoiled : Prop) (result : Except WireError (α × List UInt8)) (a : α)
    (rest : List UInt8) : Prop :=
  (spoiled ∧ result = .error .unknownVariant) ∨ (¬ spoiled ∧ result = .ok (a, rest))

theorem zigzag_lt (n : Int64) : zigzag n.toInt < UInt64.size := by
  have low : -9223372036854775808 ≤ n.toInt := n.minValue_le_toInt
  have high : n.toInt ≤ 9223372036854775807 := n.toInt_le
  change _ < 18446744073709551616
  unfold zigzag
  split <;> omega

variable {budget : Nat}

theorem ReadsBack.scalar (value : Value) (noArray : ∀ items, value ≠ .array items)
    (noError : ¬ value.IsError)
    {result : Except WireError (Value × List UInt8)} (same : result = .ok (value, rest)) :
    ReadsBack (value.Contains IsError) result value rest :=
  .inr ⟨fun contains => noError ((contains_iff noArray).mp contains), same⟩

theorem readVariant_cons {tag : UInt8} (small : tag.toNat < 128) :
    readVariant (tag :: rest) = .ok (tag.toNat, rest) := by
  unfold readVariant readVarint
  rw [read_of_ok (show readByte (tag :: rest) = .ok (tag, rest) from rfl), if_pos small]
  rfl

/-- A written value takes a byte at least, so a budget that covers it is not used up. -/
theorem exists_budget {tag : UInt8} (front : List UInt8)
    (enough : (tag :: (front ++ rest)).length ≤ rest.length + budget) :
    ∃ more, budget = more + 1 ∧ (front ++ rest).length ≤ rest.length + more := by
  rw [List.length_cons] at enough
  have longer : (front ++ rest).length = front.length + rest.length := List.length_append
  exact ⟨budget - 1, by omega, by omega⟩

mutual

theorem readValue_written : (value : Value) → ∀ {budget : Nat} {rest bytes : List UInt8},
    value.Addressable → valueOnto value rest = .ok bytes → bytes.length ≤ rest.length + budget →
    ReadsBack (value.Contains IsError) (readValue budget bytes) value rest
  | .integer n, budget, rest, _, _, written, enough => by
    cases written
    obtain ⟨budget, rfl, _⟩ := exists_budget _ enough
    refine .scalar (.integer n) nofun Bool.false_ne_true ?_
    rw [readValue, read_of_ok (readVariant_cons (by decide))]
    change (readNumber >>= _) _ = _
    rw [read_of_ok (readNumber_varint rest (zigzag_lt n)), unzigzag_zigzag, Int64.ofInt_toInt]
    rfl
  | .boolean b, budget, rest, _, _, written, enough => by
    cases written
    obtain ⟨budget, rfl, _⟩ := exists_budget [if b then 1 else 0] enough
    refine .scalar (.boolean b) nofun Bool.false_ne_true ?_
    rw [readValue, read_of_ok (readVariant_cons (by decide))]
    cases b <;> rfl
  | .null, budget, rest, _, _, written, enough => by
    cases written
    obtain ⟨budget, rfl, _⟩ := exists_budget [] enough
    refine .scalar .null nofun Bool.false_ne_true ?_
    rw [readValue, read_of_ok (readVariant_cons (by decide))]
    rfl
  | .string text, budget, rest, _, addressable, written, enough => by
    cases written
    obtain ⟨budget, rfl, _⟩ := exists_budget _ enough
    refine .scalar (.string text) nofun Bool.false_ne_true ?_
    rw [readValue, read_of_ok (readVariant_cons (by decide))]
    change (readText >>= _) _ = _
    rw [read_of_ok (readText_textBytes (addressable _ .self))]
    rfl
  | .error message, budget, rest, _, _, written, enough => by
    cases written
    obtain ⟨budget, rfl, _⟩ := exists_budget _ enough
    refine .inl ⟨⟨_, .self, rfl⟩, ?_⟩
    rw [readValue, read_of_ok (readVariant_cons (by decide))]
    rfl
  | .builtin function, _, _, _, _, written, _ => nomatch written
  | .array items, budget, rest, _, addressable, written, enough => by
    rw [valueOnto] at written
    rcases writes_valuesOnto items with ⟨_, fails⟩ | ⟨_, front, writes⟩
    · rw [fails] at written
      cases written
    · rw [writes] at written
      cases written
      have longer : (varint items.length ++ (front ++ rest)).length =
          (varint items.length).length + (front ++ rest).length := List.length_append
      rw [List.length_cons] at enough
      obtain ⟨budget, rfl⟩ : ∃ more, budget = more + 1 := ⟨budget - 1, by
        have more : (front ++ rest).length = front.length + rest.length := List.length_append
        omega⟩
      rw [readValue, read_of_ok (readVariant_cons (by decide)),
        contains_array fun _ => Bool.false_ne_true]
      change ReadsBack _ ((readNumber >>= _) _) _ _
      rw [read_of_ok (readNumber_varint _ (addressable _ .self))]
      rcases readMany_written items #[] (fun _ => addressable.item) (writes rest)
          (show _ ≤ rest.length + budget by omega) with ⟨spoiled, failed⟩ | ⟨free, items'⟩
      · exact .inl ⟨spoiled, read_of_error failed⟩
      · refine .inr ⟨free, ?_⟩
        rw [read_of_ok items', Array.empty_append]
        rfl

theorem readMany_written : (values : List Value) →
    ∀ {budget : Nat} (read : Array Value) {rest bytes : List UInt8},
    (∀ value ∈ values, value.Addressable) → valuesOnto values rest = .ok bytes →
    bytes.length ≤ rest.length + budget →
    ReadsBack (∃ value ∈ values, value.Contains IsError)
      (readMany (readValue budget) values.length read bytes) (read ++ values.toArray) rest
  | [], _, _, _, _, _, written, _ => by
    cases written
    exact .inr ⟨by simp, by simp; rfl⟩
  | value :: values, budget, read, rest, bytes, addressable, written, enough => by
    rw [valuesOnto] at written
    simp only [List.mem_cons, exists_eq_or_imp]
    rcases writes_valuesOnto values with ⟨_, fails⟩ | ⟨_, back, writes⟩
    · rw [fails] at written
      cases written
    rw [writes] at written
    change valueOnto value (back ++ rest) = _ at written
    rcases writes_valueOnto value with ⟨_, fails⟩ | ⟨_, front, writes'⟩
    · rw [fails] at written
      cases written
    · obtain rfl : front ++ (back ++ rest) = bytes := Except.ok.inj ((writes' _).symm.trans written)
      simp only [List.length_append] at enough
      have first := readValue_written value (addressable value (by simp)) written
        (show _ ≤ _ + budget by simp only [List.length_append]; omega)
      have others := readMany_written values (read.push value)
        (fun value member => addressable value (by simp [member])) (writes rest)
        (show _ ≤ _ + budget by simp only [List.length_append]; omega)
      rw [List.length_cons, readMany]
      rcases first with ⟨spoiled, failed⟩ | ⟨free, first⟩
      · exact .inl ⟨.inl spoiled, read_of_error failed⟩
      · rw [read_of_ok first]
        rcases others with ⟨spoiled, failed⟩ | ⟨free', others⟩
        · exact .inl ⟨.inr spoiled, failed⟩
        · refine .inr ⟨fun spoiled => spoiled.elim free free', ?_⟩
          rw [others]
          simp

end

end Reading

end Wire

/-! ## Byte code -/

/-- A value of some kind stands in a constant. -/
def Bytecode.Contains (kind : Value → Prop) (b : Bytecode) : Prop :=
  ∃ value ∈ b.constants, value.Contains kind

/-- All lengths in byte code are numbers of 64 bits. -/
structure Bytecode.Addressable (b : Bytecode) : Prop where
  code : b.code.size < UInt64.size
  constants : b.constants.size < UInt64.size
  values : ∀ value ∈ b.constants, value.Addressable

namespace Wire

open Value

/-- The numbers and the code in front of the constants are read back. -/
theorem readBytecode_eq {b : Bytecode} (code : b.code.size < UInt64.size)
    (constants : b.constants.size < UInt64.size) (bytes : List UInt8) :
    readBytecode (varint b.code.size ++ (b.code.toList ++ (varint b.constants.size ++ bytes))) =
      (do
        let values ← readMany (readValue bytes.length) b.constants.size #[]
        return ⟨b.code, values⟩ : Reader Bytecode) bytes := by
  have field := readBytes_append b.code.toList (varint b.constants.size ++ bytes)
  rw [Array.length_toList] at field
  unfold readBytecode
  rw [read_of_ok (readNumber_varint _ code), read_of_ok field,
    read_of_ok (readNumber_varint _ constants)]
  rfl

theorem readBytecode_written {b : Bytecode} {bytes rest : List UInt8} (addressable : b.Addressable)
    (written : valuesOnto b.constants.toList rest = .ok bytes) :
    ReadsBack (b.Contains IsError)
      (readBytecode (varint b.code.size ++ (b.code.toList ++ (varint b.constants.size ++ bytes))))
      b rest := by
  rw [readBytecode_eq addressable.code addressable.constants, ← Array.length_toList]
  have items := readMany_written b.constants.toList #[]
    (fun value member => addressable.values value (Array.mem_toList_iff.mp member)) written
    (Nat.le_add_left bytes.length rest.length)
  rcases items with ⟨⟨value, member, spoiled⟩, failed⟩ | ⟨free, items⟩
  · exact .inl ⟨⟨value, Array.mem_toList_iff.mp member, spoiled⟩, read_of_error failed⟩
  · refine .inr ⟨fun ⟨value, member, spoiled⟩ => free ⟨value, Array.mem_toList_iff.mpr member,
      spoiled⟩, ?_⟩
    rw [read_of_ok items, Array.empty_append]
    rfl

theorem foldrM_valueOnto (values : List Value) :
    values.foldrM valueOnto [] = valuesOnto values [] := by
  induction values with
  | nil => rfl
  | cons value values ih =>
    rw [List.foldrM_cons, ih]
    rfl

end Wire

namespace Bytecode

open Value Wire

variable {b : Bytecode}

/-- Byte code is stored unless a built-in function stands in a constant. -/
theorem toBytes_cases (b : Bytecode) :
    (b.Contains IsBuiltin ∧ b.toBytes = .error .builtin) ∨
      (¬ b.Contains IsBuiltin ∧ ∃ constants,
        (∀ rest, valuesOnto b.constants.toList rest = .ok (constants ++ rest)) ∧
        b.toBytes = .ok
          (varint b.code.size ++ (b.code.toList ++ (varint b.constants.size ++ constants)))) := by
  have contains : b.Contains IsBuiltin ↔
      ∃ value ∈ b.constants.toList, value.Contains IsBuiltin := by
    simp only [Bytecode.Contains, Array.mem_toList_iff]
  unfold toBytes
  rw [contains, foldrM_valueOnto]
  rcases writes_valuesOnto b.constants.toList with ⟨inside, fails⟩ | ⟨free, constants, writes⟩
  · rw [fails]
    exact .inl ⟨inside, rfl⟩
  · refine .inr ⟨free, constants, writes, ?_⟩
    rw [writes, List.append_nil]
    rfl

/-- Byte code is stored unless a built-in function stands in a constant, and this
is the only failure. What is stored is read back, whatever stands behind it, unless
an error stands in a constant: then reading fails. -/
theorem ofBytes_toBytes (b : Bytecode) :
    ((∃ e, b.toBytes = .error e) ↔ b.Contains IsBuiltin) ∧
    (∀ e, b.toBytes = .error e → e = .builtin) ∧
    (¬ b.Contains IsBuiltin → b.Addressable → ∃ bytes, b.toBytes = .ok bytes ∧ ∀ rest,
      (¬ b.Contains IsError → ofBytes (bytes ++ rest) = .ok b) ∧
      (b.Contains IsError → ofBytes (bytes ++ rest) = .error .unknownVariant)) := by
  rcases b.toBytes_cases with ⟨contains, failed⟩ | ⟨free, constants, writes, stored⟩
  · refine ⟨⟨fun _ => contains, fun _ => ⟨_, failed⟩⟩, fun e failed' => ?_,
      fun free => (free contains).elim⟩
    rw [failed] at failed'
    cases failed'
    rfl
  · refine ⟨⟨fun ⟨e, failed⟩ => ?_, fun contains => (free contains).elim⟩, fun e failed => ?_,
      fun _ addressable => ⟨_, stored, fun rest => ?_⟩⟩
    · rw [stored] at failed
      cases failed
    · rw [stored] at failed
      cases failed
    · have read : ofBytes (varint b.code.size ++
          (b.code.toList ++ (varint b.constants.size ++ constants)) ++ rest) =
          (readBytecode (varint b.code.size ++
            (b.code.toList ++ (varint b.constants.size ++ (constants ++ rest))))).map Prod.fst := by
        simp only [List.append_assoc]
        rfl
      rw [read]
      rcases readBytecode_written addressable (writes rest) with ⟨spoiled, fails⟩ | ⟨free', back⟩
      · rw [fails]
        exact ⟨fun free' => (free' spoiled).elim, fun _ => rfl⟩
      · rw [back]
        exact ⟨fun _ => rfl, fun spoiled => (free' spoiled).elim⟩

/-- A text of two bytes in an array in an array, behind a negative number. -/
theorem ofBytes_toBytes_nested : ∃ bytes,
    toBytes ⟨#[0, 0, 1, 5], #[.integer (-300), .array [.null, .array [.string "é"]]]⟩ = .ok bytes ∧
    ofBytes (bytes ++ [6, 0]) =
      .ok ⟨#[0, 0, 1, 5], #[.integer (-300), .array [.null, .array [.string "é"]]]⟩ := by
  have free {kind : Value → Prop} (noArray : ∀ items, ¬ kind (.array items))
      (noInteger : ¬ kind (.integer (-300))) (noNull : ¬ kind .null)
      (noString : ¬ kind (.string "é")) : ¬ Bytecode.Contains kind
        ⟨#[0, 0, 1, 5], #[.integer (-300), .array [.null, .array [.string "é"]]]⟩ := by
    simp [Bytecode.Contains, contains_array noArray, contains_iff, noInteger, noNull, noString]
  have addressable : Bytecode.Addressable
      ⟨#[0, 0, 1, 5], #[.integer (-300), .array [.null, .array [.string "é"]]]⟩ := by
    have short : "é".utf8ByteSize < 18446744073709551616 := by decide
    refine ⟨by decide, by decide, ?_⟩
    simp [addressable_array, addressable_iff, Value.Countable, UInt64.size, short]
  obtain ⟨bytes, stored, back⟩ := (ofBytes_toBytes _).2.2
    (free (fun _ => id) id id id) addressable
  have noError := Bool.false_ne_true
  exact ⟨bytes, stored, (back [6, 0]).1 (free (fun _ => noError) noError noError noError)⟩

end Bytecode

end Stacklet
