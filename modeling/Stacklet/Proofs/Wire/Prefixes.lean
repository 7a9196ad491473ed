import Stacklet.Proofs.Wire.RoundTrip

/-!
# What reading takes from the bytes

A reader that succeeds has taken a front of its bytes, and nothing else has a part in
what it gives: it gives the same whatever stands behind this front, and any shorter front
ends too early (`Takes`). Every reader here is of this kind, and composing readers keeps it
(`Reads.bind`). What is read can be written, in no more bytes than have been taken: numbers
may be read from more bytes than they need, but are written in as few as possible.

The budget of a reader of values is the number of bytes that are left, so it is not the
same for a front of the bytes. A budget that is large enough has no part in the result
either (`readValue_of_enough`).
-/

namespace Stacklet

namespace Wire

open Value

/-! ## Fronts -/

/-- A reader takes just these bytes for a result. In a shorter front of them it hits the end. -/
structure Takes {α : Type} (x : Reader α) (front : List UInt8) (a : α) : Prop where
  whole (rest : List UInt8) : x (front ++ rest) = .ok (a, rest)
  short {part : List UInt8} {byte : UInt8} {more : List UInt8} :
    front = part ++ byte :: more → x part = .error .unexpectedEnd

/-- Whenever a reader gives something, it takes a front of the bytes, and `holds` says what
is known of the result and of the number of bytes that have been taken. -/
structure Reads {α : Type} (x : Reader α) (holds : α → Nat → Prop) : Prop where
  takes {bytes : List UInt8} {a : α} {rest : List UInt8} : x bytes = .ok (a, rest) →
    ∃ front, bytes = front ++ rest ∧ Takes x front a ∧ holds a front.length

section Reads

variable {α β : Type} {x : Reader α} {f g : α → Reader β} {a : α} {b : β}
  {holds holds' : α → Nat → Prop} {goal : β → Nat → Prop} {bytes front back rest : List UInt8}

theorem read_eq_ok : (x >>= f) bytes = .ok (b, rest) ↔
    ∃ a rest', x bytes = .ok (a, rest') ∧ f a rest' = .ok (b, rest) := by
  cases outcome : x bytes with
  | error e =>
    rw [read_of_error outcome]
    exact ⟨nofun, fun ⟨_, _, same, _⟩ => nomatch same⟩
  | ok result =>
    rw [read_of_ok outcome]
    constructor
    · exact fun success => ⟨_, _, rfl, success⟩
    · rintro ⟨_, _, same, success⟩
      cases same
      exact success

theorem read_congr (same : ∀ a rest, x bytes = .ok (a, rest) → f a rest = g a rest) :
    (x >>= f) bytes = (x >>= g) bytes := by
  cases outcome : x bytes with
  | error e => rw [read_of_error outcome, read_of_error outcome]
  | ok result => rw [read_of_ok outcome, read_of_ok outcome, same _ _ outcome]

theorem read_congr_left {y : Reader α} (same : x bytes = y bytes) :
    (x >>= f) bytes = (y >>= f) bytes := by
  change StateT.bind x f bytes = StateT.bind y f bytes
  rw [StateT.bind, StateT.bind, same]

theorem Takes.pure (a : α) : Takes (Pure.pure a : Reader α) [] a where
  whole _ := rfl
  short same := by simp at same

theorem Takes.bind (first : Takes x front a) (second : Takes (f a) back b) :
    Takes (x >>= f) (front ++ back) b where
  whole rest := by rw [List.append_assoc, read_of_ok (first.whole _), second.whole]
  short {part byte more} same := by
    rcases List.append_eq_append_iff.mp same with ⟨behind, rfl, rest⟩ | ⟨missing, rfl, rest⟩
    · rw [read_of_ok (first.whole behind), second.short rest]
    · cases missing with
      | cons byte' missing => exact read_of_error (first.short rfl)
      | nil =>
        rw [List.append_nil] at first
        have whole := first.whole []
        rw [List.append_nil] at whole
        rw [read_of_ok whole, second.short (rest.symm.trans rfl)]

namespace Reads

theorem imp (reads : Reads x holds) (weaker : ∀ a taken, holds a taken → holds' a taken) :
    Reads x holds' where
  takes success := by
    obtain ⟨front, same, takes, known⟩ := reads.takes success
    exact ⟨front, same, takes, weaker _ _ known⟩

theorem pure (known : holds a 0) : Reads (Pure.pure a : Reader α) holds where
  takes success := by
    cases success
    exact ⟨[], rfl, .pure a, known⟩

theorem throw (e : WireError) : Reads (MonadExcept.throw e : Reader α) holds := ⟨nofun⟩

theorem bind (first : Reads x holds) (second : ∀ a taken, holds a taken →
    Reads (f a) fun b more => goal b (taken + more)) : Reads (x >>= f) goal where
  takes {bytes b rest} success := by
    obtain ⟨a, rest', outcome, success'⟩ := read_eq_ok.mp success
    obtain ⟨front, rfl, takes, known⟩ := first.takes outcome
    obtain ⟨back, rfl, takes', known'⟩ := (second a _ known).takes success'
    refine ⟨front ++ back, (List.append_assoc ..).symm, takes.bind takes', ?_⟩
    rw [List.length_append]
    exact known'

/-- Nothing is put back. -/
theorem length_le (reads : Reads x holds) (success : x bytes = .ok (a, rest)) :
    rest.length ≤ bytes.length := by
  obtain ⟨front, rfl, -, -⟩ := reads.takes success
  rw [List.length_append]
  exact Nat.le_add_left ..

end Reads

end Reads

/-! ## Numbers -/

theorem reads_readByte : Reads readByte fun _ taken => taken = 1 where
  takes {bytes byte rest} success := by
    cases bytes with
    | nil => cases success
    | cons _ _ =>
      cases success
      refine ⟨[byte], rfl, ⟨fun _ => rfl, fun {part _ _} same => ?_⟩, rfl⟩
      cases part with
      | nil => rfl
      | cons => simp at same

theorem varintWithin_eq {budget budget' n : Nat} (enough : n ≤ budget) (enough' : n ≤ budget') :
    varintWithin budget n = varintWithin budget' n := by
  induction budget generalizing n budget' with
  | zero =>
    obtain rfl := Nat.le_zero.mp enough
    cases budget' <;> rfl
  | succ budget ih =>
    cases budget' with
    | zero =>
      obtain rfl := Nat.le_zero.mp enough'
      rfl
    | succ budget' =>
      rw [varintWithin, varintWithin]
      split
      · rfl
      · rw [ih (by omega : n / 128 ≤ budget) (by omega : n / 128 ≤ budget')]

theorem varint_of_small {n : Nat} (small : n < 128) : varint n = [UInt8.ofNat n] := by
  cases n with
  | zero => rfl
  | succ n => rw [varint, varintWithin, if_pos small]

theorem varint_of_large {n : Nat} (large : 128 ≤ n) :
    varint n = UInt8.ofNat (n % 128 + 128) :: varint (n / 128) := by
  cases n with
  | zero => cases large
  | succ n =>
    rw [varint, varintWithin, if_neg (Nat.not_lt.mpr large),
      varintWithin_eq (by omega : (n + 1) / 128 ≤ n) (Nat.le_refl _)]
    rfl

theorem length_varint_pos (n : Nat) : 0 < (varint n).length := by
  rcases Nat.lt_or_ge n 128 with small | large
  · rw [varint_of_small small]
    exact Nat.zero_lt_one
  · rw [varint_of_large large]
    exact Nat.succ_pos _

/-- A number is read from as many bytes as it is written in, or from more. -/
theorem reads_readVarint {top : Nat} (narrow : top < 128) (more : Nat) :
    Reads (readVarint top more) fun n taken =>
      n < varintLimit top more ∧ (varint n).length ≤ taken := by
  induction more with
  | zero =>
    rw [readVarint]
    refine reads_readByte.bind fun byte _ taken => ?_
    split
    · rename_i low
      refine .pure ⟨Nat.lt_succ_of_le low, ?_⟩
      rw [varint_of_small (Nat.lt_of_le_of_lt low narrow), taken]
      exact Nat.le_refl _
    · exact .throw _
  | succ more ih =>
    rw [readVarint]
    refine reads_readByte.bind fun byte _ taken => ?_
    have limit : 0 < varintLimit top more := by
      clear ih
      induction more with
      | zero => exact Nat.succ_pos _
      | succ more ih => exact Nat.mul_pos (by decide) ih
    split
    · rename_i last
      refine .pure ⟨?_, ?_⟩
      · rw [varintLimit]
        omega
      · rw [varint_of_small last, taken]
        exact Nat.le_refl _
    · rename_i notLast
      have byteBound := byte.toNat_lt
      refine ih.bind fun n taken' known => .pure ?_
      obtain ⟨fits, written⟩ := known
      refine ⟨?_, ?_⟩
      · rw [varintLimit]
        omega
      · rcases Nat.lt_or_ge (byte.toNat - 128 + 128 * n) 128 with small | large
        · rw [varint_of_small small, taken]
          exact Nat.le_add_right ..
        · rw [varint_of_large large, List.length_cons,
            show (byte.toNat - 128 + 128 * n) / 128 = n by omega]
          omega

theorem reads_readNumber : Reads readNumber fun n taken =>
    n < UInt64.size ∧ (varint n).length ≤ taken :=
  reads_readVarint (by decide) 9

theorem reads_readVariant : Reads readVariant fun _ taken => 0 < taken :=
  (reads_readVarint (by decide) 4).imp fun n _ known =>
    Nat.lt_of_lt_of_le (length_varint_pos n) known.2

/-! ## Texts -/

theorem readBytes_of_short {count : Nat} {bytes : List UInt8} (short : bytes.length < count) :
    readBytes count bytes = .error .unexpectedEnd := by
  rw [readBytes, if_pos]
  rw [List.length_take]
  omega

theorem reads_readBytes (count : Nat) :
    Reads (readBytes count) fun field taken => field.length = count ∧ taken = count where
  takes {bytes field rest} success := by
    rcases Nat.lt_or_ge bytes.length count with short | enough
    · rw [readBytes_of_short short] at success
      cases success
    · have length : (bytes.take count).length = count := List.length_take_of_le enough
      have whole (rest : List UInt8) :
          readBytes count (bytes.take count ++ rest) = .ok (bytes.take count, rest) := by
        have field := readBytes_append (bytes.take count) rest
        rwa [length] at field
      have here := whole (bytes.drop count)
      rw [List.take_append_drop, success] at here
      cases here
      refine ⟨bytes.take count, (List.take_append_drop ..).symm, ⟨whole, fun same => ?_⟩,
        length, length⟩
      refine readBytes_of_short ?_
      rw [← length, same, List.length_append]
      exact Nat.lt_add_of_pos_right (Nat.succ_pos _)

theorem toUTF8_of_fromUTF8? {field : List UInt8} {text : String}
    (valid : String.fromUTF8? ⟨field.toArray⟩ = some text) : text.toUTF8 = ⟨field.toArray⟩ := by
  unfold String.fromUTF8? at valid
  split at valid
  · cases valid
    rfl
  · cases valid

/-- A text is written in the bytes that it has been read from. -/
theorem reads_readText : Reads readText fun text taken =>
    text.utf8ByteSize < UInt64.size ∧ (textBytes text).length ≤ taken := by
  unfold readText
  refine reads_readNumber.bind fun count taken ⟨fits, written⟩ =>
    (reads_readBytes count).bind fun field taken' ⟨length, taken'Eq⟩ => ?_
  cases valid : String.fromUTF8? ⟨field.toArray⟩ with
  | none => exact .throw _
  | some text =>
    have bytes := toUTF8_of_fromUTF8? valid
    have size : text.toUTF8.data.size = count := by rw [bytes, List.size_toArray, length]
    have length' : text.toUTF8.data.toList.length = count := by rw [Array.length_toList, size]
    refine .pure ⟨?_, ?_⟩
    · rw [← size] at fits
      exact fits
    · rw [textBytes, List.length_append, length', size]
      omega

/-! ## Values -/

/-- A value can be written in so many bytes or less. -/
def Stored (value : Value) (taken : Nat) : Prop :=
  value.Addressable ∧
    ∃ front, (∀ rest, valueOnto value rest = .ok (front ++ rest)) ∧ front.length ≤ taken

/-- Values can be written in so many bytes or less. -/
def StoredAll (values : List Value) (taken : Nat) : Prop :=
  (∀ value ∈ values, value.Addressable) ∧
    ∃ front, (∀ rest, valuesOnto values rest = .ok (front ++ rest)) ∧ front.length ≤ taken

section Stored

variable {value : Value} {values : List Value} {taken taken' : Nat}

theorem Stored.scalar (front : List UInt8) (noArray : ∀ items, value ≠ .array items)
    (countable : value.Countable) (same : ∀ rest, valueOnto value rest = .ok (front ++ rest))
    (enough : front.length ≤ taken) : Stored value taken :=
  ⟨(addressable_iff noArray).mpr countable, front, same, enough⟩

theorem StoredAll.nil : StoredAll [] 0 := ⟨nofun, [], fun _ => rfl, Nat.le_refl _⟩

theorem StoredAll.cons (first : Stored value taken) (others : StoredAll values taken') :
    StoredAll (value :: values) (taken + taken') := by
  obtain ⟨addressable, front, writes, enough⟩ := first
  obtain ⟨addressables, back, writes', enough'⟩ := others
  refine ⟨List.forall_mem_cons.mpr ⟨addressable, addressables⟩, front ++ back, fun rest => ?_, ?_⟩
  · rw [valuesOnto, writes', List.append_assoc, ← writes]
    rfl
  · rw [List.length_append]
    exact Nat.add_le_add enough enough'

theorem StoredAll.array (stored : StoredAll values taken) (fits : values.length < UInt64.size)
    (enough : 1 + ((varint values.length).length + taken) ≤ taken') :
    Stored (.array values) taken' := by
  obtain ⟨addressables, front, writes, enough'⟩ := stored
  refine ⟨addressable_array.mpr ⟨fits, addressables⟩, 4 :: (varint values.length ++ front),
    fun rest => ?_, ?_⟩
  · rw [valueOnto, writes, List.cons_append, List.append_assoc]
    rfl
  · rw [List.length_cons, List.length_append]
    omega

end Stored

theorem zigzag_unzigzag (n : Nat) : zigzag (unzigzag n) = n := by
  unfold zigzag unzigzag
  split <;> split <;> omega

/-- A number of 64 bits is the folded form of an integer of 64 bits. -/
theorem zigzag_toInt_ofInt {n : Nat} (fits : n < UInt64.size) :
    zigzag (Int64.ofInt (unzigzag n)).toInt = n := by
  change n < 18446744073709551616 at fits
  rw [Int64.toInt_ofInt_of_le, zigzag_unzigzag]
  · unfold unzigzag
    split <;> omega
  · unfold unzigzag
    split <;> omega

theorem reads_readMany {item : Reader Value} (reads : Reads item Stored) (count : Nat)
    (read : Array Value) : Reads (readMany item count read) fun items taken =>
      ∃ values, items = read ++ values.toArray ∧ values.length = count ∧
        StoredAll values taken := by
  induction count generalizing read with
  | zero => exact .pure ⟨[], by simp, rfl, .nil⟩
  | succ count ih =>
    rw [readMany]
    refine reads.bind fun value taken stored => (ih _).imp fun items taken' known => ?_
    obtain ⟨values, rfl, rfl, storedAll⟩ := known
    exact ⟨value :: values, by simp, rfl, .cons stored storedAll⟩

/-- A value can be written in no more bytes than it is read from. -/
theorem reads_readValue (budget : Nat) : Reads (readValue budget) Stored := by
  induction budget with
  | zero => exact .throw _
  | succ budget ih =>
    rw [readValue]
    refine reads_readVariant.bind fun form taken positive => ?_
    split
    · refine reads_readNumber.bind fun n taken' known => .pure ?_
      obtain ⟨fits, written⟩ := known
      refine .scalar (0 :: varint n) (by simp) trivial (fun rest => ?_) ?_
      · rw [valueOnto, zigzag_toInt_ofInt fits]
        rfl
      · rw [List.length_cons]
        omega
    · refine reads_readByte.bind fun byte taken' one => ?_
      split
      · exact .pure (.scalar [1, 0] (by simp) trivial (fun _ => rfl) (by simp; omega))
      · exact .pure (.scalar [1, 1] (by simp) trivial (fun _ => rfl) (by simp; omega))
      · exact .throw _
    · exact .pure (.scalar [2] (by simp) trivial (fun _ => rfl) positive)
    · refine reads_readText.bind fun text taken' known => .pure ?_
      obtain ⟨fits, written⟩ := known
      refine .scalar (3 :: textBytes text) (by simp) fits (fun _ => rfl) ?_
      rw [List.length_cons]
      omega
    · refine reads_readNumber.bind fun count taken' known => ?_
      obtain ⟨fits, written⟩ := known
      refine (reads_readMany ih count #[]).bind fun items taken'' known => .pure ?_
      obtain ⟨values, rfl, rfl, stored⟩ := known
      simp only [Array.empty_append]
      exact stored.array fits (by omega)
    · refine reads_readText.bind fun text taken' known => .pure ?_
      obtain ⟨fits, written⟩ := known
      refine .scalar (6 :: textBytes text) (by simp) fits (fun _ => rfl) ?_
      rw [List.length_cons]
      omega
    · exact .throw _

/-! ## Budgets -/

section Budgets

variable {budget budget' : Nat} {bytes : List UInt8}

/-- Readers that do the same on so few bytes do the same many times. -/
theorem readMany_congr {item item' : Reader Value} {holds : Value → Nat → Prop}
    (reads : Reads item holds) {limit : Nat}
    (same : ∀ bytes, bytes.length ≤ limit → item bytes = item' bytes) (count : Nat)
    (read : Array Value) (few : bytes.length ≤ limit) :
    readMany item count read bytes = readMany item' count read bytes := by
  induction count generalizing read bytes with
  | zero => rfl
  | succ count ih =>
    rw [readMany, readMany]
    rw [← read_congr_left (same bytes few)]
    exact read_congr fun _ _ success => ih _ (Nat.le_trans (reads.length_le success) few)

/-- A budget of the number of bytes is as good as a larger one. -/
theorem readValue_succ (enough : bytes.length ≤ budget) :
    readValue (budget + 1) bytes = readValue budget bytes := by
  induction budget generalizing bytes with
  | zero =>
    obtain rfl := List.length_eq_zero_iff.mp (Nat.le_zero.mp enough)
    rfl
  | succ budget ih =>
    rw [readValue, readValue]
    refine read_congr fun form rest success => ?_
    have fewer : rest.length ≤ budget := by
      obtain ⟨front, rfl, -, positive⟩ := reads_readVariant.takes success
      rw [List.length_append] at enough
      omega
    split
    case h_5 =>
      refine read_congr fun count rest' success' => ?_
      have fewer' := Nat.le_trans (reads_readNumber.length_le success') fewer
      exact read_congr_left (readMany_congr (reads_readValue _) (fun _ => ih) count #[] fewer')
    all_goals rfl

theorem readValue_of_enough (enough : bytes.length ≤ budget) (enough' : bytes.length ≤ budget') :
    readValue budget bytes = readValue budget' bytes := by
  have least {budget : Nat} (enough : bytes.length ≤ budget) :
      readValue budget bytes = readValue bytes.length bytes := by
    induction enough with
    | refl => rfl
    | step enough ih => exact (readValue_succ enough).trans ih
  rw [least enough, least enough']

end Budgets

/-- Reading byte code with a budget for the constants that is known beforehand. -/
def readBytecodeWithin (budget : Nat) : Reader Bytecode := do
  let code ← readBytes (← readNumber)
  let count ← readNumber
  let constants ← readMany (readValue budget) count #[]
  return ⟨code.toArray, constants⟩

theorem readBytecode_eq_within {budget : Nat} {bytes : List UInt8}
    (enough : bytes.length ≤ budget) : readBytecode bytes = readBytecodeWithin budget bytes := by
  unfold readBytecode readBytecodeWithin
  refine read_congr fun size rest success => read_congr fun code rest' success' =>
    read_congr fun count rest'' success'' => ?_
  have fewer : rest''.length ≤ budget :=
    Nat.le_trans (reads_readNumber.length_le success'') <|
      Nat.le_trans ((reads_readBytes size).length_le success') <|
        Nat.le_trans (reads_readNumber.length_le success) enough
  rw [read_of_ok (show (get : Reader (List UInt8)) rest'' = .ok (rest'', rest'') from rfl)]
  refine read_congr_left (readMany_congr (reads_readValue _) (fun bytes few => ?_) count #[]
    (Nat.le_refl _))
  exact readValue_of_enough few (Nat.le_trans few fewer)

/-- Byte code can be written in no more bytes than it is read from. -/
theorem reads_readBytecodeWithin (budget : Nat) :
    Reads (readBytecodeWithin budget) fun b taken =>
      b.Addressable ∧ ∃ bytes, b.toBytes = .ok bytes ∧ bytes.length ≤ taken := by
  unfold readBytecodeWithin
  refine reads_readNumber.bind fun size taken ⟨fits, written⟩ =>
    (reads_readBytes size).bind fun code taken' ⟨length, taken'Eq⟩ =>
    reads_readNumber.bind fun count taken'' ⟨fits', written'⟩ =>
    (reads_readMany (reads_readValue budget) count #[]).bind fun constants taken''' known =>
    .pure ?_
  obtain ⟨values, rfl, rfl, addressable, front, writes, enough⟩ := known
  subst length
  rw [Array.empty_append]
  refine ⟨⟨fits, fits', fun value member => addressable value (List.mem_toArray.mp member)⟩,
    varint code.length ++ (code ++ (varint values.length ++ front)), ?_, ?_⟩
  · rw [Bytecode.toBytes, foldrM_valueOnto, writes, List.append_nil]
    rfl
  · rw [List.length_append, List.length_append, List.length_append]
    omega

end Wire

namespace Bytecode

open Wire Value

theorem ofBytes_eq_ok {bytes : List UInt8} {b : Bytecode} :
    ofBytes bytes = .ok b ↔ ∃ rest, readBytecode bytes = .ok (b, rest) := by
  change (readBytecode bytes).map Prod.fst = _ ↔ _
  cases readBytecode bytes with
  | error e => exact ⟨nofun, fun ⟨_, same⟩ => nomatch same⟩
  | ok result =>
    constructor
    · intro same
      cases same
      exact ⟨_, rfl⟩
    · rintro ⟨_, same⟩
      cases same
      rfl

/-- Bytes from which byte code is read have a front that decides it: any other bytes with
this front are read as the same byte code, and any shorter front ends too early. What has
been read can be written, in no more bytes than this front has, and is read back from them
unless an error stands in a constant. -/
theorem ofBytes_front {bytes : List UInt8} {b : Bytecode} (read : ofBytes bytes = .ok b) :
    ∃ n ≤ bytes.length, (∀ behind, ofBytes (bytes.take n ++ behind) = .ok b) ∧
      (∀ m < n, ofBytes (bytes.take m) = .error .unexpectedEnd) ∧
      ¬ b.Contains IsBuiltin ∧
      ∃ written, b.toBytes = .ok written ∧ written.length ≤ n ∧
        (¬ b.Contains IsError → ofBytes written = .ok b) := by
  obtain ⟨rest, success⟩ := ofBytes_eq_ok.mp read
  have within (budget : Nat) (enough : bytes.length ≤ budget) :
      readBytecodeWithin budget bytes = .ok (b, rest) :=
    (readBytecode_eq_within enough).symm.trans success
  obtain ⟨front, same, takes, addressable, written, stores, enough⟩ :=
    (reads_readBytecodeWithin bytes.length).takes (within _ (Nat.le_refl _))
  have taken : bytes.take front.length = front := by rw [same, List.take_left]
  refine ⟨front.length, ?_, fun behind => ?_, fun m less => ?_, ?_, written, stores, enough,
    fun free => ?_⟩
  · rw [same, List.length_append]
    exact Nat.le_add_right ..
  · -- A budget for both byte strings takes the same front.
    rw [taken]
    obtain ⟨front', same', takes', -⟩ :=
      (reads_readBytecodeWithin (bytes.length + (front ++ behind).length)).takes
        (within _ (Nat.le_add_right ..))
    obtain rfl := List.append_cancel_right (same'.symm.trans same)
    refine ofBytes_eq_ok.mpr ⟨behind, ?_⟩
    rw [readBytecode_eq_within (Nat.le_add_left ..), takes'.whole]
  · have part : front = bytes.take m ++ front[m] :: front.drop (m + 1) := by
      rw [same, List.take_append_of_le_length (Nat.le_of_lt less), List.getElem_cons_drop,
        List.take_append_drop]
    have within' : (bytes.take m).length ≤ bytes.length := by
      rw [List.length_take]
      exact Nat.min_le_right ..
    change (readBytecode (bytes.take m)).map Prod.fst = _
    rw [readBytecode_eq_within within', takes.short part]
    rfl
  · intro contains
    rcases b.toBytes_cases with ⟨_, fails⟩ | ⟨free, _⟩
    · cases stores.symm.trans fails
    · exact free contains
  · rcases b.toBytes_cases with ⟨_, fails⟩ | ⟨_, constants, writes, stores'⟩
    · cases stores.symm.trans fails
    · cases stores.symm.trans stores'
      refine ofBytes_eq_ok.mpr ⟨[], ?_⟩
      rcases readBytecode_written addressable (writes []) with ⟨spoiled, _⟩ | ⟨_, back⟩
      · exact (free spoiled).elim
      · rwa [List.append_nil] at back

/-- The first length is stored in two bytes where one would do, and the last byte is not read. -/
theorem ofBytes_front_padded :
    ofBytes [0x82, 0, 4, 5, 1, 4, 2, 2, 0, 1, 99] =
      .ok ⟨#[4, 5], #[.array [.null, .integer (-1)]]⟩ ∧
    ∃ n ≤ 11, (∀ m < n, ofBytes ([0x82, 0, 4, 5, 1, 4, 2, 2, 0, 1, 99].take m) =
        .error .unexpectedEnd) ∧
      ∃ written, toBytes ⟨#[4, 5], #[.array [.null, .integer (-1)]]⟩ = .ok written ∧
        written.length ≤ n := by
  have read : ofBytes [0x82, 0, 4, 5, 1, 4, 2, 2, 0, 1, 99] =
      .ok ⟨#[4, 5], #[.array [.null, .integer (-1)]]⟩ := rfl
  obtain ⟨n, inside, -, short, -, written, stores, enough, -⟩ := ofBytes_front read
  exact ⟨read, n, inside, short, written, stores, enough⟩

end Bytecode

end Stacklet
