import Stacklet.Wire.Error

/-!
Numbers of variable length: seven bits a byte, the low ones first, and the high
bit set in every byte but the last. The written form is the shortest one; read
are also longer ones, within the number of bytes that the widest number needs.

Signed numbers are folded onto the natural ones first, so that those near zero
stay short.
-/

namespace Stacklet

/-- Reading at the start of a row of bytes. -/
abbrev Reader := StateT (List UInt8) (Except WireError)

namespace Wire

/-- The bytes of a number, for a budget of at least the number itself, which is
more than its digits need. -/
def varintWithin : (budget : Nat) → Nat → List UInt8
  | 0, n => [UInt8.ofNat n]
  | budget + 1, n =>
    if n < 128 then [UInt8.ofNat n]
    else UInt8.ofNat (n % 128 + 128) :: varintWithin budget (n / 128)

/-- The bytes of a number. -/
def varint (n : Nat) : List UInt8 := varintWithin n n

/-- Reads one byte. -/
def readByte : Reader UInt8
  | [] => .error .unexpectedEnd
  | byte :: rest => .ok (byte, rest)

/-- Reads a number. At most `more` bytes follow the first one, and a last byte in
that position is at most `top`: it may only hold the bits that are left. -/
def readVarint (top : Nat) : (more : Nat) → Reader Nat
  | 0 => do
    let byte ← readByte
    if byte.toNat ≤ top then return byte.toNat else throw .badVarint
  | more + 1 => do
    let byte ← readByte
    if byte.toNat < 128 then return byte.toNat
    else return byte.toNat - 128 + 128 * (← readVarint top more)

/-- Reads a number of at most 64 bits. -/
def readNumber : Reader Nat := readVarint 1 9

/-- Reads a number of at most 32 bits. -/
def readVariant : Reader Nat := readVarint 15 4

/-- The first number that `readVarint` does not read. -/
def varintLimit (top : Nat) : (more : Nat) → Nat
  | 0 => top + 1
  | more + 1 => 128 * varintLimit top more

/-- A written number is read back, and what follows it is left. -/
theorem readVarint_varintWithin {top more budget n : Nat} (rest : List UInt8)
    (narrow : top < 128) (enough : n ≤ budget) (fits : n < varintLimit top more) :
    readVarint top more (varintWithin budget n ++ rest) = .ok (n, rest) := by
  induction more generalizing n budget with
  | zero =>
    have inRange : n ≤ top := Nat.le_of_lt_succ fits
    have small : n < 128 := by omega
    have written : varintWithin budget n = [UInt8.ofNat n] := by
      cases budget <;> simp [varintWithin, small]
    have low : (UInt8.ofNat n).toNat = n := by simp; omega
    simp only [readVarint, written, readByte, List.cons_append, List.nil_append, bind,
      StateT.bind, Except.bind, low, if_pos inRange]
    rfl
  | succ more ih =>
    by_cases small : n < 128
    · have written : varintWithin budget n = [UInt8.ofNat n] := by
        cases budget <;> simp [varintWithin, small]
      have low : (UInt8.ofNat n).toNat = n := by simp; omega
      simp only [readVarint, written, readByte, List.cons_append, List.nil_append, bind,
        StateT.bind, Except.bind, low, if_pos small]
      rfl
    · cases budget with
      | zero => omega
      | succ budget =>
        have high : (UInt8.ofNat (n % 128 + 128)).toNat = n % 128 + 128 := by simp; omega
        have notLast : ¬ n % 128 + 128 < 128 := by omega
        have fits' : n / 128 < varintLimit top more := Nat.div_lt_of_lt_mul fits
        have tail := @ih budget (n / 128) (by omega) fits'
        simp only [readVarint, varintWithin, if_neg small, readByte, List.cons_append, bind,
          StateT.bind, Except.bind, high, if_neg notLast]
        rw [tail]
        show Except.ok _ = Except.ok _
        congr 2
        omega

theorem readNumber_varint {n : Nat} (rest : List UInt8) (fits : n < UInt64.size) :
    readNumber (varint n ++ rest) = .ok (n, rest) :=
  readVarint_varintWithin rest (by decide) (Nat.le_refl n) fits

/-- Folds the integers onto the natural numbers: 0, -1, 1, -2, 2 and so on. -/
def zigzag (n : Int) : Nat := if 0 ≤ n then 2 * n.toNat else 2 * (-n).toNat - 1

/-- The integer that is folded onto a natural number. -/
def unzigzag (n : Nat) : Int := if n % 2 = 0 then (n / 2 : Nat) else -((n + 1) / 2 : Nat)

theorem unzigzag_zigzag (n : Int) : unzigzag (zigzag n) = n := by
  unfold zigzag unzigzag
  split <;> omega

end Wire

end Stacklet
