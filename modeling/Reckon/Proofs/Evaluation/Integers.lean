import Mathlib.Data.Int.Bitwise
import Mathlib.Data.Int.ModEq
import Mathlib.Data.Rat.Floor
import Reckon.Value

/-!
# Operators on words and integers

The operators on words of 32 bits are those on the integers, with results modulo `2 ^ 32`. This
holds for all words, the least one and every shift count included.

* `ArithOp.unbounded`: what an operator gives over the integers, or why it fails.
* `getElem_ofInt`: the bits of a word are the lowest ones of its integer.
* `shiftLeft_eq_ofInt`, `toInt_shiftRight`: shifts by any number of places.
* `ArithOp.apply_int`: an operator on words gives what it gives over the integers.
* `ArithOp.exists_quotient_remainder`, `ArithOp.shiftRight_eq_floor`: quotient and remainder belong
  together, and a remainder or a shift to the right is a word without reduction.
-/

namespace Reckon

/-- What an operator gives over the integers, or why it fails. Quotients are cut off toward zero, a
shift is a product or a quotient that is rounded down, and bits are those of two's complement. -/
def ArithOp.unbounded : ArithOp → Int → Int → Except EvalError Int
  | add, a, b => .ok (a + b)
  | sub, a, b => .ok (a - b)
  | mul, a, b => .ok (a * b)
  | div, a, b => if b = 0 then .error .divisionByZero else .ok (a.tdiv b)
  | mod, a, b => if b = 0 then .error .divisionByZero else .ok (a.tmod b)
  | bitAnd, a, b => .ok (a.land b)
  | bitOr, a, b => .ok (a.lor b)
  | bitXor, a, b => .ok (a.xor b)
  | shiftLeft, a, b => if b < 0 then .error .negativeShift else .ok (a * 2 ^ b.toNat)
  | shiftRight, a, b => if b < 0 then .error .negativeShift else .ok (a.fdiv (2 ^ b.toNat))

/-- The value of an integer modulo `2 ^ 32`. -/
def Value.ofInteger (z : Int) : Value := .int (Int32.ofInt z)

/-! ## Bits -/

/-- The bits of a word are the lowest bits of the integer that it is made from. -/
theorem getElem_ofInt {w : Nat} (z : Int) {i : Nat} (hi : i < w) :
    (BitVec.ofInt w z)[i] = z.testBit i := by
  rw [← BitVec.getLsbD_eq_getElem]
  cases z with
  | ofNat n =>
    rw [Int.ofNat_eq_natCast, BitVec.ofInt_natCast, BitVec.getLsbD_ofNat]
    simp [hi, Int.testBit]
  | negSucc n =>
    rw [BitVec.ofInt_negSucc_eq_not_ofNat, BitVec.getLsbD_not, BitVec.getLsbD_ofNat]
    simp [hi, Int.testBit]

theorem ofInt_eq_of_testBit {z : Int} {n : Int32}
    (h : ∀ i, (hi : i < 32) → n.toBitVec[i] = z.testBit i) : Int32.ofInt z = n := by
  rw [← Int32.toBitVec_inj, Int32.toBitVec_ofInt]
  refine BitVec.eq_of_getElem_eq fun i hi => ?_
  rw [getElem_ofInt, h i hi]

theorem ofInt_land (x y : Int) : Int32.ofInt (x.land y) = Int32.ofInt x &&& Int32.ofInt y :=
  ofInt_eq_of_testBit fun i hi => by simp [getElem_ofInt, Int.testBit_land]

theorem ofInt_lor (x y : Int) : Int32.ofInt (x.lor y) = Int32.ofInt x ||| Int32.ofInt y :=
  ofInt_eq_of_testBit fun i hi => by simp [getElem_ofInt, Int.testBit_lor]

theorem ofInt_xor (x y : Int) : Int32.ofInt (x.xor y) = Int32.ofInt x ^^^ Int32.ofInt y :=
  ofInt_eq_of_testBit fun i hi => by simp [getElem_ofInt, Int.testBit_lxor]

/-! ## Shifts -/

/-- Multiplying by a power of two moves the bits to the left. -/
theorem ofInt_mul_two_pow {w : Nat} (z : Int) (k : Nat) :
    BitVec.ofInt w (z * 2 ^ k) = BitVec.ofInt w z <<< k := by
  have hpow : BitVec.ofInt w (2 ^ k) = BitVec.twoPow w k := by
    have hcast : (2 : Int) ^ k = ((2 ^ k : Nat) : Int) := by push_cast; rfl
    rw [hcast, BitVec.ofInt_natCast, ← BitVec.toNat_inj, BitVec.toNat_ofNat, BitVec.toNat_twoPow]
  rw [BitVec.ofInt_mul, hpow, BitVec.shiftLeft_eq_mul_twoPow]

/-- A shift count from 0 to 31 is used as it is. -/
theorem toNat_smod_thirtyTwo {b : Int32} (hb : 0 ≤ b.toInt) (hb' : b.toInt < 32) :
    (b.toBitVec.smod 32).toNat = b.toInt.toNat := by
  have hint : (b.toBitVec.smod 32).toInt = b.toInt := by
    rw [BitVec.toInt_smod, Int32.toInt_toBitVec]
    exact Int.fmod_eq_of_lt hb hb'
  have hmsb : (b.toBitVec.smod 32).msb = false := by
    rw [BitVec.msb_eq_toInt, hint]
    exact decide_eq_false (Int.not_lt.2 hb)
  rw [← BitVec.toNat_toInt_of_msb _ hmsb, hint]

/-- **Shifts to the left** by any number of places. -/
theorem shiftLeft_eq_ofInt {a b : Int32} (hb : 0 ≤ b.toInt) :
    ArithOp.shiftLeft.word a b = Int32.ofInt (a.toInt * 2 ^ b.toInt.toNat) := by
  rw [← Int32.toBitVec_inj, Int32.toBitVec_ofInt, ofInt_mul_two_pow, ← Int32.toInt_toBitVec a,
    BitVec.ofInt_toInt]
  show (if b < 32 then a <<< b else 0).toBitVec = _
  by_cases hb' : b.toInt < 32
  · rw [if_pos (Int32.lt_iff_toInt_lt.2 hb'), Int32.toBitVec_shiftLeft, BitVec.shiftLeft_eq',
      toNat_smod_thirtyTwo hb hb']
  · rw [if_neg fun h => hb' (Int32.lt_iff_toInt_lt.1 h), BitVec.shiftLeft_eq_zero (by omega)]
    rfl

/-- From 31 places on, a shift to the right leaves the sign. -/
theorem fdiv_two_pow_eq {z : Int} (hz : -2 ^ 31 ≤ z) (hz' : z < 2 ^ 31) {k : Nat} (hk : 31 ≤ k) :
    z.fdiv (2 ^ k) = if z < 0 then -1 else 0 := by
  have hpow : (2 : Int) ^ 31 ≤ 2 ^ k := pow_le_pow_right₀ (by decide) hk
  rw [Int.fdiv_eq_ediv_of_nonneg z (by omega)]
  split
  · exact Int.ediv_eq_neg_one_of_neg_of_le (by omega) (by omega)
  · exact Int.ediv_eq_zero_of_lt (by omega) (by omega)

/-- **Shifts to the right** by any number of places. -/
theorem toInt_shiftRight {a b : Int32} (hb : 0 ≤ b.toInt) :
    (ArithOp.shiftRight.word a b).toInt = a.toInt.fdiv (2 ^ b.toInt.toNat) := by
  have hshift (k : Nat) : (a.toBitVec.sshiftRight k).toInt = a.toInt.fdiv (2 ^ k) := by
    rw [BitVec.toInt_sshiftRight, Int32.toInt_toBitVec, Int.shiftRight_eq_div_pow,
      Int.fdiv_eq_ediv_of_nonneg _ (by positivity)]
    push_cast
    rfl
  show (if b < 32 then a >>> b else a >>> 31).toInt = _
  by_cases hb' : b.toInt < 32
  · rw [if_pos (Int32.lt_iff_toInt_lt.2 hb'), ← Int32.toInt_toBitVec, Int32.toBitVec_shiftRight,
      BitVec.sshiftRight_eq', toNat_smod_thirtyTwo hb hb', hshift]
  · rw [if_neg fun h => hb' (Int32.lt_iff_toInt_lt.1 h), ← Int32.toInt_toBitVec,
      Int32.toBitVec_shiftRight, BitVec.sshiftRight_eq', hshift]
    have hcount : ((31 : Int32).toBitVec.smod 32).toNat = 31 := by decide
    rw [hcount, fdiv_two_pow_eq a.le_toInt a.toInt_lt (Nat.le_refl 31),
      fdiv_two_pow_eq a.le_toInt a.toInt_lt (by omega)]

/-! ## Words -/

/-- A result on the words of all integers is the result on all words. -/
theorem eq_ofInt_toInt {f : Int → Int → Int} {g : Int32 → Int32 → Int32}
    (h : ∀ x y, Int32.ofInt (f x y) = g (Int32.ofInt x) (Int32.ofInt y)) (a b : Int32) :
    g a b = Int32.ofInt (f a.toInt b.toInt) := by
  rw [h, Int32.ofInt_toInt, Int32.ofInt_toInt]

namespace ArithOp

/-- Operators fail on words for the reasons for which they fail on integers. -/
theorem fault?_int (op : ArithOp) (a b : Int32) :
    op.fault? (.int a) (.int b) =
      match op.unbounded a.toInt b.toInt with
      | .error e => some e
      | .ok _ => none := by
  have hzero : b = 0 ↔ b.toInt = 0 := by rw [← Int32.toInt_inj, Int32.toInt_zero]
  have hneg : b < 0 ↔ b.toInt < 0 := by rw [Int32.lt_iff_toInt_lt, Int32.toInt_zero]
  cases op with
  | div | mod =>
    simp only [fault?, unbounded, hzero]
    split <;> rfl
  | shiftLeft | shiftRight =>
    simp only [fault?, unbounded, hneg]
    split <;> rfl
  | _ => rfl

/-- The result on two words is the one on the integers, modulo `2 ^ 32`. -/
theorem word_eq_ofInt {op : ArithOp} {a b : Int32} {z : Int}
    (h : op.unbounded a.toInt b.toInt = .ok z) : op.word a b = Int32.ofInt z := by
  cases op with
  | add =>
    cases h
    exact eq_ofInt_toInt Int32.ofInt_add a b
  | sub =>
    cases h
    exact eq_ofInt_toInt Int32.ofInt_sub a b
  | mul =>
    cases h
    exact eq_ofInt_toInt Int32.ofInt_mul a b
  | bitAnd =>
    cases h
    exact eq_ofInt_toInt ofInt_land a b
  | bitOr =>
    cases h
    exact eq_ofInt_toInt ofInt_lor a b
  | bitXor =>
    cases h
    exact eq_ofInt_toInt ofInt_xor a b
  | div =>
    simp only [unbounded] at h
    split at h
    · cases h
    · cases h
      rw [← Int32.toInt_inj, Int32.toInt_ofInt]
      exact Int32.toInt_div a b
  | mod =>
    simp only [unbounded] at h
    split at h
    · cases h
    · cases h
      rw [← Int32.toInt_mod, Int32.ofInt_toInt]
      rfl
  | shiftLeft =>
    simp only [unbounded] at h
    split at h
    · cases h
    · cases h
      exact shiftLeft_eq_ofInt (by omega)
  | shiftRight =>
    simp only [unbounded] at h
    split at h
    · cases h
    · cases h
      rw [← toInt_shiftRight (by omega), Int32.ofInt_toInt]

/-- **Operators on words** give what they give over the integers, modulo `2 ^ 32`, and fail where
they fail over the integers. -/
theorem apply_int (op : ArithOp) (a b : Int32) :
    op.apply (.int a) (.int b) = (op.unbounded a.toInt b.toInt).map .ofInteger := by
  rw [apply, fault?_int]
  cases h : op.unbounded a.toInt b.toInt with
  | error e => rfl
  | ok z =>
    show Except.ok (Value.int (op.word a b)) = _
    rw [word_eq_ofInt h]
    rfl

/-! ## Limits -/

/-- A word is congruent to the integer that it is made from. -/
theorem toInt_ofInt_modEq (z : Int) : (Int32.ofInt z).toInt ≡ z [ZMOD 2 ^ 32] := by
  rw [Int32.toInt_ofInt]
  exact Int.bmod_emod

/-- **Quotient and remainder** belong together, also where the quotient is no word. -/
theorem exists_quotient_remainder (a : Int32) {b : Int32} (hb : b ≠ 0) :
    ∃ q r : Int32, div.apply (.int a) (.int b) = .ok (.int q) ∧
      mod.apply (.int a) (.int b) = .ok (.int r) ∧
      a.toInt ≡ q.toInt * b.toInt + r.toInt [ZMOD 2 ^ 32] ∧ |r.toInt| < |b.toInt| ∧
      (r = 0 ∨ r.toInt.sign = a.toInt.sign) := by
  have hb' : b.toInt ≠ 0 := fun h => hb (Int32.toInt_inj.1 h)
  refine ⟨Int32.ofInt (a.toInt.tdiv b.toInt), a % b, ?_, ?_, ?_, ?_, ?_⟩
  · rw [apply_int, unbounded, if_neg hb']
    rfl
  · rw [apply_int, unbounded, if_neg hb', ← Int32.toInt_mod]
    show Except.ok (Value.int (Int32.ofInt (a % b).toInt)) = _
    rw [Int32.ofInt_toInt]
  · have hq := toInt_ofInt_modEq (a.toInt.tdiv b.toInt)
    have ha : a.toInt = a.toInt.tdiv b.toInt * b.toInt + (a % b).toInt := by
      rw [Int32.toInt_mod, Int.tdiv_mul_add_tmod]
    exact (congrArg (· % _) ha).trans ((hq.mul_right _).add_right _).symm
  · rw [Int32.toInt_mod, Int.abs_eq_natAbs, Int.abs_eq_natAbs, Int.natAbs_tmod]
    exact Int.ofNat_lt.2 (Nat.mod_lt _ (Int.natAbs_pos.2 hb'))
  · rw [← Int32.toInt_inj, Int32.toInt_mod, Int32.toInt_zero, Int.sign_tmod]
    split
    · rename_i hdvd
      exact .inl (Int.tmod_eq_zero_of_dvd hdvd)
    · exact .inr rfl

/-- From 32 places on, a shift to the left moves every bit out. -/
theorem shiftLeft_of_le (a : Int32) {b : Int32} (hb : 32 ≤ b.toInt) :
    shiftLeft.apply (.int a) (.int b) = .ok (.int 0) := by
  have hfault : ¬ b < 0 := fun h => by
    have hneg := Int32.lt_iff_toInt_lt.1 h
    rw [Int32.toInt_zero] at hneg
    omega
  have hword : ¬ b < 32 := fun h => absurd (Int32.lt_iff_toInt_lt.1 h) (Int.not_lt.2 hb)
  simp only [apply, fault?, if_neg hfault, Value.onWords, word, if_neg hword]

/-- A shift to the right divides and rounds down, without reduction. -/
theorem shiftRight_eq_floor (a : Int32) {b : Int32} (hb : 0 ≤ b.toInt) :
    ∃ n : Int32, shiftRight.apply (.int a) (.int b) = .ok (.int n) ∧
      n.toInt = ⌊(a.toInt : ℚ) / 2 ^ b.toInt.toNat⌋ := by
  refine ⟨shiftRight.word a b, ?_, ?_⟩
  · rw [apply, fault?_int, unbounded, if_neg (Int.not_lt.2 hb)]
    rfl
  · have hfloor := Rat.floor_intCast_div_natCast a.toInt (2 ^ b.toInt.toNat)
    push_cast at hfloor
    rw [toInt_shiftRight hb, hfloor, Int.fdiv_eq_ediv_of_nonneg _ (by positivity)]

end ArithOp

end Reckon
