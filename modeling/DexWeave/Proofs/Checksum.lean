/-
  DexWeave/Proofs/Checksum.lean --- what the checksum tells apart.

  WHAT THIS FILE IS FOR.  A checksum of four bytes cannot tell all byte strings apart, but it
  tells every change apart that stays within four consecutive bytes, wherever they are and
  whatever stands before and behind them.

  THE ARGUMENT.  A shift of the register is one-to-one, since the polynomial has its highest bit
  set, and additive for exclusive or.  So bytes behind a change never undo a difference of the
  registers, and up to four bytes enter a register as the one number they are the digits of:
  the later ones are shifted down unchanged until it is their turn (`run_eq_repeat_shiftBit`).
-/
import DexWeave.Digest.Crc32
import Mathlib.Data.List.Basic
import Mathlib.Data.Nat.Bitwise

set_option autoImplicit false

namespace DexWeave

/-! ## Byte strings that differ in a window -/

/-- The byte strings are equally long and hold the same bytes at every position but those from
`start` on and before `stop`. -/
structure AgreeOutside (start stop : Nat) (bs bs' : Bytes) : Prop where
  length_eq : bs'.length = bs.length
  getElem?_eq : ∀ i, i < start ∨ stop ≤ i → bs'[i]? = bs[i]?

namespace AgreeOutside

variable {start stop : Nat} {bs bs' : Bytes}

theorem take_eq (h : AgreeOutside start stop bs bs') {n : Nat} (hn : n ≤ start) :
    bs'.take n = bs.take n := by
  refine List.ext_getElem? fun i => ?_
  rw [List.getElem?_take, List.getElem?_take]
  split
  · rename_i hi
    exact h.getElem?_eq i (.inl (Nat.lt_of_lt_of_le hi hn))
  · rfl

theorem drop_eq (h : AgreeOutside start stop bs bs') : bs'.drop stop = bs.drop stop := by
  refine List.ext_getElem? fun i => ?_
  rw [List.getElem?_drop, List.getElem?_drop]
  exact h.getElem?_eq _ (.inr (Nat.le_add_right _ _))

/-- What stands behind a common front agrees outside the window as seen from there. -/
theorem drop (h : AgreeOutside start stop bs bs') (n : Nat) :
    AgreeOutside (start - n) (stop - n) (bs.drop n) (bs'.drop n) where
  length_eq := by rw [List.length_drop, List.length_drop, h.length_eq]
  getElem?_eq := by
    intro i hi
    rw [List.getElem?_drop, List.getElem?_drop]
    exact h.getElem?_eq _ (by omega)

/-- The byte strings with the window cut out of them. -/
theorem exists_windows (h : AgreeOutside start stop bs bs') (hle : start ≤ stop) :
    ∃ front window window' back, bs = front ++ (window ++ back) ∧
      bs' = front ++ (window' ++ back) ∧ window.length = window'.length ∧
      window.length ≤ stop - start := by
  have hcut : ∀ cs : Bytes,
      cs = cs.take start ++ ((cs.drop start).take (stop - start) ++ cs.drop stop) := by
    intro cs
    have hback : cs.drop stop = (cs.drop start).drop (stop - start) := by
      rw [List.drop_drop, Nat.add_sub_cancel' hle]
    rw [hback, List.take_append_drop, List.take_append_drop]
  refine ⟨_, _, (bs'.drop start).take (stop - start), _, hcut bs, ?_, ?_, List.length_take_le _ _⟩
  · rw [← h.take_eq (Nat.le_refl _), ← h.drop_eq]
    exact hcut bs'
  · rw [List.length_take, List.length_take, List.length_drop, List.length_drop, h.length_eq]

end AgreeOutside

namespace LittleEndian

variable {bs bs' : Bytes}

theorem value_injective (hlength : bs.length = bs'.length) (h : value bs = value bs') :
    bs = bs' := by
  rw [← digits_value bs, ← digits_value bs', h, hlength]

theorem capacity_eq_pow (width : Nat) : capacity width = 2 ^ (8 * width) := by
  induction width with
  | zero => rfl
  | succ width ih => rw [capacity, ih, Nat.mul_succ, Nat.pow_add, Nat.mul_comm]

theorem value_lt_pow {width : Nat} (h : bs.length ≤ width) : value bs < 2 ^ (8 * width) := by
  refine Nat.lt_of_lt_of_le (value_lt bs) ?_
  rw [capacity_eq_pow]
  exact Nat.pow_le_pow_right (by decide) (Nat.mul_le_mul_left 8 h)

end LittleEndian

namespace Crc32

variable {register register' : UInt32}

/-! ## Shifting one bit -/

theorem eq_of_getLsbD (h : ∀ i, register.toBitVec.getLsbD i = register'.toBitVec.getLsbD i) :
    register = register' :=
  UInt32.toBitVec_inj.mp (BitVec.eq_of_getLsbD_eq fun i _ => h i)

/-- Every bit moves down by one place, and the bit that leaves adds the polynomial. -/
theorem getLsbD_shiftBit (register : UInt32) (i : Nat) :
    (shiftBit register).toBitVec.getLsbD i =
      (register.toBitVec.getLsbD (i + 1) ^^
        (register.toBitVec.getLsbD 0 && polynomial.toBitVec.getLsbD i)) := by
  have hlow : register &&& 1 = 1 ↔ register.toBitVec.getLsbD 0 = true := by
    have hone : (1 : UInt32).toBitVec = 1#32 := rfl
    rw [← UInt32.toBitVec_inj, UInt32.toBitVec_and, hone,
      BitVec.and_one_eq_setWidth_ofBool_getLsbD]
    cases register.toBitVec.getLsbD 0 <;> decide
  have hshift : (register >>> 1).toBitVec.getLsbD i = register.toBitVec.getLsbD (i + 1) := by
    simp [Nat.add_comm]
  rw [shiftBit]
  split
  · rename_i hset
    rw [UInt32.toBitVec_xor, BitVec.getLsbD_xor, hshift, hlow.mp hset, Bool.true_and]
  · rename_i hclear
    rw [hlow, Bool.not_eq_true] at hclear
    rw [hshift, hclear, Bool.false_and, Bool.xor_false]

theorem shiftBit_xor (register register' : UInt32) :
    shiftBit (register ^^^ register') = shiftBit register ^^^ shiftBit register' := by
  refine eq_of_getLsbD fun i => ?_
  simp only [getLsbD_shiftBit, UInt32.toBitVec_xor, BitVec.getLsbD_xor, Bool.and_xor_distrib_right,
    Bool.xor_assoc, Bool.xor_left_comm]

/-- The highest bit afterwards is the one that left, so the polynomial can be taken off again. -/
theorem shiftBit_injective (h : shiftBit register = shiftBit register') :
    register = register' := by
  have hbit : ∀ i, (shiftBit register).toBitVec.getLsbD i =
      (shiftBit register').toBitVec.getLsbD i := fun i => by rw [h]
  simp only [getLsbD_shiftBit] at hbit
  have htop : polynomial.toBitVec.getLsbD 31 = true := by decide
  have hlow : register.toBitVec.getLsbD 0 = register'.toBitVec.getLsbD 0 := by
    have hlast := hbit 31
    rwa [htop, BitVec.getLsbD_of_ge _ _ (Nat.le_refl _), BitVec.getLsbD_of_ge _ _ (Nat.le_refl _),
      Bool.false_xor, Bool.false_xor, Bool.and_true, Bool.and_true] at hlast
  refine eq_of_getLsbD fun i => ?_
  cases i with
  | zero => exact hlow
  | succ i =>
    have hi := hbit i
    rw [hlow] at hi
    exact Bool.xor_left_inj.mp hi

/-- A number whose lowest bit is clear is halved. -/
theorem shiftBit_double {n : Nat} (h : n < 2 ^ 31) :
    shiftBit (UInt32.ofNat (2 * n)) = UInt32.ofNat n := by
  have hfits : 2 * n < UInt32.size := by
    rw [UInt32.size]
    omega
  have hword : (UInt32.ofNat (2 * n)).toNat = 2 * n := UInt32.toNat_ofNat_of_lt' hfits
  have heven : UInt32.ofNat (2 * n) &&& 1 ≠ 1 := by
    rw [ne_eq, ← UInt32.toNat_inj, UInt32.toNat_and, hword, UInt32.toNat_one, Nat.and_one_is_mod]
    omega
  rw [shiftBit, if_neg heven, ← UInt32.toNat_inj, UInt32.toNat_shiftRight, hword,
    UInt32.toNat_ofNat_of_lt' (by omega : n < UInt32.size)]
  exact Nat.mul_div_cancel_left n (by decide)

/-! ## Shifting several bits -/

theorem repeat_shiftBit_xor (n : Nat) (register register' : UInt32) :
    Nat.repeat shiftBit n (register ^^^ register') =
      Nat.repeat shiftBit n register ^^^ Nat.repeat shiftBit n register' := by
  induction n with
  | zero => rfl
  | succ n ih => rw [Nat.repeat, ih, shiftBit_xor, Nat.repeat, Nat.repeat]

theorem repeat_shiftBit_injective {n : Nat}
    (h : Nat.repeat shiftBit n register = Nat.repeat shiftBit n register') :
    register = register' := by
  induction n with
  | zero => exact h
  | succ n ih => exact ih (shiftBit_injective h)

theorem repeat_shiftBit_repeat (m n : Nat) (register : UInt32) :
    Nat.repeat shiftBit m (Nat.repeat shiftBit n register) =
      Nat.repeat shiftBit (n + m) register := by
  induction m with
  | zero => rfl
  | succ m ih => rw [Nat.repeat, ih, ← Nat.add_assoc, Nat.repeat]

/-- A number whose lowest bits are clear only moves down. -/
theorem repeat_shiftBit_mul_pow {m n : Nat} (hm : m ≤ 32) (h : n < 2 ^ (32 - m)) :
    Nat.repeat shiftBit m (UInt32.ofNat (2 ^ m * n)) = UInt32.ofNat n := by
  induction m generalizing n with
  | zero => rw [Nat.repeat, Nat.pow_zero, Nat.one_mul]
  | succ m ih =>
    have hroom : 2 ^ (32 - m) = 2 * 2 ^ (32 - (m + 1)) := by
      rw [← Nat.pow_succ']
      congr 1
      omega
    have hhalf : 2 ^ (32 - (m + 1)) ≤ 2 ^ 31 := Nat.pow_le_pow_right (by decide) (by omega)
    rw [Nat.pow_succ, Nat.mul_assoc, Nat.repeat, ih (by omega) (by omega)]
    exact shiftBit_double (by omega)

/-! ## Taking bytes in -/

theorem absorb_injective {b : UInt8} (h : absorb register b = absorb register' b) :
    register = register' :=
  (UInt32.xor_left_inj _).mp (repeat_shiftBit_injective h)

/-- Bytes that are the same on both sides never undo a difference. -/
theorem run_injective {bs : Bytes} (h : run register bs = run register' bs) :
    register = register' := by
  induction bs generalizing register register' with
  | nil => exact h
  | cons b bs ih => exact absorb_injective (ih h)

/-- The first digit of a number is added to it bit by bit. -/
theorem ofNat_value_cons (b : UInt8) (bs : Bytes) :
    UInt32.ofNat (LittleEndian.value (b :: bs)) =
      b.toUInt32 ^^^ UInt32.ofNat (2 ^ 8 * LittleEndian.value bs) := by
  have hb : b.toNat < 2 ^ 8 := b.toNat_lt
  have hsum : b.toNat + 256 * LittleEndian.value bs =
      b.toNat ^^^ (2 ^ 8 * LittleEndian.value bs) := by
    refine Nat.eq_of_testBit_eq fun i => ?_
    rw [Nat.add_comm, show 256 = 2 ^ 8 from rfl, Nat.testBit_two_pow_mul_add _ hb,
      Nat.testBit_xor, Nat.testBit_two_pow_mul]
    by_cases hi : i < 8
    · rw [if_pos hi, decide_eq_false (by omega : ¬ 8 ≤ i), Bool.false_and, Bool.xor_false]
    · have hhigh : b.toNat.testBit i = false :=
        Nat.testBit_lt_two_pow
          (Nat.lt_of_lt_of_le hb (Nat.pow_le_pow_right (by decide) (by omega)))
      rw [if_neg hi, hhigh, decide_eq_true (by omega : 8 ≤ i), Bool.true_and, Bool.false_xor]
  rw [LittleEndian.value, hsum, UInt32.ofNat_xor, UInt32.ofNat_uInt8ToNat]

/-- Up to four bytes are taken in as the number they are the digits of. -/
theorem run_eq_repeat_shiftBit {bs : Bytes} (h : bs.length ≤ 4) (register : UInt32) :
    run register bs =
      Nat.repeat shiftBit (8 * bs.length) (register ^^^ UInt32.ofNat (LittleEndian.value bs)) := by
  induction bs generalizing register with
  | nil => exact UInt32.xor_zero.symm
  | cons b bs ih =>
    rw [List.length_cons] at h
    have hvalue : LittleEndian.value bs < 2 ^ (32 - 8) :=
      LittleEndian.value_lt_pow (by omega : bs.length ≤ 3)
    calc run register (b :: bs)
        = run (Nat.repeat shiftBit 8 (register ^^^ b.toUInt32)) bs := rfl
      _ = Nat.repeat shiftBit (8 * bs.length)
            (Nat.repeat shiftBit 8 (register ^^^ b.toUInt32) ^^^
              UInt32.ofNat (LittleEndian.value bs)) := ih (by omega) _
      _ = Nat.repeat shiftBit (8 * bs.length) (Nat.repeat shiftBit 8
            (register ^^^ b.toUInt32 ^^^ UInt32.ofNat (2 ^ 8 * LittleEndian.value bs))) := by
          rw [repeat_shiftBit_xor 8 (register ^^^ b.toUInt32),
            repeat_shiftBit_mul_pow (by decide) hvalue]
      _ = Nat.repeat shiftBit (8 * (bs.length + 1))
            (register ^^^ UInt32.ofNat (LittleEndian.value (b :: bs))) := by
          rw [repeat_shiftBit_repeat, UInt32.xor_assoc, ← ofNat_value_cons, Nat.mul_succ,
            Nat.add_comm]

/-- Different windows of up to four bytes leave different registers. -/
theorem run_injective_of_short {window window' : Bytes} (hlength : window.length = window'.length)
    (hshort : window.length ≤ 4) (h : run register window = run register window') :
    window = window' := by
  have hshort' : window'.length ≤ 4 := hlength ▸ hshort
  rw [run_eq_repeat_shiftBit hshort, run_eq_repeat_shiftBit hshort', hlength] at h
  have hword := (UInt32.xor_right_inj _).mp (repeat_shiftBit_injective h)
  rw [← UInt32.toNat_inj, UInt32.toNat_ofNat_of_lt' (LittleEndian.value_lt_pow hshort),
    UInt32.toNat_ofNat_of_lt' (LittleEndian.value_lt_pow hshort')] at hword
  exact LittleEndian.value_injective hlength hword

theorem checksum_injective_run {bs bs' : Bytes} (h : checksum bs = checksum bs') :
    run 0xFFFFFFFF bs = run 0xFFFFFFFF bs' :=
  (UInt32.xor_left_inj _).mp h

/-- A change within four consecutive bytes changes the checksum. -/
theorem checksum_ne_of_agreeOutside {start : Nat} {bs bs' : Bytes}
    (h : AgreeOutside start (start + 4) bs bs') (hne : bs' ≠ bs) :
    checksum bs' ≠ checksum bs := by
  obtain ⟨front, window, window', back, rfl, rfl, hlength, hshort⟩ :=
    h.exists_windows (Nat.le_add_right _ _)
  intro hchecksum
  have hrun := checksum_injective_run hchecksum
  simp only [run_append] at hrun
  have hwindow := run_injective_of_short hlength.symm (by omega) (run_injective hrun)
  exact hne (by rw [hwindow])

end Crc32

end DexWeave
