import Mathlib.Algebra.Group.Nat.Defs
import Mathlib.Data.Nat.Basic

/-!
# Cookies of applications

A cookie has an application in its upper twelve bits and what the application gives in its lower half. The
latter is a signed number, and when it is negative it is extended over the application.
-/

namespace Torpedo

namespace AppCookie

def APP_ID_BITS : Int64 := 12

def APP_ID_SHIFT : Int64 := 64 - APP_ID_BITS

def USER_BITS : Int64 := 32

def USER_SHIFT : Int64 := 0

/-- The two operands of the disjunction are of 64 bits. -/
def makeCookie (application user : Int32) : Int64 :=
  ((application.toInt64 &&& ((1 : Int64) <<< APP_ID_BITS - 1)) <<< APP_ID_SHIFT) ||| user.toInt64

def extractApp (cookie : Int64) : Int32 :=
  ((cookie >>> APP_ID_SHIFT) &&& ((1 : Int64) <<< APP_ID_BITS - 1)).toInt32

def extractUser (cookie : Int64) : Int32 :=
  ((cookie >>> USER_SHIFT) &&& ((1 : Int64) <<< USER_BITS - 1)).toInt32

/-! ## The bits of a cookie -/

theorem toBitVec_makeCookie (application user : Int32) : (makeCookie application user).toBitVec =
    (application.toBitVec.signExtend 64 &&& 4095#64) <<< 52 ||| user.toBitVec.signExtend 64 := rfl

theorem toBitVec_extractApp (cookie : Int64) : (extractApp cookie).toBitVec =
    (cookie.toBitVec.sshiftRight 52 &&& 4095#64).signExtend 32 := rfl

theorem toBitVec_extractUser (cookie : Int64) : (extractUser cookie).toBitVec =
    (cookie.toBitVec.sshiftRight 0 &&& 4294967295#64).signExtend 32 := rfl

/-- The bit `i` of a mask of `k` ones. -/
theorem getElem_mask {w k i : ℕ} (hi : i < w) : (BitVec.ofNat w (2 ^ k - 1))[i] = decide (i < k) := by
  rw [← BitVec.getLsbD_eq_getElem, BitVec.getLsbD_ofNat, Nat.testBit_two_pow_sub_one]
  simp [hi]

/-- Below the application are the bits of the user. -/
theorem getElem_makeCookie_low (application user : Int32) {i : ℕ} (hi : i < 32) :
    (makeCookie application user).toBitVec[i] = user.toBitVec[i] := by
  rw [toBitVec_makeCookie]
  have hlow : i < 52 := by omega
  simp [BitVec.getElem_shiftLeft, BitVec.getElem_signExtend, hi, hlow]

/-- In the bits of the application are these, or the sign of the user. -/
theorem getElem_makeCookie_high (application user : Int32) {i : ℕ} (hi : i < 12) :
    (makeCookie application user).toBitVec[52 + i] = (application.toBitVec[i] || user.toBitVec.msb) := by
  rw [toBitVec_makeCookie]
  have hmask : (4095#64)[i] = true := (getElem_mask (k := 12) (by omega)).trans (decide_eq_true hi)
  have hlow : ¬52 + i < 52 := by omega
  have huser : ¬52 + i < 32 := by omega
  have happ : i < 32 := by omega
  simp [BitVec.getElem_shiftLeft, BitVec.getElem_signExtend, hmask, hlow, huser, happ]

theorem getElem_extractApp (cookie : Int64) {i : ℕ} (hi : i < 32) : (extractApp cookie).toBitVec[i] =
    (decide (i < 12) && cookie.toBitVec.getLsbD (52 + i)) := by
  rw [toBitVec_extractApp]
  have hmask : (4095#32)[i] = decide (i < 12) := getElem_mask (k := 12) hi
  have hlt : i < 64 := by omega
  by_cases hlow : i < 12
  · have hget : 52 + i < 64 := by omega
    simp [BitVec.getElem_signExtend, hmask, hlow, BitVec.getElem_sshiftRight, hget, hlt]
  · simp [BitVec.getElem_signExtend, hmask, hlow, hlt]

theorem getElem_extractUser (cookie : Int64) {i : ℕ} (hi : i < 32) :
    (extractUser cookie).toBitVec[i] = cookie.toBitVec[i] := by
  rw [toBitVec_extractUser]
  have hmask : (4294967295#32)[i] = true := (getElem_mask (k := 32) hi).trans (decide_eq_true hi)
  have hlt : i < 64 := by omega
  simp [BitVec.getElem_signExtend, hmask, hlt]

theorem getElem_appMask (application : Int32) {i : ℕ} (hi : i < 32) :
    (application &&& 0xfff).toBitVec[i] = (decide (i < 12) && application.toBitVec[i]) := by
  have hmask : (4095#32)[i] = decide (i < 12) := getElem_mask (k := 12) hi
  show (application.toBitVec &&& 4095#32)[i] = _
  rw [BitVec.getElem_and, hmask, Bool.and_comm]

/-! ## Cookies taken apart -/

/-- The user is always what it was. -/
theorem extractUser_makeCookie (application user : Int32) :
    extractUser (makeCookie application user) = user := by
  refine Int32.toBitVec_inj.1 ?_
  ext i hi
  rw [getElem_extractUser _ hi, getElem_makeCookie_low application user hi]

/-- The application has the sign of the user in each of its bits. -/
theorem getElem_extractApp_makeCookie (application user : Int32) {i : ℕ} (hi : i < 32) :
    (extractApp (makeCookie application user)).toBitVec[i] =
      (decide (i < 12) && (application.toBitVec[i] || user.toBitVec.msb)) := by
  rw [getElem_extractApp _ hi]
  by_cases hlow : i < 12
  · have hget : 52 + i < 64 := by omega
    rw [BitVec.getLsbD_eq_getElem hget, getElem_makeCookie_high application user hlow]
  · simp [hlow]

/-- The application is what it was just if the user is not negative or its bits are all set. -/
theorem extractApp_makeCookie_iff (application user : Int32) :
    extractApp (makeCookie application user) = application &&& 0xfff ↔
      0 ≤ user ∨ application &&& 0xfff = 0xfff := by
  have hsign : 0 ≤ user ↔ user.toBitVec.msb = false := by
    rw [Int32.le_iff_toInt_le, BitVec.msb_eq_toInt, decide_eq_false_iff_not, Int.not_lt]
    exact Iff.rfl
  have hones : ∀ i (hi : i < 32), (0xfff : Int32).toBitVec[i] = decide (i < 12) := fun i hi =>
    getElem_mask (k := 12) hi
  rw [hsign]
  constructor
  · intro h
    cases hmsb : user.toBitVec.msb with
    | false => exact .inl rfl
    | true =>
      refine .inr (Int32.toBitVec_inj.1 ?_)
      ext i hi
      have hbit := getElem_extractApp_makeCookie application user hi
      rw [hmsb, Bool.or_true, Bool.and_true] at hbit
      rw [hones i hi, ← hbit, h]
  · intro h
    refine Int32.toBitVec_inj.1 ?_
    ext i hi
    rw [getElem_extractApp_makeCookie application user hi, getElem_appMask application hi]
    obtain hmsb | hall := h
    · rw [hmsb, Bool.or_false]
    · have hbit := getElem_appMask application hi
      rw [hall, hones i hi] at hbit
      cases hlow : decide (i < 12) with
      | false => rfl
      | true =>
        rw [hlow, Bool.true_and] at hbit
        rw [← hbit, Bool.true_or]

/-- When both fields of a cookie are what they were. -/
theorem fields_iff (application user : Int32) :
    (extractApp (makeCookie application user) = application &&& 0xfff ∧
      extractUser (makeCookie application user) = user) ↔
    0 ≤ user ∨ application &&& 0xfff = 0xfff := by
  rw [and_iff_left (extractUser_makeCookie application user)]
  exact extractApp_makeCookie_iff application user

/-- A user of −1 makes another application of any. -/
theorem not_fields : ¬∀ application user : Int32,
    extractApp (makeCookie application user) = application &&& 0xfff ∧
      extractUser (makeCookie application user) = user :=
  fun hall => absurd (hall 2 (-1)).1 (by decide)

end AppCookie

end Torpedo
