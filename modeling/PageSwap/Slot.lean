/-
# Slots

A slot says where in swap a page lives: the number of a swap area and a page offset inside
that area, packed into one word with the area number on top.

* `area_new`, `offset_new` -- both parts come back out of a slot, the offset cut to its bits.
* `offset_le` -- an offset never leaves its bits.
-/
import PageSwap.Fault

namespace PageSwap

/-- A place in swap. -/
structure Slot where
  word : UInt64
  deriving DecidableEq, Inhabited

namespace Slot

/-- Bits of a slot that hold the area number. -/
def areaBits : UInt32 := 6

/-- One more than the largest area number. -/
def areaLimit : UInt32 := 1 <<< areaBits

/-- Bits of a slot that hold the offset. -/
def offsetBits : UInt64 := 64 - areaBits.toUInt64

/-- The largest offset. -/
def offsetMask : UInt64 := (1 <<< offsetBits) - 1

/-- The slot at `offset` of `area`.  The offset is cut to its bits; an area number that does
not fit is a fault. -/
def new (area : UInt32) (offset : UInt64) : Except Fault Slot :=
  if area < areaLimit then .ok ⟨(area.toUInt64 <<< offsetBits) ||| (offset &&& offsetMask)⟩
  else .error .slotArea

/-- The area number. -/
def area (s : Slot) : UInt32 := (s.word >>> offsetBits).toUInt32

/-- The offset inside the area. -/
def offset (s : Slot) : UInt64 := s.word &&& offsetMask

/-- Slots are ordered by area, then by offset. -/
instance : Ord Slot := ⟨fun a b => compare a.word b.word⟩

/-- A slot is made exactly of area numbers that fit. -/
theorem new_eq_ok_iff {area : UInt32} {offset : UInt64} {s : Slot} :
    new area offset = .ok s ↔
      area < areaLimit ∧ s.word = (area.toUInt64 <<< offsetBits) ||| (offset &&& offsetMask) := by
  unfold new
  split
  · rename_i h
    constructor
    · intro hs
      injection hs with hs
      exact ⟨h, hs ▸ rfl⟩
    · rintro ⟨_, hs⟩
      rw [← hs]
  · rename_i h
    exact ⟨nofun, fun hs => absurd hs.1 h⟩

/-- An offset never leaves its bits. -/
theorem offset_le (s : Slot) : s.offset ≤ offsetMask := by
  rw [UInt64.le_iff_toNat_le, offset, UInt64.toNat_and]
  exact Nat.and_le_right

/-- The area number comes back. -/
theorem area_new {area : UInt32} {offset : UInt64} {s : Slot} (h : new area offset = .ok s) :
    s.area = area := by
  obtain ⟨ha, hw⟩ := new_eq_ok_iff.mp h
  have ha : area.toNat < 64 := by simpa [areaLimit, areaBits, UInt32.lt_iff_toNat_lt] using ha
  apply UInt32.toNat_inj.mp
  have hlow : (offset.toNat &&& (2 ^ 58 - 1)) >>> 58 = 0 := by
    rw [Nat.and_two_pow_sub_one_eq_mod, Nat.shiftRight_eq_div_pow]
    omega
  have hhigh : ((area.toNat <<< 58) % 2 ^ 64) >>> 58 = area.toNat := by
    rw [Nat.shiftLeft_eq, Nat.shiftRight_eq_div_pow]
    omega
  simp only [Slot.area, hw, UInt64.toNat_toUInt32, UInt64.toNat_shiftRight, UInt64.toNat_or,
    UInt64.toNat_and, UInt64.toNat_shiftLeft, Nat.shiftRight_or_distrib]
  have e1 : offsetBits.toNat % 64 = 58 := rfl
  have e2 : offsetMask.toNat = 2 ^ 58 - 1 := rfl
  have e3 : area.toUInt64.toNat = area.toNat := by simp
  rw [e1, e2, e3, hlow, hhigh]
  simp

/-- The offset comes back, cut to its bits. -/
theorem offset_new {area : UInt32} {offset : UInt64} {s : Slot} (h : new area offset = .ok s) :
    s.offset = offset &&& offsetMask := by
  obtain ⟨-, hw⟩ := new_eq_ok_iff.mp h
  apply UInt64.toNat_inj.mp
  simp only [Slot.offset, hw, UInt64.toNat_or, UInt64.toNat_and, UInt64.toNat_shiftLeft]
  have e1 : offsetBits.toNat % 64 = 58 := rfl
  have e2 : offsetMask.toNat = 2 ^ 58 - 1 := rfl
  rw [e1, e2, Nat.and_or_distrib_right, Nat.and_two_pow_sub_one_eq_mod,
    Nat.and_two_pow_sub_one_eq_mod, Nat.and_two_pow_sub_one_eq_mod, Nat.shiftLeft_eq]
  have : area.toUInt64.toNat * 2 ^ 58 % 2 ^ 64 % 2 ^ 58 = 0 := by omega
  rw [this]; simp

end Slot

end PageSwap
