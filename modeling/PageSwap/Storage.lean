/-
# Storage

A disk or a file is a number of bytes, all zero at first.  What lies beyond the last byte ever
written is not kept but reads as zero, so a large disk costs nothing before it is used.

* `getElem?_read`, `byte_write` -- reading and writing, byte by byte.
* `read_write` -- reading gives back what was written.
* `read_write_of_disjoint` -- and elsewhere what was there before.
-/
import PageSwap.Bytes

namespace PageSwap

/-- The content of a disk or a file. -/
structure Storage where
  /-- Bytes it holds. -/
  size : Nat := 0
  /-- The bytes up to the last one ever written. -/
  written : Bytes := .empty
  deriving DecidableEq, Inhabited

namespace Storage

/-- The `len` bytes from `pos` on. -/
def read (s : Storage) (pos len : Nat) : Bytes := ((s.written.drop pos).take len).padTo len

/-- The storage with `bytes` written at `pos`. -/
def write (s : Storage) (pos : Nat) (bytes : Bytes) : Storage :=
  { s with written := (s.written.padTo pos).overlay pos bytes }

/-- The byte at position `i`. -/
def byte (s : Storage) (i : Nat) : UInt8 := s.written.toList.getD i 0

theorem size_read (s : Storage) (pos len : Nat) : (s.read pos len).size = len := by
  simp only [read, Bytes.padTo, Bytes.size_append, Bytes.size_fill, Bytes.size_take]
  omega

/-- A read shows the bytes of the storage. -/
theorem getElem?_read (s : Storage) {pos len i : Nat} (h : i < len) :
    (s.read pos len).toList[i]? = some (s.byte (pos + i)) := by
  have hlen := Bytes.length_toList s.written
  simp only [read, byte, Bytes.toList_padTo, Bytes.toList_take, Bytes.toList_drop,
    Bytes.size_take, Bytes.size_drop, List.getD_eq_getElem?_getD]
  rw [List.getElem?_append, List.getElem?_take_of_lt h, List.getElem?_drop,
    List.getElem?_replicate]
  simp only [List.length_take, List.length_drop, Bytes.length_toList]
  split
  · rw [List.getElem?_eq_getElem (by omega)]
    rfl
  · rw [List.getElem?_eq_none (by omega), if_pos (by omega)]
    rfl

/-- A write changes the bytes it covers and no others. -/
theorem byte_write (s : Storage) (pos : Nat) (bytes : Bytes) (i : Nat) :
    (s.write pos bytes).byte i =
      if pos ≤ i ∧ i < pos + bytes.size then bytes.toList.getD (i - pos) 0 else s.byte i := by
  have hpos : pos ≤ (s.written.padTo pos).size := by
    simp only [Bytes.padTo, Bytes.size_append, Bytes.size_fill]
    omega
  simp only [write, byte, Bytes.getD_overlay hpos, Bytes.getD_padTo]

/-- A read is determined by the bytes it covers. -/
theorem read_congr {s : Storage} {b : Bytes} {pos len : Nat} (hsize : b.size = len)
    (h : ∀ i < len, b.toList[i]? = some (s.byte (pos + i))) : s.read pos len = b := by
  refine Bytes.toList_inj.mp (List.ext_getElem? fun i => ?_)
  by_cases hi : i < len
  · rw [getElem?_read s hi, h i hi]
  · rw [List.getElem?_eq_none, List.getElem?_eq_none]
    · rw [Bytes.length_toList]; omega
    · rw [Bytes.length_toList, size_read]; omega

/-- **Reading gives back what was written.** -/
theorem read_write (s : Storage) (pos : Nat) (bytes : Bytes) :
    (s.write pos bytes).read pos bytes.size = bytes := by
  refine read_congr rfl fun i hi => ?_
  have hlen := Bytes.length_toList bytes
  rw [byte_write, if_pos (by omega), Nat.add_sub_cancel_left, List.getD_eq_getElem?_getD,
    List.getElem?_eq_getElem (by omega)]
  rfl

/-- **A write does not show where it does not reach.** -/
theorem read_write_of_disjoint (s : Storage) {pos len at_ : Nat} {bytes : Bytes}
    (h : pos + len ≤ at_ ∨ at_ + bytes.size ≤ pos) :
    (s.write at_ bytes).read pos len = s.read pos len := by
  refine read_congr (size_read s pos len) fun i hi => ?_
  rw [getElem?_read s hi, byte_write, if_neg (by omega)]

end Storage

end PageSwap
