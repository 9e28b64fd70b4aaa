/-
# Byte strings

The content of pages, disks and files.  Most of it is one byte over and over, and a disk may be far
larger than what is ever written, so a byte string is kept as its maximal runs of equal bytes.
Nothing else is to be seen of the runs: `toList` is what a byte string means.

* `toList_append`, `toList_take`, `toList_drop`, `toList_fill` -- the operations, through `toList`.
* `length_toList` -- the size is the number of bytes.
* `toList_inj` -- byte strings with the same bytes are equal.
* `getD_overlay` -- what a byte string holds after a part of it was replaced.
-/
namespace PageSwap

/-! ## 1. Runs of equal bytes -/

/-- A byte and how often it stands in a row. -/
abbrev ByteRun := UInt8 × Nat

namespace ByteRun

/-- The bytes of some runs. -/
def expand (l : List ByteRun) : List UInt8 := l.flatMap fun r => List.replicate r.2 r.1

/-- The number of these bytes. -/
def total : List ByteRun → Nat
  | [] => 0
  | (_, n) :: rest => n + total rest

/-- No run is empty, and neighbours differ in their byte. -/
def Maximal : List ByteRun → Prop
  | [] => True
  | (b, n) :: rest => 0 < n ∧ rest.head?.map Prod.fst ≠ some b ∧ Maximal rest

/-- A run in front of maximal runs. -/
def join : ByteRun → List ByteRun → List ByteRun
  | (_, 0), rest => rest
  | (b, n + 1), [] => [(b, n + 1)]
  | (b, n + 1), (c, m) :: rest =>
    if c = b then (b, n + 1 + m) :: rest else (b, n + 1) :: (c, m) :: rest

/-- The maximal runs of the same bytes. -/
def merge (l : List ByteRun) : List ByteRun := l.foldr join []

/-- The runs of the first `n` bytes; some may be empty. -/
def take : Nat → List ByteRun → List ByteRun
  | _, [] => []
  | n, (b, m) :: rest => (b, min n m) :: take (n - m) rest

/-- The runs of what follows the first `n` bytes; some may be empty. -/
def drop : Nat → List ByteRun → List ByteRun
  | _, [] => []
  | n, (b, m) :: rest => (b, m - n) :: drop (n - m) rest

@[simp] theorem expand_nil : expand [] = [] := rfl

@[simp] theorem expand_cons (r : ByteRun) (l : List ByteRun) :
    expand (r :: l) = List.replicate r.2 r.1 ++ expand l := rfl

theorem expand_append (l m : List ByteRun) : expand (l ++ m) = expand l ++ expand m := by
  simp [expand]

theorem length_expand (l : List ByteRun) : (expand l).length = total l := by
  induction l with
  | nil => rfl
  | cons r l ih => simp [total, ih]

theorem maximal_join (r : ByteRun) {l : List ByteRun} (h : Maximal l) : Maximal (join r l) := by
  obtain ⟨b, n⟩ := r
  cases n with
  | zero => simpa only [join]
  | succ n =>
    cases l with
    | nil => simp [join, Maximal]
    | cons s l =>
      obtain ⟨c, m⟩ := s
      simp only [join]
      split
      · rename_i hc
        exact ⟨by omega, hc ▸ h.2.1, h.2.2⟩
      · rename_i hc
        exact ⟨by omega, by simpa using hc, h⟩

theorem expand_join (r : ByteRun) (l : List ByteRun) :
    expand (join r l) = List.replicate r.2 r.1 ++ expand l := by
  obtain ⟨b, n⟩ := r
  cases n with
  | zero => simp [join]
  | succ n =>
    cases l with
    | nil => simp [join]
    | cons s l =>
      simp only [join]
      split
      · rename_i hc
        simp only [expand_cons, hc, ← List.append_assoc, List.replicate_append_replicate]
      · rfl

theorem maximal_merge (l : List ByteRun) : Maximal (merge l) := by
  induction l with
  | nil => trivial
  | cons r l ih => exact maximal_join r ih

theorem expand_merge (l : List ByteRun) : expand (merge l) = expand l := by
  induction l with
  | nil => rfl
  | cons r l ih => rw [merge, List.foldr_cons, expand_join, ← merge, ih, expand_cons]

theorem expand_take (n : Nat) (l : List ByteRun) : expand (take n l) = (expand l).take n := by
  induction l generalizing n with
  | nil => simp [take]
  | cons r l ih => simp [take, ih, List.take_append, List.take_replicate]

theorem expand_drop (n : Nat) (l : List ByteRun) : expand (drop n l) = (expand l).drop n := by
  induction l generalizing n with
  | nil => simp [drop]
  | cons r l ih => simp [drop, ih, List.drop_append, List.drop_replicate]

/-- The first byte is that of the first run. -/
theorem head?_expand {l : List ByteRun} (h : Maximal l) :
    (expand l).head? = l.head?.map Prod.fst := by
  cases l with
  | nil => rfl
  | cons r l =>
    have hn : r.2 ≠ 0 := Nat.pos_iff_ne_zero.mp h.1
    simp [List.head?_append, List.head?_replicate, hn]

/-- A row of equal bytes ends where another byte follows. -/
theorem replicate_append_inj {b : UInt8} {m n : Nat} {l k : List UInt8}
    (hl : l.head? ≠ some b) (hk : k.head? ≠ some b)
    (h : List.replicate m b ++ l = List.replicate n b ++ k) : m = n ∧ l = k := by
  induction m generalizing n with
  | zero =>
    cases n with
    | zero => exact ⟨rfl, h⟩
    | succ n => exact absurd (congrArg List.head? h) (by simpa [List.replicate_succ] using hl)
  | succ m ih =>
    cases n with
    | zero => exact absurd (congrArg List.head? h).symm (by simpa [List.replicate_succ] using hk)
    | succ n =>
      simp only [List.replicate_succ, List.cons_append, List.cons.injEq, true_and] at h
      have hr := ih h
      exact ⟨congrArg (· + 1) hr.1, hr.2⟩

/-- Maximal runs are determined by their bytes. -/
theorem eq_of_expand_eq {l k : List ByteRun} (hl : Maximal l) (hk : Maximal k)
    (h : expand l = expand k) : l = k := by
  induction l generalizing k with
  | nil =>
    cases k with
    | nil => rfl
    | cons s k => exact absurd (congrArg List.head? h) (by rw [head?_expand hk]; simp)
  | cons r l ih =>
    cases k with
    | nil => exact absurd (congrArg List.head? h) (by rw [head?_expand hl]; simp)
    | cons s k =>
      obtain ⟨b, m⟩ := r
      obtain ⟨c, n⟩ := s
      have hb : b = c := by
        have hh := congrArg List.head? h
        rw [head?_expand hl, head?_expand hk] at hh
        simpa using hh
      subst hb
      have hbl : (expand l).head? ≠ some b := by rw [head?_expand hl.2.2]; exact hl.2.1
      have hbk : (expand k).head? ≠ some b := by rw [head?_expand hk.2.2]; exact hk.2.1
      obtain ⟨rfl, ht⟩ := replicate_append_inj hbl hbk h
      rw [ih hl.2.2 hk.2.2 ht]

end ByteRun

/-! ## 2. Byte strings -/

/-- Content of a page, a disk or a file. -/
@[ext] structure Bytes where
  /-- Runs of equal bytes, in order. -/
  runs : List ByteRun
  maximal : ByteRun.Maximal runs
  deriving DecidableEq

namespace Bytes

/-- Every byte string that can be allocated is shorter than this. -/
def allocLimit : Nat := 0x8000000000000000

/-- The bytes of some runs. -/
def ofRuns (l : List ByteRun) : Bytes := ⟨ByteRun.merge l, ByteRun.maximal_merge l⟩

/-- No bytes. -/
def empty : Bytes := ⟨[], trivial⟩

instance : Inhabited Bytes := ⟨empty⟩

/-- `n` copies of `b`. -/
def fill (n : Nat) (b : UInt8) : Bytes := ofRuns [(b, n)]

/-- The number of bytes. -/
def size (s : Bytes) : Nat := ByteRun.total s.runs

instance : Append Bytes := ⟨fun s t => ofRuns (s.runs ++ t.runs)⟩

/-- The first `n` bytes. -/
def take (n : Nat) (s : Bytes) : Bytes := ofRuns (ByteRun.take n s.runs)

/-- What follows the first `n` bytes. -/
def drop (n : Nat) (s : Bytes) : Bytes := ofRuns (ByteRun.drop n s.runs)

/-- The same bytes, followed by zeros if there are less than `n`. -/
def padTo (n : Nat) (s : Bytes) : Bytes := s ++ fill (n - s.size) 0

/-- The same bytes, but `patch` from position `at_` on. -/
def overlay (s : Bytes) (at_ : Nat) (patch : Bytes) : Bytes :=
  s.take at_ ++ patch ++ s.drop (at_ + patch.size)

/-! ## 3. The bytes themselves -/

/-- The bytes in order. -/
def toList (s : Bytes) : List UInt8 := ByteRun.expand s.runs

/-- **Byte strings with the same bytes are equal.** -/
theorem toList_inj {s t : Bytes} : s.toList = t.toList ↔ s = t :=
  ⟨fun h => Bytes.ext (ByteRun.eq_of_expand_eq s.maximal t.maximal h), fun h => h ▸ rfl⟩

theorem length_toList (s : Bytes) : s.toList.length = s.size := ByteRun.length_expand s.runs

@[simp] theorem toList_ofRuns (l : List ByteRun) : (ofRuns l).toList = ByteRun.expand l :=
  ByteRun.expand_merge l

@[simp] theorem toList_empty : empty.toList = [] := rfl

@[simp] theorem toList_fill (n : Nat) (b : UInt8) : (fill n b).toList = List.replicate n b := by
  simp [fill]

@[simp] theorem toList_append (s t : Bytes) : (s ++ t).toList = s.toList ++ t.toList :=
  (toList_ofRuns _).trans (ByteRun.expand_append s.runs t.runs)

@[simp] theorem empty_append (s : Bytes) : empty ++ s = s := by
  rw [← toList_inj, toList_append, toList_empty, List.nil_append]

@[simp] theorem toList_take (n : Nat) (s : Bytes) : (s.take n).toList = s.toList.take n :=
  (toList_ofRuns _).trans (ByteRun.expand_take n s.runs)

@[simp] theorem toList_drop (n : Nat) (s : Bytes) : (s.drop n).toList = s.toList.drop n :=
  (toList_ofRuns _).trans (ByteRun.expand_drop n s.runs)

@[simp] theorem toList_padTo (n : Nat) (s : Bytes) :
    (s.padTo n).toList = s.toList ++ List.replicate (n - s.size) 0 := by
  simp [padTo]

@[simp] theorem toList_overlay (s : Bytes) (at_ : Nat) (patch : Bytes) :
    (s.overlay at_ patch).toList =
      s.toList.take at_ ++ patch.toList ++ s.toList.drop (at_ + patch.size) := by
  simp [overlay]

@[simp] theorem size_fill (n : Nat) (b : UInt8) : (fill n b).size = n := by
  simp [← length_toList]

@[simp] theorem size_append (s t : Bytes) : (s ++ t).size = s.size + t.size := by
  simp [← length_toList]

@[simp] theorem size_take (n : Nat) (s : Bytes) : (s.take n).size = min n s.size := by
  simp [← length_toList]

@[simp] theorem size_drop (n : Nat) (s : Bytes) : (s.drop n).size = s.size - n := by
  simp [← length_toList]

/-- Padding with zeros does not show where missing bytes read as zero. -/
theorem getD_padTo (s : Bytes) (n i : Nat) :
    (s.padTo n).toList.getD i 0 = s.toList.getD i 0 := by
  simp only [toList_padTo, List.getD_eq_getElem?_getD, List.getElem?_append,
    List.getElem?_replicate]
  split
  · rfl
  · rw [List.getElem?_eq_none (by omega)]
    split <;> rfl

/-- Inside the patch stands the patch, outside what was there. -/
theorem getD_overlay {s : Bytes} {at_ : Nat} (h : at_ ≤ s.size) (patch : Bytes) (i : Nat) :
    (s.overlay at_ patch).toList.getD i 0 =
      if at_ ≤ i ∧ i < at_ + patch.size then patch.toList.getD (i - at_) 0
      else s.toList.getD i 0 := by
  have hs := length_toList s
  have hp := length_toList patch
  simp only [toList_overlay, List.getD_eq_getElem?_getD, List.append_assoc]
  rw [List.getElem?_append, List.length_take, Nat.min_eq_left (by omega)]
  split
  · rw [List.getElem?_take_of_lt (by omega), if_neg (by omega)]
  · rw [List.getElem?_append, hp]
    split
    · rw [if_pos (by omega)]
    · rw [if_neg (by omega), List.getElem?_drop]
      congr 2
      omega

end Bytes

end PageSwap
