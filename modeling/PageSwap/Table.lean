/-
# Tables of numbered things

Pages, devices, requests and areas are referred to by number.  A `Table` holds a value for
every number, all but finitely many of them the default.  It is an array that grows on demand,
and everything else sees it through `get`:

* `get_set` -- writing one number changes that number and no other, unconditionally.
-/
namespace PageSwap

/-- A value for every number. -/
structure Table (α : Type) where
  entries : Array α := #[]

namespace Table

variable {α : Type}

instance : Inhabited (Table α) := ⟨{}⟩

/-- The value at `i`. -/
def get [Inhabited α] (t : Table α) (i : Nat) : α := t.entries.getD i default

/-- The table with `a` at `i`. -/
def set [Inhabited α] (t : Table α) (i : Nat) (a : α) : Table α :=
  if i < t.entries.size then ⟨t.entries.setIfInBounds i a⟩
  else ⟨(t.entries ++ Array.replicate (i - t.entries.size) default).push a⟩

/-- The first number never written. -/
def fresh (t : Table α) : Nat := t.entries.size

theorem get_eq [Inhabited α] (t : Table α) (i : Nat) :
    t.get i = (t.entries[i]?).getD default := by
  simp [get, Array.getD_eq_getD_getElem?]

/-- **Writing one number changes no other.** -/
theorem get_set [Inhabited α] (t : Table α) (i j : Nat) (a : α) :
    (t.set i a).get j = if j = i then a else t.get j := by
  simp only [get_eq, set]
  split
  · rename_i hi
    by_cases h : j = i
    · subst h; simp [hi]
    · simp [h, Ne.symm h]
  · rename_i hi
    have hsize : (t.entries ++ Array.replicate (i - t.entries.size) (default : α)).size = i := by
      simp; omega
    by_cases h : j = i
    · subst h
      rw [Array.getElem?_push, hsize]; simp
    · rw [Array.getElem?_push, hsize]
      simp only [h, if_false]
      by_cases hj : j < t.entries.size
      · rw [Array.getElem?_append_left hj]
      · rw [Array.getElem?_append_right (by omega)]
        rw [Array.getElem?_replicate]
        have : t.entries[j]? = none := Array.getElem?_eq_none (by omega)
        rw [this]
        split <;> simp

@[simp] theorem get_set_self [Inhabited α] (t : Table α) (i : Nat) (a : α) :
    (t.set i a).get i = a := by simp [get_set]

theorem get_set_ne [Inhabited α] (t : Table α) {i j : Nat} (a : α) (h : j ≠ i) :
    (t.set i a).get j = t.get j := by simp [get_set, h]

/-- The last write of a number counts. -/
@[simp] theorem set_set [Inhabited α] (t : Table α) (i : Nat) (a b : α) :
    (t.set i a).set i b = t.set i b := by
  unfold set
  split
  · rename_i h
    simp [h]
  · rename_i h
    generalize hx : t.entries ++ Array.replicate (i - t.entries.size) (default : α) = xs
    have hsize : xs.size = i := by rw [← hx]; simp; omega
    subst hsize
    simp only [Array.size_push, Nat.lt_succ_self, if_true]
    congr 1
    refine Array.ext_getElem? fun j => ?_
    rw [Array.getElem?_setIfInBounds, Array.getElem?_push, Array.getElem?_push]
    split
    · simp_all
    · rename_i hj
      rw [if_neg (Ne.symm hj), if_neg (Ne.symm hj)]

/-- Writing what is there changes nothing. -/
theorem get_set_get [Inhabited α] (t : Table α) (i j : Nat) :
    (t.set i (t.get i)).get j = t.get j := by
  rw [get_set]
  split
  · rename_i h
    rw [h]
  · rfl

/-- Writing does not shrink a table. -/
theorem fresh_le_fresh_set [Inhabited α] (t : Table α) (i : Nat) (a : α) :
    t.fresh ≤ (t.set i a).fresh := by
  unfold set fresh
  split <;> simp

/-- Writing the first number never written makes the table one larger. -/
theorem fresh_set_fresh [Inhabited α] (t : Table α) (a : α) :
    (t.set t.fresh a).fresh = t.fresh + 1 := by
  unfold set fresh
  rw [if_neg (Nat.lt_irrefl _)]
  simp

/-- Writing what was written before leaves a table as large as it was. -/
theorem fresh_set_of_lt [Inhabited α] (t : Table α) {i : Nat} (h : i < t.fresh) (a : α) :
    (t.set i a).fresh = t.fresh := by
  unfold set
  rw [if_pos (show i < t.entries.size from h)]
  simp [fresh]

/-- Beyond the first number never written there are only defaults. -/
theorem get_of_fresh_le [Inhabited α] (t : Table α) {i : Nat} (h : t.fresh ≤ i) :
    t.get i = default := by
  rw [get_eq, Array.getElem?_eq_none h]; rfl

/-- What holds of every value written, and of the default, holds of every value. -/
theorem forall_get [Inhabited α] (t : Table α) {P : α → Prop} (hdefault : P default)
    (h : ∀ i < t.fresh, P (t.get i)) (i : Nat) : P (t.get i) := by
  rcases Nat.lt_or_ge i t.fresh with hi | hi
  · exact h i hi
  · rw [get_of_fresh_le t hi]
    exact hdefault

end Table

end PageSwap
