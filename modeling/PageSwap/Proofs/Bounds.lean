/-
# Pages past the end of their area

The number of pages of an area is fixed when it is brought up.  An area that reaches a device looks
every slot up in its table, which ends there: a page whose slot lies past the end is given back at
once, whatever its device would have done.  An area that goes through a file system has a table as
well, but does not look at it: the position of a slot is its offset, shifted, and bits shifted out
of the word are lost.

* `refused_past_the_end` -- an area that reaches a device transfers nothing past its end.
* `file_written_past_the_end` -- an area that goes through a file system does.
-/
import PageSwap.Proofs.Areas
import PageSwap.Proofs.Disks
import PageSwap.Proofs.Reads

namespace PageSwap

variable {σ : Type}

/-! ## 1. Slots past the end -/

/-- Page `p` has its slot in area `a`, which is active, past the last page of the area. -/
structure Area.Past (a : Area) (s : System σ) (p : PageId) : Prop where
  active : s.areaAt p = some a
  slot : ∃ sl, (s.pages.get p).slot = some sl ∧ sl.area = a.number ∧ a.max ≤ sl.offset

/-- An area that has been built has the blocks it was brought up with. -/
theorem broughtUp_of_activate {b : Backend σ} {spec : AreaSpec} {limit : UInt64} {s s' : System σ}
    {a : Area} (h : activate b spec limit s = .ok (.ok a, s')) :
    ∃ blocks, a.BroughtUp spec (groundOf b spec s) blocks := by
  have hwp : (activate b spec limit).wp (fun answer _ => ∀ a, answer = .ok a →
      ∃ blocks, a.BroughtUp spec (groundOf b spec s) blocks) (fun _ => True) s := by
    refine activate_wp trivial (fun _ _ _ => trivial) (fun why console a ha => absurd ha nofun)
      fun area blocks console hup a ha => ?_
    injection ha with ha
    exact ⟨blocks, ha ▸ hup⟩
  exact hwp.of_ok h a rfl

/-- **The table of an area ends with its last page.** -/
theorem Area.BroughtUp.sector_past {a : Area} {spec : AreaSpec} {ground : Area.Ground}
    {blocks : List Nat} (h : a.BroughtUp spec ground blocks) {sl : Slot}
    (harea : sl.area = a.number) (hpast : a.max ≤ sl.offset) :
    a.sector (some sl) = .error (.refused .unmappedSlot) := by
  have hnone : a.table.map? sl.offset = .ok none := by
    refine h.lists.ordered.map?_eq_none_iff.mpr fun b hmaps => ?_
    obtain ⟨hlt, -⟩ := List.getElem?_eq_some_iff.mp ((h.lists.maps _ _).mp hmaps)
    have hle := UInt64.le_iff_toNat_le.mp hpast
    have hmax := h.max
    omega
  have hoffset : a.offset (some sl) = .ok sl.offset := if_pos harea
  unfold Area.sector Area.block
  rw [hoffset]
  simp only [Except.mapError, bind, Except.bind, liftM, monadLift, MonadLift.monadLift, hnone]
  rfl

/-! ## 2. Pages that are given back -/

/-- The page after a read that was given up: errored and unlocked. -/
def Page.unread (page : Page) : Page := page.setReadError.released

section

variable {b : Backend σ} {s : System σ} {p : PageId} {a : Area} {stop : Fault → Prop}

theorem writeSlot_lost {why : Refusal} {w : Writeback} {ending : Ending}
    {post : Status → System σ → Prop} (hdevice : a.backing.device?.isSome)
    (hsector : a.sector (s.pages.get p).slot = .error (.refused why))
    (hlocked : (s.pages.get p).flags.locked = true)
    (hpost : post (.error why.errno) { s with pages := s.pages.set p (s.pages.get p).spilled }) :
    (writeSlot b a p w ending).wp post stop s := by
  obtain ⟨d, hd⟩ := Option.isSome_iff_exists.mp hdevice
  rw [writeSlot_eq_writeDevice hd]
  unfold writeDevice
  simp only [Run.wp_bind, Run.wp_page, hsector, Run.wp_attempt]
  exact failWrite_wp hlocked hpost

theorem readSlot_lost {why : Refusal} {pace : Pace} {post : Status → System σ → Prop}
    (hdevice : a.backing.device?.isSome)
    (hsector : a.sector (s.pages.get p).slot = .error (.refused why))
    (hlocked : (s.pages.get p).flags.locked = true)
    (hpost : post (.error why.errno) { s with pages := s.pages.set p (s.pages.get p).unread }) :
    (readSlot b a p pace).wp post stop s := by
  obtain ⟨d, hd⟩ := Option.isSome_iff_exists.mp hdevice
  rw [readSlot_eq_readDevice hd]
  unfold readDevice failRead
  simp only [Run.wp_bind, Run.wp_page, hsector, Run.wp_attempt, Run.wp_editPage]
  refine Run.wp_tryPage_of_ok (unlock_of (by rw [Table.get_set_self]; exact hlocked)) ?_
  simp only [Table.get_set_self, Table.set_set, Run.wp_pure]
  exact hpost

end

/-! ## 3. Areas that reach a device -/

/-- **An area that reaches a device transfers nothing past its end**, whatever its drivers and files
would do: they are not asked.  The caller is told that the slot is invalid; a page to be written
stays dirty, a page to be read is errored, and both are unlocked. -/
theorem refused_past_the_end {b₀ b : Backend σ} {spec : AreaSpec} {limit : UInt64}
    {s₀ s₁ s : System σ} {a : Area} {p : PageId}
    (hup : activate b₀ spec limit s₀ = .ok (.ok a, s₁)) (hdevice : spec.backing.device?.isSome)
    (hpast : a.Past s p) (hlocked : (s.pages.get p).flags.locked = true) (hfront : b.front = none)
    (hkept : ∀ page w, (b.slotMaps.tryFree a.slotMap p page w).1 = (false, page)) :
    (∀ w, pageOut b p w s = .ok (.error Errno.invalid, { s with
      pages := s.pages.set p (s.pages.get p).spilled
      world := (b.statistics.cycles
        (b.slotMaps.tryFree a.slotMap p (s.pages.get p).clearDirty s.world).2).2 })) ∧
    (∀ w ending, pageOutPast b p w ending s = .ok (.error Errno.invalid, { s with
      pages := s.pages.set p (s.pages.get p).spilled })) ∧
    ((s.pages.get p).flags.uptodate = false → ∀ pace,
      pageIn b p pace s = .ok (.error Errno.invalid, { s with
        pages := s.pages.set p (s.pages.get p).unread
        world := b.stalls.leave (b.stalls.enter s.world).1 (b.stalls.enter s.world).2 })) := by
  obtain ⟨blocks, hup⟩ := broughtUp_of_activate hup
  obtain ⟨hactive, sl, hslot, harea, hmax⟩ := hpast
  have hsector := hup.sector_past harea hmax
  rw [← hup.backing] at hdevice
  refine ⟨fun w => Run.eq_ok_of_wp ?_, fun w ending => Run.eq_ok_of_wp ?_,
    fun huptodate pace => Run.eq_ok_of_wp ?_⟩
  · have hfree := hkept (s.pages.get p).clearDirty s.world
    unfold pageOut frontStore
    simp only [Run.wp_bind, Run.wp_page, hlocked, if_true, Run.wp_editPage]
    rw [areaOf_wp, System.areaAt_clearDirty, hactive]
    simp only [Run.wp_bind, Run.wp_withPage, Table.get_set_self, Table.set_set, hfree,
      Bool.false_eq_true, if_false, Run.wp_world, hfront, Run.wp_pure]
    refine writeSlot_lost hdevice (by rw [Table.get_set_self]; exact hslot ▸ hsector)
      (by rw [Table.get_set_self]; exact hlocked) ⟨rfl, ?_⟩
    simp only [Table.get_set_self, Table.set_set]
    rfl
  · unfold pageOutPast
    simp only [Run.wp_bind, Run.wp_page, hlocked, if_true]
    rw [areaOf_wp, hactive]
    exact writeSlot_lost hdevice (hslot ▸ hsector) hlocked ⟨rfl, rfl⟩
  · unfold pageIn frontLoad
    simp only [Run.wp_bind, Run.wp_page, hlocked, if_true, huptodate, Bool.false_eq_true, if_false]
    rw [areaOf_wp, hactive]
    simp only [Run.wp_bind, hfront, Run.wp_pure, Bool.false_eq_true, if_false, Run.wp_world]
    exact readSlot_lost hdevice (hslot ▸ hsector) hlocked ⟨rfl, rfl⟩

/-- A page of sevens that is to be written to this slot of an area of at most `limit` pages. -/
def ramBeyond (backing : Backing) (limit : UInt64) (slot : Slot) : System RamDisk :=
  let page : Page :=
    { flags.locked := true, flags.dirty := true, slot := some slot, bytes := Bytes.fill 4096 7 }
  match (swapOn (ramDisk true) (ramSpec backing) limit) ramStart with
  | .ok (_, s) => { s with pages := s.pages.set 0 page }
  | .error _ => ramStart

/-- The slot behind the last page of a device. -/
theorem device_left_alone_past_the_end :
    ramArea.Past (ramBeyond (.device 0) 8 ⟨8⟩) 0 ∧ ∃ s',
      pageOut (ramDisk true) 0 {} (ramBeyond (.device 0) 8 ⟨8⟩) = .ok (.error Errno.invalid, s') ∧
      s'.world.disk = ramStart.world.disk := by
  have hup : ∃ s₁, activate (ramDisk true) (ramSpec (.device 0)) 8 ramStart =
      .ok (.ok ramArea, s₁) := ⟨_, rfl⟩
  have hpast : ramArea.Past (ramBeyond (.device 0) 8 ⟨8⟩) 0 :=
    ⟨by decide, ⟨8⟩, rfl, by decide, by decide⟩
  obtain ⟨s₁, hup⟩ := hup
  obtain ⟨hwrite, -⟩ := refused_past_the_end (b := ramDisk true) hup (by decide) hpast rfl rfl
    fun page w => rfl
  exact ⟨hpast, _, hwrite {}, rfl⟩

/-- **An area that goes through a file system is written past its end.**  It has four pages, and the
page of slot 5 ends up in the file behind it. -/
theorem file_written_past_the_end :
    ∃ area s₁ s', activate (ramDisk true) (ramSpec (.file 0)) 4 ramStart = .ok (.ok area, s₁) ∧
      area.max = 4 ∧ area.Past (ramBeyond (.file 0) 4 ⟨5⟩) 0 ∧
      pageOut (ramDisk true) 0 {} (ramBeyond (.file 0) 4 ⟨5⟩) = .ok (.ok (), s') ∧
      s'.world.file.read (5 * 4096) 4096 = Bytes.fill 4096 7 := by
  refine ⟨_, _, _, rfl, rfl, ⟨rfl, ⟨5⟩, rfl, by decide, by decide⟩, rfl, by decide +kernel⟩

end PageSwap
