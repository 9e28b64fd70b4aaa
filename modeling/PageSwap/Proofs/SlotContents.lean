/-
# What the slots of an area hold

The slots of an area lie on blocks of a device or a file, and a page of a slot may be on its way
there or back.  This file says what the slots hold beside what was last written to them, and what
it takes for a transfer to move exactly one of them.

* `Faithful` -- slots hold what was last written, or are being written; pages that are read get
  it.
* `Beside` -- what a call on one slot leaves alone.
* `Backend.Stores`, `Area.Laid` -- what is asked of the driver or the file that the area lies on,
  and how the slots lie there.
-/
import PageSwap.Proofs.Service

namespace PageSwap

variable {σ : Type}

/-! ## 1. What the slots hold -/

/-- A page of slot `o` is being written. -/
def Pending (area : Area) (pages : Table Page) (o : Nat) : Prop :=
  ∃ p, area.IsAt (pages.get p).slot o ∧ (pages.get p).transfer = .writing

/-- The page holds `bytes`, valid and without an error, and is not in transfer. -/
def Page.Reads (page : Page) (bytes : Bytes) : Prop :=
  page.transfer = .idle ∧ page.flags.uptodate = true ∧ page.flags.error = false ∧
    page.bytes = bytes

/-- **What the `n` slots of an area hold**: `last` is what was last written to them, and a page
with a ticket is being read, or has been read, to hold it. -/
structure Faithful (area : Area) (n : Nat) (last : Nat → Bytes) (tickets : PageId → Option Bytes)
    (pages : Table Page) (content : Nat → Bytes) : Prop where
  /-- Pages in transfer are base pages. -/
  size : ∀ {p}, (pages.get p).transfer ≠ .idle → (pages.get p).bytes.size = 4096
  /-- A slot is in one transfer at most. -/
  unique : ∀ {p p' o}, area.IsAt (pages.get p).slot o → area.IsAt (pages.get p').slot o →
    (pages.get p).transfer ≠ .idle → (pages.get p').transfer ≠ .idle → p = p'
  /-- What is being written is what was written last. -/
  writing : ∀ {p o}, area.IsAt (pages.get p).slot o → (pages.get p).transfer = .writing →
    (pages.get p).bytes = last o
  /-- A slot holds what was written last, unless it is being written. -/
  content : ∀ o < n, content o = last o ∨ Pending area pages o
  /-- A ticket is kept. -/
  ticket : ∀ {p bytes}, tickets p = some bytes →
    ((pages.get p).transfer = .reading ∧ ∃ o < n, area.IsAt (pages.get p).slot o ∧ last o = bytes) ∨
      (pages.get p).Reads bytes

/-- **What a call on slot `o` leaves alone**: a slot besides it holds what it held, or a write to it
that was pending has been finished.  Nothing is pending that was not. -/
structure Beside (area : Area) (n o : Nat) (last : Nat → Bytes) (before : Table Page)
    (held : Nat → Bytes) (pages : Table Page) (content : Nat → Bytes) : Prop where
  content : ∀ o' < n, o' ≠ o →
    content o' = held o' ∨ content o' = last o' ∧ Pending area before o'
  pending : ∀ o', o' ≠ o → Pending area pages o' → Pending area before o'

theorem Beside.refl (area : Area) (n o : Nat) (last : Nat → Bytes) (pages : Table Page)
    (content : Nat → Bytes) : Beside area n o last pages content pages content :=
  ⟨fun _ _ _ => Or.inl rfl, fun _ _ h => h⟩

section

variable {area : Area} {n o : Nat} {last last' held content content' : Nat → Bytes}
  {tickets tickets' : PageId → Option Bytes} {before pages : Table Page} {p : PageId} {page : Page}

/-- What is pending after a page of slot `o` has changed, beside that slot. -/
theorem pending_set (hslot : page.slot = (pages.get p).slot) (hat : area.IsAt page.slot o)
    {o' : Nat}
    (ho : o' ≠ o) : Pending area (pages.set p page) o' ↔ Pending area pages o' := by
  have hother : ∀ {p'}, area.IsAt (pages.get p').slot o' → p' ≠ p := by
    rintro p' hat' rfl
    rw [← hslot] at hat'
    exact ho (hat'.unique hat)
  constructor
  · rintro ⟨p', hat', hw⟩
    by_cases hp : p' = p
    · subst hp
      rw [Table.get_set_self] at hat'
      exact absurd (hat'.unique hat) ho
    · rw [Table.get_set_ne _ _ hp] at hat' hw
      exact ⟨p', hat', hw⟩
  · rintro ⟨p', hat', hw⟩
    refine ⟨p', ?_⟩
    rw [Table.get_set_ne _ _ (hother hat')]
    exact ⟨hat', hw⟩

/-- **One page of slot `o` changes**, and with it at most what the slot holds, what was last written
to it, and the ticket of the page.  No other page of the slot is in transfer. -/
theorem Faithful.update (h : Faithful area n last tickets pages content)
    (hslot : page.slot = (pages.get p).slot) (hat : area.IsAt page.slot o)
    (hfree : ∀ p', p' ≠ p → area.IsAt (pages.get p').slot o → (pages.get p').transfer = .idle)
    (hlast : ∀ o', o' ≠ o → last' o' = last o')
    (hcontent : ∀ o' < n, o' ≠ o → content' o' = content o')
    (htickets : ∀ p', p' ≠ p → tickets' p' = tickets p')
    (hsize : page.transfer ≠ .idle → page.bytes.size = 4096)
    (hwriting : page.transfer = .writing → page.bytes = last' o)
    (hheld : o < n → content' o = last' o ∨ page.transfer = .writing)
    (hticket : ∀ bytes, tickets' p = some bytes →
      (page.transfer = .reading ∧ o < n ∧ last' o = bytes) ∨ page.Reads bytes) :
    Faithful area n last' tickets' (pages.set p page) content' := by
  -- a page of another slot, or of this one and not in transfer
  have hother : ∀ {p' o'}, p' ≠ p → area.IsAt (pages.get p').slot o' →
      (pages.get p').transfer ≠ .idle → o' ≠ o := by
    rintro p' o' hp hat' hbusy rfl
    exact hbusy (hfree p' hp hat')
  constructor
  case size =>
    intro p' hbusy
    rw [Table.get_set] at hbusy ⊢
    split at hbusy
    · rename_i hp
      rw [if_pos hp]
      exact hsize hbusy
    · rename_i hp
      rw [if_neg hp]
      exact h.size hbusy
  case unique =>
    intro p₁ p₂ o' h₁ h₂ hb₁ hb₂
    rw [Table.get_set] at h₁ h₂ hb₁ hb₂
    split at h₁
    · rename_i hp₁
      split at h₂
      · rename_i hp₂
        exact hp₁.trans hp₂.symm
      · rename_i hp₂
        rw [if_neg hp₂] at hb₂
        exact absurd (h₁.unique hat) (hother hp₂ h₂ hb₂)
    · rename_i hp₁
      rw [if_neg hp₁] at hb₁
      split at h₂
      · exact absurd (h₂.unique hat) (hother hp₁ h₁ hb₁)
      · rename_i hp₂
        rw [if_neg hp₂] at hb₂
        exact h.unique h₁ h₂ hb₁ hb₂
  case writing =>
    intro p' o' hat' hw
    rw [Table.get_set] at hat' hw ⊢
    split at hat'
    · rename_i hp
      rw [if_pos hp] at hw ⊢
      rw [hat'.unique hat]
      exact hwriting hw
    · rename_i hp
      rw [if_neg hp] at hw ⊢
      rw [hlast o' (hother hp hat' (by rw [hw]; exact nofun))]
      exact h.writing hat' hw
  case content =>
    intro o' ho'
    by_cases ho : o' = o
    · subst ho
      refine (hheld ho').imp_right fun hw => ⟨p, ?_⟩
      rw [Table.get_set_self]
      exact ⟨hat, hw⟩
    · rw [hcontent o' ho' ho, hlast o' ho, pending_set hslot hat ho]
      exact h.content o' ho'
  case ticket =>
    intro p' bytes ht
    by_cases hp : p' = p
    · subst hp
      rw [Table.get_set_self]
      exact (hticket bytes ht).imp_left fun ⟨hr, ho, hl⟩ => ⟨hr, o, ho, hat, hl⟩
    · rw [Table.get_set_ne _ _ hp]
      rw [htickets p' hp] at ht
      refine (h.ticket ht).imp_left ?_
      rintro ⟨hr, o', ho', hat', hl⟩
      refine ⟨hr, o', ho', hat', ?_⟩
      rw [hlast o' (hother hp hat' (by rw [hr]; exact nofun)), hl]

/-- A page that is not in transfer changes, and loses its ticket. -/
theorem Faithful.edit (h : Faithful area n last tickets pages content)
    (hbusy : (pages.get p).transfer = .idle) (hidle : page.transfer = .idle)
    (htickets : ∀ p', p' ≠ p → tickets' p' = tickets p') (hticket : tickets' p = none) :
    Faithful area n last tickets' (pages.set p page) content := by
  -- a page in transfer is an old one
  have hold : ∀ {p'}, ((pages.set p page).get p').transfer ≠ .idle →
      p' ≠ p ∧ (pages.set p page).get p' = pages.get p' := by
    intro p' hb
    have hp : p' ≠ p := by
      rintro rfl
      rw [Table.get_set_self] at hb
      exact hb hidle
    exact ⟨hp, Table.get_set_ne _ _ hp⟩
  constructor
  case size =>
    intro p' hb
    have hsame := (hold hb).2
    rw [hsame] at hb ⊢
    exact h.size hb
  case unique =>
    intro p₁ p₂ o' h₁ h₂ hb₁ hb₂
    have hsame₁ := (hold hb₁).2
    have hsame₂ := (hold hb₂).2
    rw [hsame₁] at h₁ hb₁
    rw [hsame₂] at h₂ hb₂
    exact h.unique h₁ h₂ hb₁ hb₂
  case writing =>
    intro p' o' hat' hw
    have hsame := (hold (by rw [hw]; exact nofun)).2
    rw [hsame] at hat' hw ⊢
    exact h.writing hat' hw
  case content =>
    intro o' ho'
    refine (h.content o' ho').imp_right ?_
    rintro ⟨p', hat', hw⟩
    have hp : p' ≠ p := by
      rintro rfl
      exact absurd (hbusy.symm.trans hw) nofun
    exact ⟨p', by rw [Table.get_set_ne _ _ hp]; exact ⟨hat', hw⟩⟩
  case ticket =>
    intro p' bytes ht
    by_cases hp : p' = p
    · subst hp
      exact absurd (hticket.symm.trans ht) nofun
    · rw [Table.get_set_ne _ _ hp]
      exact h.ticket (htickets p' hp ▸ ht)

/-- A page in transfer is alone in that on its slot. -/
theorem Faithful.alone (h : Faithful area n last tickets pages content)
    (hat : area.IsAt (pages.get p).slot o) (hbusy : (pages.get p).transfer ≠ .idle) {p' : PageId}
    (hp : p' ≠ p) (hat' : area.IsAt (pages.get p').slot o) : (pages.get p').transfer = .idle := by
  by_contra hbusy'
  exact hp (h.unique hat' hat hbusy' hbusy)

/-- A slot that is being read holds what was written last. -/
theorem Faithful.held_of_reading (h : Faithful area n last tickets pages content)
    (hat : area.IsAt (pages.get p).slot o) (hr : (pages.get p).transfer = .reading) (ho : o < n) :
    content o = last o := by
  refine (h.content o ho).resolve_right ?_
  rintro ⟨p', hat', hw⟩
  have hp := h.unique hat' hat (by rw [hw]; exact nofun) (by rw [hr]; exact nofun)
  rw [hp] at hw
  exact absurd (hr.symm.trans hw) nofun

/-- A page that is being written has no ticket. -/
theorem Faithful.no_ticket (h : Faithful area n last tickets pages content)
    (hw : (pages.get p).transfer = .writing) (bytes : Bytes) : tickets p ≠ some bytes := by
  intro ht
  rcases h.ticket ht with ⟨hr, -⟩ | hr
  · exact absurd (hw.symm.trans hr) nofun
  · exact absurd (hw.symm.trans hr.1) nofun

/-- **Beside the slot of a call**, a page changes only if its pending write is finished. -/
theorem Beside.update {o₁ : Nat} (h : Beside area n o last before held pages content)
    (hlast : ∀ o', o' ≠ o → last' o' = last o')
    (hslot : page.slot = (pages.get p).slot) (hat : area.IsAt page.slot o₁)
    (hpage : page.transfer = .writing → o₁ = o)
    (hothers : ∀ o' < n, o' ≠ o₁ → content' o' = content o')
    (hcontent : o₁ ≠ o → content' o₁ = content o₁ ∨ content' o₁ = last o₁ ∧ Pending area pages o₁) :
    Beside area n o last' before held (pages.set p page) content' := by
  refine ⟨fun o' ho' hne => ?_, fun o' hne hpending => ?_⟩
  · rw [hlast o' hne]
    by_cases ho : o' = o₁
    · subst ho
      rcases hcontent hne with hc | ⟨hc, hpending⟩
      · rw [hc]
        exact h.content o' ho' hne
      · exact Or.inr ⟨hc, h.pending o' hne hpending⟩
    · rw [hothers o' ho' ho]
      exact h.content o' ho' hne
  · refine h.pending o' hne ?_
    obtain ⟨p', hat', hw⟩ := hpending
    by_cases hp : p' = p
    · subst hp
      rw [Table.get_set_self] at hat' hw
      exact absurd ((hat'.unique hat).trans (hpage hw)) hne
    · rw [Table.get_set_ne _ _ hp] at hat' hw
      exact ⟨p', hat', hw⟩

end

/-! ## 2. What a transfer does -/

/-- What slot `o` holds, if the area lies on these blocks of the medium. -/
def slotContent (blocks : List Nat) (medium : Storage) (o : Nat) : Bytes :=
  medium.page (blocks.getD o 0)

section

variable {blocks : List Nat} {before after : Storage} {o block : Nat} {bytes : Bytes}

theorem slotContent_eq (hblock : blocks[o]? = some block) (medium : Storage) :
    slotContent blocks medium o = medium.page block := by
  unfold slotContent
  rw [List.getD_eq_getElem?_getD, hblock, Option.getD_some]

/-- Writing the block of a slot changes what this slot holds, and no other. -/
theorem slotContent_write (hnodup : blocks.Nodup) (hblock : blocks[o]? = some block)
    (hdisk : ∀ other, after.page other = if other = block then bytes else before.page other) :
    slotContent blocks after o = bytes ∧ ∀ o' < blocks.length, o' ≠ o →
      slotContent blocks after o' = slotContent blocks before o' := by
  refine ⟨by rw [slotContent_eq hblock, hdisk, if_pos rfl], fun o' ho' hne => ?_⟩
  have hother := List.getElem?_eq_getElem ho'
  rw [slotContent_eq hother, slotContent_eq hother, hdisk, if_neg]
  intro he
  rw [he, ← hblock] at hother
  exact hne ((List.getElem?_inj ho' hnodup).mp hother)

end

/-- **What is asked of collaborators**: every transfer to the device or the file of the area
succeeds in full, unless a driver does not transfer without a request; nothing else changes what
it holds; the slot map never drops a slot; and there is no front store. -/
structure Backend.Stores (b : Backend σ) (backing : Backing) (queue : QueueId)
    (medium : σ → Storage) : Prop where
  drives : ∀ {d}, backing.device? = some d → b.Drives queue medium
  settles : ∀ {d f q page w status bytes w'}, backing.device? = some d →
    b.queues.settle queue f q page w = .ok ((status, bytes), w') → status = .ok ()
  slotFreed : ∀ {d offset w}, backing.device? = some d →
    medium (b.queues.slotFreed queue offset w) = medium w
  read : ∀ {f position bytes w result bytes' w'}, backing = .file f →
    b.files.read f position bytes w = ((result, bytes'), w') →
    result = .ok bytes.size.toUInt64 ∧ bytes' = (medium w).read position.toNat bytes.size ∧
      medium w' = medium w
  write : ∀ {f position bytes w result w'}, backing = .file f →
    b.files.write f position [bytes] w = (result, w') →
    result = .ok bytes.size.toUInt64 ∧ medium w' = (medium w).write position.toNat bytes
  chore : ∀ {w w'}, Chore b w w' → medium w' = medium w
  tryFree : ∀ {m p page w answer page' w'}, b.slotMaps.tryFree m p page w = ((answer, page'), w') →
    answer = false ∧ page' = page ∧ medium w' = medium w
  front : b.front = none

theorem Backend.Stores.chores {b : Backend σ} {backing : Backing} {queue : QueueId}
    {medium : σ → Storage} (h : b.Stores backing queue medium) {w w' : σ} (hw : Chores b w w') :
    medium w' = medium w := by
  induction hw with
  | refl => rfl
  | tail _ hstep ih => exact (h.chore hstep).trans ih

/-- Giving a slot up does not change what the medium holds. -/
theorem Backend.Stores.noticed {b : Backend σ} {area : Area} {queue : QueueId}
    {medium : σ → Storage}
    (h : b.Stores area.backing queue medium) {devices : Table Device}
    (hqueue : ∀ {d}, area.backing.device? = some d → (devices.get d).queue = queue)
    (slot : Option Slot) (w : σ) : medium (noticed b area devices slot w).2 = medium w := by
  cases slot with
  | none => rfl
  | some sl =>
    cases hback : area.backing with
    | device d =>
      have hd : area.backing.device? = some d := by rw [hback]; rfl
      rcases noticed_cases b hback devices sl w with ⟨w₁, hw₁, hn⟩ | ⟨w₁, hw₁, hn⟩
      · rw [hn]
        exact h.chores hw₁
      · rw [hn, hqueue hd, h.slotFreed hd]
        exact h.chores hw₁
    | mapped f d =>
      unfold PageSwap.noticed
      rw [hback]
    | file f =>
      unfold PageSwap.noticed
      rw [hback]

/-- **An area lies on these blocks**: no two slots on one, every slot has a sector where its block
begins, and in a file that is reached through its file system the slots follow one another. -/
structure Area.Laid (area : Area) (blocks : List Nat) : Prop where
  nodup : blocks.Nodup
  sector : ∀ {slot sector}, area.sector slot = .ok sector →
    ∃ o block, area.IsAt slot o ∧ blocks[o]? = some block ∧ sector.toNat * 512 = block * 4096
  exists_sector : ∀ {slot o}, area.IsAt slot o → o < blocks.length →
    ∃ sector, area.sector slot = .ok sector
  no_fault : ∀ {slot f}, area.sector slot ≠ .error (.fault f)
  position : ∀ {f slot o}, area.backing = .file f → area.IsAt slot o → o < blocks.length →
    blocks[o]? = some o ∧ ∃ position, area.position slot = .ok position ∧ position.toNat = o * 4096

theorem Area.BroughtUp.laid {b : Backend σ} {spec : AreaSpec} {s : System σ} {area : Area}
    {blocks : List Nat} (h : area.BroughtUp spec (groundOf b spec s) blocks)
    (hsound : spec.Sound b s) : area.Laid blocks := by
  obtain ⟨hnodup, hlt, -, hfile⟩ := h.apart hsound
  refine ⟨hnodup, fun hs => h.sector_ok hlt hs, fun hat ho => ?_,
    Area.sector_ne_fault h.lists.ordered, fun hback hat ho => ?_⟩
  · exact h.exists_sector hat (by rw [h.max]; exact ho) hlt
  · obtain ⟨hrange, hlen⟩ := hfile _ (h.backing ▸ hback)
    refine ⟨?_, hat.position (Nat.lt_of_lt_of_le ho hlen)⟩
    rw [hrange]
    exact ExtentTable.getElem?_range_iff.mpr ⟨ho, rfl⟩

end PageSwap
