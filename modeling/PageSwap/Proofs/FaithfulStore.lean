/-
# Reading undoes writing

Over an area of any backing whose transfers succeed, base pages are written out and read back.  A
request may be finished at any time, but a slot has no request when the next call on it is made.
Then a page that has been read holds what was last written to its slot, and a call on one slot
leaves all others alone.

What a slot holds is not the whole story while requests are on their way: a write that was accepted
counts from its call on, but its bytes are in the page until it is finished, and a read that was
accepted has its page filled later.  So the invariant is about three things at once, what was last
written to the slots, what they hold, and what the pages in transfer carry (`Faithful`). A
completion takes a page out of transfer and moves its bytes, and nothing else of the three. The
obvious invariant, that a slot holds what was last written to it, breaks at the first request and is
true again only when nobody looks; with a slot in one transfer at most, that it holds this OR is
being written is true throughout, and a read finds the first of the two, because its own page is the
one transfer the slot can have.  What a read owes is kept beside the state, as a ticket of its page:
the state alone does not tell a page that was read from one its owner filled.

That a call leaves the other slots alone is no invariant of a run -- completions change slots -- so
it is carried along from the start of the call (`Beside`), and allows for writes that were pending
then.

Whether a call is refused is no part of the invariant either, but each way through a call is known
with its reason (`DeviceWrite.crowded`, `DeviceRead.crowded`), and on a file there is none.  So the
same case analysis that keeps the invariant tells which refusals there are, and which faults.

* `Call.Crowded`, `Call.Excused` -- when a call finds no request, and the faults it may end in.
* `Stored` -- where a call on a slot stands, and what each way to write, to read and to finish
  does to that.
* `Ledger`, `Access` -- a state with what was last written, and the steps of a run.
* `Call.run_stored`, `Call.returns_of_file` -- a call is answered, and what it has done.
* `reading_undoes_writing` -- what holds after any run.
-/
import PageSwap.Proofs.Agreement
import PageSwap.Proofs.SlotContents

namespace PageSwap

variable {σ : Type}

/-! ## 1. When a call is refused -/

/-- **No request is to be had for a call** in `s`, once it comes to the slot of its page: a write
has tried to free the slot then, and a read has entered its stall. -/
def Call.Crowded (b : Backend σ) (area : Area) (s : System σ) (status : Status) : Call → Prop
  | .pageOut p _ => ∃ s₁, s.ToSlot b area p s₁ ∧ area.Crowded b .write p s₁ status
  | .pageOutPast p _ => area.Crowded b .write p s status
  | .pageIn p _ => area.Crowded b .read p { s with world := (b.stalls.enter s.world).2 } status
  | _ => False

/-- **The faults a call on a slot may end in**: those of collaborators, and for a read whose caller
waits also that it waits longer than it was given. -/
def Call.Excused (b : Backend σ) (c : Call) (e : Fault) : Prop :=
  b.Foreign e ∨ e = .stalled ∧ ∃ p, c = .pageIn p .await

/-- A call on a file is never short of requests. -/
theorem Call.Crowded.device {b : Backend σ} {area : Area} {s : System σ} {status : Status}
    {c : Call} (h : c.Crowded b area s status) : ∃ d, area.backing.device? = some d := by
  cases c with
  | pageOut p w =>
    obtain ⟨s₁, -, hcrowded⟩ := h
    exact hcrowded.device
  | pageOutPast p w => exact Area.Crowded.device h
  | pageIn p pace => exact Area.Crowded.device h
  | _ => exact h.elim

/-! ## 2. Calls and completions are faithful -/

/-- What was last written to the slots, after a write of `bytes` to slot `o`. -/
def lastWritten (status : Status) (last : Nat → Bytes) (o : Nat) (bytes : Bytes) : Nat → Bytes :=
  match status with
  | .ok () => Function.update last o bytes
  | .error _ => last

/-- The tickets after a read into page `p` of a slot that was last written `bytes`. -/
def ticketsAfter (status : Status) (tickets : PageId → Option Bytes) (p : PageId) (bytes : Bytes) :
    PageId → Option Bytes :=
  match status with
  | .ok () => Function.update tickets p (some bytes)
  | .error _ => tickets

/-- **Where a call on slot `o` stands** that started from `s₀`: the area is in use, its slots are
faithful, and those besides `o` are left alone. -/
structure Stored (area : Area) (blocks : List Nat) (queue : QueueId) (medium : σ → Storage)
    (o : Nat) (s₀ : System σ) (last : Nat → Bytes) (tickets : PageId → Option Bytes)
    (s : System σ) : Prop where
  serves : Serves area queue s
  faithful : Faithful area blocks.length last tickets s.pages (slotContent blocks (medium s.world))
  beside : Beside area blocks.length o last s₀.pages (slotContent blocks (medium s₀.world)) s.pages
    (slotContent blocks (medium s.world))

/-- **A call on slot `o` enters** with page `p`: a base page of this slot, locked, and the slot is
in no transfer. -/
structure Entered (area : Area) (n o : Nat) (p : PageId) (pages : Table Page) : Prop where
  slot : area.IsAt (pages.get p).slot o
  bound : o < n
  held : (pages.get p).Held
  base : (pages.get p).order = 0 ∧ (pages.get p).bytes.size = 4096
  free : ∀ p', area.IsAt (pages.get p').slot o → (pages.get p').transfer = .idle

section

variable {b : Backend σ} {area : Area} {blocks : List Nat} {queue : QueueId} {medium : σ → Storage}
  {o : Nat} {s₀ s s' : System σ} {last : Nat → Bytes} {tickets : PageId → Option Bytes} {p : PageId}
  {status : Status} {d : DeviceId}

/-- **A call has ended with its page idle**, and has changed nothing but what its own slot holds. -/
theorem Stored.ended {last' : Nat → Bytes} {tickets' : PageId → Option Bytes} {page : Page} {w : σ}
    (h : Stored area blocks queue medium o s₀ last tickets s)
    (he : Entered area blocks.length o p s.pages) (hslot : page.slot = (s.pages.get p).slot)
    (hidle : page.transfer = .idle)
    (hlast : ∀ o', o' ≠ o → last' o' = last o')
    (hothers : ∀ o' < blocks.length, o' ≠ o →
      slotContent blocks (medium w) o' = slotContent blocks (medium s.world) o')
    (hheld : slotContent blocks (medium w) o = last' o)
    (htickets : ∀ p', p' ≠ p → tickets' p' = tickets p')
    (hticket : ∀ bytes, tickets' p = some bytes → page.Reads bytes) :
    Stored area blocks queue medium o s₀ last' tickets' { s with
      pages := s.pages.set p page, world := w } where
  serves := h.serves.edit_idle w he.held.2 hidle
  faithful := h.faithful.update hslot (hslot ▸ he.slot) (fun p' _ => he.free p') hlast hothers
    htickets (fun hb => absurd hidle hb) (fun hw => absurd (hidle.symm.trans hw) nofun)
    (fun _ => Or.inl hheld)
    fun bytes ht => Or.inr (hticket bytes ht)
  beside := h.beside.update hlast hslot (hslot ▸ he.slot) (fun _ => rfl) hothers
    fun hne => absurd rfl hne

/-- What slot `o` holds when a call on it enters. -/
theorem Stored.held (h : Stored area blocks queue medium o s₀ last tickets s)
    (he : Entered area blocks.length o p s.pages) :
    slotContent blocks (medium s.world) o = last o := by
  refine (h.faithful.content o he.bound).resolve_right ?_
  rintro ⟨p', hat, hw⟩
  exact absurd ((he.free p' hat).symm.trans hw) nofun

/-- **A call has ended with its page idle**, and nothing has moved. -/
theorem Stored.unmoved {page : Page} {w : σ}
    (h : Stored area blocks queue medium o s₀ last tickets s)
    (he : Entered area blocks.length o p s.pages) (hslot : page.slot = (s.pages.get p).slot)
    (hidle : page.transfer = .idle) (hmedium : medium w = medium s.world)
    (hticket : tickets p = none) :
    Stored area blocks queue medium o s₀ last tickets { s with
      pages := s.pages.set p page, world := w } := by
  refine h.ended he hslot hidle (fun _ _ => rfl) (fun _ _ _ => by rw [hmedium])
    (by rw [hmedium]; exact h.held he) (fun _ _ => rfl) fun bytes ht => ?_
  rw [hticket] at ht
  exact absurd ht nofun

/-- **A call has issued a request**; the medium is what it was. -/
theorem Stored.issued {last' : Nat → Bytes} {tickets' : PageId → Option Bytes} {q : Request}
    {page : Page} {dev : Device} {w : σ}
    (h : Stored area blocks queue medium o s₀ last tickets s)
    (he : Entered area blocks.length o p s.pages) (hp : q.page = p) (hd : q.device = d)
    (harea : q.area = area) (hdevice : area.backing.device? = some d)
    (htag : (s.devices.get d).reserveTag = some dev)
    (hsector : area.sector (s.pages.get p).slot = .ok q.sector)
    (hending : q.ending = q.direction.ending) (htransfer : page.transfer = q.direction.transfer)
    (hlocked : q.direction = .read → page.flags.locked = true)
    (hslot : page.slot = (s.pages.get p).slot) (hbytes : page.bytes = (s.pages.get p).bytes)
    (hlast : ∀ o', o' ≠ o → last' o' = last o')
    (hwriting : q.direction = .write → page.bytes = last' o)
    (hreading : q.direction = .read → last' o = last o)
    (htickets : ∀ p', p' ≠ p → tickets' p' = tickets p')
    (hticket : ∀ bytes, tickets' p = some bytes → q.direction = .read ∧ last' o = bytes)
    (hmedium : medium w = medium s.world) :
    Stored area blocks queue medium o s₀ last' tickets' { s with
      pages := s.pages.set p page
      devices := s.devices.set d dev
      requests := s.requests.set s.requests.fresh (some q)
      world := w } where
  serves := h.serves.issue w hp hd harea hdevice he.held.2 htag hsector hending htransfer hlocked
    hslot
  faithful := by
    dsimp only
    rw [hmedium]
    refine h.faithful.update hslot (hslot ▸ he.slot) (fun p' _ => he.free p') hlast
      (fun _ _ _ => rfl)
      htickets (fun _ => by rw [hbytes]; exact he.base.2) (fun hw => hwriting ?_) (fun _ => ?_)
      fun bytes ht => Or.inl ?_
    · rw [htransfer] at hw
      cases hdir : q.direction with
      | write => rfl
      | read => rw [hdir] at hw; exact absurd hw nofun
    · cases hdir : q.direction with
      | write => exact Or.inr (by rw [htransfer, hdir]; rfl)
      | read => exact Or.inl (by rw [hreading hdir]; exact h.held he)
    · obtain ⟨hdir, hl⟩ := hticket bytes ht
      exact ⟨by rw [htransfer, hdir]; rfl, he.bound, hl⟩
  beside := by
    dsimp only
    rw [hmedium]
    exact h.beside.update hlast hslot (hslot ▸ he.slot) (fun _ => rfl) (fun _ _ _ => rfl)
      fun hne => absurd rfl hne

/-- **A write to the device** is faithful, and refused only if no request is to be had. -/
theorem DeviceWrite.faithful {w : Writeback} (hb : b.Stores area.backing queue medium)
    (hl : area.Laid blocks) (hd : area.backing.device? = some d)
    (hstep : DeviceWrite b area d p w .write s status s')
    (h : Stored area blocks queue medium o s₀ last tickets s)
    (he : Entered area blocks.length o p s.pages) (hticket : tickets p = none) :
    (status = .ok () ∨ area.Crowded b .write p s status) ∧ Stored area blocks queue medium o s₀
      (lastWritten status last o (s.pages.get p).bytes) tickets s' := by
  have hnone : ∀ bytes, tickets p ≠ some bytes := by
    rw [hticket]
    exact nofun
  have hother : ∀ o', o' ≠ o → Function.update last o (s.pages.get p).bytes o' = last o' :=
    fun _ hne => Function.update_of_ne hne _ _
  have hown : Function.update last o (s.pages.get p).bytes o = (s.pages.get p).bytes :=
    Function.update_self _ _ _
  cases hstep with
  | lost hsector =>
    -- the slot of a page that has entered lies in the area
    obtain ⟨sector, hs⟩ := hl.exists_sector he.slot he.bound
    exact absurd (hs.symm.trans hsector) nofun
  | direct hsector htransfer hchores =>
    obtain ⟨o', block, hat, hblock, hs⟩ := hl.sector hsector
    rw [← he.slot.unique hat] at hblock
    rw [h.serves.queue hd] at htransfer
    obtain ⟨rfl, hdisk⟩ := ((hb.drives hd).transfer htransfer).write_page hs he.base.2
    obtain ⟨hnew, hothers⟩ := slotContent_write hl.nodup hblock hdisk
    rw [← hb.chores hchores] at hnew hothers
    exact ⟨Or.inl rfl, h.ended he rfl rfl hother hothers (hnew.trans hown.symm) (fun _ _ => rfl)
      fun _ ht => absurd ht (hnone _)⟩
  | crowded hsector htransfer hwhy =>
    refine ⟨Or.inr ⟨d, _, _, _, _, hd, hsector, htransfer, .of_why hd rfl hwhy⟩, ?_⟩
    rw [h.serves.queue hd] at htransfer
    obtain ⟨rfl, hdisk⟩ := ((hb.drives hd).transfer htransfer).failed
    exact h.unmoved he rfl rfl hdisk hticket
  | issued hsector htransfer hroom htag hchores =>
    -- the slot is unchanged yet, and its page carries what it is to hold
    rw [h.serves.queue hd] at htransfer
    obtain ⟨rfl, hdisk⟩ := ((hb.drives hd).transfer htransfer).failed
    exact ⟨Or.inl rfl, h.issued he rfl rfl rfl hd htag hsector rfl rfl nofun rfl rfl hother
      (fun _ => hown.symm) nofun (fun _ _ => rfl) (fun _ ht => absurd ht (hnone _))
      ((hb.chores hchores).trans hdisk)⟩

/-- **A read from the device** is faithful, and refused only if no request is to be had. -/
theorem DeviceRead.faithful (hb : b.Stores area.backing queue medium) (hl : area.Laid blocks)
    (hd : area.backing.device? = some d) (hstep : DeviceRead b area d p s status s')
    (h : Stored area blocks queue medium o s₀ last tickets s)
    (he : Entered area blocks.length o p s.pages) (hticket : tickets p = none) :
    (status = .ok () ∨ area.Crowded b .read p s status) ∧ Stored area blocks queue medium o s₀ last
      (ticketsAfter status tickets p (last o)) s' := by
  have hother : ∀ p', p' ≠ p → Function.update tickets p (some (last o)) p' = tickets p' :=
    fun _ hne => Function.update_of_ne hne _ _
  have hown : ∀ bytes, Function.update tickets p (some (last o)) p = some bytes → last o = bytes :=
    fun bytes ht => Option.some.inj ((Function.update_self p _ tickets).symm.trans ht)
  cases hstep with
  | lost hsector =>
    obtain ⟨sector, hs⟩ := hl.exists_sector he.slot he.bound
    exact absurd (hs.symm.trans hsector) nofun
  | direct hsector htransfer hchores =>
    obtain ⟨o', block, hat, hblock, hs⟩ := hl.sector hsector
    rw [← he.slot.unique hat] at hblock
    rw [h.serves.queue hd] at htransfer
    obtain ⟨hbytes, hdisk⟩ := ((hb.drives hd).transfer htransfer).read_page hs he.base.2
    rw [← slotContent_eq hblock, h.held he] at hbytes
    have hmedium := (hb.chores hchores).trans ((hb.noticed h.serves.queue _ _).trans hdisk)
    exact ⟨Or.inl rfl, h.ended he rfl rfl (fun _ _ => rfl) (fun _ _ _ => by rw [hmedium])
      (by rw [hmedium]; exact h.held he) hother
      fun bytes ht => ⟨rfl, rfl, rfl, hbytes.trans (hown bytes ht)⟩⟩
  | crowded hsector htransfer hwhy =>
    refine ⟨Or.inr ⟨d, _, _, _, _, hd, hsector, htransfer, .of_why hd rfl hwhy⟩, ?_⟩
    rw [h.serves.queue hd] at htransfer
    obtain ⟨rfl, hdisk⟩ := ((hb.drives hd).transfer htransfer).failed
    exact h.unmoved he rfl rfl hdisk hticket
  | issued hsector htransfer hroom htag hq hchores =>
    rw [h.serves.queue hd] at htransfer
    obtain ⟨rfl, hdisk⟩ := ((hb.drives hd).transfer htransfer).failed
    have hmedium := (hb.chores hchores).trans hdisk
    refine ⟨Or.inl rfl, ?_⟩
    -- with a reader that waits or without, it is the same request
    rcases hq with rfl | ⟨i, rfl⟩
    · exact h.issued he rfl rfl rfl hd htag hsector rfl rfl (fun _ => he.held.1) rfl rfl
        (fun _ _ => rfl) nofun (fun _ => rfl) hother (fun bytes ht => ⟨rfl, hown bytes ht⟩) hmedium
    · exact h.issued he rfl rfl rfl hd htag hsector rfl rfl (fun _ => he.held.1) rfl rfl
        (fun _ _ => rfl) nofun (fun _ => rfl) hother (fun bytes ht => ⟨rfl, hown bytes ht⟩) hmedium

/-- **A write through the file system** is faithful, and succeeds. -/
theorem FileWrite.faithful {f : FileId} (hb : b.Stores area.backing queue medium)
    (hl : area.Laid blocks) (hback : area.backing = .file f)
    (hstep : FileWrite b area f p s status s')
    (h : Stored area blocks queue medium o s₀ last tickets s)
    (he : Entered area blocks.length o p s.pages) (hticket : tickets p = none) :
    status = .ok () ∧ Stored area blocks queue medium o s₀
      (lastWritten status last o (s.pages.get p).bytes) tickets s' := by
  obtain ⟨hblock, position, hposition, hpos⟩ := hl.position hback he.slot he.bound
  cases hstep with
  | lost hlost => exact absurd (hposition.symm.trans hlost) nofun
  | short _ hwrite hshort => exact absurd (hb.write hback hwrite).1 hshort
  -- the file takes a list of pieces, and this one is the page at its slot's position
  | full hposition' hwrite hchores =>
    obtain rfl := Except.ok.inj (hposition.symm.trans hposition')
    have hfile := (hb.write hback hwrite).2
    rw [hpos] at hfile
    have hdisk := (medium s.world).page_write he.base.2 o
    rw [← hfile] at hdisk
    obtain ⟨hnew, hothers⟩ := slotContent_write hl.nodup hblock hdisk
    rw [← hb.chores hchores] at hnew hothers
    refine ⟨rfl, h.ended he rfl rfl (fun _ hne => Function.update_of_ne hne _ _) hothers
      (hnew.trans (Function.update_self o _ last).symm) (fun _ _ => rfl) fun _ ht => ?_⟩
    rw [hticket] at ht
    exact absurd ht nofun

/-- **A read through the file system** is faithful, and succeeds. -/
theorem FileRead.faithful {f : FileId} (hb : b.Stores area.backing queue medium)
    (hl : area.Laid blocks) (hback : area.backing = .file f)
    (hstep : FileRead b area f p s status s')
    (h : Stored area blocks queue medium o s₀ last tickets s)
    (he : Entered area blocks.length o p s.pages) :
    status = .ok () ∧ Stored area blocks queue medium o s₀ last
      (ticketsAfter status tickets p (last o)) s' := by
  obtain ⟨hblock, position, hposition, hpos⟩ := hl.position hback he.slot he.bound
  cases hstep with
  | lost hlost => exact absurd (hposition.symm.trans hlost) nofun
  | @read _ _ bytes _ _ hposition' hread hchores =>
    obtain rfl := Except.ok.inj (hposition.symm.trans hposition')
    obtain ⟨rfl, hbytes, hsame⟩ := hb.read hback hread
    have hlast : bytes = last o := by
      rw [hpos, he.base.2] at hbytes
      rw [hbytes, ← h.held he, slotContent_eq hblock]
      rfl
    have hstatus : readStatus (.ok (s.pages.get p).bytes.size.toUInt64) (s.pages.get p).size =
        .ok () :=
      if_pos rfl
    have hmedium := (hb.chores hchores).trans hsame
    rw [hstatus]
    refine ⟨rfl, h.ended he rfl rfl (fun _ _ => rfl) (fun _ _ _ => by rw [hmedium])
      (by rw [hmedium]; exact h.held he) (fun _ hne => Function.update_of_ne hne _ _)
      fun bytes' ht => ⟨rfl, rfl, rfl, hlast.trans ?_⟩⟩
    exact Option.some.inj ((Function.update_self p _ tickets).symm.trans ht)

/-- **A write is finished**: the slot of its page holds what was written last. -/
theorem Stored.finished_write {r : RequestId} {q : Request} {o₁ block : Nat} {w : σ}
    (h : Stored area blocks queue medium o s₀ last tickets s) (hl : area.Laid blocks)
    (hq : s.requests.get r = some q) (hdir : q.direction = .write)
    (hat : area.IsAt (s.pages.get q.page).slot o₁) (hblock : blocks[o₁]? = some block)
    (hdisk : ∀ other, (medium w).page other =
      if other = block then (s.pages.get q.page).bytes else (medium s.world).page other) :
    Stored area blocks queue medium o s₀ last tickets
      (s.finished b r q (.ok ()) (s.pages.get q.page).bytes w) := by
  have hbusy := h.serves.coherent.busy hq
  have htransfer := h.serves.coherent.transfer hq
  rw [hdir] at htransfer
  obtain ⟨hnew, hothers⟩ := slotContent_write hl.nodup hblock hdisk
  have hlast := hnew.trans (h.faithful.writing hat htransfer)
  refine ⟨h.serves.finish b hq _ _ w, ?_, ?_⟩
  · unfold System.finished noticedBy
    rw [hdir]
    exact h.faithful.update rfl hat (fun p' hp hat' => h.faithful.alone hat hbusy hp hat')
      (fun _ _ => rfl) hothers (fun _ _ => rfl) (fun hb => absurd rfl hb) nofun
      (fun _ => Or.inl hlast) fun bytes ht => absurd ht (h.faithful.no_ticket htransfer bytes)
  · unfold System.finished noticedBy
    rw [hdir]
    exact h.beside.update (fun _ _ => rfl) rfl hat nofun hothers
      fun _ => Or.inr ⟨hlast, q.page, hat, htransfer⟩

/-- **A read is finished**: its page holds what was written last. -/
theorem Stored.finished_read {r : RequestId} {q : Request} {o₁ block : Nat} {bytes : Bytes} {w : σ}
    (h : Stored area blocks queue medium o s₀ last tickets s)
    (hb : b.Stores area.backing queue medium)
    (hq : s.requests.get r = some q) (hdir : q.direction = .read)
    (hat : area.IsAt (s.pages.get q.page).slot o₁) (hblock : blocks[o₁]? = some block)
    (hbytes : bytes = (medium s.world).page block) (hdisk : medium w = medium s.world) :
    Stored area blocks queue medium o s₀ last tickets (s.finished b r q (.ok ()) bytes w) := by
  have hbusy := h.serves.coherent.busy hq
  have htransfer := h.serves.coherent.transfer hq
  rw [hdir] at htransfer
  -- the slot is in this transfer only, so it is not being written and holds what was written last
  have hheld := h.faithful.held_of_reading hat htransfer (List.getElem?_eq_some_iff.mp hblock).1
  rw [← slotContent_eq hblock, hheld] at hbytes
  have hmedium := (hb.noticed h.serves.queue (s.pages.get q.page).slot w).trans hdisk
  refine ⟨h.serves.finish b hq _ _ w, ?_, ?_⟩
  · unfold System.finished noticedBy
    rw [hdir, (h.serves.request hq).1]
    dsimp only
    rw [hmedium]
    refine h.faithful.update rfl hat (fun p' hp hat' => h.faithful.alone hat hbusy hp hat')
      (fun _ _ => rfl) (fun _ _ _ => rfl) (fun _ _ => rfl) (fun hb => absurd rfl hb) nofun
      (fun _ => Or.inl hheld) fun bytes' ht => Or.inr ?_
    rcases h.faithful.ticket ht with ⟨-, o', -, hat', hlast⟩ | hr
    · rw [hat'.unique hat] at hlast
      exact ⟨rfl, rfl, rfl, hbytes.trans hlast⟩
    · exact absurd (htransfer.symm.trans hr.1) nofun
  · unfold System.finished noticedBy
    rw [hdir, (h.serves.request hq).1]
    dsimp only
    rw [hmedium]
    exact h.beside.update (fun _ _ => rfl) rfl hat nofun (fun _ _ _ => rfl) fun _ => Or.inl rfl

/-- **Completions and bookkeeping** are faithful, and leave other slots alone. -/
theorem lasting_stored {stop : Fault → Prop} (hstop : ∀ e, b.Foreign e → stop e)
    (hb : b.Stores area.backing queue medium) (hl : area.Laid blocks) (o : Nat)
    (s₀ : System σ) (last : Nat → Bytes) (tickets : PageId → Option Bytes) :
    Lasting b stop (Stored area blocks queue medium o s₀ last tickets) where
  tolerant := .of_foreign hstop
  blind := fun _ _ _ h => ⟨⟨h.serves.coherent, h.serves.registered, h.serves.queue,
    h.serves.request⟩, h.faithful, h.beside⟩
  aside := fun h haside => ⟨⟨h.serves.coherent, h.serves.registered, h.serves.queue,
    h.serves.request⟩, by rw [show _ = _ from hb.chore haside.chore]; exact h.faithful,
    by rw [show _ = _ from hb.chore haside.chore]; exact h.beside⟩
  ready := fun h hq => h.serves.coherent.ready hq
  finished := by
    intro s f q status bytes w h hq hsettle
    obtain ⟨-, hd, hsector⟩ := h.serves.request hq
    rw [h.serves.queue hd] at hsettle
    obtain rfl := hb.settles hd hsettle
    obtain ⟨o₁, block, hat, hblock, hs⟩ := hl.sector hsector
    have hsize := h.faithful.size (h.serves.coherent.busy hq)
    have hmoved := (hb.drives hd).settle hsettle
    cases hdir : q.direction with
    | write =>
      rw [hdir] at hmoved
      obtain ⟨rfl, hdisk⟩ := hmoved.write_page hs hsize
      exact h.finished_write hl hq hdir hat hblock hdisk
    | read =>
      rw [hdir] at hmoved
      obtain ⟨hbytes, hdisk⟩ := hmoved.read_page hs hsize
      exact h.finished_read hb hq hdir hat hblock hbytes hdisk

/-- A page that has entered changes, and stays as it has to be. -/
theorem Entered.set {n : Nat} {pages : Table Page} (he : Entered area n o p pages) {page : Page}
    (hslot : page.slot = (pages.get p).slot) (hheld : page.Held)
    (hbase : page.order = 0 ∧ page.bytes.size = 4096) :
    Entered area n o p (pages.set p page) where
  slot := by rw [Table.get_set_self, hslot]; exact he.slot
  bound := he.bound
  held := by rw [Table.get_set_self]; exact hheld
  base := by rw [Table.get_set_self]; exact hbase
  free := by
    intro p' hat
    rw [Table.get_set] at hat ⊢
    split at hat
    · rename_i hp
      rw [if_pos hp]
      exact hheld.2
    · rename_i hp
      rw [if_neg hp]
      exact he.free p' hat

theorem SlotWrite.faithful {w : Writeback} (hb : b.Stores area.backing queue medium)
    (hl : area.Laid blocks) (hstep : SlotWrite b area p w .write s status s')
    (h : Stored area blocks queue medium o s₀ last tickets s)
    (he : Entered area blocks.length o p s.pages) (hticket : tickets p = none) :
    (status = .ok () ∨ area.Crowded b .write p s status) ∧ Stored area blocks queue medium o s₀
      (lastWritten status last o (s.pages.get p).bytes) tickets s' := by
  cases hstep with
  | file hback hstep => exact (hstep.faithful hb hl hback h he hticket).imp_left Or.inl
  | device hd hstep => exact hstep.faithful hb hl hd h he hticket

theorem SlotRead.faithful (hb : b.Stores area.backing queue medium) (hl : area.Laid blocks)
    (hstep : SlotRead b area p s status s')
    (h : Stored area blocks queue medium o s₀ last tickets s)
    (he : Entered area blocks.length o p s.pages) (hticket : tickets p = none) :
    (status = .ok () ∨ area.Crowded b .read p s status) ∧ Stored area blocks queue medium o s₀ last
      (ticketsAfter status tickets p (last o)) s' := by
  cases hstep with
  | file hback hstep => exact (hstep.faithful hb hl hback h he).imp_left Or.inl
  | device hd hstep => exact hstep.faithful hb hl hd h he hticket

/-- The area of a page that has entered. -/
theorem Stored.areaAt (h : Stored area blocks queue medium o s₀ last tickets s)
    (he : Entered area blocks.length o p s.pages) {a : Area} (ha : s.areaAt p = some a) :
    a = area :=
  Option.some.inj (ha.symm.trans (he.slot.areaAt h.serves.registered))

/-- **Writing a page out** is faithful. -/
theorem PageWrite.faithful {w : Writeback} (hb : b.Stores area.backing queue medium)
    (hl : area.Laid blocks) (hstep : PageWrite b p w s status s')
    (h : Stored area blocks queue medium o s₀ last tickets s)
    (he : Entered area blocks.length o p s.pages) (hticket : tickets p = none) :
    (status = .ok () ∨ (Call.pageOut p w).Crowded b area s status) ∧
      Stored area blocks queue medium o s₀ (lastWritten status last o (s.pages.get p).bytes)
        tickets s' := by
  cases hstep with
  | lost harea => exact absurd (harea.symm.trans (he.slot.areaAt h.serves.registered)) nofun
  | freed harea hfree => exact absurd (hb.tryFree hfree).1 nofun
  | stored harea hfree hchores hfront => exact absurd (hb.front.symm.trans hfront) nofun
  | slot harea hfree hchores hfront hstep hclock =>
    -- the page has lost its dirty flag on the way, and nothing has moved
    obtain ⟨-, rfl, hmedium⟩ := hb.tryFree hfree
    obtain rfl := (h.areaAt he harea).symm
    cases hfront with
    | declined hfront => exact absurd (hb.front.symm.trans hfront) nofun
    | absent habsent =>
      have hmedium := (hb.chores hchores).trans hmedium
      have hslot : (s.pages.get p).clearDirty.slot = (s.pages.get p).slot := rfl
      have hclear := h.unmoved he hslot he.held.2 hmedium hticket
      have hout := hstep.faithful hb hl hclear (he.set rfl he.held he.base) hticket
      rw [Table.get_set_self] at hout
      exact hout.imp_left (Or.imp_right fun hcrowded =>
        ⟨_, ⟨_, _, hfree, hclock ▸ .absent habsent⟩, hcrowded⟩)

/-- **Reading a page in** is faithful. -/
theorem PageRead.faithful {pace : Pace} (hb : b.Stores area.backing queue medium)
    (hl : area.Laid blocks) (hstep : PageRead b p pace s status s')
    (h : Stored area blocks queue medium o s₀ last tickets s)
    (he : Entered area blocks.length o p s.pages) (hticket : tickets p = none) :
    (status = .ok () ∨ (Call.pageIn p pace).Crowded b area s status) ∧
      Stored area blocks queue medium o s₀ last (ticketsAfter status tickets p (last o)) s' := by
  cases hstep with
  | lost harea => exact absurd (harea.symm.trans (he.slot.areaAt h.serves.registered)) nofun
  | loaded harea hfront => exact absurd (hb.front.symm.trans hfront) nofun
  | slot harea hfront _ hstep hstall =>
    subst hstall
    rw [h.areaAt he harea] at hstep
    cases hfront with
    | declined hfront => exact absurd (hb.front.symm.trans hfront) nofun
    | absent =>
      exact hstep.faithful hb hl
        ((lasting_stored (fun _ => id) hb hl o s₀ last tickets).aside h (.enter _)) he hticket

/-! ## 3. A run -/

end

/-- A state, with what was last written to the slots, and the tickets of pages that were read. -/
structure Ledger (σ : Type) where
  system : System σ
  last : Nat → Bytes
  tickets : PageId → Option Bytes

/-- A page of slot `o` of the area is written out or read in; the slot is in no transfer. -/
def Call.On (area : Area) (o : Nat) (s : System σ) : Call → Prop
  | .pageOut p _ => Entered area area.max.toNat o p s.pages
  | .pageOutPast p _ => Entered area area.max.toNat o p s.pages
  | .pageIn p _ => Entered area area.max.toNat o p s.pages ∧ (s.pages.get p).flags.uptodate = false
  | _ => False

/-- The ledger after a call on slot `o`.  A write that is accepted counts from now on; a read that
is accepted has to give what was written last. -/
def Ledger.after (L : Ledger σ) (c : Call) (o : Nat) (status : Status) (s' : System σ) : Ledger σ :=
  match c with
  | .pageOut p _ | .pageOutPast p _ =>
    { system := s'
      last := lastWritten status L.last o (L.system.pages.get p).bytes
      tickets := Function.update L.tickets p none }
  | .pageIn p _ =>
    { system := s'
      last := L.last
      tickets := ticketsAfter status (Function.update L.tickets p none) p (L.last o) }
  | _ => { L with system := s' }

/-- **One step** of a run: a call, a completion, a caller that changes a page that is in no
transfer, or collaborators that go on by themselves. -/
inductive Access (b : Backend σ) (area : Area) (medium : σ → Storage) : Ledger σ → Ledger σ → Prop
  | call {L : Ledger σ} {c : Call} {o : Nat} {status : Status} {s' : System σ}
      (hon : c.On area o L.system) (hrun : c.run b L.system = .ok (status, s')) :
      Access b area medium L (L.after c o status s')
  | finish {L : Ledger σ} {f : Finish} {status : Status} {s' : System σ}
      (hrun : (Call.finish f).run b L.system = .ok (status, s')) :
      Access b area medium L { L with system := s' }
  | edit {L : Ledger σ} {p : PageId} {page : Page} (hbusy : (L.system.pages.get p).transfer = .idle)
      (hidle : page.transfer = .idle) :
      Access b area medium L { L with
        system := { L.system with pages := L.system.pages.set p page }
        tickets := Function.update L.tickets p none }
  | elsewhere {L : Ledger σ} {w : σ} (hmedium : medium w = medium L.system.world) :
      Access b area medium L { L with system := { L.system with world := w } }

/-- The area is in use, and its slots are faithful. -/
structure Ledger.Fair (area : Area) (blocks : List Nat) (queue : QueueId) (medium : σ → Storage)
    (L : Ledger σ) : Prop where
  serves : Serves area queue L.system
  faithful : Faithful area blocks.length L.last L.tickets L.system.pages
    (slotContent blocks (medium L.system.world))

section

variable {b : Backend σ} {area : Area} {blocks : List Nat} {queue : QueueId} {medium : σ → Storage}
  {o : Nat} {L L' : Ledger σ}

theorem Stored.fair {s₀ s : System σ} {last : Nat → Bytes} {tickets : PageId → Option Bytes}
    (h : Stored area blocks queue medium o s₀ last tickets s) :
    Ledger.Fair area blocks queue medium ⟨s, last, tickets⟩ := ⟨h.serves, h.faithful⟩

/-- A call starts, and the ticket of its page is gone: whatever the page held, it is handed over. -/
theorem Ledger.Fair.start (h : L.Fair area blocks queue medium) (p : PageId) :
    Stored area blocks queue medium o L.system L.last
      (Function.update L.tickets p none) L.system where
  serves := h.serves
  faithful :=
    { h.faithful with
      ticket := by
        intro p' bytes ht
        by_cases hp : p' = p
        · subst hp
          exact absurd ((Function.update_self p' none L.tickets).symm.trans ht) nofun
        · rw [Function.update_of_ne hp] at ht
          exact h.faithful.ticket ht }
  beside := Beside.refl _ _ _ _ _ _

/-- A call on one slot writes no other. -/
theorem Ledger.last_after (L : Ledger σ) {c : Call} (hon : c.On area o L.system) {o' : Nat}
    (hne : o' ≠ o) (status : Status) (s' : System σ) :
    (L.after c o status s').last o' = L.last o' := by
  cases c with
  | pageOut p w | pageOutPast p w =>
    cases status with
    | ok u => exact Function.update_of_ne hne _ _
    | error e => rfl
  | pageIn p pace => rfl
  | _ => exact hon.elim

theorem Backend.Stores.minds {backing : Backing} (hb : b.Stores backing queue medium) :
    b.Minds where
  tryFree := fun hfree hheld => by
    rw [(hb.tryFree hfree).2.1]
    exact hheld
  store := fun hfront => absurd (hb.front.symm.trans hfront) nofun

theorem Backend.Stores.mindsReads {backing : Backing} (hb : b.Stores backing queue medium) :
    b.MindsReads := fun hfront => absurd (hb.front.symm.trans hfront) nofun

/-- Every slot of the area is looked up without a fault, and no write to it is short. -/
theorem Backend.Stores.sums (hb : b.Stores area.backing queue medium) (hl : area.Laid blocks)
    {stop : Fault → Prop} : area.Sums b stop where
  sector := fun hfault => absurd hfault hl.no_fault
  short := fun hback hwrite hshort => absurd (hb.write hback hwrite).1 hshort

/-- **A call on a slot** answers without an error unless no request is to be had, is faithful, and
leaves other slots alone.  It faults only with a fault of the driver or a wait that does not end. -/
theorem Call.run_stored (hb : b.Stores area.backing queue medium) (hl : area.Laid blocks)
    (hmax : area.max.toNat = blocks.length) (h : L.Fair area blocks queue medium) {c : Call}
    (hon : c.On area o L.system) :
    (c.run b).wp (fun status s' => (status = .ok () ∨ c.Crowded b area L.system status) ∧
      Stored area blocks queue medium o L.system (L.after c o status s').last
        (L.after c o status s').tickets s') (c.Excused b) L.system := by
  have hstop : ∀ e, b.Foreign e → c.Excused b e := fun _ => Or.inl
  have hsums : ∀ {p a}, Entered area blocks.length o p L.system.pages →
      L.system.areaAt p = some a → a.Sums b (c.Excused b) := by
    intro p a he ha
    rw [(h.start (o := o) p).areaAt he ha]
    exact hb.sums hl
  have hkeeps : ∀ {p a f page}, Entered area blocks.length o p L.system.pages →
      L.system.areaAt p = some a → a.backing = .file f → b.KeepsShort f p page := by
    intro p a f page he ha hback position w result w₁ clean page' w₂ hwrite hshort
    rw [(h.start (o := o) p).areaAt he ha] at hback
    exact absurd (hb.write hback hwrite).1 hshort
  have hnone : ∀ p, Function.update L.tickets p none p = none :=
    fun p => Function.update_self p none L.tickets
  unfold Call.On at hon
  rw [hmax] at hon
  cases c with
  | pageOut p w =>
    exact pageOut_wp (fun status => (lasting_stored hstop hb hl o L.system _ _).guard
        (status = .ok () ∨ (Call.pageOut p w).Crowded b area L.system status))
      hb.minds (fun _ => hsums hon) hon.held (fun _ _ _ ha hback => hkeeps hon ha hback)
      fun status s' hstep => hstep.faithful hb hl (h.start p) hon (hnone p)
  | pageOutPast p w =>
    refine pageOutPast_wp (fun status => (lasting_stored hstop hb hl o L.system _ _).guard
        (status = .ok () ∨ (Call.pageOutPast p w).Crowded b area L.system status))
      (fun _ => hsums hon) hon.held (fun _ _ ha hback => hkeeps hon ha hback) (fun hlost => ?_)
      fun a status s' ha hstep => ?_
    · exact absurd (hlost.symm.trans (hon.slot.areaAt h.serves.registered)) nofun
    · rw [(h.start (o := o) p).areaAt hon ha] at hstep
      exact hstep.faithful hb hl (h.start p) hon (hnone p)
  | pageIn p pace =>
    exact pageIn_wp (fun status => (lasting_stored hstop hb hl o L.system _ _).guard
        (status = .ok () ∨ (Call.pageIn p pace).Crowded b area L.system status))
      hb.mindsReads (fun _ => hsums hon.1) (fun hpace => Or.inr ⟨rfl, p, hpace ▸ rfl⟩)
      hon.1.held hon.2
      fun status s' hstep => hstep.faithful hb hl (h.start p) hon.1 (hnone p)
  | _ => exact hon.elim

/-- A file whose writes are never short faults in none. -/
theorem Backend.Stores.writeSlot_wp {f : FileId} {p : PageId} {w : Writeback} {ending : Ending}
    {s : System σ} (hb : b.Stores area.backing queue medium) (hback : area.backing = .file f)
    (hheld : (s.pages.get p).Held) :
    (writeSlot b area p w ending).wp (fun _ _ => True) (fun _ => False) s := by
  unfold writeSlot
  rw [hback]
  exact writeFile_steps hheld (fun _ _ _ => trivial)
    fun _ _ _ _ hwrite hshort => absurd (hb.write hback hwrite).1 hshort

/-- **A call on a slot of a file returns**, and answers without an error: there is no request that
could be missing, and no driver that could fault. -/
theorem Call.returns_of_file {f : FileId} (hb : b.Stores area.backing queue medium)
    (hl : area.Laid blocks) (hmax : area.max.toNat = blocks.length)
    (hback : area.backing = .file f) (h : L.Fair area blocks queue medium) {c : Call}
    (hon : c.On area o L.system) : ∃ s', c.run b L.system = .ok (.ok (), s') := by
  have harea : ∀ {p a}, Entered area area.max.toNat o p L.system.pages →
      L.system.areaAt p = some a → a = area := by
    intro p a he ha
    rw [hmax] at he
    exact (h.start (o := o) p).areaAt he ha
  have hreturns : (c.run b).wp (fun _ _ => True) (fun _ => False) L.system := by
    cases c with
    | pageOut p w =>
      refine pageOut_steps (.of_absent hb.front) hb.minds hon.held (fun _ => trivial)
        (fun _ _ => trivial) fun a page w₁ s₁ ha _ _ hheld => ?_
      rw [harea hon ha]
      exact hb.writeSlot_wp hback hheld
    | pageOutPast p w =>
      refine pageOutPast_steps hon.held (fun _ => trivial) fun a ha => ?_
      rw [harea hon ha]
      exact hb.writeSlot_wp hback hon.held
    | pageIn p pace =>
      refine pageIn_steps (.of_absent hb.front) hb.mindsReads hon.1.held hon.2 (fun _ => trivial)
        (fun _ _ _ _ _ _ _ => trivial) fun a s₁ ha _ hheld => ?_
      rw [harea hon.1 ha]
      unfold readSlot
      rw [hback]
      exact readFile_wp hheld fun _ _ _ => trivial
    | _ => exact hon.elim
  -- so it has a status, and of the two that `run_stored` leaves one is for devices
  obtain ⟨status, s', hrun, -⟩ := Run.exists_ok_of_wp hreturns
  rcases ((Call.run_stored hb hl hmax h hon).of_ok hrun).1 with rfl | hcrowded
  · exact ⟨s', hrun⟩
  · obtain ⟨d, hd⟩ := hcrowded.device
    rw [hback] at hd
    exact absurd hd nofun

/-- A completion faults only if the driver does, and afterwards its request is gone. -/
theorem Ledger.Fair.finish_wp (h : L.Fair area blocks queue medium) (f : Finish) :
    ((Call.finish f).run b).wp (fun _ s' => s'.requests.get f.request = none) b.Foreign
      L.system := by
  unfold Call.run
  rw [Run.wp_bind]
  cases hq : L.system.requests.get f.request with
  | none =>
    unfold PageSwap.finish
    simp only [Run.wp_bind, Run.wp_request?, hq, Run.wp_pure]
  | some q =>
    exact PageSwap.finish_wp hq (h.serves.coherent.ready hq) (fun _ he => .settle he)
      fun _ _ _ _ _ => Table.get_set_self _ _ _

/-- **A step keeps the slots faithful.** -/
theorem Access.fair (hb : b.Stores area.backing queue medium) (hl : area.Laid blocks)
    (hmax : area.max.toNat = blocks.length) (hstep : Access b area medium L L')
    (h : L.Fair area blocks queue medium) : L'.Fair area blocks queue medium := by
  cases hstep with
  | @call c o status s' hon hrun =>
    have hcall := ((Call.run_stored hb hl hmax h hon).of_ok hrun).2.fair
    cases c with
    | pageOut p w => exact hcall
    | pageOutPast p w => exact hcall
    | pageIn p pace => exact hcall
    | _ => exact hon.elim
  | @finish f status s' hrun =>
    have hI := lasting_stored (fun _ => id) hb hl 0 L.system L.last L.tickets
    have hstart : Stored area blocks queue medium 0 L.system L.last L.tickets L.system :=
      ⟨h.serves, h.faithful, Beside.refl _ _ _ _ _ _⟩
    have hfinish : (Call.run b (.finish f)).wp
        (fun _ s' => Stored area blocks queue medium 0 L.system L.last L.tickets s')
        b.Foreign L.system := by
      unfold Call.run
      rw [Run.wp_bind]
      exact Run.wp_mono (hI.finish f hstart) (fun _ _ h' => h'.1) fun _ hf => hf
    exact (hfinish.of_ok hrun).fair
  | edit hbusy hidle =>
    exact ⟨h.serves.edit_idle L.system.world hbusy hidle, h.faithful.edit hbusy hidle
      (fun _ hp => Function.update_of_ne hp _ _) (by dsimp only; rw [Function.update_self])⟩
  | elsewhere hmedium =>
    refine ⟨⟨h.serves.coherent, h.serves.registered, h.serves.queue, h.serves.request⟩, ?_⟩
    rw [show medium _ = _ from hmedium]
    exact h.faithful

end

/-- The page is being read, and the request for it is still there. -/
def System.Fetching (s : System σ) (p : PageId) : Prop :=
  (s.pages.get p).transfer = .reading ∧
    ∃ r q, s.requests.get r = some q ∧ q.page = p ∧ q.direction = .read

/-- **Reading undoes writing.**  An area of any backing is brought up while nothing is going on,
and its slots -- on these blocks -- are written and read for any number of steps in any order.
Then

* a page whose last call was a read that was accepted, and that has not been changed since, is still
  being read by a request, or it is valid, without an error, and holds what was last written to its
  slot when the read was called (what was there at first, if nothing was);
* a slot holds what was last written to it, unless it is being written;
* a request that is finished is gone, and a completion faults only if a collaborator does;
* a call on a slot faults only if a collaborator does, or if it is a read whose caller waits longer
  than it was given; on a slot of a file it always returns, and without an error;
* a call on a slot answers without an error, unless the area lies on a device that did not move the
  page at once and then had no request for it, and it leaves what other slots hold alone, but that a
  write to one of them that was pending may be finished meanwhile. -/
theorem reading_undoes_writing {b : Backend σ} {queue : QueueId} {medium : σ → Storage}
    {spec : AreaSpec} {limit : UInt64} {s s₀ : System σ} {area : Area}
    (hb : b.Stores spec.backing queue medium) (hsound : spec.Sound b s)
    (hqueue : ∀ d, spec.backing.device? = some d → (s.devices.get d).queue = queue)
    (hquiet : s.Quiet) (hup : (swapOn b spec limit) s = .ok (.ok area, s₀)) :
    ∃ blocks, area.BroughtUp spec (groundOf b spec s) blocks ∧ ∀ L : Ledger σ,
      Relation.ReflTransGen (Access b area medium)
        ⟨s₀, slotContent blocks (medium s₀.world), fun _ => none⟩ L →
      (∀ p bytes, L.tickets p = some bytes →
        L.system.Fetching p ∨ (L.system.pages.get p).Reads bytes) ∧
      (∀ o < area.max.toNat, slotContent blocks (medium L.system.world) o = L.last o ∨
        Pending area L.system.pages o) ∧
      (∀ f, (∀ e, (Call.finish f).run b L.system = .error e → b.Foreign e) ∧
        ∀ status s', (Call.finish f).run b L.system = .ok (status, s') →
          s'.requests.get f.request = none) ∧
      ∀ c o, Call.On area o L.system c →
        (∀ e, c.run b L.system = .error e → c.Excused b e) ∧
        (∀ f, spec.backing = .file f → ∃ s', c.run b L.system = .ok (.ok (), s')) ∧
        ∀ status s', c.run b L.system = .ok (status, s') →
          (status = .ok () ∨ c.Crowded b area L.system status) ∧
          ∀ o' < area.max.toNat, o' ≠ o →
            slotContent blocks (medium s'.world) o' =
              slotContent blocks (medium L.system.world) o' ∨
            slotContent blocks (medium s'.world) o' = L.last o' ∧
              Pending area L.system.pages o' := by
  obtain ⟨blocks, registry, console, hbrought, rfl, hregistered⟩ := swapOn_ok hup
  rw [← hbrought.backing] at hb hqueue ⊢
  have hl := hbrought.laid hsound
  have hmax := hbrought.max
  refine ⟨blocks, hbrought, fun L hrun => ?_⟩
  have hfair : L.Fair area blocks queue medium := by
    induction hrun with
    | refl =>
      refine ⟨⟨hquiet.coherent, hregistered, fun hd => hqueue _ hd, fun hq => ?_⟩, ?_⟩
      · exact absurd ((hquiet.requests _).symm.trans hq) nofun
      · exact
          { size := fun hbusy => absurd (hquiet.pages _) hbusy
            unique := fun _ _ hbusy => absurd (hquiet.pages _) hbusy
            writing := fun _ hw => absurd ((hquiet.pages _).symm.trans hw) nofun
            content := fun _ _ => Or.inl rfl
            ticket := nofun }
    | tail _ hstep ih => exact hstep.fair hb hl hmax ih
  refine ⟨fun p bytes ht => ?_, fun o ho => hfair.faithful.content o (hmax ▸ ho), fun f => ?_,
    fun c o hon => ⟨fun e he => (Call.run_stored hb hl hmax hfair hon).of_error he,
      fun f hback => Call.returns_of_file hb hl hmax hback hfair hon, fun status s' hcall => ?_⟩⟩
  · refine (hfair.faithful.ticket ht).imp_left fun ⟨hreading, _⟩ => ⟨hreading, ?_⟩
    exact (hfair.serves.coherent.transfer_iff p .read).mp hreading
  · exact ⟨fun e he => (hfair.finish_wp f).of_error he,
      fun status s' hfinish => (hfair.finish_wp f).of_ok hfinish⟩
  · obtain ⟨hanswered, hstored⟩ := (Call.run_stored hb hl hmax hfair hon).of_ok hcall
    refine ⟨hanswered, fun o' ho' hne => ?_⟩
    rw [← L.last_after hon hne status s']
    exact hstored.beside.content o' (hmax ▸ ho') hne

/-! ## 4. Two areas in memory -/

/-- What an area of this backing lies on, if its device has this queue. -/
def RamDisk.medium (w : RamDisk) (queue : QueueId) : Backing → Storage
  | .file _ => w.file
  | _ => w.disk queue

/-- The disk and the file in memory do what is asked of them. -/
theorem ramDisk_stores (backing : Backing) (queue : QueueId) :
    (ramDisk true).Stores backing queue (·.medium queue backing) where
  drives := by
    intro d hd
    cases backing with
    | file f => exact absurd hd nofun
    | device d' => exact ramDisk_drives true queue
    | mapped f d' => exact ramDisk_drives true queue
  settles := by
    intro d f q page w status bytes w' _ h
    have hmove : w.move queue q.sector q.direction page = ((status, bytes), w') := Except.ok.inj h
    unfold RamDisk.move at hmove
    split at hmove
    · exact (congrArg (·.1.1) hmove).symm
    · exact (congrArg (·.1.1) hmove).symm
  slotFreed := fun _ => rfl
  read := by
    rintro f position bytes w result bytes' w' rfl h
    injection h with hout hw
    injection hout with hresult hbytes
    subst hresult hbytes hw
    exact ⟨rfl, rfl, rfl⟩
  write := by
    rintro f position bytes w result w' rfl h
    injection h with hresult hw
    subst hresult hw
    have hone : [bytes].foldl (· ++ ·) Bytes.empty = bytes := Bytes.empty_append bytes
    rw [hone]
    exact ⟨rfl, rfl⟩
  chore := fun h => congrArg (·.medium queue backing) (ramDisk_chore h)
  tryFree := by
    intro m p page w answer page' w' h
    injection h with h hw
    injection h with hanswer hpage
    subst hanswer hpage hw
    exact ⟨rfl, rfl, rfl⟩
  front := rfl

/-- The blocks of the file in memory go down, from block 23 of the device. -/
theorem ramDisk_sound (s : System RamDisk) (hsectors : (s.devices.get 0).sectors = 256) :
    (ramSpec (.mapped 0 0)).Sound (ramDisk true) s := by
  have hblock : ∀ {i block : UInt64}, (if i < 8 then some (23 - i) else none) = some block →
      i.toNat < 8 ∧ block.toNat = 23 - i.toNat := by
    intro i block h
    split at h
    · rename_i hi
      have hi : i.toNat < 8 := UInt64.lt_iff_toNat_lt.mp hi
      injection h with h
      rw [← h, UInt64.toNat_sub_of_le _ _ (UInt64.le_iff_toNat_le.mpr (Nat.le_of_lt
        (Nat.lt_trans hi (by decide))))]
      exact ⟨hi, rfl⟩
    · exact absurd h nofun
  rintro f d hback
  injection hback with _ hd
  subst hd
  refine ⟨fun {i j block} hi hj => UInt64.toNat_inj.mp ?_, fun {i block} hi => ?_⟩
  · obtain ⟨hi, hbi⟩ := hblock hi
    obtain ⟨hj, hbj⟩ := hblock hj
    omega
  · have hb := (hblock hi).2
    rw [hsectors]
    show (block.toNat + 1) * 4096 ≤ 256 * 512
    omega

/-- The area on the file: eight extents of one page if its blocks are known, else one extent. -/
def ramAreaOn (backing : Backing) : Area :=
  match backing with
  | .mapped _ _ =>
    { number := 0, backing, slotMap := 0
      table := ⟨[⟨0, 1, 23⟩, ⟨1, 1, 22⟩, ⟨2, 1, 21⟩, ⟨3, 1, 20⟩, ⟨4, 1, 19⟩, ⟨5, 1, 18⟩,
        ⟨6, 1, 17⟩, ⟨7, 1, 16⟩]⟩
      nrExtents := 8, max := 8, pages := 7, span := 7 }
  | _ => { ramArea with backing }

/-- Bringing an area up on the file answers this area. -/
theorem swapOn_ramAreaOn {backing : Backing}
    (hbacking : backing = .mapped 0 0 ∨ backing = .file 0) :
    (swapOn (ramDisk true) (ramSpec backing) 8) ramStart =
      .ok (.ok (ramAreaOn backing), ramUp true backing) := by
  have harea : ((swapOn (ramDisk true) (ramSpec backing) 8) ramStart).map (·.1.toOption) =
      .ok (some (ramAreaOn backing)) := by
    rcases hbacking with rfl | rfl <;> decide +kernel
  unfold ramUp
  cases hrun : (swapOn (ramDisk true) (ramSpec backing) 8) ramStart with
  | error f => rw [hrun] at harea; cases harea
  | ok r =>
    obtain ⟨why | area, s⟩ := r
    · rw [hrun] at harea
      cases harea
    · rw [hrun] at harea
      cases harea
      rfl

/-- A page of sevens is written out. -/
def ramIssued (backing : Backing) : System RamDisk :=
  (Call.pageOut 0 {}).after (ramDisk true) (ramFilled true backing)

/-- The write is finished, if it is by a request. -/
def ramWrote (backing : Backing) : System RamDisk :=
  (Call.finish { request := 0 }).after (ramDisk true) (ramIssued backing)

/-- The page is changed to zeros. -/
def ramZeroed (backing : Backing) : System RamDisk :=
  let page : Page := { flags.locked := true, slot := some ⟨1⟩, bytes := Bytes.fill 4096 0 }
  { ramWrote backing with pages := (ramWrote backing).pages.set 0 page }

/-- It is read in. -/
def ramReading (backing : Backing) : System RamDisk :=
  (Call.pageIn 0 .start).after (ramDisk true) (ramZeroed backing)

/-- The read is finished, if it is by a request. -/
def ramRestored (backing : Backing) : System RamDisk :=
  (Call.finish { request := 1 }).after (ramDisk true) (ramReading backing)

/-- Where page 0 is the only page, it may enter with slot 1. -/
theorem entered_single {area : Area} {pages : Table Page} (hnumber : area.number = 0)
    (hmax : area.max = 8)
    (h : pages.fresh ≤ 1 ∧ (pages.get 0).slot = some ⟨1⟩ ∧ (pages.get 0).flags.locked = true ∧
      (pages.get 0).transfer = .idle ∧ (pages.get 0).order = 0 ∧ (pages.get 0).bytes.size = 4096) :
    Entered area area.max.toNat 1 0 pages := by
  obtain ⟨hsingle, hslot, hlocked, hidle, hbase⟩ := h
  refine ⟨⟨_, hslot, hnumber ▸ rfl, rfl⟩, by rw [hmax]; decide, ⟨hlocked, hidle⟩, hbase,
    fun p _ => ?_⟩
  rcases p with _ | p
  · exact hidle
  · rw [Table.get_of_fresh_le _ (Nat.le_trans hsingle (Nat.le_add_left 1 p))]
    rfl

section

variable {b : Backend σ} {area : Area} {medium : σ → Storage} {s : System σ} {last : Nat → Bytes}
  {tickets : PageId → Option Bytes} {p : PageId} {o : Nat}

theorem no_tickets (p : PageId) :
    Function.update (fun _ : PageId => (none : Option Bytes)) p none = fun _ => none :=
  Function.update_eq_self p _

/-- A caller changes a page while there are no tickets. -/
theorem Access.of_edit {page : Page} (hbusy : (s.pages.get p).transfer = .idle)
    (hidle : page.transfer = .idle) :
    Access b area medium ⟨s, last, fun _ => none⟩
      ⟨{ s with pages := s.pages.set p page }, last, fun _ => none⟩ := by
  have hstep := @Access.edit σ b area medium ⟨s, last, fun _ => none⟩ p page hbusy hidle
  simp only [no_tickets] at hstep
  exact hstep

/-- A write is accepted while there are no tickets. -/
theorem Access.of_pageOut {w : Writeback} (he : Entered area area.max.toNat o p s.pages)
    (hok : (Call.pageOut p w).accepted b s = true) :
    Access b area medium ⟨s, last, fun _ => none⟩
      ⟨(Call.pageOut p w).after b s, Function.update last o (s.pages.get p).bytes,
        fun _ => none⟩ := by
  have hstep := @Access.call σ b area medium ⟨s, last, fun _ => none⟩ (.pageOut p w) o _ _ he
    (Call.run_after hok)
  simp only [Ledger.after, no_tickets] at hstep
  exact hstep

/-- A read is accepted while there are no tickets. -/
theorem Access.of_pageIn {pace : Pace} (he : Entered area area.max.toNat o p s.pages)
    (hclean : (s.pages.get p).flags.uptodate = false)
    (hok : (Call.pageIn p pace).accepted b s = true) :
    Access b area medium ⟨s, last, fun _ => none⟩
      ⟨(Call.pageIn p pace).after b s, last,
        Function.update (fun _ => none) p (some (last o))⟩ := by
  have hstep := @Access.call σ b area medium ⟨s, last, fun _ => none⟩ (.pageIn p pace) o _ _
    ⟨he, hclean⟩ (Call.run_after hok)
  simp only [Ledger.after, no_tickets] at hstep
  exact hstep

/-- A request is finished. -/
theorem Access.of_finish {f : Finish} (hok : (Call.finish f).accepted b s = true) :
    Access b area medium ⟨s, last, tickets⟩ ⟨(Call.finish f).after b s, last, tickets⟩ :=
  @Access.finish σ b area medium ⟨s, last, tickets⟩ f _ _ (Call.run_after hok)

end

/-- A step of the use of an area in memory. -/
abbrev ramAccess (backing : Backing) : Ledger RamDisk → Ledger RamDisk → Prop :=
  Access (ramDisk true) (ramAreaOn backing) (·.medium 0 backing)

/-- A page is filled with sevens and written out, changed to zeros, and read in. -/
theorem ram_run {backing : Backing} (hbacking : backing = .mapped 0 0 ∨ backing = .file 0)
    (last : Nat → Bytes) :
    Relation.ReflTransGen (ramAccess backing) ⟨ramUp true backing, last, fun _ => none⟩
      ⟨ramRestored backing, Function.update last 1 (Bytes.fill 4096 7),
        Function.update (fun _ => none) 0 (some (Bytes.fill 4096 7))⟩ := by
  let wrote := Function.update last 1 (Bytes.fill 4096 7)
  have hnumber : (ramAreaOn backing).number = 0 := by rcases hbacking with rfl | rfl <;> rfl
  have hmax : (ramAreaOn backing).max = 8 := by rcases hbacking with rfl | rfl <;> rfl
  have htaken : ramAccess backing ⟨ramUp true backing, last, fun _ => none⟩
      ⟨ramTaken true backing, last, fun _ => none⟩ :=
    .of_edit (p := 0) (by rcases hbacking with rfl | rfl <;> decide +kernel) rfl
  have hidle : ((ramTaken true backing).pages.get 0).transfer = .idle := by
    rcases hbacking with rfl | rfl <;> decide +kernel
  have hfilled : ramAccess backing ⟨ramTaken true backing, last, fun _ => none⟩
      ⟨ramFilled true backing, last, fun _ => none⟩ := .of_edit (p := 0) hidle hidle
  have hissued : ramAccess backing ⟨ramFilled true backing, last, fun _ => none⟩
      ⟨ramIssued backing, wrote, fun _ => none⟩ := by
    have hbytes : ((ramFilled true backing).pages.get 0).bytes = Bytes.fill 4096 7 := by
      rcases hbacking with rfl | rfl <;> decide +kernel
    have hwrite := @Access.of_pageOut RamDisk (ramDisk true) (ramAreaOn backing)
      (·.medium 0 backing) (ramFilled true backing) last 0 1 {}
      (entered_single hnumber hmax (by rcases hbacking with rfl | rfl <;> decide +kernel))
      (by rcases hbacking with rfl | rfl <;> decide +kernel)
    rw [hbytes] at hwrite
    exact hwrite
  have hwrote : ramAccess backing ⟨ramIssued backing, wrote, fun _ => none⟩
      ⟨ramWrote backing, wrote, fun _ => none⟩ :=
    .of_finish (by rcases hbacking with rfl | rfl <;> decide +kernel)
  have hzeroed : ramAccess backing ⟨ramWrote backing, wrote, fun _ => none⟩
      ⟨ramZeroed backing, wrote, fun _ => none⟩ :=
    .of_edit (p := 0) (by rcases hbacking with rfl | rfl <;> decide +kernel) rfl
  have hreading := @Access.of_pageIn RamDisk (ramDisk true) (ramAreaOn backing)
    (·.medium 0 backing) (ramZeroed backing) wrote 0 1 .start
    (entered_single hnumber hmax (by rcases hbacking with rfl | rfl <;> decide +kernel))
    (by rcases hbacking with rfl | rfl <;> decide +kernel)
    (by rcases hbacking with rfl | rfl <;> decide +kernel)
  rw [show wrote 1 = Bytes.fill 4096 7 from Function.update_self _ _ _] at hreading
  have hread : ∀ tickets, ramAccess backing ⟨ramReading backing, wrote, tickets⟩
      ⟨ramRestored backing, wrote, tickets⟩ :=
    fun _ => .of_finish (by rcases hbacking with rfl | rfl <;> decide +kernel)
  exact ((((((Relation.ReflTransGen.single htaken).tail hfilled).tail hissued).tail hwrote).tail
    hzeroed).tail hreading).tail (hread _)

/-- Sevens are written to an area in memory, and read back. -/
def SevensReadBack (backing : Backing) : Prop :=
  ∃ blocks L, Relation.ReflTransGen (ramAccess backing) ⟨ramUp true backing,
      slotContent blocks ((ramUp true backing).world.medium 0 backing), fun _ => none⟩ L ∧
    L.system = ramRestored backing ∧ L.last 1 = Bytes.fill 4096 7 ∧
    (L.system.pages.get 0).Reads (Bytes.fill 4096 7)

/-- **Sevens are written to a swap file and read back**: by a request each to its blocks on a
device, and at once through its file system. -/
theorem sevens_read_back : SevensReadBack (.mapped 0 0) ∧ SevensReadBack (.file 0) := by
  have hquiet : ramStart.Quiet :=
    ⟨fun _ => rfl, fun _ => rfl, fun d => by rcases d with _ | d <;> rfl⟩
  have hread : ∀ {backing : Backing}, backing = .mapped 0 0 ∨ backing = .file 0 →
      SevensReadBack backing := by
    intro backing hbacking
    have hsound : (ramSpec backing).Sound (ramDisk true) ramStart := by
      rcases hbacking with rfl | rfl
      · exact ramDisk_sound ramStart rfl
      · exact nofun
    have hqueue : ∀ d, backing.device? = some d → (ramStart.devices.get d).queue = 0 := by
      rcases hbacking with rfl | rfl
      · exact fun d hd => by injection hd with hd; subst hd; rfl
      · exact nofun
    obtain ⟨blocks, -, hall⟩ := reading_undoes_writing (ramDisk_stores backing 0) hsound hqueue
      hquiet (swapOn_ramAreaOn hbacking)
    have hrun := ram_run hbacking (slotContent blocks ((ramUp true backing).world.medium 0 backing))
    have hdone : ((ramRestored backing).pages.get 0).transfer ≠ .reading := by
      rcases hbacking with rfl | rfl <;> decide +kernel
    have hticket := (hall _ hrun).1 0 (Bytes.fill 4096 7)
    refine ⟨blocks, _, hrun, ?_⟩
    dsimp only at hticket ⊢
    exact ⟨rfl, Function.update_self _ _ _, (hticket (Function.update_self _ _ _)).resolve_left
      fun hfetching => hdone hfetching.1⟩
  exact ⟨hread (.inl rfl), hread (.inr rfl)⟩

end PageSwap
