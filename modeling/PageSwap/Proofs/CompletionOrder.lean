/-
# The order of completions does not matter

Requests finish in whatever order the driver likes.  Each completion changes its own page, the tag
count of its device, its place on the disk, and perhaps adds a notice that a slot is free; the tag
counts and the notices are shared between requests, the rest is not.  So completions of requests
that lie on different places of the disk commute, and any two orders leave the same behind.

* `Storage.write_comm` -- writes to different places commute.
* `Scene.complete` -- a completion, on what can be seen of a state.
* `Scene.complete_comm` -- two completions commute; `Scene.completeAll_perm`, any number of them.
* `finish_scene` -- finishing a request is a `Scene.complete`.
* `traced_of_reaches` -- every request that exists was issued for a slot of its area.
* `journaled_shows` -- disks with a journal beside them show all that is asked for.
* `completion_order_is_free` -- requests that finish in two orders.
-/
import Mathlib.Data.List.Perm.Basic
import Mathlib.Data.Multiset.AddSub
import PageSwap.Proofs.Journal

namespace PageSwap

/-! ## 1. Writes to different places -/

namespace Storage

theorem size_written_write (s : Storage) (pos : Nat) (bytes : Bytes) :
    (s.write pos bytes).written.size = max s.written.size (pos + bytes.size) := by
  simp only [write, Bytes.overlay, Bytes.padTo, Bytes.size_append, Bytes.size_take,
    Bytes.size_drop, Bytes.size_fill]
  omega

/-- Storages of one size that hold the same bytes are equal. -/
theorem ext_byte {s t : Storage} (hsize : s.size = t.size)
    (hwritten : s.written.size = t.written.size) (h : ∀ i, s.byte i = t.byte i) : s = t := by
  have hlist : s.written = t.written := by
    refine Bytes.toList_inj.mp (List.ext_getElem ?_ fun i hi hi' => ?_)
    · rw [Bytes.length_toList, Bytes.length_toList, hwritten]
    · have hbyte := h i
      unfold byte at hbyte
      rwa [List.getD_eq_getElem?_getD, List.getD_eq_getElem?_getD, List.getElem?_eq_getElem hi,
        List.getElem?_eq_getElem hi'] at hbyte
  cases s
  cases t
  simp only at hsize hlist
  rw [hsize, hlist]

/-- **Writes to different places commute.** -/
theorem write_comm (s : Storage) {pos pos' : Nat} {bytes bytes' : Bytes}
    (h : pos + bytes.size ≤ pos' ∨ pos' + bytes'.size ≤ pos) :
    (s.write pos bytes).write pos' bytes' = (s.write pos' bytes').write pos bytes := by
  refine ext_byte rfl ?_ fun i => ?_
  · simp only [size_written_write]
    omega
  · simp only [byte_write]
    by_cases hi : pos ≤ i ∧ i < pos + bytes.size
    · rw [if_pos hi, if_neg (by omega), if_pos hi]
    · simp only [if_neg hi]

end Storage

/-! ## 2. What is seen of collaborators -/

variable {σ κ : Type}

/-- **What is seen of collaborators**: the content of the disk behind each queue, the slots the
drivers have been told are free, and counters. -/
structure Outlook (κ : Type) where
  disk : QueueId → Storage
  freed : Multiset (QueueId × UInt64)
  counters : κ

namespace Outlook

/-- The transfer of a request that ends with `status`: the bytes of its page after it, and the
outlook.  Without an error the page goes to the disk or is filled from there. -/
def move (o : Outlook κ) (queue : QueueId) (q : Request) (status : Status) (bytes : Bytes) :
    Bytes × Outlook κ :=
  match status, q.direction with
  | .error _, _ => (bytes, o)
  | .ok (), .read => ((o.disk queue).read (q.sector.toNat * 512) bytes.size, o)
  | .ok (), .write =>
    let disk := (o.disk queue).write (q.sector.toNat * 512) bytes
    (bytes, { o with disk := Function.update o.disk queue disk })

/-- A driver may have been told that a slot is free. -/
def told (o : Outlook κ) (notice : Option (QueueId × UInt64)) : Outlook κ :=
  match notice with
  | none => o
  | some n => { o with freed := n ::ₘ o.freed }

theorem told_comm (o : Outlook κ) (n n' : Option (QueueId × UInt64)) :
    (o.told n).told n' = (o.told n').told n := by
  cases n with
  | none => cases n' <;> rfl
  | some x =>
    cases n' with
    | none => rfl
    | some x' => exact congrArg (Outlook.mk o.disk · o.counters) (Multiset.cons_swap x' x o.freed)

section

variable (o : Outlook κ) (queue : QueueId) {q : Request} (bytes : Bytes)

theorem move_error (q : Request) (e : Errno) : o.move queue q (.error e) bytes = (bytes, o) := by
  unfold move
  cases q.direction <;> rfl

theorem move_read (h : q.direction = .read) : o.move queue q (.ok ()) bytes =
    ((o.disk queue).read (q.sector.toNat * 512) bytes.size, o) := by
  unfold move
  rw [h]

theorem move_write (h : q.direction = .write) : o.move queue q (.ok ()) bytes =
    let disk := (o.disk queue).write (q.sector.toNat * 512) bytes
    (bytes, { o with disk := Function.update o.disk queue disk }) := by
  unfold move
  rw [h]

end

/-- A transfer has nothing to do with notices. -/
theorem move_told (o : Outlook κ) (n : Option (QueueId × UInt64)) (queue : QueueId) (q : Request)
    (status : Status) (bytes : Bytes) :
    (o.told n).move queue q status bytes =
      ((o.move queue q status bytes).1, (o.move queue q status bytes).2.told n) := by
  rcases status with e | u
  · rw [move_error, move_error]
  cases h : q.direction with
  | read =>
    rw [move_read _ _ _ h, move_read _ _ _ h]
    cases n <;> rfl
  | write =>
    rw [move_write _ _ _ h, move_write _ _ _ h]
    cases n <;> rfl

/-- A transfer keeps the size of its page. -/
theorem size_move (o : Outlook κ) (queue : QueueId) (q : Request) (status : Status)
    (bytes : Bytes) : (o.move queue q status bytes).1.size = bytes.size := by
  rcases status with e | u
  · rw [move_error]
  cases h : q.direction with
  | read =>
    rw [move_read _ _ _ h]
    exact Storage.size_read _ _ _
  | write => rw [move_write _ _ _ h]

/-- The places of two pages on the disks do not meet. -/
def Apart (queue queue' : QueueId) (q q' : Request) (bytes bytes' : Bytes) : Prop :=
  queue = queue' → q.sector.toNat * 512 + bytes.size ≤ q'.sector.toNat * 512 ∨
    q'.sector.toNat * 512 + bytes'.size ≤ q.sector.toNat * 512

theorem Apart.symm {queue queue' : QueueId} {q q' : Request} {bytes bytes' : Bytes}
    (h : Apart queue queue' q q' bytes bytes') : Apart queue' queue q' q bytes' bytes :=
  fun heq => (h heq.symm).symm

section

variable {o : Outlook κ} {queue queue' : QueueId} {q q' : Request} {status status' : Status}
  {bytes bytes' : Bytes}

/-- What a transfer does to its page does not depend on one elsewhere. -/
theorem move_fst_move (h : Apart queue queue' q q' bytes bytes') :
    ((o.move queue q status bytes).2.move queue' q' status' bytes').1 =
      (o.move queue' q' status' bytes').1 := by
  rcases status' with e' | u'
  · rw [move_error, move_error]
  rcases status with e | u
  · rw [move_error]
  cases hq : q.direction with
  | read => rw [move_read _ _ _ hq]
  | write =>
    rw [move_write _ _ _ hq]
    cases hq' : q'.direction with
    | write => rw [move_write _ _ _ hq', move_write _ _ _ hq']
    | read =>
      rw [move_read _ _ _ hq', move_read _ _ _ hq']
      dsimp only
      by_cases hqueue : queue = queue'
      · subst hqueue
        rw [Function.update_self]
        exact Storage.read_write_of_disjoint _ (h rfl).symm
      · rw [Function.update_of_ne (Ne.symm hqueue)]

/-- Transfers elsewhere commute. -/
theorem move_snd_comm (h : Apart queue queue' q q' bytes bytes') :
    ((o.move queue q status bytes).2.move queue' q' status' bytes').2 =
      ((o.move queue' q' status' bytes').2.move queue q status bytes).2 := by
  rcases status with e | u
  · rw [move_error, move_error]
  rcases status' with e' | u'
  · rw [move_error, move_error]
  cases hq : q.direction with
  | read =>
    rw [move_read _ _ _ hq, move_read _ _ _ hq]
  | write =>
    cases hq' : q'.direction with
    | read => rw [move_read _ _ _ hq', move_read _ _ _ hq']
    | write =>
      rw [move_write _ _ _ hq, move_write _ _ _ hq', move_write _ _ _ hq, move_write _ _ _ hq']
      dsimp only
      by_cases hqueue : queue = queue'
      · subst hqueue
        rw [Function.update_self, Function.update_self, Function.update_idem, Function.update_idem,
          Storage.write_comm _ (h rfl)]
      · rw [Function.update_of_ne (Ne.symm hqueue), Function.update_of_ne hqueue,
          Function.update_comm hqueue]

end

end Outlook

/-! ## 3. Completions of a scene -/

/-- What can be seen of a state. -/
structure Scene (κ : Type) where
  pages : PageId → Page
  devices : DeviceId → Device
  requests : RequestId → Option Request
  outlook : Outlook κ

/-- Drivers and slot maps that do not change their mind: which drivers want to know about free
slots, and how often each slot is referred to. -/
structure Fixed where
  wants : QueueId → Bool
  slots : SlotMapId → UInt64 → UInt64

/-- A device that gets a tag back. -/
def Device.untagged (d : Device) : Device := { d with inflight := d.inflight - 1 }

namespace Scene

variable {fixed : Fixed} {status : RequestId → Status} {x : Scene κ}

/-- The queue that takes a request. -/
def queue (x : Scene κ) (q : Request) : QueueId := (x.devices q.device).queue

/-- The notice given when a request is finished: the driver of a whole device is told of the slot of
a page that was read, if the page is the slot's one user. -/
def notice (fixed : Fixed) (x : Scene κ) (q : Request) (status : Status) :
    Option (QueueId × UInt64) :=
  match q.direction, status, (x.pages q.page).slot, q.area.backing with
  | .read, .ok (), some slot, .device d =>
    if fixed.wants (x.devices d).queue ∧ fixed.slots q.area.slotMap slot.offset = 1 then
      some ((x.devices d).queue, slot.offset)
    else none
  | _, _, _, _ => none

/-- The transfer of a request. -/
def moved (x : Scene κ) (q : Request) (status : Status) : Bytes × Outlook κ :=
  x.outlook.move (x.queue q) q status (x.pages q.page).bytes

/-- The page of a request that was finished. -/
def endedPage (fixed : Fixed) (x : Scene κ) (q : Request) (status : Status) : Page :=
  (x.pages q.page).ended q.direction status (x.moved q status).1 (x.notice fixed q status).isSome

/-- **A completion**: its transfer, its page, its tag, and the notice. -/
def complete (fixed : Fixed) (status : RequestId → Status) (x : Scene κ) (r : RequestId) :
    Scene κ :=
  match x.requests r with
  | none => x
  | some q =>
    { pages := Function.update x.pages q.page (x.endedPage fixed q (status r))
      devices := Function.update x.devices q.device (x.devices q.device).untagged
      requests := Function.update x.requests r none
      outlook := (x.moved q (status r)).2.told (x.notice fixed q (status r)) }

/-- Two requests have nothing in common but, perhaps, their device. -/
structure Apart (x : Scene κ) (q q' : Request) : Prop where
  page : q.page ≠ q'.page
  disk : Outlook.Apart (x.queue q) (x.queue q') q q' (x.pages q.page).bytes
    (x.pages q'.page).bytes

theorem Apart.symm {q q' : Request} (h : x.Apart q q') : x.Apart q' q :=
  ⟨h.page.symm, h.disk.symm⟩

section

variable {r : RequestId} {q : Request}

theorem complete_none (hq : x.requests r = none) : x.complete fixed status r = x := by
  unfold complete
  rw [hq]

theorem complete_some (hq : x.requests r = some q) : x.complete fixed status r =
    { pages := Function.update x.pages q.page (x.endedPage fixed q (status r))
      devices := Function.update x.devices q.device (x.devices q.device).untagged
      requests := Function.update x.requests r none
      outlook := (x.moved q (status r)).2.told (x.notice fixed q (status r)) } := by
  unfold complete
  rw [hq]

/-- No queue changes. -/
theorem queue_complete (x : Scene κ) (r : RequestId) (d : DeviceId) :
    ((x.complete fixed status r).devices d).queue = (x.devices d).queue := by
  cases hq : x.requests r with
  | none => rw [complete_none hq]
  | some q =>
    rw [complete_some hq]
    show (Function.update x.devices q.device _ d).queue = _
    by_cases hd : d = q.device
    · subst hd
      rw [Function.update_self]
      rfl
    · rw [Function.update_of_ne hd]

/-- No page changes its size. -/
theorem size_complete (x : Scene κ) (r : RequestId) (p : PageId) :
    ((x.complete fixed status r).pages p).bytes.size = (x.pages p).bytes.size := by
  cases hq : x.requests r with
  | none => rw [complete_none hq]
  | some q =>
    rw [complete_some hq]
    show (Function.update x.pages q.page _ p).bytes.size = _
    by_cases hp : p = q.page
    · subst hp
      rw [Function.update_self]
      exact Outlook.size_move _ _ _ _ _
    · rw [Function.update_of_ne hp]

/-- No request is issued. -/
theorem requests_complete {r' : RequestId} {q' : Request}
    (h : (x.complete fixed status r).requests r' = some q') : x.requests r' = some q' := by
  cases hq : x.requests r with
  | none => rwa [complete_none hq] at h
  | some q =>
    rw [complete_some hq] at h
    replace h : Function.update x.requests r none r' = some q' := h
    by_cases hr : r' = r
    · rw [hr, Function.update_self] at h
      exact absurd h nofun
    · rwa [Function.update_of_ne hr] at h

/-- **Another completion leaves a request alone**, with its notice and its page; on the disk its
transfer comes second. -/
theorem complete_other (fixed : Fixed) (status : RequestId → Status) {r' : RequestId}
    {q' : Request} (hq : x.requests r = some q) (hq' : x.requests r' = some q') (hr : r ≠ r')
    (hapart : x.Apart q q') (st : Status) :
    (x.complete fixed status r).requests r' = some q' ∧
    (x.complete fixed status r).notice fixed q' st = x.notice fixed q' st ∧
    (x.complete fixed status r).endedPage fixed q' st = x.endedPage fixed q' st ∧
    ((x.complete fixed status r).moved q' st).2 =
      ((x.moved q (status r)).2.move (x.queue q') q' st (x.pages q'.page).bytes).2.told
        (x.notice fixed q (status r)) := by
  have hpage : (x.complete fixed status r).pages q'.page = x.pages q'.page := by
    rw [complete_some hq]
    exact Function.update_of_ne hapart.page.symm _ _
  have hnotice : (x.complete fixed status r).notice fixed q' st = x.notice fixed q' st := by
    unfold notice
    simp only [hpage, queue_complete]
  have houtlook : (x.complete fixed status r).outlook =
      (x.moved q (status r)).2.told (x.notice fixed q (status r)) := by
    rw [complete_some hq]
  have hmoved : (x.complete fixed status r).moved q' st =
      ((x.moved q' st).1,
        ((x.moved q (status r)).2.move (x.queue q') q' st (x.pages q'.page).bytes).2.told
          (x.notice fixed q (status r))) := by
    have hqueue : (x.complete fixed status r).queue q' = x.queue q' := queue_complete x r q'.device
    have hfirst : ((x.moved q (status r)).2.move (x.queue q') q' st (x.pages q'.page).bytes).1 =
        (x.moved q' st).1 := Outlook.move_fst_move hapart.disk
    unfold moved at houtlook hfirst ⊢
    rw [hpage, hqueue, houtlook, Outlook.move_told, hfirst]
  refine ⟨?_, hnotice, ?_, ?_⟩
  · rw [complete_some hq]
    exact (Function.update_of_ne hr.symm _ _).trans hq'
  · unfold endedPage
    rw [hpage, hnotice, hmoved]
  · rw [hmoved]

end

/-- Tags are given back in any order. -/
theorem untag_comm (devices : DeviceId → Device) (d d' : DeviceId) :
    Function.update (Function.update devices d (devices d).untagged) d'
        (Function.update devices d (devices d).untagged d').untagged =
      Function.update (Function.update devices d' (devices d').untagged) d
        (Function.update devices d' (devices d').untagged d).untagged := by
  by_cases h : d' = d
  · subst h
    rfl
  · rw [Function.update_of_ne h, Function.update_of_ne (Ne.symm h),
      Function.update_comm (Ne.symm h)]

/-- **Two completions commute.** -/
theorem complete_comm {r r' : RequestId}
    (hapart : ∀ q q', x.requests r = some q → x.requests r' = some q' → x.Apart q q') :
    (x.complete fixed status r).complete fixed status r' =
      (x.complete fixed status r').complete fixed status r := by
  by_cases hr : r = r'
  · rw [hr]
  cases hq : x.requests r with
  | none =>
    have hnone : (x.complete fixed status r').requests r = none :=
      Option.eq_none_iff_forall_ne_some.mpr fun q h => by
        rw [requests_complete h] at hq
        exact absurd hq nofun
    rw [complete_none hq, complete_none hnone]
  | some q =>
    cases hq' : x.requests r' with
    | none =>
      have hnone : (x.complete fixed status r).requests r' = none :=
        Option.eq_none_iff_forall_ne_some.mpr fun q h => by
          rw [requests_complete h] at hq'
          exact absurd hq' nofun
      rw [complete_none hq', complete_none hnone]
    | some q' =>
      have happly := hapart q q' hq hq'
      obtain ⟨hlive', hnotice', hpage', hmoved'⟩ :=
        complete_other fixed status hq hq' hr happly (status r')
      obtain ⟨hlive, hnotice, hpage, hmoved⟩ :=
        complete_other fixed status hq' hq (Ne.symm hr) happly.symm (status r)
      rw [complete_some hlive', complete_some hlive, hnotice', hnotice, hpage', hpage, hmoved',
        hmoved, Outlook.told_comm]
      rw [complete_some hq, complete_some hq', Scene.mk.injEq]
      refine ⟨Function.update_comm happly.page _ _ _, untag_comm _ _ _,
        Function.update_comm hr _ _ _, ?_⟩
      exact congrArg (fun o => Outlook.told (Outlook.told o _) _)
        (Outlook.move_snd_comm happly.disk)

/-- Completions one after the other. -/
def completeAll (fixed : Fixed) (status : RequestId → Status) (x : Scene κ)
    (rs : List RequestId) : Scene κ :=
  rs.foldl (complete fixed status) x

/-- Any two of these requests have nothing in common. -/
def Independent (x : Scene κ) (rs : List RequestId) : Prop :=
  ∀ r ∈ rs, ∀ r' ∈ rs, r ≠ r' → ∀ q q', x.requests r = some q → x.requests r' = some q' →
    x.Apart q q'

/-- A completion keeps requests independent. -/
theorem Independent.complete {rs : List RequestId} (h : x.Independent rs) (r : RequestId) :
    (x.complete fixed status r).Independent rs := by
  intro r₁ h₁ r₂ h₂ hne q q' hq hq'
  obtain ⟨hpage, hdisk⟩ := h r₁ h₁ r₂ h₂ hne q q' (requests_complete hq) (requests_complete hq')
  refine ⟨hpage, fun hqueue => ?_⟩
  unfold queue at hqueue
  rw [queue_complete, queue_complete] at hqueue
  rw [size_complete, size_complete]
  exact hdisk hqueue

/-- **Any order of completions** of independent requests leaves the same scene. -/
theorem completeAll_perm {rs rs' : List RequestId} (hperm : rs.Perm rs') :
    ∀ {x : Scene κ}, x.Independent rs →
      x.completeAll fixed status rs = x.completeAll fixed status rs' := by
  induction hperm with
  | nil => intro x _; rfl
  | cons r _ ih =>
    intro x h
    exact ih fun r₁ h₁ r₂ h₂ =>
      h.complete r r₁ (List.mem_cons_of_mem r h₁) r₂ (List.mem_cons_of_mem r h₂)
  | swap r r' rs =>
    intro x h
    refine congrArg (fun x => completeAll fixed status x rs) ?_
    by_cases hne : r' = r
    · rw [hne]
    · refine complete_comm fun q q' => ?_
      exact h r' List.mem_cons_self r (List.mem_cons_of_mem r' List.mem_cons_self) hne q q'
  | trans hperm _ ih ih' =>
    intro x h
    refine (ih h).trans (ih' fun r₁ h₁ r₂ h₂ => ?_)
    exact h r₁ (hperm.mem_iff.mpr h₁) r₂ (hperm.mem_iff.mpr h₂)

end Scene

/-! ## 4. Completions of a state -/

/-- **What is asked of collaborators**: a request ends as it is told to, with its transfer on a disk
in memory; references to slots do not change; and a driver that is told of a free slot takes note of
it, and does nothing else. -/
structure Backend.Shows (b : Backend σ) (view : σ → Outlook κ) (fixed : Fixed) : Prop where
  settle : ∀ queue r status q (page : Page) w, ∃ w',
    b.queues.settle queue { request := r, status := some status } q page w =
      .ok ((status, ((view w).move queue q status page.bytes).1), w') ∧
    view w' = ((view w).move queue q status page.bytes).2
  wantsFreed : ∀ queue w, b.queues.wantsFreed queue w = fixed.wants queue
  count : ∀ m offset w, (b.slotMaps.count m offset w).1 = fixed.slots m offset ∧
    view (b.slotMaps.count m offset w).2 = view w
  slotFreed : ∀ queue offset w,
    view (b.queues.slotFreed queue offset w) = (view w).told (some (queue, offset))

/-- What can be seen of a state. -/
def System.scene (view : σ → Outlook κ) (s : System σ) : Scene κ where
  pages := s.pages.get
  devices := s.devices.get
  requests := s.requests.get
  outlook := view s.world

theorem Table.get_set_eq_update {α : Type} [Inhabited α] (t : Table α) (i : Nat) (a : α) :
    (t.set i a).get = Function.update t.get i a := by
  funext j
  rw [Table.get_set, Function.update_apply]

section

variable {b : Backend σ} {view : σ → Outlook κ} {fixed : Fixed} {s : System σ}

/-- The notice of a completion. -/
theorem noticedBy_shows (hb : b.Shows view fixed) (s : System σ) (q : Request) (status : Status)
    (w : σ) :
    (noticedBy b s q status w).1 = ((s.scene view).notice fixed q status).isSome ∧
    view (noticedBy b s q status w).2 = (view w).told ((s.scene view).notice fixed q status) := by
  unfold noticedBy Scene.notice
  cases q.direction with
  | write => exact ⟨rfl, rfl⟩
  | read =>
    rcases status with e | u
    · exact ⟨rfl, rfl⟩
    show (noticed b q.area s.devices (s.pages.get q.page).slot w).1 = _ ∧
      view (noticed b q.area s.devices (s.pages.get q.page).slot w).2 = _
    have hslot : ((s.scene view).pages q.page).slot = (s.pages.get q.page).slot := rfl
    rw [hslot]
    unfold noticed
    cases (s.pages.get q.page).slot with
    | none => exact ⟨rfl, rfl⟩
    | some slot =>
      cases q.area.backing with
      | mapped f d => exact ⟨rfl, rfl⟩
      | file f => exact ⟨rfl, rfl⟩
      | device d =>
        have hdevice : (s.scene view).devices d = s.devices.get d := rfl
        obtain ⟨hcount, hview⟩ := hb.count q.area.slotMap slot.offset w
        dsimp only
        rw [hdevice, hb.wantsFreed, hcount]
        by_cases hwants : fixed.wants (s.devices.get d).queue = true
        · by_cases hone : fixed.slots q.area.slotMap slot.offset = 1
          · rw [if_pos hwants, if_pos hone, if_pos ⟨hwants, hone⟩]
            exact ⟨rfl, by rw [hb.slotFreed, hview]⟩
          · rw [if_pos hwants, if_neg hone, if_neg fun h => hone h.2]
            exact ⟨rfl, hview⟩
        · rw [if_neg hwants, if_neg fun h => hwants h.1]
          exact ⟨rfl, rfl⟩

/-- **Finishing a request** of a coherent state is a completion of its scene, and the state stays
coherent. -/
theorem finish_scene (hb : b.Shows view fixed) (hs : s.Coherent) (status : RequestId → Status)
    (r : RequestId) :
    ∃ s', finish b { request := r, status := some (status r) } s = .ok ((), s') ∧
      s'.scene view = (s.scene view).complete fixed status r ∧ s'.Coherent := by
  cases hq : s.requests.get r with
  | none =>
    refine ⟨s, ?_, (Scene.complete_none hq).symm, hs⟩
    refine Run.eq_ok_of_wp ?_
    unfold finish
    simp only [Run.wp_bind, Run.wp_request?, hq, Run.wp_pure, and_self]
  | some q =>
    obtain ⟨w, hsettle, hview⟩ := hb.settle (s.devices.get q.device).queue r (status r) q
      (s.pages.get q.page) s.world
    have hwp : (finish b { request := r, status := some (status r) }).wp
        (fun _ s' => s'.scene view = (s.scene view).complete fixed status r ∧ s'.Coherent)
        (fun _ => False) s := by
      refine finish_wp hq (hs.ready hq) (fun e he => ?_) fun st bytes w' console h => ?_
      · rw [hsettle] at he
        cases he
      · rw [hsettle] at h
        injection h with h
        injection h with h hw
        injection h with hst hbytes
        subst hst hbytes hw
        refine ⟨?_, hs.finish hq rfl⟩
        obtain ⟨hfreed, htold⟩ := noticedBy_shows hb s q (status r) w
        rw [Scene.complete_some hq]
        unfold System.finished System.scene
        simp only [Table.get_set_eq_update, hfreed, htold, hview]
        rfl
    obtain ⟨_, s', hok, hpost⟩ := Run.exists_ok_of_wp hwp
    exact ⟨s', hok, hpost⟩

/-- Finishing requests one after the other. -/
theorem finishAll_scene (hb : b.Shows view fixed) (status : RequestId → Status) :
    ∀ (rs : List RequestId) {s : System σ}, s.Coherent →
      ∃ s', finishAll b (rs.map fun r => { request := r, status := some (status r) }) s =
          .ok ((), s') ∧
        s'.scene view = (s.scene view).completeAll fixed status rs := by
  intro rs
  induction rs with
  | nil => intro s _; exact ⟨s, rfl, rfl⟩
  | cons r rs ih =>
    intro s hs
    obtain ⟨s₁, hfirst, hscene, hs₁⟩ := finish_scene hb hs status r
    obtain ⟨s₂, hrest, hscene₂⟩ := ih hs₁
    refine ⟨s₂, ?_, ?_⟩
    · show (finish b { request := r, status := some (status r) } >>= fun _ =>
        finishAll b (rs.map fun r => { request := r, status := some (status r) })) s = _
      refine Run.eq_ok_of_wp ?_
      rw [Run.wp_bind, Run.wp_of_ok hfirst, Run.wp_of_ok hrest]
      exact ⟨rfl, rfl⟩
    · rw [hscene₂, hscene]
      rfl

end

/-! ## 5. Requests are traced to slots -/

/-- The request was issued for a slot that its area maps, to the device of the area. -/
structure Request.Traced (q : Request) : Prop where
  slot : ∃ slot, q.area.sector slot = .ok q.sector
  device : q.area.backing.device? = some q.device

/-- All requests that exist were. -/
def System.Traced (s : System σ) : Prop := ∀ r q, s.requests.get r = some q → q.Traced

section

variable {b : Backend σ} {t : Table Device} {s s' : System σ} {p : PageId} {status : Status}

/-- A request is dropped. -/
theorem System.Traced.drop (h : s.Traced) (r : RequestId) {pages : Table Page}
    {devices : Table Device} {sleepers : Table Sleeper} {w : σ} :
    { s with pages, devices, requests := s.requests.set r none, sleepers, world := w }.Traced := by
  intro r' q hq
  replace hq : (s.requests.set r none).get r' = some q := hq
  rw [Table.get_set] at hq
  split at hq
  · exact absurd hq nofun
  · exact h r' q hq

/-- A request is issued. -/
theorem System.Traced.issue (h : s.Traced) {q : Request} (hq : q.Traced) {pages : Table Page}
    {devices : Table Device} {w : σ} :
    { s with
      pages, devices, requests := s.requests.set s.requests.fresh (some q),
      world := w }.Traced := by
  intro r q' hq'
  replace hq' : (s.requests.set s.requests.fresh (some q)).get r = some q' := hq'
  rw [Table.get_set] at hq'
  split at hq'
  · injection hq' with hq'
    exact hq' ▸ hq
  · exact h r q' hq'

theorem DeviceWrite.traced {area : Area} {d : DeviceId} {w : Writeback}
    (hbacking : area.backing.device? = some d)
    (hstep : DeviceWrite b area d p w .write s status s') (h : s.Traced) : s'.Traced := by
  cases hstep with
  | lost => exact h
  | direct => exact h
  | crowded => exact h
  | issued hsector => exact h.issue ⟨⟨_, hsector⟩, hbacking⟩

theorem SlotWrite.traced {area : Area} {w : Writeback}
    (hstep : SlotWrite b area p w .write s status s') (h : s.Traced) : s'.Traced := by
  cases hstep with
  | device hbacking hstep => exact hstep.traced hbacking h
  | file _ hstep =>
    cases hstep with
    | lost => exact h
    | full => exact h
    | short => exact h

theorem PageWrite.traced {w : Writeback} (hstep : PageWrite b p w s status s') (h : s.Traced) :
    s'.Traced := by
  cases hstep with
  | lost => exact h
  | freed => exact h
  | stored => exact h
  | slot _ _ _ hfront hstep =>
    cases hfront with
    | absent => exact hstep.traced h
    | declined => exact hstep.traced h

theorem DeviceRead.traced {area : Area} {d : DeviceId} (hbacking : area.backing.device? = some d)
    (hstep : DeviceRead b area d p s status s') (h : s.Traced) : s'.Traced := by
  cases hstep with
  | lost => exact h
  | direct => exact h
  | crowded => exact h
  | issued hsector _ _ _ hq =>
    rcases hq with rfl | ⟨i, rfl⟩
    · exact h.issue ⟨⟨_, hsector⟩, hbacking⟩
    · exact h.issue ⟨⟨_, hsector⟩, hbacking⟩

theorem PageRead.traced {pace : Pace} (hstep : PageRead b p pace s status s') (h : s.Traced) :
    s'.Traced := by
  have hslot : ∀ {area s₁}, SlotRead b area p s₁ status s' → s₁.Traced → s'.Traced := by
    intro area s₁ hstep h₁
    cases hstep with
    | device hbacking hstep => exact hstep.traced hbacking h₁
    | file _ hstep =>
      cases hstep with
      | lost => exact h₁
      | read => exact h₁
  cases hstep with
  | lost => exact h
  | loaded => exact h
  | slot _ hfront _ hstep =>
    cases hfront with
    | absent => exact hslot hstep h
    | declined => exact hslot hstep h

/-- The tables fit together, and requests are traced. -/
def System.TracedSince (t : Table Device) (s : System σ) : Prop := s.CoherentSince t ∧ s.Traced

/-- Completions and bookkeeping keep requests traced. -/
theorem lasting_traced (hb : Lawful b) (t : Table Device) :
    Lasting b (¬ ·.Assertion) (System.TracedSince t) where
  tolerant := hb.tolerant
  blind := fun sleepers console limiter h =>
    ⟨(lasting_coherent hb t).blind sleepers console limiter h.1, h.2⟩
  aside := fun h hw => ⟨(lasting_coherent hb t).aside h.1 hw, h.2⟩
  ready := fun h hq => (lasting_coherent hb t).ready h.1 hq
  finished := fun h hq hsettle => ⟨(lasting_coherent hb t).finished h.1 hq hsettle, h.2.drop _⟩

theorem Call.Begun.traced {c : Call} (hbegun : Call.Begun b s c status s') (h : s.Traced) :
    s'.Traced := by
  cases hbegun with
  | areas => exact h
  | out hstep => exact hstep.traced h
  | lost => exact h
  | past _ hstep => exact hstep.traced h
  | read hstep => exact hstep.traced h

/-- A call keeps requests traced. -/
theorem Call.run_traced (hb : Lawful b) (h : s.TracedSince t) {c : Call} (hallowed : c.Allowed s) :
    (c.run b).wp (fun _ s' => s'.TracedSince t) (¬ ·.Assertion) s :=
  Call.run_begun hb (fun _ => lasting_traced hb t) hallowed
    fun _ _ hbegun => ⟨hbegun.coherent hb h.1 hallowed, hbegun.traced h.2⟩

/-- **Every request that exists was issued for a slot of its area**, in every state that a run
reaches from a quiet one. -/
theorem traced_of_reaches (hb : Lawful b) (hquiet : s.Quiet) (hrun : Reaches b s s') :
    s'.Traced := by
  have hsince : s'.TracedSince s.devices := by
    induction hrun with
    | refl =>
      exact ⟨hquiet.coherent.since, fun r q hq => absurd ((hquiet.requests r).symm.trans hq) nofun⟩
    | tail _ hstep ih =>
      refine ⟨hstep.coherent hb ih.1, ?_⟩
      cases hstep with
      | call hallowed hrun => exact ((Call.run_traced hb ih hallowed).of_ok hrun).2
      | edit => exact ih.2
      | attach => exact ih.2
      | elsewhere w => exact ih.2
  exact hsince.2

end

/-! ## 6. Disks with a journal -/

/-- The slot a driver was told is free. -/
def Entry.notice? : Entry → Option (QueueId × UInt64)
  | .told queue offset => some (queue, offset)
  | _ => none

/-- The slots drivers were told are free, in a journal. -/
def Journal.notices (j : Journal) : Multiset (QueueId × UInt64) :=
  j.entries.filterMap Entry.notice?

/-- What is seen of these disks with a journal beside them. -/
def Journal.outlook (disk : QueueId → Storage) (j : Journal) : Outlook Counters where
  disk
  freed := j.notices
  counters := j.counters

theorem Journal.outlook_note (disk : QueueId → Storage) (e : Entry) (j : Journal) :
    (j.note e).outlook disk = (j.outlook disk).told e.notice? := by
  unfold Journal.outlook Journal.notices Journal.note
  rw [List.filterMap_append, List.filterMap_cons, List.filterMap_nil]
  cases e.notice? with
  | none => exact congrArg (Outlook.mk disk · j.counters) (congrArg _ (List.append_nil _))
  | some n =>
    exact congrArg (Outlook.mk disk · j.counters)
      (Multiset.coe_eq_coe.mpr (List.perm_append_singleton n _))

/-- A transfer on one of the disks, seen in the outlook. -/
theorem Outlook.move_of_moved {o : Outlook κ} {queue : QueueId} {q : Request} {status : Status}
    {old new : Bytes} {disk : QueueId → Storage}
    (h : Moved q.direction status q.sector old (o.disk queue) new (disk queue))
    (hother : ∀ other ≠ queue, disk other = o.disk other) :
    o.move queue q status old = (new, { o with disk }) := by
  have hdisk : disk = Function.update o.disk queue (disk queue) :=
    Function.eq_update_iff.mpr ⟨rfl, hother⟩
  have hsame (hqueue : disk queue = o.disk queue) : disk = o.disk := by
    rw [hdisk, hqueue, Function.update_eq_self]
  rcases status with e | u
  · obtain ⟨rfl, hqueue⟩ := h.failed
    rw [o.move_error, hsame hqueue]
  · cases hdir : q.direction with
    | read =>
      rw [hdir] at h
      obtain ⟨hnew, hqueue⟩ := h
      rw [o.move_read _ _ hdir, hsame hqueue, hnew]
    | write =>
      rw [hdir] at h
      obtain ⟨hnew, hqueue⟩ := h
      rw [o.move_write _ _ hdir, hdisk, hqueue, hnew]

/-- **Disks with a journal beside them show what is asked for**, if requests end as they are told
to, references to slots do not change, and a driver leaves its disk alone when it is told of a free
slot. -/
theorem journaled_shows {b : Backend σ} {disk : σ → QueueId → Storage} {fixed : Fixed}
    (hsettle : ∀ queue r status q (page : Page) w, ∃ bytes w',
      b.queues.settle queue { request := r, status := some status } q page w =
        .ok ((status, bytes), w') ∧
      Moved q.direction status q.sector page.bytes (disk w queue) bytes (disk w' queue) ∧
      ∀ other ≠ queue, disk w' other = disk w other)
    (hwants : ∀ queue w, b.queues.wantsFreed queue w = fixed.wants queue)
    (hcount : ∀ m offset w, (b.slotMaps.count m offset w).1 = fixed.slots m offset ∧
      disk (b.slotMaps.count m offset w).2 = disk w)
    (hfreed : ∀ queue offset w, disk (b.queues.slotFreed queue offset w) = disk w) :
    b.journaled.Shows (fun w => w.2.outlook (disk w.1)) fixed where
  settle := fun queue r status q page w => by
    obtain ⟨bytes, w', hsettle, hmoved, hother⟩ := hsettle queue r status q page w.1
    have hmove := Outlook.move_of_moved (o := w.2.outlook (disk w.1)) hmoved hother
    refine ⟨(w', w.2.note (.settled queue q page.order status)), ?_, ?_⟩
    · rw [Backend.journaled, heardBy_settle, tryNoting, hsettle, hmove]
      rfl
    · rw [hmove]
      exact Journal.outlook_note _ _ _
  wantsFreed := fun queue w => hwants queue w.1
  count := fun m offset w => by
    obtain ⟨hslots, hdisk⟩ := hcount m offset w.1
    exact ⟨hslots, (Journal.outlook_note _ _ _).trans (congrArg w.2.outlook hdisk)⟩
  slotFreed := fun queue offset w => by
    rw [← hfreed queue offset w.1]
    exact Journal.outlook_note _ _ _

/-- Disks in memory whose drivers keep slots they are told are free. -/
def keepingDisk : Backend RamDisk :=
  { ramDisk false with queues := { (ramDisk false).queues with slotFreed := fun _ _ w => w } }

/-- They have a journal. -/
def notingDisk : Backend (RamDisk × Journal) := keepingDisk.journaled

theorem notingDisk_lawful : Lawful notingDisk :=
  ((ramDisk_lawful false).congr rfl rfl rfl rfl rfl : Lawful keepingDisk).heardBy _

theorem notingDisk_shows :
    notingDisk.Shows (fun w => w.2.outlook w.1.disk) ⟨fun _ => true, fun _ _ => 1⟩ := by
  refine journaled_shows (fun queue r status q page w => ?_) (fun _ _ => rfl)
    (fun _ _ _ => ⟨rfl, rfl⟩) fun _ _ _ => rfl
  rcases status with e | ⟨⟩
  · exact ⟨page.bytes, w, rfl, ⟨rfl, rfl⟩, fun _ _ => rfl⟩
  · have hsettle : keepingDisk.queues.settle queue { request := r, status := some (.ok ()) } q
        page w = .ok (w.move queue q.sector q.direction page) := rfl
    have hstatus := w.status_move queue q.sector q.direction page
    have hmove := ramDisk_move w queue q.sector q.direction page
    refine ⟨_, _, ?_, hstatus ▸ hmove, fun other h => w.disk_move_of_ne h ..⟩
    rw [hsettle, ← hstatus]

/-- An area of eight pages is brought up. -/
def notingUp : System (RamDisk × Journal) :=
  (Call.swapOn (ramSpec (.device 0)) 8).after notingDisk journalStart

/-- Page 0 is being written, page 1 is being read. -/
def notingBoth : System (RamDisk × Journal) :=
  (Call.pageIn 1 .background).after notingDisk ((Call.pageOut 0 {}).after notingDisk notingUp)

/-! ## 7. Two orders -/

/-- **The order of completions does not matter.**  In a state `s` that a run reaches from a quiet
one, the requests `rs` are finished, each with its own status; `rs'` are the same requests in
another order.  Their pages are of one page block each, and on the same disk no two of them lie on
one block.  Then neither order faults, and both leave the same pages, devices and requests, the same
content of all disks, the same notices of free slots and the same counters. -/
theorem completion_order_is_free {b : Backend σ} {view : σ → Outlook κ} {fixed : Fixed}
    (hb : Lawful b) (hview : b.Shows view fixed) {s₀ s : System σ} (hquiet : s₀.Quiet)
    (hrun : Reaches b s₀ s) (status : RequestId → Status) {rs rs' : List RequestId}
    (hperm : rs.Perm rs')
    (hsize : ∀ r ∈ rs, ∀ q, s.requests.get r = some q → (s.pages.get q.page).bytes.size = 4096)
    (hblocks : ∀ r ∈ rs, ∀ r' ∈ rs, r ≠ r' → ∀ q q', s.requests.get r = some q →
      s.requests.get r' = some q' →
      (s.devices.get q.device).queue = (s.devices.get q'.device).queue →
      q.sector.toNat / 8 ≠ q'.sector.toNat / 8) :
    ∃ s₁ s₂,
      finishAll b (rs.map fun r => { request := r, status := some (status r) }) s =
        .ok ((), s₁) ∧
      finishAll b (rs'.map fun r => { request := r, status := some (status r) }) s =
        .ok ((), s₂) ∧
      (∀ p, s₁.pages.get p = s₂.pages.get p) ∧ (∀ d, s₁.devices.get d = s₂.devices.get d) ∧
      (∀ r, s₁.requests.get r = s₂.requests.get r) ∧
      (view s₁.world).disk = (view s₂.world).disk ∧
      (view s₁.world).freed = (view s₂.world).freed ∧
      (view s₁.world).counters = (view s₂.world).counters := by
  have hs : s.Coherent := coherent_of_reaches hb hquiet hrun
  have htraced : s.Traced := traced_of_reaches hb hquiet hrun
  have hindependent : (s.scene view).Independent rs := by
    intro r hr r' hr' hne q q' hq hq'
    refine ⟨fun hpage => hne (hs.unique hq hq' hpage), fun hqueue => ?_⟩
    have hsizes : (s.pages.get q.page).bytes.size = 4096 := hsize r hr q hq
    have hsizes' : (s.pages.get q'.page).bytes.size = 4096 := hsize r' hr' q' hq'
    have hapart := hblocks r hr r' hr' hne q q' hq hq' hqueue
    -- blocks that differ are eight sectors away from each other
    obtain ⟨slot, hslot⟩ := (htraced r q hq).slot
    obtain ⟨slot', hslot'⟩ := (htraced r' q' hq').slot
    have height := Area.eight_dvd_of_sector hslot
    have height' := Area.eight_dvd_of_sector hslot'
    show q.sector.toNat * 512 + (s.pages.get q.page).bytes.size ≤ q'.sector.toNat * 512 ∨
      q'.sector.toNat * 512 + (s.pages.get q'.page).bytes.size ≤ q.sector.toNat * 512
    omega
  obtain ⟨s₁, hfirst, hscene₁⟩ := finishAll_scene hview status rs hs
  obtain ⟨s₂, hsecond, hscene₂⟩ := finishAll_scene hview status rs' hs
  have hsame : s₁.scene view = s₂.scene view := by
    rw [hscene₁, hscene₂]
    exact Scene.completeAll_perm hperm hindependent
  have houtlook : view s₁.world = view s₂.world := congrArg Scene.outlook hsame
  exact ⟨s₁, s₂, hfirst, hsecond, congrFun (congrArg Scene.pages hsame),
    congrFun (congrArg Scene.devices hsame), congrFun (congrArg Scene.requests hsame),
    by rw [houtlook], by rw [houtlook], by rw [houtlook]⟩

/-- **A write and a read, finished in two orders**, with the notice that the slot of the read is
free. -/
theorem write_and_read_in_two_orders :
    Reaches notingDisk journalStart notingBoth ∧
    (notingBoth.requests.get 0).map (·.direction) = some .write ∧
    (notingBoth.requests.get 1).map (·.direction) = some .read ∧
    ∃ s₁ s₂,
      finishAll notingDisk [⟨0, some (.ok ())⟩, ⟨1, some (.ok ())⟩] notingBoth = .ok ((), s₁) ∧
      finishAll notingDisk [⟨1, some (.ok ())⟩, ⟨0, some (.ok ())⟩] notingBoth = .ok ((), s₂) ∧
      (∀ p, s₁.pages.get p = s₂.pages.get p) ∧ s₁.world.1.disk = s₂.world.1.disk ∧
      s₁.world.2.notices = s₂.world.2.notices := by
  have hup := @Call.run_after _ notingDisk (.swapOn (ramSpec (.device 0)) 8) journalStart
    (by decide +kernel)
  have hout := @Call.run_after _ notingDisk (.pageOut 0 {}) notingUp (by decide +kernel)
  have hin := @Call.run_after _ notingDisk (.pageIn 1 .background)
    ((Call.pageOut 0 {}).after notingDisk notingUp) (by decide +kernel)
  have hrun : Reaches notingDisk journalStart notingBoth :=
    .tail (.tail (.single (.call (c := .swapOn (ramSpec (.device 0)) 8) trivial hup))
      (.call (c := .pageOut 0 {}) ⟨by decide +kernel, by decide +kernel⟩ hout))
      (.call (c := .pageIn 1 .background)
        ⟨⟨by decide +kernel, by decide +kernel⟩, by decide +kernel⟩ hin)
  -- request 0 is for the block of slot 1, request 1 for that of slot 2
  have hrequest : ∀ r ∈ [0, 1], ∀ q, notingBoth.requests.get r = some q →
      (notingBoth.pages.get q.page).bytes.size = 4096 ∧ q.sector.toNat / 8 = r + 1 := by
    intro r hr q hq
    have hall : ∀ r ∈ [0, 1], (notingBoth.requests.get r).all (fun q =>
        (notingBoth.pages.get q.page).bytes.size = 4096 ∧ q.sector.toNat / 8 = r + 1) := by
      decide +kernel
    simpa [hq] using hall r hr
  have horders := completion_order_is_free notingDisk_lawful notingDisk_shows journalStart_quiet
    hrun (fun _ => .ok ()) (List.Perm.swap 1 0 []) (fun r hr q hq => (hrequest r hr q hq).1)
    (fun r hr r' hr' hne q q' hq hq' _ => by
      rw [(hrequest r hr q hq).2, (hrequest r' hr' q' hq').2]
      exact fun h => hne (Nat.succ.inj h))
  obtain ⟨s₁, s₂, h₁, h₂, hsame, -, -, hdisk, hfreed, -⟩ := horders
  exact ⟨hrun, by decide +kernel, by decide +kernel, s₁, s₂, h₁, h₂, hsame, hdisk, hfreed⟩

end PageSwap
