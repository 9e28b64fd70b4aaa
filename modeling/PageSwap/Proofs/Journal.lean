/-
# A journal of what collaborators were asked

What happened in a run -- which slots were dropped, which transfers were made and how they ended,
how often a slot was looked up, which drivers were told that a slot is free -- is no part of the
state of the swap path.  A journal is: it is read off the state of the collaborators, and every
operation of theirs adds its entry, with the answer given.

* `Entry`, `Backend.Journals` -- the entries, and what it means that they are all there.
* `Backend.Journals.noticed`, `Backend.Journals.finished` -- what a completion adds.
* `Backend.heardBy` -- any collaborators, with someone beside them who hears what they do, and
  `Backend.journaled` -- with one who keeps a journal of it.
* `journalDisk`, `journalUp`, `journalHanded` -- a disk in memory with a journal, brought up, and a
  page handed over to it.
-/
import PageSwap.Proofs.Agreement

namespace PageSwap

variable {σ κ : Type}

/-! ## 1. Entries -/

/-- Something that collaborators were asked, with their answer. -/
inductive Entry
  /-- A slot map was asked to drop the slot of a page. -/
  | freed (p : PageId) (answer : Bool)
  /-- The front store was offered a page. -/
  | stored (p : PageId) (answer : Bool)
  /-- The front store was asked for a page. -/
  | filled (p : PageId) (answer : Bool)
  /-- A driver was asked to transfer a page of this order without a request. -/
  | transferred (queue : QueueId) (direction : Direction) (p : PageId) (order : UInt32)
      (status : Status)
  /-- A driver was done with a request for a page of this order. -/
  | settled (queue : QueueId) (q : Request) (order : UInt32) (status : Status)
  /-- A file was asked to write so many bytes. -/
  | wrote (f : FileId) (length : UInt64) (result : Except Errno UInt64)
  /-- A file was asked to read so many bytes. -/
  | read (f : FileId) (length : UInt64) (result : Except Errno UInt64)
  /-- A slot map was asked how often a slot is referred to. -/
  | counted (m : SlotMapId) (offset : UInt64)
  /-- A driver was told that a slot is free. -/
  | told (queue : QueueId) (offset : UInt64)

/-- A use of the account of memory stalls. -/
inductive Stall
  /-- A stall began; the account answered this. -/
  | entered (cookie : UInt64)
  /-- A stall ended; the account was handed this. -/
  | left (cookie : UInt64)
  deriving DecidableEq

/-- **Every operation of the collaborators is in the journal**, and nothing else. -/
structure Backend.Journals (b : Backend σ) (journal : σ → List Entry) : Prop where
  tryFree : ∀ {m p page w answer page' w'},
    b.slotMaps.tryFree m p page w = ((answer, page'), w') →
      journal w' = journal w ++ [.freed p answer]
  store : ∀ {front p page w answer page' w'}, b.front = some front →
    front.store p page w = .ok ((answer, page'), w') → journal w' = journal w ++ [.stored p answer]
  fill : ∀ {front p pace page w answer page' w'}, b.front = some front →
    front.fill p pace page w = .ok ((answer, page'), w') →
      journal w' = journal w ++ [.filled p answer]
  transfer : ∀ {queue sector direction p page w status bytes w'},
    b.queues.transfer queue sector direction p page w = .ok ((status, bytes), w') →
      journal w' = journal w ++ [.transferred queue direction p page.order status]
  settle : ∀ {queue f q page w status bytes w'},
    b.queues.settle queue f q page w = .ok ((status, bytes), w') →
      journal w' = journal w ++ [.settled queue q page.order status]
  write : ∀ {f position bytes w result w'},
    b.files.write f position [bytes] w = (result, w') →
      journal w' = journal w ++ [.wrote f bytes.size.toUInt64 result]
  read : ∀ {f position bytes w result bytes' w'},
    b.files.read f position bytes w = ((result, bytes'), w') →
      journal w' = journal w ++ [.read f bytes.size.toUInt64 result]
  dirtied : ∀ {f p page w clean page' w'},
    b.files.dirtied f p page w = ((clean, page'), w') → journal w' = journal w
  count : ∀ m offset w, journal (b.slotMaps.count m offset w).2 = journal w ++ [.counted m offset]
  slotFreed : ∀ queue offset w,
    journal (b.queues.slotFreed queue offset w) = journal w ++ [.told queue offset]
  record : ∀ t w, journal (b.statistics.record t w) = journal w
  recordMany : ∀ t n w, journal (b.statistics.recordMany t n w) = journal w
  accumulate : ∀ n w, journal (b.statistics.accumulate n w) = journal w
  aside : ∀ {w w'}, Aside b w w' → journal w' = journal w

/-! ## 2. What completions add -/

/-- Somebody was asked about a slot of this area, or told of it: its slot map, or its device. -/
inductive Entry.About (area : Area) (devices : Table Device) : Entry → Prop
  | counted (offset : UInt64) : About area devices (.counted area.slotMap offset)
  | told {d : DeviceId} (hbacking : area.backing = .device d) (offset : UInt64) :
      About area devices (.told (devices.get d).queue offset)

namespace Backend.Journals

variable {b : Backend σ} {journal : σ → List Entry}

theorem countedOut (hj : b.Journals journal) (page : Page) (w : σ) :
    journal (b.countedOut page w) = journal w := by
  unfold Backend.countedOut
  rw [hj.recordMany]
  split
  · exact hj.record _ _
  · rfl

theorem countedIn (hj : b.Journals journal) (status : Status) (w : σ) :
    journal (b.countedIn status w) = journal w := by
  cases status with
  | ok u => exact hj.record _ _
  | error e => rfl

/-- Dealing with the slot of a page that was read concerns the page's area only. -/
theorem noticed (hj : b.Journals journal) (area : Area) (devices : Table Device)
    (slot : Option Slot) (w : σ) :
    ∃ news, journal (PageSwap.noticed b area devices slot w).2 = journal w ++ news ∧
      ∀ e ∈ news, e.About area devices := by
  unfold PageSwap.noticed
  split
  · rename_i slot d hbacking
    dsimp only
    split
    · split
      · refine ⟨[.counted area.slotMap slot.offset, .told (devices.get d).queue slot.offset],
          ?_, ?_⟩
        · rw [hj.slotFreed, hj.count, List.append_assoc]
          rfl
        · intro e he
          simp only [List.mem_cons, List.not_mem_nil, or_false] at he
          rcases he with rfl | rfl
          · exact .counted _
          · exact .told hbacking _
      · refine ⟨[.counted area.slotMap slot.offset], hj.count _ _ _, fun e he => ?_⟩
        obtain rfl := List.mem_singleton.mp he
        exact .counted _
    · exact ⟨[], by rw [List.append_nil], fun _ he => absurd he List.not_mem_nil⟩
  · exact ⟨[], by rw [List.append_nil], fun _ he => absurd he List.not_mem_nil⟩

/-- **What a completion adds**: the end of its transfer, and what concerns the slot of its page. -/
theorem finished (hj : b.Journals journal) {s : System σ} {f : Finish} {q : Request}
    {status : Status} {bytes : Bytes} {w : σ}
    (hsettle : b.queues.settle (s.devices.get q.device).queue f q (s.pages.get q.page) s.world =
      .ok ((status, bytes), w)) :
    ∃ news, journal (s.finished b f.request q status bytes w).world = journal s.world ++
        .settled (s.devices.get q.device).queue q (s.pages.get q.page).order status :: news ∧
      ∀ e ∈ news, e.About q.area s.devices := by
  have hnews : ∃ news, journal (noticedBy b s q status w).2 = journal w ++ news ∧
      ∀ e ∈ news, e.About q.area s.devices := by
    unfold noticedBy
    split
    · exact hj.noticed _ _ _ _
    · exact ⟨[], by rw [List.append_nil], fun _ he => absurd he List.not_mem_nil⟩
  obtain ⟨news, hjournal, habout⟩ := hnews
  refine ⟨news, ?_, habout⟩
  show journal (noticedBy b s q status w).2 = _
  rw [hjournal, hj.settle hsettle, List.append_assoc]
  rfl

end Backend.Journals

/-! ## 3. Keeping a journal -/

/-- **Someone beside the collaborators**, who hears what they do and has no say in it. -/
structure Listener (κ : Type) where
  /-- They were asked something, and gave an answer. -/
  entry : Entry → κ → κ
  /-- Something was counted so many times. -/
  tally : Tally → UInt64 → κ → κ
  /-- So many cycles were spent in the front store. -/
  latency : UInt64 → κ → κ
  /-- The account of memory stalls was used. -/
  stall : Stall → κ → κ

/-- Someone who does not listen. -/
def Listener.deaf : Listener κ := ⟨fun _ => id, fun _ _ => id, fun _ => id, fun _ => id⟩

/-- An operation, with something beside it that it leaves alone. -/
def Run.beside {α : Type} (m : Run σ α) : Run (σ × κ) α := fun s =>
  (m { s with world := s.world.1 }).map fun out =>
    (out.1, { out.2 with world := (out.2.world, s.world.2) })

/-- A step of a collaborator, with something beside it that it leaves alone. -/
def passing {α : Type} (f : σ → α × σ) (w : σ × κ) : α × (σ × κ) :=
  ((f w.1).1, (f w.1).2, w.2)

/-- A step of a collaborator that is noted. -/
def noting {α : Type} (note : α → κ → κ) (f : σ → α × σ) (w : σ × κ) : α × (σ × κ) :=
  ((f w.1).1, (f w.1).2, note (f w.1).1 w.2)

/-- A step of a collaborator that is noted and may fault. -/
def tryNoting {α : Type} (note : α → κ → κ) (f : σ → Except Fault (α × σ)) (w : σ × κ) :
    Except Fault (α × (σ × κ)) :=
  (f w.1).map fun out => (out.1, out.2, note out.1 w.2)

/-- **Collaborators with a listener beside them.** -/
def Backend.heardBy (b : Backend σ) (l : Listener κ) : Backend (σ × κ) where
  queues :=
    { maxPages := fun queue w => b.queues.maxPages queue w.1
      depth := fun queue w => b.queues.depth queue w.1
      wantsFreed := fun queue w => b.queues.wantsFreed queue w.1
      synchronous := fun queue w => b.queues.synchronous queue w.1
      submit := fun queue r q d page => passing (b.queues.submit queue r q d page)
      poll := fun queue cookie spin => passing (b.queues.poll queue cookie spin)
      settle := fun queue f q page =>
        tryNoting (fun out => l.entry (.settled queue q page.order out.1))
          (b.queues.settle queue f q page)
      transfer := fun queue sector direction p page =>
        tryNoting (fun out => l.entry (.transferred queue direction p page.order out.1))
          (b.queues.transfer queue sector direction p page)
      slotFreed := fun queue offset w =>
        (b.queues.slotFreed queue offset w.1, l.entry (.told queue offset) w.2) }
  files :=
    { blockMap := fun f w => b.files.blockMap f w.1
      read := fun f position bytes =>
        noting (fun out => l.entry (.read f bytes.size.toUInt64 out.1))
          (b.files.read f position bytes)
      write := fun f position pieces =>
        let length := pieces.foldr (fun piece length => piece.size + length) 0
        noting (fun result => l.entry (.wrote f length.toUInt64 result))
          (b.files.write f position pieces)
      dirtied := fun f p page => passing (b.files.dirtied f p page) }
  slotMaps :=
    { count := fun m offset =>
        noting (fun _ => l.entry (.counted m offset)) (b.slotMaps.count m offset)
      tryFree := fun m p page =>
        noting (fun out => l.entry (.freed p out.1)) (b.slotMaps.tryFree m p page) }
  front := b.front.map fun front =>
    { store := fun p page => tryNoting (fun out => l.entry (.stored p out.1)) (front.store p page)
      load := fun p page => tryNoting (fun out => l.entry (.filled p out.1)) (front.load p page)
      loadLater := fun p page =>
        tryNoting (fun out => l.entry (.filled p out.1)) (front.loadLater p page) }
  statistics :=
    { record := fun t w => (b.statistics.record t w.1, l.tally t 1 w.2)
      recordMany := fun t n w => (b.statistics.recordMany t n w.1, l.tally t n w.2)
      accumulate := fun n w => (b.statistics.accumulate n w.1, l.latency n w.2)
      cycles := passing b.statistics.cycles }
  stalls :=
    { enter := noting (fun cookie => l.stall (.entered cookie)) b.stalls.enter
      leave := fun cookie w => (b.stalls.leave cookie w.1, l.stall (.left cookie) w.2) }
  relax := fun w => (((b.relax w.1).1.map passing), (b.relax w.1).2, w.2)
  ending := fun tag r => (b.ending tag r).beside
  patience := b.patience

/-- A noted step that does not fault. -/
theorem tryNoting_eq_ok {α : Type} {note : α → κ → κ} {f : σ → Except Fault (α × σ)}
    {w w' : σ × κ} {a : α} (h : tryNoting note f w = .ok (a, w')) :
    f w.1 = .ok (a, w'.1) ∧ w'.2 = note a w.2 := by
  unfold tryNoting at h
  cases hf : f w.1 with
  | error e => rw [hf] at h; exact absurd h nofun
  | ok out =>
    rw [hf] at h
    injection h with h
    injection h with ha hw
    subst ha hw
    exact ⟨rfl, rfl⟩

/-- A noted step faults as the step does. -/
theorem tryNoting_eq_error {α : Type} {note : α → κ → κ} {f : σ → Except Fault (α × σ)}
    {w : σ × κ} {e : Fault} (h : tryNoting note f w = .error e) : f w.1 = .error e := by
  unfold tryNoting at h
  cases hf : f w.1 with
  | error e' => rw [hf] at h; injection h with h; rw [h]
  | ok out => rw [hf] at h; exact absurd h nofun

/-- A noted step. -/
theorem noting_eq {α : Type} {note : α → κ → κ} {f : σ → α × σ} {w w' : σ × κ} {a : α}
    (h : noting note f w = (a, w')) : f w.1 = (a, w'.1) ∧ w'.2 = note a w.2 := by
  injection h with ha hw
  subst ha hw
  exact ⟨rfl, rfl⟩

section

variable {b : Backend σ} {l : Listener κ} {w w' : σ × κ}

theorem heardBy_tryFree {m : SlotMapId} {p : PageId} {page : Page} {out : Bool × Page}
    (h : (b.heardBy l).slotMaps.tryFree m p page w = (out, w')) :
    b.slotMaps.tryFree m p page w.1 = (out, w'.1) ∧ w'.2 = l.entry (.freed p out.1) w.2 :=
  @noting_eq σ κ (Bool × Page) (fun out => l.entry (.freed p out.1))
    (b.slotMaps.tryFree m p page) w w' out h

theorem heardBy_read {f : FileId} {position : UInt64} {bytes : Bytes}
    {out : Except Errno UInt64 × Bytes}
    (h : (b.heardBy l).files.read f position bytes w = (out, w')) :
    w'.2 = l.entry (.read f bytes.size.toUInt64 out.1) w.2 :=
  (@noting_eq σ κ (Except Errno UInt64 × Bytes)
    (fun out => l.entry (.read f bytes.size.toUInt64 out.1)) (b.files.read f position bytes)
    w w' out h).2

theorem heardBy_dirtied {f : FileId} {p : PageId} {page : Page} {out : Bool × Page}
    (h : (b.heardBy l).files.dirtied f p page w = (out, w')) :
    b.files.dirtied f p page w.1 = (out, w'.1) ∧ w'.2 = w.2 := by
  injection h with hout hw
  subst hout hw
  exact ⟨rfl, rfl⟩

theorem heardBy_transfer (queue : QueueId) (sector : UInt64) (direction : Direction) (p : PageId)
    (page : Page) (w : σ × κ) :
    (b.heardBy l).queues.transfer queue sector direction p page w =
      tryNoting (fun out => l.entry (.transferred queue direction p page.order out.1))
        (b.queues.transfer queue sector direction p page) w := rfl

theorem heardBy_settle (queue : QueueId) (f : Finish) (q : Request) (page : Page) (w : σ × κ) :
    (b.heardBy l).queues.settle queue f q page w =
      tryNoting (fun out => l.entry (.settled queue q page.order out.1))
        (b.queues.settle queue f q page) w := rfl

/-- The front store that is heard. -/
theorem front_heardBy {front : FrontStore (σ × κ)} (h : (b.heardBy l).front = some front) :
    ∃ inner, b.front = some inner ∧
      (∀ p page, front.store p page =
        tryNoting (fun out => l.entry (.stored p out.1)) (inner.store p page)) ∧
      ∀ p pace page, front.fill p pace page =
        tryNoting (fun out => l.entry (.filled p out.1)) (inner.fill p pace page) := by
  obtain ⟨inner, hinner, rfl⟩ := Option.map_eq_some_iff.mp h
  refine ⟨inner, hinner, fun _ _ => rfl, fun p pace page => ?_⟩
  cases pace <;> rfl

end

/-- **Collaborators are lawful with a listener beside them.** -/
theorem Lawful.heardBy {b : Backend σ} (hb : Lawful b) (l : Listener κ) :
    Lawful (b.heardBy l) where
  tryFree := fun h => hb.tryFree (heardBy_tryFree h).1
  dirtied := fun h => hb.dirtied (heardBy_dirtied h).1
  store := fun hfront h => by
    obtain ⟨inner, hinner, hstore, -⟩ := front_heardBy hfront
    rw [hstore] at h
    exact hb.store hinner (tryNoting_eq_ok h).1
  fill := fun hfront h => by
    obtain ⟨inner, hinner, -, hfill⟩ := front_heardBy hfront
    rw [hfill] at h
    exact hb.fill hinner (tryNoting_eq_ok h).1
  blockBits := fun f w => hb.blockBits f w.1
  settleFault := fun h => by
    rw [heardBy_settle] at h
    exact hb.settleFault (tryNoting_eq_error h)
  transferFault := fun h => by
    rw [heardBy_transfer] at h
    exact hb.transferFault (tryNoting_eq_error h)
  storeFault := fun hfront h => by
    obtain ⟨inner, hinner, hstore, -⟩ := front_heardBy hfront
    rw [hstore] at h
    exact hb.storeFault hinner (tryNoting_eq_error h)
  fillFault := fun hfront h => by
    obtain ⟨inner, hinner, -, hfill⟩ := front_heardBy hfront
    rw [hfill] at h
    exact hb.fillFault hinner (tryNoting_eq_error h)

/-- A journal, the counters, and the uses of the account of memory stalls. -/
structure Journal where
  entries : List Entry := []
  counters : Counters := {}
  stalls : List Stall := []

/-- One entry more. -/
def Journal.note (e : Entry) (j : Journal) : Journal := { j with entries := j.entries ++ [e] }

/-- The keeper of a journal. -/
def Journal.keeper : Listener Journal where
  entry := Journal.note
  tally := fun t n j => { j with counters := j.counters.add t n }
  latency := fun n j => { j with counters := j.counters.addLatency n }
  stall := fun x j => { j with stalls := j.stalls ++ [x] }

/-- Collaborators with a keeper of a journal beside them. -/
def Backend.journaled (b : Backend σ) : Backend (σ × Journal) := b.heardBy Journal.keeper

/-- What collaborators do in passing is no entry, and is not counted. -/
theorem Aside.journaled {b : Backend σ} {w w' : σ × Journal} (h : Aside b.journaled w w') :
    w'.2.entries = w.2.entries ∧ w'.2.counters = w.2.counters := by
  cases h with
  | turn h =>
    obtain ⟨turn, -, rfl⟩ := List.mem_map.mp h
    exact ⟨rfl, rfl⟩
  | _ => exact ⟨rfl, rfl⟩

/-- **The keeper keeps the journal.** -/
theorem journaled_journals (b : Backend σ) : b.journaled.Journals (·.2.entries) where
  tryFree := fun h => congrArg Journal.entries (heardBy_tryFree h).2
  store := fun hfront h => by
    obtain ⟨inner, -, hstore, -⟩ := front_heardBy hfront
    rw [hstore] at h
    exact congrArg Journal.entries (tryNoting_eq_ok h).2
  fill := fun hfront h => by
    obtain ⟨inner, -, -, hfill⟩ := front_heardBy hfront
    rw [hfill] at h
    exact congrArg Journal.entries (tryNoting_eq_ok h).2
  transfer := fun h => by
    rw [Backend.journaled, heardBy_transfer] at h
    exact congrArg Journal.entries (tryNoting_eq_ok h).2
  settle := fun h => by
    rw [Backend.journaled, heardBy_settle] at h
    exact congrArg Journal.entries (tryNoting_eq_ok h).2
  write := fun h => by
    injection h with hresult hw
    subst hresult hw
    rfl
  read := fun h => congrArg Journal.entries (heardBy_read h)
  dirtied := fun h => congrArg Journal.entries (heardBy_dirtied h).2
  count := fun _ _ _ => rfl
  slotFreed := fun _ _ _ => rfl
  record := fun _ _ => rfl
  recordMany := fun _ _ _ => rfl
  accumulate := fun _ _ => rfl
  aside := fun h => h.journaled.1

/-! ## 4. A journaled disk -/

/-- A disk in memory, with a journal. -/
def journalDisk : Backend (RamDisk × Journal) := (ramDisk false).journaled

theorem journalDisk_journals : journalDisk.Journals (·.2.entries) := journaled_journals _

theorem journalDisk_lawful : Lawful journalDisk := (ramDisk_lawful false).heardBy _

/-- A device that takes two requests; page 0 belongs to slot 1 and holds sevens, page 1 belongs to
slot 2. -/
def journalStart : System (RamDisk × Journal) :=
  let written : Page :=
    { flags.locked := true, flags.dirty := true, slot := some ⟨1⟩, bytes := Bytes.fill 4096 7 }
  let read : Page := { flags.locked := true, slot := some ⟨2⟩, bytes := Bytes.fill 4096 0 }
  { pages := ⟨#[written, read]⟩
    devices := ⟨#[{ number := 0, sectors := 256, queue := 0, depth := 2 }]⟩
    world := ({ file := { size := 32768 } }, {}) }

theorem journalStart_quiet : journalStart.Quiet :=
  ⟨fun _ => rfl, fun p => by rcases p with _ | _ | p <;> rfl,
    fun d => by rcases d with _ | d <;> rfl⟩

/-- An area of eight pages is brought up. -/
def journalUp : System (RamDisk × Journal) :=
  (Call.swapOn (ramSpec (.device 0)) 8).after journalDisk journalStart

/-- Page 0 has been handed over to the device. -/
def journalHanded : System (RamDisk × Journal) := (Call.pageOut 0 {}).after journalDisk journalUp

/-- The request for page 0 has failed. -/
def journalFailed : System (RamDisk × Journal) :=
  (Call.finish ⟨0, some (.error Errno.io)⟩).after journalDisk journalHanded

theorem pageOut_journalUp :
    (Call.pageOut 0 {}).run journalDisk journalUp = .ok (.ok (), journalHanded) :=
  Call.run_after (by decide +kernel)

theorem reaches_journalUp : Reaches journalDisk journalStart journalUp :=
  .single (.call (c := .swapOn (ramSpec (.device 0)) 8) trivial
    (Call.run_after (by decide +kernel)))

end PageSwap
