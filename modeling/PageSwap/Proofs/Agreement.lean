/-
# Any run keeps requests, tags and pages in step

Callers bring areas up and down, write pages out, read pages in, and edit pages; requests are
finished inside these calls or between them, in any order and with any status.  Nothing is assumed
of a caller but that it enters a transfer with a page that is locked and has none, and does not
unlock a page that is being read.

* `Call`, `Step`, `Reaches` -- calls, the steps of a run, and runs.
* `Call.Begun`, `Call.run_begun` -- what a call does first; after that there are only completions
  and bookkeeping.
* `coherent_of_reaches` -- what a run started from a quiet state reaches is coherent.
* `requests_tags_and_pages_agree` -- what that means, spelled out, and that no assertion fails.
-/
import PageSwap.Proofs.Coherence
import PageSwap.Proofs.Disks

namespace PageSwap

variable {σ : Type}

/-! ## 1. Calls -/

/-- What a caller or a driver may set going. -/
inductive Call
  /-- Bring an area up. -/
  | swapOn (spec : AreaSpec) (limit : UInt64)
  /-- The first half of bringing an area up. -/
  | activate (spec : AreaSpec) (limit : UInt64)
  /-- The second half. -/
  | register (area : Area)
  /-- Take an area down. -/
  | swapOff (number : UInt32)
  /-- Write a page out. -/
  | pageOut (p : PageId) (w : Writeback)
  /-- Write a page to its slot, with the ending of writes. -/
  | pageOutPast (p : PageId) (w : Writeback)
  /-- Read a page in. -/
  | pageIn (p : PageId) (pace : Pace)
  /-- Finish a request. -/
  | finish (f : Finish)

/-- A refusal or not, as a status. -/
def refusalStatus {α : Type} : Except Refusal α → Status
  | .ok _ => .ok ()
  | .error why => .error why.errno

namespace Call

/-- The operation of a call, and its answer. -/
def run (b : Backend σ) : Call → Run σ Status
  | .swapOn spec limit => return refusalStatus (← PageSwap.swapOn b spec limit)
  | .activate spec limit => return refusalStatus (← PageSwap.activate b spec limit)
  | .register area => return refusalStatus (← PageSwap.register area)
  | .swapOff number => return refusalStatus (← PageSwap.swapOff number)
  | .pageOut p w => PageSwap.pageOut b p w
  | .pageOutPast p w => PageSwap.pageOutPast b p w .write
  | .pageIn p pace => PageSwap.pageIn b p pace
  | .finish f => do
    PageSwap.finish b f
    return .ok ()

/-- The state after a call that does not fault. -/
def after (b : Backend σ) (c : Call) (s : System σ) : System σ :=
  match c.run b s with
  | .ok (_, s') => s'
  | .error _ => s

/-- The call is accepted. -/
def accepted (b : Backend σ) (c : Call) (s : System σ) : Bool :=
  match c.run b s with
  | .ok (.ok (), _) => true
  | _ => false

theorem run_after {b : Backend σ} {c : Call} {s : System σ} (h : c.accepted b s = true) :
    c.run b s = .ok (.ok (), c.after b s) := by
  unfold accepted at h
  unfold after
  split at h
  · rename_i s' hrun
    rw [hrun]
  · exact absurd h nofun

/-- The error that the call answers. -/
def refused? (b : Backend σ) (c : Call) (s : System σ) : Option Errno :=
  match c.run b s with
  | .ok (.error e, _) => some e
  | _ => none

theorem run_refused {b : Backend σ} {c : Call} {s : System σ} {e : Errno}
    (h : c.refused? b s = some e) : c.run b s = .ok (.error e, c.after b s) := by
  unfold refused? at h
  unfold after
  split at h
  · rename_i s' hrun
    rw [hrun, Option.some.inj h]
  · exact absurd h nofun

/-- The page that a call is about. -/
def page? : Call → Option PageId
  | .pageOut p _ | .pageOutPast p _ | .pageIn p _ => some p
  | _ => none

/-- The call brings areas up or down. -/
def onAreas : Call → Bool
  | .swapOn _ _ | .activate _ _ | .register _ | .swapOff _ => true
  | _ => false

theorem page?_of_onAreas {c : Call} (h : c.onAreas = true) : c.page? = none := by
  cases c <;> first | rfl | exact absurd h nofun

/-- A transfer is entered with a page that is locked and has none; a read, with one that holds no
valid content. -/
def Allowed (s : System σ) : Call → Prop
  | .pageOut p _ => (s.pages.get p).Held
  | .pageOutPast p _ => (s.pages.get p).Held
  | .pageIn p _ => (s.pages.get p).Held ∧ (s.pages.get p).flags.uptodate = false
  | _ => True

end Call

/-! ## 2. Runs -/

/-- One step of a run. -/
inductive Step (b : Backend σ) : System σ → System σ → Prop
  /-- A call, as it is allowed. -/
  | call {c : Call} {s s' : System σ} {status : Status} (hallowed : c.Allowed s)
      (hrun : c.run b s = .ok (status, s')) : Step b s s'
  /-- A caller changes a page, or makes one.  It leaves its transfer alone and does not unlock a
  page that is being read. -/
  | edit {s : System σ} {p : PageId} {page : Page}
      (htransfer : page.transfer = (s.pages.get p).transfer)
      (hlocked : (s.pages.get p).transfer = .reading → (s.pages.get p).flags.locked = true →
        page.flags.locked = true) :
      Step b s { s with pages := s.pages.set p page }
  /-- A device appears. -/
  | attach {s : System σ} {d : Device} (hnew : d.inflight = 0) :
      Step b s { s with devices := s.devices.set s.devices.fresh d }
  /-- Collaborators go on by themselves. -/
  | elsewhere {s : System σ} (w : σ) : Step b s { s with world := w }

/-- A run, of any length. -/
abbrev Reaches (b : Backend σ) : System σ → System σ → Prop := Relation.ReflTransGen (Step b)

/-- Nothing is going on: no request, no transfer, no tag in use. -/
structure System.Quiet (s : System σ) : Prop where
  requests : ∀ r, s.requests.get r = none
  pages : ∀ p, (s.pages.get p).transfer = .idle
  devices : ∀ d, (s.devices.get d).inflight = 0

theorem System.Quiet.coherent {s : System σ} (h : s.Quiet) : s.Coherent where
  ending := fun hq => absurd ((h.requests _).symm.trans hq) nofun
  unique := fun hq => absurd ((h.requests _).symm.trans hq) nofun
  transfer := fun hq => absurd ((h.requests _).symm.trans hq) nofun
  locked := fun hq => absurd ((h.requests _).symm.trans hq) nofun
  idle := fun _ => h.pages _
  tags := by
    intro d
    have hnone : live s.requests d = ∅ := by
      refine Finset.eq_empty_of_forall_notMem fun r hr => ?_
      obtain ⟨q, hq, -⟩ := mem_live.mp hr
      exact absurd ((h.requests r).symm.trans hq) nofun
    rw [h.devices d, hnone, Finset.card_empty]
  depth := by
    intro d
    rw [h.devices d]
    exact Nat.zero_le _

theorem System.Coherent.since {s : System σ} (h : s.Coherent) : s.CoherentSince s.devices :=
  ⟨h, Nat.le_refl _, fun _ _ => rfl⟩

section

variable {b : Backend σ} {t : Table Device} {s s' : System σ}

/-- Blocks of a lawful swap file are no larger than a page. -/
theorem Lawful.no_blockSize (hb : Lawful b) {spec : AreaSpec} {map : BlockMap}
    (hmap : groundOf b spec s = .blocks map) (hbits : pageBits < map.blockBits) : False := by
  unfold groundOf at hmap
  split at hmap
  · exact absurd hmap nofun
  · rename_i f d hback
    injection hmap with hmap
    have hle := hb.blockBits f s.world
    rw [hmap] at hle
    exact absurd hbits (UInt32.not_lt.mpr hle)
  · exact absurd hmap nofun

/-- **What a call does first**: the step of its page, if it is about one, or areas come and go. -/
inductive Call.Begun (b : Backend σ) (s : System σ) : Call → Status → System σ → Prop
  | areas {c : Call} {status : Status} {registry : Table (Option Area)} {console : Console}
      (hc : c.page? = none) : Begun b s c status { s with registry, console }
  | out {p : PageId} {w : Writeback} {status : Status} {s' : System σ}
      (h : PageWrite b p w s status s') : Begun b s (.pageOut p w) status s'
  | lost {p : PageId} {w : Writeback} (harea : s.areaAt p = none) :
      Begun b s (.pageOutPast p w) (.error Refusal.noSlot.errno)
        { s with pages := s.pages.set p (s.pages.get p).spilled }
  | past {p : PageId} {w : Writeback} {area : Area} {status : Status} {s' : System σ}
      (harea : s.areaAt p = some area) (h : SlotWrite b area p w .write s status s') :
      Begun b s (.pageOutPast p w) status s'
  | read {p : PageId} {pace : Pace} {status : Status} {s' : System σ}
      (h : PageRead b p pace s status s') : Begun b s (.pageIn p pace) status s'

/-- **A call that brings areas up or down** changes the registry and the console only. -/
theorem Call.areas_wp {post : Status → System σ → Prop} {stop : Fault → Prop} {c : Call}
    (hc : c.onAreas = true) (hsum : stop (.overflow .add))
    (hblock : ∀ spec map, groundOf b spec s = .blocks map → pageBits < map.blockBits →
      stop .blockSize)
    (hpost : ∀ status registry console, post status { s with registry, console }) :
    (c.run b).wp post stop s := by
  cases c with
  | swapOn spec limit =>
    unfold Call.run
    rw [Run.wp_bind]
    exact swapOn_wp hsum (hblock spec) (fun _ _ => hpost _ _ _) fun _ _ _ _ => hpost _ _ _
  | activate spec limit =>
    unfold Call.run
    rw [Run.wp_bind]
    exact activate_wp hsum (hblock spec) (fun _ _ => hpost _ _ _) fun _ _ _ _ => hpost _ _ _
  | register area =>
    unfold Call.run PageSwap.register
    simp only [Run.wp_bind, Run.wp_get]
    cases s.area? area.number with
    | none => exact hpost _ _ _
    | some area' => exact hpost _ _ _
  | swapOff number =>
    unfold Call.run PageSwap.swapOff
    simp only [Run.wp_bind, Run.wp_get]
    cases s.area? number with
    | none => exact hpost _ _ _
    | some area => exact hpost _ _ _
  | pageOut p w => exact absurd hc Bool.false_ne_true
  | pageOutPast p w => exact absurd hc Bool.false_ne_true
  | pageIn p pace => exact absurd hc Bool.false_ne_true
  | finish f => exact absurd hc Bool.false_ne_true

/-- **A call is its first step, and what lasts**; none of its assertions fails. -/
theorem Call.run_begun (hb : Lawful b) {I : Status → System σ → Prop}
    (hI : ∀ status, Lasting b (¬ ·.Assertion) (I status)) {c : Call} (hallowed : c.Allowed s)
    (hmain : ∀ status s', Call.Begun b s c status s' → I status s') :
    (c.run b).wp I (¬ ·.Assertion) s := by
  have hareas : c.onAreas = true → (c.run b).wp I (¬ ·.Assertion) s := fun hc =>
    Call.areas_wp hc id (fun _ _ hmap hbits => (hb.no_blockSize hmap hbits).elim)
      fun _ _ _ => hmain _ _ (.areas (Call.page?_of_onAreas hc))
  cases c with
  | swapOn spec limit => exact hareas rfl
  | activate spec limit => exact hareas rfl
  | register area => exact hareas rfl
  | swapOff number => exact hareas rfl
  | pageOut p w =>
    exact pageOut_wp hI hb.minds (fun _ _ => .of_stop id) hallowed (fun _ _ _ _ _ => hb.keepsShort)
      fun status s' hstep => hmain status s' (.out hstep)
  | pageOutPast p w =>
    exact pageOutPast_wp hI (fun _ _ => .of_stop id) hallowed (fun _ _ _ _ => hb.keepsShort)
      (fun harea => hmain _ _ (.lost harea))
      fun area status s' harea hstep => hmain status s' (.past harea hstep)
  | pageIn p pace =>
    exact pageIn_wp hI hb.mindsReads (fun _ _ => .of_stop id) (fun _ => id) hallowed.1 hallowed.2
      fun status s' hstep => hmain status s' (.read hstep)
  | finish f =>
    unfold Call.run
    rw [Run.wp_bind]
    exact Run.wp_mono ((hI (.ok ())).finish f (hmain _ _ (.areas rfl))) (fun _ _ h' => h'.1)
      fun _ hf => hf

theorem Call.Begun.coherent (hb : Lawful b) {c : Call} {status : Status}
    (hbegun : Call.Begun b s c status s') (h : s.CoherentSince t) (hallowed : c.Allowed s) :
    s'.CoherentSince t := by
  cases hbegun with
  | areas => exact ⟨h.coherent, h.fresh, h.depth⟩
  | out hstep => exact hstep.coherent hb h hallowed
  | lost => exact h.of_pages (h.coherent.edit_idle hallowed.2 hallowed.2)
  | past _ hstep => exact hstep.coherent h hallowed.2
  | read hstep => exact hstep.coherent hb h hallowed.1

/-- **A call keeps the tables coherent, and none of its assertions fails.** -/
theorem Call.run_wp (hb : Lawful b) (h : s.CoherentSince t) {c : Call} (hallowed : c.Allowed s) :
    (c.run b).wp (fun _ s' => s'.CoherentSince t) (¬ ·.Assertion) s :=
  Call.run_begun hb (fun _ => lasting_coherent hb t) hallowed
    fun _ _ hbegun => hbegun.coherent hb h hallowed

/-- A step keeps the tables coherent. -/
theorem Step.coherent (hb : Lawful b) (hstep : Step b s s') (h : s.CoherentSince t) :
    s'.CoherentSince t := by
  cases hstep with
  | call hallowed hrun => exact (Call.run_wp hb h hallowed).of_ok hrun
  | edit htransfer hlocked => exact h.of_pages (h.coherent.edit htransfer hlocked)
  | elsewhere w => exact ⟨h.coherent, h.fresh, h.depth⟩
  | attach hnew =>
    have hfresh : s.devices.get s.devices.fresh = default :=
      Table.get_of_fresh_le _ (Nat.le_refl _)
    -- a device that was not there had no requests
    have hcard := h.coherent.tags s.devices.fresh
    rw [hfresh] at hcard
    refine ⟨⟨h.coherent.ending, h.coherent.unique, h.coherent.transfer, h.coherent.locked,
      h.coherent.idle, fun d => ?_, fun d => ?_⟩,
      Nat.le_trans h.fresh (Table.fresh_le_fresh_set _ _ _), fun d hd => ?_⟩
    · rw [Table.get_set]
      split
      · rename_i he
        rw [hnew, he, ← hcard]
        rfl
      · exact h.coherent.tags d
    · rw [Table.get_set]
      split
      · rw [hnew]
        exact Nat.zero_le _
      · exact h.coherent.depth d
    · have hne : d ≠ s.devices.fresh := Nat.ne_of_lt (Nat.lt_of_lt_of_le hd h.fresh)
      show ((s.devices.set _ _).get d).depth = _
      rw [Table.get_set_ne _ _ hne]
      exact h.depth d hd

/-- **A run keeps the tables coherent.** -/
theorem coherentSince_of_reaches (hb : Lawful b) (hrun : Reaches b s s') (h : s.CoherentSince t) :
    s'.CoherentSince t := by
  induction hrun with
  | refl => exact h
  | tail _ hstep ih => exact hstep.coherent hb ih

/-- **Every state a run reaches from a quiet one is coherent.** -/
theorem coherent_of_reaches (hb : Lawful b) (hquiet : s.Quiet) (hrun : Reaches b s s') :
    s'.Coherent :=
  (coherentSince_of_reaches hb hrun hquiet.coherent.since).coherent

end

/-! ## 3. What agrees -/

/-- **Requests, tags and pages agree** in every state `s` that a run reaches from a quiet one:

* the tags in use on a device are the requests that exist on it, and never more than the device
  has taken since it appeared -- it was there in the earlier state `s₁`, say;
* a page has one request at most, it is being written exactly if that request is a write, being
  read exactly if it is a read -- and then it is locked -- and has no transfer exactly if there is
  no request;
* no call that is allowed in `s` fails an assertion. -/
theorem requests_tags_and_pages_agree {b : Backend σ} (hb : Lawful b) {s₀ s₁ s : System σ}
    (hquiet : s₀.Quiet) (hbefore : Reaches b s₀ s₁) (hrun : Reaches b s₁ s) :
    (∀ d, (s.devices.get d).inflight = (live s.requests d).card ∧
      (s.devices.get d).inflight ≤ (s.devices.get d).depth ∧
      (d < s₁.devices.fresh → (s.devices.get d).depth = (s₁.devices.get d).depth)) ∧
    (∀ p, (∀ r r' q q', s.requests.get r = some q → s.requests.get r' = some q' → q.page = p →
        q'.page = p → r = r') ∧
      ((s.pages.get p).transfer = .writing ↔
        ∃ r q, s.requests.get r = some q ∧ q.page = p ∧ q.direction = .write) ∧
      ((s.pages.get p).transfer = .reading ↔
        ∃ r q, s.requests.get r = some q ∧ q.page = p ∧ q.direction = .read) ∧
      ((s.pages.get p).transfer = .reading → (s.pages.get p).flags.locked = true) ∧
      ((s.pages.get p).transfer = .idle ↔ ¬ ∃ r q, s.requests.get r = some q ∧ q.page = p)) ∧
    ∀ c : Call, c.Allowed s → ∀ f, c.run b s = .error f → ¬ f.Assertion := by
  have h₁ : s₁.Coherent := coherent_of_reaches hb hquiet hbefore
  have hsince : s.CoherentSince s₁.devices := coherentSince_of_reaches hb hrun h₁.since
  have h : s.Coherent := hsince.coherent
  refine ⟨fun d => ⟨h.tags d, h.depth d, hsince.depth d⟩, fun p => ⟨?_, h.transfer_iff p .write,
    h.transfer_iff p .read, ?_, ?_⟩, fun c hallowed f hf => ?_⟩
  · rintro r r' q q' hq hq' rfl hp
    exact h.unique hq hq' hp.symm
  · intro hreading
    obtain ⟨r, q, hq, rfl, hread⟩ := (h.transfer_iff p .read).mp hreading
    exact h.locked hq hread
  · constructor
    · rintro hidle ⟨r, q, hq, hp⟩
      exact h.no_request hidle r q hq hp
    · intro hno
      exact h.idle fun r q hq hp => hno ⟨r, q, hq, hp⟩
  · exact (Call.run_wp hb hsince hallowed).of_error hf

theorem ramDisk_lawful (steady : Bool) : Lawful (ramDisk steady) :=
  Lawful.of_no_front rfl (fun _ _ _ _ => ⟨rfl, rfl⟩) (fun _ _ _ _ => ⟨rfl, rfl⟩)
    (fun _ _ => UInt32.le_refl _) (fun _ _ _ _ _ => ⟨_, rfl⟩) fun _ _ _ _ _ _ => ⟨_, rfl⟩

/-- A device is brought up, a page gets a slot of it, is filled and written out: **the one tag in
use is that of the write.** -/
theorem one_tag_while_writing :
    ∃ s, Reaches (ramDisk false) (ramUp false (.device 0)) s ∧ (s.devices.get 0).inflight = 1 ∧
      (live s.requests 0).card = 1 ∧
      ∃ r q, s.requests.get r = some q ∧ q.page = 0 ∧ q.direction = .write := by
  have hquiet : ramStart.Quiet :=
    ⟨fun _ => rfl, fun _ => rfl, fun d => by rcases d with _ | d <;> rfl⟩
  have hup : Reaches (ramDisk false) ramStart (ramUp false (.device 0)) :=
    .single (.call (c := .swapOn (ramSpec (.device 0)) 8) trivial rfl)
  have hfilled : Reaches (ramDisk false) (ramUp false (.device 0)) (ramFilled false (.device 0)) :=
    .tail (b := ramTaken false (.device 0)) (.single (.edit (p := 0) rfl nofun))
      (.edit (p := 0) rfl fun _ _ => rfl)
  have hout := @Call.run_after _ (ramDisk false) (.pageOut 0 {}) (ramFilled false (.device 0))
    (by decide +kernel)
  have hrun := hfilled.tail (.call (c := .pageOut 0 {}) ⟨rfl, rfl⟩ hout)
  obtain ⟨htags, hpages, -⟩ :=
    requests_tags_and_pages_agree (ramDisk_lawful false) hquiet hup hrun
  have hone : (((Call.pageOut 0 {}).after (ramDisk false)
      (ramFilled false (.device 0))).devices.get 0).inflight =
      1 := by decide +kernel
  refine ⟨_, hrun, hone, (htags 0).1 ▸ hone, ?_⟩
  exact (hpages 0).2.1.mp (by decide +kernel)

end PageSwap
