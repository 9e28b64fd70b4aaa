/-
# What the error flag of a page says

A page is errored by a read that fails or is refused, and by a write request that fails.  Reading
the page successfully clears the flag; **writing it successfully does not**.  So the flag does not
say that the last transfer failed: it says that some transfer failed, and that nothing has been read
since.

Which transfers are over, and how they went, is what drivers and files write to a log; the page that
a file works for is the page of the call.

* `Backend.Records` -- the log, and `journaled_records` -- that of a journal.
* `Chronicle` -- a run, with the results of each page, oldest first.
* `Tells` -- what the log tells of a call accounts for the errors after it; `Tells.finished` for a
  completion, `Call.run_tells` for all of a call.
* `error_means_unmended` -- an errored page has a failure that no read has mended.
* `written_but_errored` -- a page whose last transfer was a write of all of it, errored.
-/
import PageSwap.Proofs.Journal

namespace PageSwap

variable {σ : Type}

/-! ## 1. Results -/

/-- How a transfer of a page ended: without an error and with all of the page, or not. -/
structure Result where
  direction : Direction
  ok : Bool
  deriving DecidableEq

namespace Result

/-- The page was read. -/
def filled : Result := ⟨.read, true⟩

/-- A transfer failed, and nothing was read after it. -/
def Unmended (results : List Result) : Prop :=
  ∃ before o after, results = before ++ o :: after ∧ o.ok = false ∧ filled ∉ after

/-- **Why a page is errored** after these results: one of them failed, or it was errored before
them, and nothing was read since. -/
def Explain (results : List Result) (before : Bool) : Prop :=
  Unmended results ∨ before = true ∧ filled ∉ results

variable {os os' : List Result} {o : Result} {before between : Bool}

theorem Unmended.append (h : Unmended os) (hos' : filled ∉ os') : Unmended (os ++ os') := by
  obtain ⟨first, o, rest, rfl, hfailed, hrest⟩ := h
  refine ⟨first, o, rest ++ os', by simp, hfailed, fun hmem => ?_⟩
  rcases List.mem_append.mp hmem with hmem | hmem
  · exact hrest hmem
  · exact hos' hmem

theorem Unmended.prepend (os : List Result) (h : Unmended os') : Unmended (os ++ os') := by
  obtain ⟨first, o, rest, rfl, hfailed, hrest⟩ := h
  exact ⟨os ++ first, o, rest, by simp, hfailed, hrest⟩

/-- Once the page has been read, everything is mended. -/
theorem Unmended.getLast?_ne (h : Unmended os) : os.getLast? ≠ some filled := by
  obtain ⟨first, o, rest, rfl, hfailed, hrest⟩ := h
  intro hlast
  rw [List.getLast?_append_of_ne_nil _ (List.cons_ne_nil o rest)] at hlast
  rcases List.mem_cons.mp (List.mem_of_getLast? hlast) with rfl | hmem
  · exact absurd hfailed nofun
  · exact hrest hmem

/-- What has just failed is reason enough. -/
theorem Explain.of_failed (hfailed : o.ok = false) : Explain (os ++ [o]) before :=
  .inl ⟨os, o, [], rfl, hfailed, List.not_mem_nil⟩

/-- Results one after the other. -/
theorem Explain.trans (hfirst : between = true → Explain os before)
    (hsecond : Explain os' between) : Explain (os ++ os') before := by
  rcases hsecond with hfailed | ⟨hbetween, hos'⟩
  · exact .inl (hfailed.prepend os)
  · rcases hfirst hbetween with hfailed | ⟨hbefore, hos⟩
    · exact .inl (hfailed.append hos')
    · refine .inr ⟨hbefore, fun hmem => ?_⟩
      rcases List.mem_append.mp hmem with hmem | hmem
      · exact hos hmem
      · exact hos' hmem

end Result

/-! ## 2. Logs -/

/-- A transfer that is over, as it is logged.  A driver knows the page; a file works for the page of
the call it is used by. -/
inductive Done
  | driver (p : PageId) (o : Result)
  | file (o : Result)

/-- The result for a page, during a call that is about the page `own`. -/
def Done.result? (own : Option PageId) (p : PageId) : Done → Option Result
  | .driver p' o => if p' = p then some o else none
  | .file o => if own = some p then some o else none

theorem Done.result?_driver (own : Option PageId) (p p' : PageId) (o : Result) :
    (Done.driver p' o).result? own p = if p' = p then some o else none := rfl

/-- A file has moved `n` bytes, no fewer. -/
def movedAll (result : Except Errno UInt64) (n : UInt64) : Bool :=
  match result with
  | .ok m => m = n
  | .error _ => false

theorem movedAll_eq (result : Except Errno UInt64) (n : UInt64) :
    movedAll result n = (readStatus result n).isOk := by
  unfold movedAll readStatus
  cases result with
  | ok m => by_cases h : m = n <;> simp [h, Except.isOk, Except.toBool]
  | error e => rfl

/-- The page is not errored unless it was before. -/
def Page.NoWorse (page page' : Page) : Prop := page'.flags.error = true → page.flags.error = true

/-- **What is asked of collaborators**: each transfer that is over is logged, with its result, and
nothing else is; and no page that is handed to a slot map, a front store or a file comes back
errored by that.  A driver that does not transfer a page without a request has not begun, and logs
nothing. -/
structure Backend.Records (b : Backend σ) (log : σ → List Done) : Prop where
  settle : ∀ {queue f q page w status bytes w'},
    b.queues.settle queue f q page w = .ok ((status, bytes), w') →
      log w' = log w ++ [.driver q.page ⟨q.direction, status.isOk⟩]
  direct : ∀ {queue sector direction p page w bytes w'},
    b.queues.transfer queue sector direction p page w = .ok ((.ok (), bytes), w') →
      log w' = log w ++ [.driver p ⟨direction, true⟩]
  declined : ∀ {queue sector direction p page w e bytes w'},
    b.queues.transfer queue sector direction p page w = .ok ((.error e, bytes), w') →
      log w' = log w
  read : ∀ {f position bytes w result bytes' w'},
    b.files.read f position bytes w = ((result, bytes'), w') →
      log w' = log w ++ [.file ⟨.read, movedAll result bytes.size.toUInt64⟩]
  write : ∀ {f position pieces w result w'}, b.files.write f position pieces w = (result, w') →
    let bytes := pieces.foldl (· ++ ·) Bytes.empty
    log w' = log w ++ [.file ⟨.write, movedAll result bytes.size.toUInt64⟩]
  dirtied : ∀ {f p page w clean page' w'},
    b.files.dirtied f p page w = ((clean, page'), w') → log w' = log w ∧ page.NoWorse page'
  tryFree : ∀ {m p page w answer page' w'},
    b.slotMaps.tryFree m p page w = ((answer, page'), w') → log w' = log w ∧ page.NoWorse page'
  store : ∀ {front p page w answer page' w'}, b.front = some front →
    front.store p page w = .ok ((answer, page'), w') → log w' = log w ∧ page.NoWorse page'
  fill : ∀ {front p pace page w answer page' w'}, b.front = some front →
    front.fill p pace page w = .ok ((answer, page'), w') → log w' = log w ∧ page.NoWorse page'
  slotFreed : ∀ queue offset w, log (b.queues.slotFreed queue offset w) = log w
  chore : ∀ {w w'}, Chore b w w' → log w' = log w

namespace Backend.Records

variable {b : Backend σ} {log : σ → List Done} {w w' : σ}

theorem chores (h : b.Records log) (hw : Chores b w w') : log w' = log w := by
  induction hw with
  | refl => rfl
  | tail _ hstep ih => exact (h.chore hstep).trans ih

/-- Dealing with the slot of a page that was read is no transfer. -/
theorem noticed (h : b.Records log) (area : Area) (devices : Table Device) (slot : Option Slot)
    (w : σ) : log (PageSwap.noticed b area devices slot w).2 = log w := by
  unfold PageSwap.noticed
  split
  · rename_i slot d _
    dsimp only
    split
    · split
      · exact (h.slotFreed _ _ _).trans (h.chore (.count _ _ w))
      · exact h.chore (.count _ _ w)
    · rfl
  · rfl

theorem noticedBy (h : b.Records log) (s : System σ) (q : Request) (status : Status) (w : σ) :
    log (PageSwap.noticedBy b s q status w).2 = log w := by
  unfold PageSwap.noticedBy
  split
  · exact h.noticed _ _ _ _
  · rfl

end Backend.Records

/-- A transfer that is over, in a journal.  A driver that declined has not begun. -/
def Entry.done? : Entry → Option Done
  | .settled _ q _ status => some (.driver q.page ⟨q.direction, status.isOk⟩)
  | .transferred _ direction p _ (.ok ()) => some (.driver p ⟨direction, true⟩)
  | .read _ length result => some (.file ⟨.read, movedAll result length⟩)
  | .wrote _ length result => some (.file ⟨.write, movedAll result length⟩)
  | _ => none

/-- The transfers that are over, in a journal. -/
def Journal.done (j : Journal) : List Done := j.entries.filterMap Entry.done?

theorem Journal.done_note (e : Entry) (j : Journal) :
    (j.note e).done = j.done ++ e.done?.toList := by
  unfold Journal.done Journal.note
  rw [List.filterMap_append, List.filterMap_cons, List.filterMap_nil]
  cases e.done? <;> rfl

/-- Pieces one after the other are as long as they are together. -/
theorem Bytes.size_foldl_append (pieces : List Bytes) (bytes : Bytes) :
    (pieces.foldl (· ++ ·) bytes).size =
      bytes.size + pieces.foldr (fun piece length => piece.size + length) 0 := by
  induction pieces generalizing bytes with
  | nil => rfl
  | cons piece pieces ih =>
    rw [List.foldl_cons, ih, Bytes.size_append, List.foldr_cons, Nat.add_assoc]

/-- **A journal has the log of transfers in it.**  The collaborators have no front store, and their
files and slot maps give no page back errored. -/
theorem journaled_records {b : Backend σ} (hfront : b.front = none)
    (hdirtied : ∀ {f p page w clean page' w'},
      b.files.dirtied f p page w = ((clean, page'), w') → page.NoWorse page')
    (htryFree : ∀ {m p page w answer page' w'},
      b.slotMaps.tryFree m p page w = ((answer, page'), w') → page.NoWorse page') :
    b.journaled.Records (·.2.done) where
  settle := fun h => by
    rw [Backend.journaled, heardBy_settle] at h
    exact (congrArg Journal.done (tryNoting_eq_ok h).2).trans (Journal.done_note _ _)
  direct := fun h => by
    rw [Backend.journaled, heardBy_transfer] at h
    exact (congrArg Journal.done (tryNoting_eq_ok h).2).trans (Journal.done_note _ _)
  declined := fun h => by
    rw [Backend.journaled, heardBy_transfer] at h
    exact ((congrArg Journal.done (tryNoting_eq_ok h).2).trans (Journal.done_note _ _)).trans
      (List.append_nil _)
  read := fun h => (congrArg Journal.done (heardBy_read h)).trans (Journal.done_note _ _)
  write := fun {f position pieces w result w'} h => by
    injection h with hresult hw
    subst hresult hw
    dsimp only
    rw [Bytes.size_foldl_append, show Bytes.empty.size = 0 from rfl, Nat.zero_add]
    exact Journal.done_note _ _
  dirtied := fun h => ⟨congrArg Journal.done (heardBy_dirtied h).2, hdirtied (heardBy_dirtied h).1⟩
  tryFree := fun h => ⟨((congrArg Journal.done (heardBy_tryFree h).2).trans
    (Journal.done_note _ _)).trans (List.append_nil _), htryFree (heardBy_tryFree h).1⟩
  store := fun h => by
    obtain ⟨inner, hinner, -⟩ := front_heardBy h
    cases hinner.symm.trans hfront
  fill := fun h => by
    obtain ⟨inner, hinner, -⟩ := front_heardBy h
    cases hinner.symm.trans hfront
  slotFreed := fun _ _ _ => (Journal.done_note _ _).trans (List.append_nil _)
  chore := fun h => by
    cases h with
    | count => exact (Journal.done_note _ _).trans (List.append_nil _)
    | turn h =>
      obtain ⟨turn, -, rfl⟩ := List.mem_map.mp h
      rfl
    | _ => rfl

theorem journalDisk_records : journalDisk.Records (·.2.done) :=
  journaled_records rfl
    (fun h => by
      injection h with hout
      injection hout with _ hpage
      exact hpage ▸ id)
    fun h => by
      injection h with hout
      injection hout with _ hpage
      exact hpage ▸ id

/-! ## 3. What a call tells -/

namespace Call

/-- A read that answers an error has failed, whether or not a transfer was begun. -/
def failure (c : Call) (status : Status) (p : PageId) : List Result :=
  match c, status with
  | .pageIn p' _, .error _ => if p' = p then [⟨.read, false⟩] else []
  | _, _ => []

/-- The results for a page of a call that answered `status` and in which `news` was logged. -/
def results (c : Call) (status : Status) (news : List Done) (p : PageId) : List Result :=
  news.filterMap (Done.result? c.page? p) ++ c.failure status p

theorem failure_cases (c : Call) (status : Status) (p : PageId) :
    c.failure status p = [] ∨ c.failure status p = [⟨.read, false⟩] := by
  unfold failure
  split
  · split
    · exact .inr rfl
    · exact .inl rfl
  · exact .inl rfl

/-- One transfer more. -/
theorem results_concat (c : Call) (status : Status) (news : List Done) (d : Done) (p : PageId) :
    c.results status (news ++ [d]) p =
      news.filterMap (Done.result? c.page? p) ++ (d.result? c.page? p).toList ++
        c.failure status p := by
  unfold results
  rw [List.filterMap_append]
  cases h : d.result? c.page? p <;> simp [h]

end Call

/-- **What the log tells of a call accounts for the errors after it.** -/
def Tells (log : σ → List Done) (c : Call) (status : Status) (s s' : System σ) : Prop :=
  ∃ news, log s'.world = log s.world ++ news ∧
    ∀ p, (s'.pages.get p).flags.error = true →
      Result.Explain (c.results status news p) (s.pages.get p).flags.error

section

variable {b : Backend σ} {log : σ → List Done} {c : Call} {status : Status} {s s₁ s' : System σ}
  {p : PageId} {page : Page}

theorem Table.get_set_noWorse {t : Table Page} (h : (t.get p).NoWorse page) (p' : PageId) :
    (t.get p').NoWorse ((t.set p page).get p') := by
  rw [Table.get_set]
  split
  · rename_i hp
    exact hp ▸ h
  · exact id

/-- Nothing is over, and no page is worse. -/
theorem Tells.of_noWorse (hlog : log s'.world = log s.world)
    (h : ∀ p, (s.pages.get p).NoWorse (s'.pages.get p)) : Tells log c status s s' := by
  refine ⟨[], by rw [hlog, List.append_nil], fun p herror => .inr ⟨h p herror, ?_⟩⟩
  show Result.filled ∉ c.failure status p
  rcases c.failure_cases status p with hnone | hone
  · rw [hnone]
    exact List.not_mem_nil
  · rw [hone]
    decide

/-- Nothing is over until `s₁`, and no page is worse there. -/
theorem Tells.of_noWorse_left (hlog : log s₁.world = log s.world)
    (h : ∀ p, (s.pages.get p).NoWorse (s₁.pages.get p)) (htells : Tells log c status s₁ s') :
    Tells log c status s s' := by
  obtain ⟨news, hnews, hexplain⟩ := htells
  refine ⟨news, by rw [hnews, hlog], fun p herror => ?_⟩
  rcases hexplain p herror with hfailed | ⟨hbefore, hnone⟩
  · exact .inl hfailed
  · exact .inr ⟨h p hbefore, hnone⟩

/-- A transfer of the page of the call is over, and an error of the page comes from it. -/
theorem Tells.of_own (hc : c.page? = some p) {d : Done} {o : Result}
    (hd : d = .driver p o ∨ d = .file o) (hlog : log s'.world = log s.world ++ [d])
    (hpages : s'.pages = s.pages.set p page)
    (hpage : page.flags.error = true →
      o.ok = false ∨ o ≠ .filled ∧ (s.pages.get p).flags.error = true) :
    Tells log c status s s' := by
  have hown : ∀ p', Done.result? c.page? p' d = if p = p' then some o else none := by
    intro p'
    rcases hd with rfl | rfl
    · rfl
    · unfold Done.result?
      simp only [hc, Option.some.injEq]
  refine ⟨[d], hlog, fun p' herror => ?_⟩
  rw [hpages, Table.get_set] at herror
  rw [← List.nil_append [d], Call.results_concat, hown]
  rcases c.failure_cases status p' with hnone | hone
  · rw [hnone, List.append_nil]
    by_cases hp : p' = p
    · rw [if_pos hp] at herror
      rw [if_pos hp.symm]
      rcases hpage herror with hfailed | ⟨hother, hbefore⟩
      · show Result.Explain ([] ++ [o]) _
        exact .of_failed hfailed
      · exact .inr ⟨hp ▸ hbefore, fun hmem => hother (List.mem_singleton.mp hmem).symm⟩
    · rw [if_neg hp] at herror
      rw [if_neg (Ne.symm hp)]
      exact .inr ⟨herror, List.not_mem_nil⟩
  · rw [hone]
    exact .of_failed rfl

/-! ## 4. Steps -/

/-- **A completion** is told of, and accounts for an error of its page. -/
theorem Tells.finished (hb : b.Records log) (h : Tells log c status s s₁) {f : Finish}
    {q : Request} {ended : Status} {bytes : Bytes} {w : σ}
    (hsettle : b.queues.settle (s₁.devices.get q.device).queue f q (s₁.pages.get q.page) s₁.world =
      .ok ((ended, bytes), w)) :
    Tells log c status s (s₁.finished b f.request q ended bytes w) := by
  obtain ⟨news, hlog, hexplain⟩ := h
  refine ⟨news ++ [.driver q.page ⟨q.direction, ended.isOk⟩], ?_, fun p herror => ?_⟩
  · show log (noticedBy b s₁ q ended w).2 = _
    rw [hb.noticedBy, hb.settle hsettle, hlog, List.append_assoc]
  replace hexplain := hexplain p
  unfold Call.results at hexplain
  rw [Call.results_concat]
  rcases c.failure_cases status p with hnone | hone
  case inr =>
    rw [hone]
    exact .of_failed rfl
  -- the completion comes last
  rw [hnone, List.append_nil] at hexplain ⊢
  rw [Done.result?_driver]
  replace herror : ((s₁.pages.set q.page ((s₁.pages.get q.page).ended q.direction ended bytes
    (noticedBy b s₁ q ended w).1)).get p).flags.error = true := herror
  rw [Table.get_set] at herror
  by_cases hp : p = q.page
  · subst hp
    rw [if_pos rfl]
    rw [if_pos rfl] at herror
    unfold Page.ended at herror
    cases hdirection : q.direction <;> cases ended <;> rw [hdirection] at herror
    case read.ok => exact absurd herror nofun
    case read.error => exact .of_failed rfl
    case write.error => exact .of_failed rfl
    case write.ok =>
      exact .trans hexplain (.inr ⟨herror, fun hmem => absurd (List.mem_singleton.mp hmem) nofun⟩)
  · rw [if_neg (Ne.symm hp)]
    rw [if_neg hp] at herror
    exact (List.append_nil _).symm ▸ hexplain herror

theorem DeviceWrite.tells (hb : b.Records log) (hc : c.page? = some p) {area : Area} {d : DeviceId}
    {w : Writeback} {ending : Ending} (hstep : DeviceWrite b area d p w ending s status s') :
    Tells log c status s s' := by
  cases hstep with
  | lost => exact .of_noWorse rfl (Table.get_set_noWorse id)
  | direct _ htransfer hchores =>
    exact .of_own hc (.inl rfl) ((hb.chores hchores).trans (hb.direct htransfer)) rfl
      fun herror => .inr ⟨by decide, herror⟩
  | crowded _ htransfer => exact .of_noWorse (hb.declined htransfer) (Table.get_set_noWorse id)
  | issued _ htransfer _ _ hchores =>
    exact .of_noWorse ((hb.chores hchores).trans (hb.declined htransfer)) (Table.get_set_noWorse id)

theorem FileWrite.tells (hb : b.Records log) (hc : c.page? = some p) {area : Area} {f : FileId}
    (hstep : FileWrite b area f p s status s') : Tells log c status s s' := by
  cases hstep with
  | lost => exact .of_noWorse rfl (Table.get_set_noWorse id)
  | full _ hwrite hchores =>
    exact .of_own hc (.inr rfl) ((hb.chores hchores).trans (hb.write hwrite)) rfl
      fun herror => .inr ⟨nofun, herror⟩
  | short _ hwrite _ hdirtied =>
    obtain ⟨hlog, hpage⟩ := hb.dirtied hdirtied
    exact .of_own hc (.inr rfl) (hlog.trans (hb.write hwrite)) rfl
      fun herror => .inr ⟨nofun, hpage herror⟩

theorem SlotWrite.tells (hb : b.Records log) (hc : c.page? = some p) {area : Area}
    {w : Writeback} {ending : Ending} (hstep : SlotWrite b area p w ending s status s') :
    Tells log c status s s' := by
  cases hstep with
  | file _ hstep => exact hstep.tells hb hc
  | device _ hstep => exact hstep.tells hb hc

theorem PageWrite.tells (hb : b.Records log) (hc : c.page? = some p) {w : Writeback}
    (hstep : PageWrite b p w s status s') : Tells log c status s s' := by
  cases hstep with
  | lost => exact .of_noWorse rfl (Table.get_set_noWorse id)
  | freed _ hfree =>
    obtain ⟨hlog, hpage⟩ := hb.tryFree hfree
    exact .of_noWorse hlog (Table.get_set_noWorse hpage)
  | stored _ hfree hchores hfront hstore hchores' =>
    obtain ⟨hlog, hpage⟩ := hb.tryFree hfree
    obtain ⟨hlog', hpage'⟩ := hb.store hfront hstore
    refine .of_noWorse ?_ (Table.get_set_noWorse fun herror => hpage (hpage' herror))
    rw [hb.chores hchores', hlog', hb.chores hchores, hlog]
  | slot _ hfree hchores hfront hstep =>
    obtain ⟨hlog, hpage⟩ := hb.tryFree hfree
    have hlog₁ := (hb.chores hchores).trans hlog
    cases hfront with
    | absent =>
      exact .of_noWorse_left hlog₁ (Table.get_set_noWorse hpage) (hstep.tells hb hc)
    | declined hfront hask =>
      rw [Table.get_set_self] at hask
      obtain ⟨hlog₂, hpage₂⟩ := hb.store hfront hask
      refine .of_noWorse_left (hlog₂.trans hlog₁) ?_ (hstep.tells hb hc)
      rw [Table.set_set]
      exact Table.get_set_noWorse fun herror => hpage (hpage₂ herror)

/-- A read that is refused leaves its page errored, which is the failure it answers. -/
theorem Tells.of_refused {pace : Pace} (e : Errno) (hlog : log s'.world = log s.world)
    (hpages : s'.pages = s.pages.set p page) :
    Tells log (.pageIn p pace) (.error e) s s' := by
  refine ⟨[], by rw [hlog, List.append_nil], fun p' herror => ?_⟩
  rw [hpages, Table.get_set] at herror
  show Result.Explain (if p = p' then [⟨.read, false⟩] else []) _
  by_cases hp : p' = p
  · subst hp
    rw [if_pos rfl]
    show Result.Explain ([] ++ [⟨.read, false⟩]) _
    exact .of_failed rfl
  · rw [if_neg hp] at herror
    rw [if_neg (Ne.symm hp)]
    exact .inr ⟨herror, List.not_mem_nil⟩

theorem DeviceRead.tells (hb : b.Records log) {pace : Pace} {area : Area} {d : DeviceId}
    (hstep : DeviceRead b area d p s status s') : Tells log (.pageIn p pace) status s s' := by
  cases hstep with
  | lost => exact .of_refused _ rfl rfl
  | direct _ htransfer hchores =>
    refine .of_own (o := .filled) rfl (.inl rfl) ?_ rfl fun herror => absurd herror nofun
    exact ((hb.chores hchores).trans (hb.noticed _ _ _ _)).trans (hb.direct htransfer)
  | crowded _ htransfer => exact .of_refused _ (hb.declined htransfer) rfl
  | issued _ htransfer _ _ _ hchores =>
    exact .of_noWorse ((hb.chores hchores).trans (hb.declined htransfer)) (Table.get_set_noWorse id)

theorem FileRead.tells (hb : b.Records log) {pace : Pace} {area : Area} {f : FileId}
    (hstep : FileRead b area f p s status s') : Tells log (.pageIn p pace) status s s' := by
  cases hstep with
  | lost => exact .of_refused _ rfl rfl
  | @read position result bytes w₁ w₂ _ hread hchores =>
    refine .of_own rfl (.inr rfl) ((hb.chores hchores).trans (hb.read hread)) rfl fun herror => ?_
    left
    -- a read of all bytes does not leave an error
    rw [movedAll_eq]
    change (Page.ended .read (readStatus result (s.pages.get p).bytes.size.toUInt64) bytes false
      (s.pages.get p)).flags.error = true at herror
    cases hstatus : readStatus result (s.pages.get p).bytes.size.toUInt64 with
    | ok u =>
      rw [hstatus] at herror
      exact absurd herror nofun
    | error e => rfl

theorem SlotRead.tells (hb : b.Records log) {pace : Pace} {area : Area}
    (hstep : SlotRead b area p s status s') : Tells log (.pageIn p pace) status s s' := by
  cases hstep with
  | file _ hstep => exact hstep.tells hb
  | device _ hstep => exact hstep.tells hb

theorem PageRead.tells (hb : b.Records log) {pace : Pace}
    (hstep : PageRead b p pace s status s') : Tells log (.pageIn p pace) status s s' := by
  cases hstep with
  | lost => exact .of_refused _ rfl rfl
  | loaded _ hfront hfill =>
    obtain ⟨hlog, hpage⟩ := hb.fill hfront hfill
    exact .of_noWorse hlog (Table.get_set_noWorse hpage)
  | slot _ hfront hchores hstep =>
    cases hfront with
    | absent =>
      have hslot : Tells log (.pageIn p pace) status { s with world := _ } s' := hstep.tells hb
      refine .of_noWorse_left ?_ ?_ hslot
      · exact hb.chores hchores
      · exact fun _ => id
    | declined hfront hask =>
      obtain ⟨hlog, hpage⟩ := hb.fill hfront hask
      exact .of_noWorse_left ((hb.chores hchores).trans hlog) (Table.get_set_noWorse hpage)
        (hstep.tells hb)

end

/-! ## 5. Runs -/

section

variable {b : Backend σ} {log : σ → List Done} {t : Table Device} {s₀ s s' : System σ} {c : Call}
  {status : Status}

/-- Completions and bookkeeping are told of. -/
theorem lasting_tells (hb : Lawful b) (hrec : b.Records log) (t : Table Device) (c : Call)
    (status : Status) (s : System σ) :
    Lasting b (¬ ·.Assertion) fun x => x.CoherentSince t ∧ Tells log c status s x where
  tolerant := hb.tolerant
  blind := fun sleepers console limiter h =>
    ⟨(lasting_coherent hb t).blind sleepers console limiter h.1, h.2⟩
  aside := fun h hw => by
    refine ⟨(lasting_coherent hb t).aside h.1 hw, ?_⟩
    obtain ⟨news, hlog, hexplain⟩ := h.2
    exact ⟨news, (hrec.chore hw.chore).trans hlog, hexplain⟩
  ready := fun h hq => (lasting_coherent hb t).ready h.1 hq
  finished := fun h hq hsettle =>
    ⟨(lasting_coherent hb t).finished h.1 hq hsettle, h.2.finished hrec hsettle⟩

theorem Call.Begun.tells (hrec : b.Records log) (hbegun : Call.Begun b s c status s') :
    Tells log c status s s' := by
  cases hbegun with
  | areas => exact .of_noWorse rfl fun _ => id
  | out hstep => exact hstep.tells hrec rfl
  | lost => exact .of_noWorse rfl (Table.get_set_noWorse id)
  | past _ hstep => exact hstep.tells hrec rfl
  | read hstep => exact hstep.tells hrec

/-- **A call accounts for the errors it leaves**, with all completions inside it. -/
theorem Call.run_tells (hb : Lawful b) (hrec : b.Records log) (h : s.CoherentSince t)
    (hallowed : c.Allowed s) :
    (c.run b).wp (fun status s' => s'.CoherentSince t ∧ Tells log c status s s')
      (¬ ·.Assertion) s :=
  Call.run_begun hb (fun status => lasting_tells hb hrec t c status s) hallowed
    fun _ _ hbegun => ⟨hbegun.coherent hb h hallowed, hbegun.tells hrec⟩

/-- **A run, with the results of each page**, oldest first: those that are logged during a call,
and reads that are refused.  Between calls no transfer ends; callers may take the error flag of a
page away, but do not raise it. -/
inductive Chronicle (b : Backend σ) (log : σ → List Done) (s₀ : System σ) :
    (PageId → List Result) → System σ → Prop
  | start : Chronicle b log s₀ (fun _ => []) s₀
  | call {past : PageId → List Result} {s s' : System σ} {c : Call} {status : Status}
      (h : Chronicle b log s₀ past s) (hallowed : c.Allowed s)
      (hrun : c.run b s = .ok (status, s')) :
      Chronicle b log s₀
        (fun p => past p ++ c.results status ((log s'.world).drop (log s.world).length) p) s'
  | edit {past : PageId → List Result} {s : System σ} {p : PageId} {page : Page}
      (h : Chronicle b log s₀ past s) (htransfer : page.transfer = (s.pages.get p).transfer)
      (hlocked : (s.pages.get p).transfer = .reading → (s.pages.get p).flags.locked = true →
        page.flags.locked = true)
      (herror : (s.pages.get p).NoWorse page) :
      Chronicle b log s₀ past { s with pages := s.pages.set p page }
  | attach {past : PageId → List Result} {s : System σ} {d : Device}
      (h : Chronicle b log s₀ past s) (hnew : d.inflight = 0) :
      Chronicle b log s₀ past { s with devices := s.devices.set s.devices.fresh d }
  | elsewhere {past : PageId → List Result} {s : System σ} (h : Chronicle b log s₀ past s) (w : σ)
      (hlog : log w = log s.world) : Chronicle b log s₀ past { s with world := w }

variable {past : PageId → List Result}

/-- A chronicle is that of a run. -/
theorem Chronicle.reaches (h : Chronicle b log s₀ past s) : Reaches b s₀ s := by
  induction h with
  | start => exact .refl
  | call _ hallowed hrun ih => exact ih.tail (.call hallowed hrun)
  | edit _ htransfer hlocked _ ih => exact ih.tail (.edit htransfer hlocked)
  | attach _ hnew ih => exact ih.tail (.attach hnew)
  | elsewhere _ w _ ih => exact ih.tail (.elsewhere w)

/-- **The results of a page account for its error**, in any run from a quiet state. -/
theorem Chronicle.explains (hb : Lawful b) (hrec : b.Records log) (hquiet : s₀.Quiet)
    (h : Chronicle b log s₀ past s) (p : PageId) (herror : (s.pages.get p).flags.error = true) :
    Result.Explain (past p) (s₀.pages.get p).flags.error := by
  induction h with
  | start => exact .inr ⟨herror, List.not_mem_nil⟩
  | @call past s s' c status h hallowed hrun ih =>
    have hcoherent := coherent_of_reaches hb hquiet h.reaches
    obtain ⟨-, news, hnews, hexplain⟩ :=
      (Call.run_tells hb hrec hcoherent.since hallowed).of_ok hrun
    rw [hnews, List.drop_left]
    exact .trans ih (hexplain p herror)
  | edit _ _ _ hpage ih => exact ih (Table.get_set_noWorse hpage p herror)
  | attach _ _ ih => exact ih herror
  | elsewhere _ _ _ ih => exact ih herror

end

/-! ## 6. What the flag says -/

/-- A page whose error flag is clear does not show as errored. -/
theorem Condition.of_ne_errored {flags : Flags} (h : flags.error = false) (transfer : Transfer) :
    Condition.of flags transfer ≠ .errored := by
  cases transfer with
  | reading => nofun
  | writing => nofun
  | idle =>
    unfold Condition.of
    rw [h]
    cases flags.locked <;> cases flags.uptodate <;> nofun

/-- **An errored page has a failure that no read has mended**: in any run from a quiet state, with
completions of any status at any time, if a page is errored then a transfer of it failed -- or it
was errored at the start -- and it has not been read since.  So a page that was read last is not
errored. -/
theorem error_means_unmended {b : Backend σ} {log : σ → List Done} (hb : Lawful b)
    (hrec : b.Records log) {s₀ s : System σ} (hquiet : s₀.Quiet) {past : PageId → List Result}
    (h : Chronicle b log s₀ past s) (p : PageId) :
    ((s.pages.get p).flags.error = true → Result.Unmended (past p) ∨
      (s₀.pages.get p).flags.error = true ∧ Result.filled ∉ past p) ∧
    ((past p).getLast? = some .filled →
      (s.pages.get p).flags.error = false ∧ (s.pages.get p).condition ≠ .errored) := by
  have hexplain := h.explains hb hrec hquiet p
  refine ⟨hexplain, fun hlast => ?_⟩
  have hclear : (s.pages.get p).flags.error = false := by
    by_contra hne
    rcases hexplain (Bool.eq_true_of_not_eq_false hne) with hfailed | ⟨-, hnone⟩
    · exact hfailed.getLast?_ne hlast
    · exact hnone (List.mem_of_getLast? hlast)
  exact ⟨hclear, Condition.of_ne_errored hclear _⟩

/-! ## 7. A failed write, and what comes after it -/

/-- Page 0 has been written with an error, and is locked again. -/
def journalRelocked : System (RamDisk × Journal) :=
  { journalFailed with
    pages := journalFailed.pages.set 0 { journalFailed.pages.get 0 with flags.locked := true } }

theorem chronicle_journalRelocked : ∃ past,
    Chronicle journalDisk (·.2.done) journalStart past journalRelocked ∧
      past 0 = [⟨.write, false⟩] := by
  have hup := @Call.run_after _ journalDisk (.swapOn (ramSpec (.device 0)) 8) journalStart
    (by decide +kernel)
  have hend := @Call.run_after _ journalDisk (.finish ⟨0, some (.error Errno.io)⟩) journalHanded
    (by decide +kernel)
  refine ⟨_, .edit (.call (c := .finish _) (.call (c := .pageOut 0 {}) (.call (c := .swapOn _ _)
    .start trivial hup) ⟨by decide +kernel, by decide +kernel⟩ pageOut_journalUp) trivial hend)
    rfl (fun _ _ => rfl) id, ?_⟩
  decide +kernel

/-- **A page whose last transfer was a write of all of it, errored**: the write before it failed. -/
theorem written_but_errored : ∃ past s, Chronicle journalDisk (·.2.done) journalStart past s ∧
    past 0 = [⟨.write, false⟩, ⟨.write, true⟩] ∧ (s.pages.get 0).flags.error = true ∧
    (s.pages.get 0).condition = .errored := by
  obtain ⟨past, hfailed, hpast⟩ := chronicle_journalRelocked
  have hout := @Call.run_after _ journalDisk (.pageOut 0 {}) journalRelocked (by decide +kernel)
  have hend := @Call.run_after _ journalDisk (.finish ⟨1, some (.ok ())⟩)
    ((Call.pageOut 0 {}).after journalDisk journalRelocked) (by decide +kernel)
  refine ⟨_, _, .call (c := .finish _) (.call (c := .pageOut 0 {}) hfailed
    ⟨by decide +kernel, by decide +kernel⟩ hout) trivial hend, ?_, by decide +kernel,
    by decide +kernel⟩
  rw [hpast]
  decide +kernel

/-- Read instead, the page is not errored any more. -/
theorem mended_by_reading : ∃ past s, Chronicle journalDisk (·.2.done) journalStart past s ∧
    past 0 = [⟨.write, false⟩, ⟨.read, true⟩] ∧ (s.pages.get 0).flags.error = false ∧
    (s.pages.get 0).condition ≠ .errored := by
  obtain ⟨past, hfailed, hpast⟩ := chronicle_journalRelocked
  have hin := @Call.run_after _ journalDisk (.pageIn 0 .background) journalRelocked
    (by decide +kernel)
  have hend := @Call.run_after _ journalDisk (.finish ⟨1, some (.ok ())⟩)
    ((Call.pageIn 0 .background).after journalDisk journalRelocked) (by decide +kernel)
  obtain ⟨past', hrun, hpast'⟩ : ∃ past', Chronicle journalDisk (·.2.done) journalStart past'
      ((Call.finish ⟨1, some (.ok ())⟩).after journalDisk
        ((Call.pageIn 0 .background).after journalDisk journalRelocked)) ∧
      past' 0 = [⟨.write, false⟩, ⟨.read, true⟩] := by
    refine ⟨_, .call (c := .finish _) (.call (c := .pageIn 0 .background) hfailed
      ⟨⟨by decide +kernel, by decide +kernel⟩, by decide +kernel⟩ hin) trivial hend, ?_⟩
    rw [hpast]
    decide +kernel
  have hmended := (error_means_unmended journalDisk_lawful journalDisk_records journalStart_quiet
    hrun 0).2 (by rw [hpast']; rfl)
  exact ⟨past', _, hrun, hpast', hmended⟩

end PageSwap
