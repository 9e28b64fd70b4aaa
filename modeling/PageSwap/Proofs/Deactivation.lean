/-
# Requests in flight survive deactivation

A request carries its area and its device.  While it is in flight the area may be taken down, and
another one, on another device, may be brought up under the same number; the completion looks at
neither.  So a run in which areas come and go while requests are finished leaves the same as the run
without them, but for the registry and the console, and what it does stays with the areas and the
devices of its requests.

* `System.completion`, `finish_completion` -- a completion, as a function of all the rest.
* `carry` -- a run in which areas come and go and requests are finished.
* `carry_unregistered` -- areas that come and go do not matter to it.
* `Carried` -- what it does when its requests are of one area.
* `requests_survive_deactivation` -- both.
-/
import PageSwap.Proofs.CompletionOrder
import PageSwap.Proofs.Journal

namespace PageSwap

variable {σ : Type}

/-! ## 1. Completions do not look at areas -/

/-- A state without its active areas and its console. -/
def System.unregistered (s : System σ) : System σ := { s with registry := {}, console := {} }

/-- **What finishing a request leaves**, areas and console apart. -/
def System.completion (b : Backend σ) (f : Finish) (s : System σ) : Except Fault (System σ) :=
  match s.requests.get f.request with
  | none => .ok s.unregistered
  | some q =>
    (b.queues.settle (s.devices.get q.device).queue f q (s.pages.get q.page) s.world).map fun out =>
      (s.finished b f.request q out.1.1 out.1.2 out.2).unregistered

section

variable {b : Backend σ} {s s' : System σ} {f : Finish}

/-- A completion does not look at areas. -/
theorem completion_unregistered (b : Backend σ) (f : Finish) (s : System σ) :
    s.unregistered.completion b f = s.completion b f := by
  unfold System.completion System.unregistered
  dsimp only
  cases s.requests.get f.request <;> rfl

/-- **Finishing a request**: nothing happens if there is none, and otherwise the driver settles it
and its completion takes place. -/
theorem finish_cases (hs : s.Coherent) : (finish b f).wp
    (fun _ s' => s.requests.get f.request = none ∧ s' = s ∨
      ∃ q status bytes w console, s.requests.get f.request = some q ∧
        b.queues.settle (s.devices.get q.device).queue f q (s.pages.get q.page) s.world =
          .ok ((status, bytes), w) ∧
        s' = { s.finished b f.request q status bytes w with console })
    (fun e => ∃ q, s.requests.get f.request = some q ∧
      b.queues.settle (s.devices.get q.device).queue f q (s.pages.get q.page) s.world = .error e)
    s := by
  cases hq : s.requests.get f.request with
  | none =>
    unfold finish
    simp only [Run.wp_bind, Run.wp_request?, hq, Run.wp_pure]
    exact .inl ⟨trivial, trivial⟩
  | some q =>
    exact finish_wp hq (hs.ready hq) (fun e he => ⟨q, rfl, he⟩)
      fun status bytes w console hsettle => .inr ⟨q, status, bytes, w, console, rfl, hsettle, rfl⟩

/-- **A completion is a function of all but the areas and the console.** -/
theorem finish_completion (hs : s.Coherent) (f : Finish) :
    (finish b f s).map (·.2.unregistered) = s.completion b f := by
  have hwp : (finish b f).wp (fun _ s' => s.completion b f = .ok s'.unregistered)
      (fun e => s.completion b f = .error e) s := by
    refine Run.wp_mono (finish_cases hs) ?_ ?_
    · rintro u s' (⟨hnone, rfl⟩ | ⟨q, status, bytes, w, console, hq, hsettle, rfl⟩)
      · unfold System.completion
        rw [hnone]
      · unfold System.completion
        simp only [hq, hsettle]
        rfl
    · rintro e ⟨q, hq, hsettle⟩
      unfold System.completion
      simp only [hq, hsettle]
      rfl
  cases hf : finish b f s with
  | ok out => exact (hwp.of_ok hf).symm
  | error e => exact (hwp.of_error hf).symm

/-- A call that brings areas up or down leaves all the rest alone. -/
theorem after_unregistered {c : Call} (hc : c.onAreas = true) (b : Backend σ) (s : System σ) :
    (c.after b s).unregistered = s.unregistered := by
  have hwp : (c.run b).wp (fun _ s' => s'.unregistered = s.unregistered) (fun _ => True) s :=
    Call.areas_wp hc trivial (fun _ _ _ _ => trivial) fun _ _ _ => rfl
  unfold Call.after
  cases hrun : c.run b s with
  | ok out => exact hwp.of_ok hrun
  | error e => rfl

theorem coherent_of_unregistered (h : s'.unregistered = s.unregistered) (hs : s.Coherent) :
    s'.Coherent := by
  have hs' : s'.unregistered.Coherent := by
    rw [h]
    exact hs
  exact hs'

end

/-! ## 2. Areas come and go -/

/-- **Areas come and go and requests are finished**, one after the other.  A call that brings areas
up or down and faults has changed nothing; a completion that faults ends it all. -/
def carry (b : Backend σ) : List Call → System σ → Except Fault (System σ)
  | [], s => .ok s
  | .finish f :: cs, s => (finish b f s).bind fun out => carry b cs out.2
  | c :: cs, s => carry b cs (c.after b s)

section

variable {b : Backend σ} {s s' : System σ}

theorem carry_areas {c : Call} (hc : c.onAreas = true) (b : Backend σ) (cs : List Call)
    (s : System σ) : carry b (c :: cs) s = carry b cs (c.after b s) := by
  cases c <;> first | rfl | exact absurd hc nofun

/-- A call about no page brings areas up or down, or finishes a request. -/
theorem Call.onAreas_or_finish {c : Call} (hc : c.page? = none) :
    c.onAreas = true ∨ ∃ f, c = .finish f := by
  cases c <;> first | exact .inl rfl | exact .inr ⟨_, rfl⟩ | exact absurd hc nofun

/-- A completion keeps the tables coherent, and none of its assertions fails. -/
theorem finish_coherent (hb : Lawful b) (hs : s.Coherent) (f : Finish) :
    (finish b f).wp (fun _ s' => s'.Coherent) (¬ ·.Assertion) s :=
  Run.wp_mono ((lasting_coherent hb s.devices).finish f hs.since) (fun _ _ h => h.1.coherent)
    fun _ he => he

/-- **Areas that come and go do not matter to completions.** -/
theorem carry_unregistered (hb : Lawful b) : ∀ {cs : List Call}, (∀ c ∈ cs, c.page? = none) →
    ∀ {s s' : System σ}, s.Coherent → s'.unregistered = s.unregistered →
      (carry b cs s').map System.unregistered =
        (carry b (cs.filter (!·.onAreas)) s).map System.unregistered
  | [], _, s, s', _, h => congrArg Except.ok h
  | c :: cs, hcs, s, s', hs, h => by
    have hrest := fun c hc => hcs c (List.mem_cons_of_mem _ hc)
    rcases Call.onAreas_or_finish (hcs c List.mem_cons_self) with hc | ⟨f, rfl⟩
    · rw [carry_areas hc, List.filter_cons_of_neg (by rw [hc]; decide)]
      exact carry_unregistered hb hrest hs ((after_unregistered hc b s').trans h)
    · rw [List.filter_cons_of_pos rfl]
      have hsame : (finish b f s').map (·.2.unregistered) =
          (finish b f s).map (·.2.unregistered) := by
        rw [finish_completion hs, finish_completion (coherent_of_unregistered h hs),
          ← completion_unregistered, h, completion_unregistered]
      unfold carry
      cases hf : finish b f s with
      | error e =>
        cases hf' : finish b f s' with
        | error e' =>
          rw [hf, hf'] at hsame
          exact congrArg Except.error (Except.error.inj hsame)
        | ok out' => rw [hf, hf'] at hsame; exact absurd hsame nofun
      | ok out =>
        cases hf' : finish b f s' with
        | error e' => rw [hf, hf'] at hsame; exact absurd hsame nofun
        | ok out' =>
          rw [hf, hf'] at hsame
          exact carry_unregistered hb hrest ((finish_coherent hb hs f).of_ok hf)
            (Except.ok.inj hsame)

/-- No assertion fails meanwhile. -/
theorem carry_faults (hb : Lawful b) : ∀ {cs : List Call}, (∀ c ∈ cs, c.page? = none) →
    ∀ {s : System σ}, s.Coherent → ∀ e, carry b cs s = .error e → ¬ e.Assertion
  | [], _, _, _, _, h => absurd h nofun
  | c :: cs, hcs, s, hs, e, h => by
    have hrest := fun c hc => hcs c (List.mem_cons_of_mem _ hc)
    rcases Call.onAreas_or_finish (hcs c List.mem_cons_self) with hc | ⟨f, rfl⟩
    · rw [carry_areas hc] at h
      exact carry_faults hb hrest (coherent_of_unregistered (after_unregistered hc b s) hs) e h
    · unfold carry at h
      cases hf : finish b f s with
      | error e' =>
        rw [hf] at h
        exact Except.error.inj h ▸ (finish_coherent hb hs f).of_error hf
      | ok out =>
        rw [hf] at h
        exact carry_faults hb hrest ((finish_coherent hb hs f).of_ok hf) e h

end

/-! ## 3. Requests of one area -/

/-- The requests that are finished. -/
def finished (cs : List Call) : Finset RequestId :=
  (cs.filterMap fun c => match c with
    | .finish f => some f.request
    | _ => none).toFinset

theorem finished_areas {c : Call} (hc : c.onAreas = true) (cs : List Call) :
    finished (c :: cs) = finished cs := by
  cases c <;> first | rfl | exact absurd hc nofun

theorem finished_finish (f : Finish) (cs : List Call) :
    finished (.finish f :: cs) = insert f.request (finished cs) := by
  unfold finished
  rw [List.filterMap_cons, List.toFinset_cons]

/-- An entry that concerns the area and the queue of its device: a transfer of one of its requests
is over, its slot map is asked about a slot, or its driver is told of a slot. -/
inductive Entry.Of (area : Area) (queue : QueueId) : Entry → Prop
  | settled (q : Request) (order : UInt32) (status : Status) (harea : q.area = area) :
      Of area queue (.settled queue q order status)
  | counted (offset : UInt64) : Of area queue (.counted area.slotMap offset)
  | told (offset : UInt64) : Of area queue (.told queue offset)

/-- **From `s` to `s'` requests `rs` of the area have been finished**, and nothing else has
happened. -/
structure Carried (journal : σ → List Entry) (area : Area) (d : DeviceId) (s : System σ)
    (rs : Finset RequestId) (s' : System σ) : Prop where
  coherent : s'.Coherent
  requests : ∀ r, s'.requests.get r = if r ∈ rs then none else s.requests.get r
  devices : ∀ d' ≠ d, s'.devices.get d' = s.devices.get d'
  queue : (s'.devices.get d).queue = (s.devices.get d).queue
  journal : ∃ news, journal s'.world = journal s.world ++ news ∧
    ∀ e ∈ news, e.Of area (s.devices.get d).queue

namespace Carried

variable {b : Backend σ} {journal : σ → List Entry} {area : Area} {d : DeviceId}
  {s s₁ s₂ s' : System σ} {rs : Finset RequestId}

theorem refl (hs : s.Coherent) : Carried journal area d s ∅ s where
  coherent := hs
  requests := fun _ => rfl
  devices := fun _ _ => rfl
  queue := rfl
  journal := ⟨[], by rw [List.append_nil], fun _ he => absurd he List.not_mem_nil⟩

/-- Areas come and go. -/
theorem of_unregistered (h : Carried journal area d s rs s₁)
    (hsame : s₂.unregistered = s₁.unregistered) : Carried journal area d s rs s₂ := by
  have h' : Carried journal area d s rs s₁.unregistered :=
    ⟨h.coherent, h.requests, h.devices, h.queue, h.journal⟩
  rw [← hsame] at h'
  exact ⟨h'.coherent, h'.requests, h'.devices, h'.queue, h'.journal⟩

/-- A request is not there, or has been finished already. -/
theorem absent (h : Carried journal area d s rs s₁) {r : RequestId}
    (hr : s₁.requests.get r = none) : Carried journal area d s (insert r rs) s₁ := by
  refine ⟨h.coherent, fun r' => ?_, h.devices, h.queue, h.journal⟩
  by_cases hne : r' = r
  · subst hne
    rw [if_pos (Finset.mem_insert_self _ _)]
    exact hr
  · rw [h.requests r']
    exact if_congr (by rw [Finset.mem_insert, or_iff_right hne]) rfl rfl

/-- **One more request is finished.** -/
theorem finish (hj : b.Journals journal) (h : Carried journal area d s rs s₁)
    (hback : area.backing.device? = some d) {f : Finish} {q : Request}
    (hq : s₁.requests.get f.request = some q) (harea : q.area = area) (hdevice : q.device = d)
    {status : Status} {bytes : Bytes} {w : σ} {console : Console}
    (hsettle : b.queues.settle (s₁.devices.get q.device).queue f q (s₁.pages.get q.page) s₁.world =
      .ok ((status, bytes), w)) :
    Carried journal area d s (insert f.request rs)
      { s₁.finished b f.request q status bytes w with console } := by
  subst hdevice
  refine ⟨h.coherent.finish hq rfl, fun r => ?_, fun d' hd' => ?_, ?_, ?_⟩
  · show (s₁.requests.set f.request none).get r = _
    by_cases hne : r = f.request
    · rw [hne, Table.get_set_self, if_pos (Finset.mem_insert_self _ _)]
    · rw [Table.get_set_ne _ _ hne, h.requests r]
      exact if_congr (by rw [Finset.mem_insert, or_iff_right hne]) rfl rfl
  · show (s₁.devices.set q.device _).get d' = _
    rw [Table.get_set_ne _ _ hd']
    exact h.devices d' hd'
  · show ((s₁.devices.set q.device _).get q.device).queue = _
    rw [Table.get_set_self]
    exact h.queue
  · obtain ⟨news, hnews, hof⟩ := h.journal
    obtain ⟨more, hmore, habout⟩ := hj.finished hsettle
    refine ⟨news ++ .settled (s₁.devices.get q.device).queue q (s₁.pages.get q.page).order
      status :: more, by rw [hmore, hnews, List.append_assoc], fun e he => ?_⟩
    rw [h.queue] at he
    rcases List.mem_append.mp he with he | he
    · exact hof e he
    rcases List.mem_cons.mp he with rfl | he
    · exact .settled _ _ _ harea
    -- the driver that is told of a slot is that of the area's own device
    · cases habout e he with
      | counted offset => exact harea ▸ .counted offset
      | told hbacking offset =>
        rw [← harea, hbacking] at hback
        obtain rfl := Option.some.inj hback
        exact h.queue ▸ .told offset

/-- **A run that finishes requests of one area.** -/
theorem carry (hb : Lawful b) (hj : b.Journals journal) (hback : area.backing.device? = some d) :
    ∀ {cs : List Call}, (∀ c ∈ cs, c.page? = none) → ∀ {rs : Finset RequestId} {s₁ : System σ},
      Carried journal area d s rs s₁ →
      (∀ f, .finish f ∈ cs → ∀ q, s.requests.get f.request = some q →
        q.area = area ∧ q.device = d) →
      ∀ {s' : System σ}, PageSwap.carry b cs s₁ = .ok s' →
        Carried journal area d s (rs ∪ finished cs) s'
  | [], _, rs, s₁, h, _, s', hrun => by
    obtain rfl := Except.ok.inj hrun
    rw [show finished [] = ∅ from rfl, Finset.union_empty]
    exact h
  | c :: cs, hcs, rs, s₁, h, hof, s', hrun => by
    have hrest := fun c hc => hcs c (List.mem_cons_of_mem _ hc)
    have hof' := fun f hf => hof f (List.mem_cons_of_mem _ hf)
    rcases Call.onAreas_or_finish (hcs c List.mem_cons_self) with hc | ⟨f, rfl⟩
    · rw [carry_areas hc] at hrun
      rw [finished_areas hc]
      exact Carried.carry hb hj hback hrest (h.of_unregistered (after_unregistered hc b s₁)) hof'
        hrun
    · unfold PageSwap.carry at hrun
      cases hf : PageSwap.finish b f s₁ with
      | error e => rw [hf] at hrun; exact absurd hrun nofun
      | ok out =>
        rw [hf] at hrun
        have hstep : Carried journal area d s (insert f.request rs) out.2 := by
          rcases (finish_cases h.coherent).of_ok hf with
            ⟨hnone, hsame⟩ | ⟨q, status, bytes, w, console, hq, hsettle, hsame⟩
          · rw [hsame]
            exact h.absent hnone
          · have hbefore := h.requests f.request
            rw [hq] at hbefore
            have hq' : s.requests.get f.request = some q := by
              split at hbefore
              · exact absurd hbefore nofun
              · exact hbefore.symm
            obtain ⟨harea, hdevice⟩ := hof f List.mem_cons_self q hq'
            rw [hsame]
            exact h.finish hj hback hq harea hdevice hsettle
        rw [finished_finish, Finset.union_insert, ← Finset.insert_union]
        exact Carried.carry hb hj hback hrest hstep hof' hrun

end Carried

/-- **Requests in flight survive deactivation.**  In a state `s` that a run reaches from a quiet
one, areas are brought up and down and requests are finished, in any order.  Then

* this ends as it would have ended without the areas: both fault, or pages, devices, requests,
  readers and all that collaborators remember are the same after it;
* no assertion fails;
* if the requests are of one area, which lies on the device `d`, then no other device changes, `d`
  gets one tag back for each of them, and all that happens is that transfers of these requests by
  the driver of `d` are over, the slot map of the area is asked, and the driver of `d` is told of
  slots that are free. -/
theorem requests_survive_deactivation {b : Backend σ} {journal : σ → List Entry} (hb : Lawful b)
    (hj : b.Journals journal) {s₀ s : System σ} (hquiet : s₀.Quiet) (hrun : Reaches b s₀ s)
    {cs : List Call} (hcs : ∀ c ∈ cs, c.page? = none) :
    (carry b cs s).map System.unregistered =
      (carry b (cs.filter (!·.onAreas)) s).map System.unregistered ∧
    (∀ e, carry b cs s = .error e → ¬ e.Assertion) ∧
    ∀ area d, area.backing.device? = some d →
      (∀ f, .finish f ∈ cs → ∀ q, s.requests.get f.request = some q → q.area = area) →
      ∀ s', carry b cs s = .ok s' →
        (∀ r, s'.requests.get r = if r ∈ finished cs then none else s.requests.get r) ∧
        (∀ d' ≠ d, s'.devices.get d' = s.devices.get d') ∧
        (s'.devices.get d).inflight + (live s.requests d ∩ finished cs).card =
          (s.devices.get d).inflight ∧
        ∃ news, journal s'.world = journal s.world ++ news ∧
          ∀ e ∈ news, e.Of area (s.devices.get d).queue := by
  have hs : s.Coherent := coherent_of_reaches hb hquiet hrun
  have htraced : s.Traced := traced_of_reaches hb hquiet hrun
  refine ⟨carry_unregistered hb hcs hs rfl, carry_faults hb hcs hs, ?_⟩
  intro area d hback harea s' hcarry
  have hof : ∀ f, .finish f ∈ cs → ∀ q, s.requests.get f.request = some q →
      q.area = area ∧ q.device = d := by
    intro f hf q hq
    have hq' := harea f hf q hq
    have hdevice := (htraced _ q hq).device
    rw [hq', hback] at hdevice
    exact ⟨hq', (Option.some.inj hdevice).symm⟩
  have h := Carried.carry hb hj hback hcs (Carried.refl hs) hof hcarry
  rw [Finset.empty_union] at h
  refine ⟨h.requests, h.devices, ?_, h.journal⟩
  -- the requests left on the device are those that have not been finished
  have hleft : live s'.requests d = live s.requests d \ finished cs := by
    ext r
    rw [Finset.mem_sdiff, mem_live, mem_live, h.requests r]
    by_cases hr : r ∈ finished cs
    · simp [hr]
    · simp [hr]
  rw [h.coherent.tags d, hs.tags d, hleft]
  exact Finset.card_sdiff_add_card_inter _ _

/-- Page 0 is being written, page 1 is being read. -/
def journalBoth : System (RamDisk × Journal) :=
  (Call.pageIn 1 .background).after journalDisk journalHanded

/-- The area is taken down, a file is brought up under its number, and then both requests are
finished. -/
def replacing : List Call :=
  [.swapOff 0, .swapOn (ramSpec (.file 0)) 8, .finish ⟨0, some (.ok ())⟩,
    .finish ⟨1, some (.ok ())⟩]

/-- The state after that. -/
def replaced : System (RamDisk × Journal) :=
  match carry journalDisk replacing journalBoth with
  | .ok s => s
  | .error _ => journalBoth

theorem carry_replacing : carry journalDisk replacing journalBoth = .ok replaced := by
  have hok : (carry journalDisk replacing journalBoth).isOk = true := by decide +kernel
  unfold replaced
  cases hcarry : carry journalDisk replacing journalBoth with
  | ok s => rfl
  | error e => rw [hcarry] at hok; exact absurd hok nofun

/-- **A write and a read that outlive their area**: they end as they would have ended without the
file that took its number. -/
theorem requests_outlive_their_area :
    carry journalDisk replacing journalBoth = .ok replaced ∧
    (replaced.registry.get 0).map (·.backing) = some (.file 0) ∧
    (carry journalDisk [.finish ⟨0, some (.ok ())⟩, .finish ⟨1, some (.ok ())⟩] journalBoth).map
      System.unregistered = .ok replaced.unregistered ∧
    (journalBoth.devices.get 0).inflight = 2 ∧ (replaced.devices.get 0).inflight = 0 ∧
    ∃ news, replaced.world.2.entries = journalBoth.world.2.entries ++ news ∧
      ∀ e ∈ news, e.Of ramArea 0 := by
  have hin := @Call.run_after _ journalDisk (.pageIn 1 .background) journalHanded
    (by decide +kernel)
  have hrun : Reaches journalDisk journalStart journalBoth :=
    .tail (.tail reaches_journalUp
      (.call (c := .pageOut 0 {}) ⟨by decide +kernel, by decide +kernel⟩ pageOut_journalUp))
      (.call (c := .pageIn 1 .background)
        ⟨⟨by decide +kernel, by decide +kernel⟩, by decide +kernel⟩ hin)
  have hcs : ∀ c ∈ replacing, c.page? = none := by decide
  have hcarry := carry_replacing
  have harea : ∀ f, .finish f ∈ replacing → ∀ q, journalBoth.requests.get f.request = some q →
      q.area = ramArea := by
    intro f hf q hq
    have hall : ∀ r ∈ [0, 1], (journalBoth.requests.get r).all (·.area = ramArea) := by
      decide +kernel
    have hr : f.request ∈ [0, 1] := by
      simp only [replacing, List.mem_cons, Call.finish.injEq, List.not_mem_nil, or_false,
        reduceCtorEq, false_or] at hf
      rcases hf with rfl | rfl <;> decide
    simpa [hq] using hall _ hr
  obtain ⟨hsame, -, hplace⟩ := requests_survive_deactivation journalDisk_lawful
    journalDisk_journals journalStart_quiet hrun hcs
  obtain ⟨-, -, htags, hnews⟩ := hplace ramArea 0 rfl harea replaced hcarry
  have hbefore : (journalBoth.devices.get 0).inflight = 2 := by decide +kernel
  have hqueue : (journalBoth.devices.get 0).queue = 0 := by decide +kernel
  rw [hcarry] at hsame
  rw [hqueue] at hnews
  refine ⟨hcarry, by decide +kernel, hsame.symm, hbefore, ?_, hnews⟩
  have hlive : (live journalBoth.requests 0 ∩ finished replacing).card = 2 := by decide +kernel
  omega

end PageSwap
