/-
# How an operation can end

`Run.wp m post stop s` says how the operation `m` can end from `s`: with an answer and a state in
`post`, or with a fault in `stop`.  One rule for each building block (`wp_bind`, `wp_tryPage`, ...)
turns such a statement about an operation into one about its parts, so what an operation does is
found by going through it once, and never by opening the state monad.

* `wp_bind`, `wp_mono` -- operations in a row, and weaker conclusions.
* `wp_editPage`, `wp_tryPage`, `wp_world`, `wp_attempt`, ... -- the blocks of `PageSwap.System`.
-/
import PageSwap.PageIn

namespace PageSwap

variable {σ α β : Type}

namespace Run

/-! ## 1. Operations in a row -/

/-- From `s`, `m` ends with an answer and a state in `post`, or with a fault in `stop`. -/
def wp (m : Run σ α) (post : α → System σ → Prop) (stop : Fault → Prop) (s : System σ) : Prop :=
  match m s with
  | .ok (a, s') => post a s'
  | .error f => stop f

section

variable {post : α → System σ → Prop} {stop : Fault → Prop} {s : System σ}

theorem wp_of_ok {m : Run σ α} {a : α} {s' : System σ} (h : m s = .ok (a, s')) :
    m.wp post stop s ↔ post a s' := by
  simp [wp, h]

theorem wp_of_error {m : Run σ α} {f : Fault} (h : m s = .error f) :
    m.wp post stop s ↔ stop f := by
  simp [wp, h]

/-- What holds of every end holds of the answer. -/
theorem wp.of_ok {m : Run σ α} (hm : m.wp post stop s) {a : α} {s' : System σ}
    (h : m s = .ok (a, s')) : post a s' :=
  (wp_of_ok h).mp hm

/-- What holds of every end holds of the fault. -/
theorem wp.of_error {m : Run σ α} (hm : m.wp post stop s) {f : Fault} (h : m s = .error f) :
    stop f :=
  (wp_of_error h).mp hm

/-- Two operations in a row that answer: the first one does, and the second one from there. -/
theorem of_bind {m : Run σ β} {k : β → Run σ α} {a : α} {s' : System σ}
    (h : (m >>= k) s = .ok (a, s')) : ∃ x s₁, m s = .ok (x, s₁) ∧ k x s₁ = .ok (a, s') := by
  replace h : (m s >>= fun r => k r.1 r.2) = .ok (a, s') := h
  cases hm : m s with
  | error f => rw [hm] at h; exact absurd h nofun
  | ok r => rw [hm] at h; exact ⟨r.1, r.2, rfl, h⟩

/-- What follows an operation that answers goes on from there. -/
theorem bind_of_ok {m : Run σ β} {k : β → Run σ α} {x : β} {s₁ : System σ}
    (h : m s = .ok (x, s₁)) : (m >>= k) s = k x s₁ := by
  change (m s >>= fun r => k r.1 r.2) = _
  rw [h]
  rfl

/-- What follows an operation that faults does not happen. -/
theorem bind_of_error {m : Run σ β} {k : β → Run σ α} {f : Fault} (h : m s = .error f) :
    (m >>= k) s = .error f := by
  change (m s >>= fun r => k r.1 r.2) = _
  rw [h]
  rfl

/-- What cannot fault answers. -/
theorem exists_ok_of_wp {m : Run σ α} (hm : m.wp post (fun _ => False) s) :
    ∃ a s', m s = .ok (a, s') ∧ post a s' := by
  unfold wp at hm
  cases h : m s with
  | ok r => rw [h] at hm; exact ⟨r.1, r.2, rfl, hm⟩
  | error f => rw [h] at hm; exact hm.elim

/-- An operation that can end in one way only. -/
theorem eq_ok_of_wp {m : Run σ α} {a : α} {t : System σ}
    (hm : m.wp (fun a' s' => a' = a ∧ s' = t) (fun _ => False) s) : m s = .ok (a, t) := by
  obtain ⟨_, _, h, rfl, rfl⟩ := exists_ok_of_wp hm
  exact h

/-- An operation that can only fault, in one way. -/
theorem eq_error_of_wp {m : Run σ α} {f : Fault}
    (hm : m.wp (fun _ _ => False) (fun f' => f' = f) s) : m s = .error f := by
  unfold wp at hm
  cases h : m s with
  | ok r => rw [h] at hm; exact hm.elim
  | error f' => rw [h] at hm; exact congrArg _ hm

theorem wp_mono {m : Run σ α} {post' : α → System σ → Prop} {stop' : Fault → Prop}
    (hm : m.wp post stop s) (hp : ∀ a s', post a s' → post' a s') (hf : ∀ f, stop f → stop' f) :
    m.wp post' stop' s := by
  unfold wp at hm ⊢
  cases h : m s with
  | ok r => rw [h] at hm; exact hp _ _ hm
  | error f => rw [h] at hm; exact hf _ hm

/-- Nothing to be shown of any end. -/
theorem wp_of_forall {m : Run σ α} (h : ∀ a s', post a s') : m.wp post (fun _ => True) s := by
  unfold wp
  split
  · exact h _ _
  · trivial

@[simp] theorem wp_pure {a : α} : (pure a : Run σ α).wp post stop s ↔ post a s := Iff.rfl

@[simp] theorem wp_throw {f : Fault} : (throw f : Run σ α).wp post stop s ↔ stop f := Iff.rfl

@[simp] theorem wp_bind {m : Run σ β} {k : β → Run σ α} :
    (m >>= k).wp post stop s ↔ m.wp (fun a s' => (k a).wp post stop s') stop s := by
  have hb : (m >>= k) s = (m s >>= fun r => k r.1 r.2) := rfl
  unfold wp
  rw [hb]
  cases m s with
  | ok r => exact Iff.rfl
  | error f => exact Iff.rfl

theorem wp_get {post : System σ → System σ → Prop} :
    (get : Run σ (System σ)).wp post stop s ↔ post s s := Iff.rfl

theorem wp_set {post : PUnit → System σ → Prop} {s' : System σ} :
    (set s' : Run σ PUnit).wp post stop s ↔ post ⟨⟩ s' := Iff.rfl

theorem wp_modify {post : PUnit → System σ → Prop} {g : System σ → System σ} :
    (modify g : Run σ PUnit).wp post stop s ↔ post ⟨⟩ (g s) := Iff.rfl

end

attribute [simp] wp_get wp_set wp_modify

/-! ## 2. Computations and collaborators -/

section

variable {post : α → System σ → Prop} {stop : Fault → Prop} {s : System σ}

@[simp] theorem wp_check_ok {a : α} :
    (check (.ok a) : Run σ α).wp post stop s ↔ post a s := Iff.rfl

@[simp] theorem wp_check_error {f : Fault} :
    (check (.error f) : Run σ α).wp post stop s ↔ stop f := Iff.rfl

@[simp] theorem wp_world {f : σ → α × σ} :
    (world f).wp post stop s ↔ post (f s.world).1 { s with world := (f s.world).2 } := Iff.rfl

theorem wp_tryWorld {f : σ → Except Fault (α × σ)} :
    (tryWorld f).wp post stop s ↔
      match f s.world with
      | .ok (a, w) => post a { s with world := w }
      | .error e => stop e := by
  unfold wp tryWorld
  cases f s.world with
  | ok r => exact Iff.rfl
  | error e => exact Iff.rfl

theorem wp_attempt {post : Except Refusal α → System σ → Prop} {x : Except Stop α} :
    (attempt x : Run σ _).wp post stop s ↔
      match x with
      | .ok a => post (.ok a) s
      | .error (.refused why) => post (.error why) s
      | .error (.fault f) => stop f := by
  rcases x with (why | f) | a <;> exact Iff.rfl

/-! ## 3. Pages, devices, requests, sleepers, console -/

@[simp] theorem wp_page {post : Page → System σ → Prop} {p : PageId} :
    (page p).wp post stop s ↔ post (s.pages.get p) s := Iff.rfl

@[simp] theorem wp_editPage {post : Unit → System σ → Prop} {p : PageId} {f : Page → Page} :
    (editPage p f).wp post stop s ↔
      post () { s with pages := s.pages.set p (f (s.pages.get p)) } := Iff.rfl

theorem wp_tryPage {post : Unit → System σ → Prop} {p : PageId} {f : Page → Except Fault Page} :
    (tryPage p f).wp post stop s ↔
      match f (s.pages.get p) with
      | .ok page => post () { s with pages := s.pages.set p page }
      | .error e => stop e := by
  unfold tryPage
  simp only [wp_bind, wp_page]
  cases f (s.pages.get p) with
  | ok page => exact Iff.rfl
  | error e => exact Iff.rfl

theorem wp_tryPage_of_ok {post : Unit → System σ → Prop} {p : PageId} {f : Page → Except Fault Page}
    {page : Page} (h : f (s.pages.get p) = .ok page)
    (hpost : post () { s with pages := s.pages.set p page }) : (tryPage p f).wp post stop s := by
  rw [wp_tryPage, h]; exact hpost

@[simp] theorem wp_withPage {p : PageId} {f : Page → σ → (α × Page) × σ} :
    (withPage p f).wp post stop s ↔
      post (f (s.pages.get p) s.world).1.1
        { s with pages := s.pages.set p (f (s.pages.get p) s.world).1.2
                 world := (f (s.pages.get p) s.world).2 } := Iff.rfl

theorem wp_tryWithPage {p : PageId} {f : Page → σ → Except Fault ((α × Page) × σ)} :
    (tryWithPage p f).wp post stop s ↔
      match f (s.pages.get p) s.world with
      | .ok ((a, page), w) => post a { s with pages := s.pages.set p page, world := w }
      | .error e => stop e := by
  unfold tryWithPage
  simp only [wp_bind, wp_page, wp_tryWorld]
  cases f (s.pages.get p) s.world with
  | ok r => exact Iff.rfl
  | error e => exact Iff.rfl

@[simp] theorem wp_device {post : Device → System σ → Prop} {d : DeviceId} :
    (device d).wp post stop s ↔ post (s.devices.get d) s := Iff.rfl

@[simp] theorem wp_setDevice {post : Unit → System σ → Prop} {d : DeviceId} {dev : Device} :
    (setDevice d dev).wp post stop s ↔ post () { s with devices := s.devices.set d dev } := Iff.rfl

@[simp] theorem wp_request? {post : Option Request → System σ → Prop} {r : RequestId} :
    (request? r).wp post stop s ↔ post (s.requests.get r) s := Iff.rfl

@[simp] theorem wp_setRequest {post : Unit → System σ → Prop} {r : RequestId}
    {q : Option Request} :
    (setRequest r q).wp post stop s ↔ post () { s with requests := s.requests.set r q } := Iff.rfl

@[simp] theorem wp_addRequest {post : RequestId → System σ → Prop} {q : Request} :
    (addRequest q).wp post stop s ↔
      post s.requests.fresh { s with requests := s.requests.set s.requests.fresh (some q) } :=
  Iff.rfl

theorem wp_dropRequest {post : Unit → System σ → Prop} {r : RequestId} {q : Request} :
    (dropRequest r q).wp post stop s ↔
      match (s.devices.get q.device).releaseTag with
      | .ok dev =>
        post () { s with requests := s.requests.set r none
                         devices := s.devices.set q.device dev }
      | .error e => stop e := by
  unfold dropRequest
  simp only [wp_bind, wp_setRequest, wp_device]
  cases (s.devices.get q.device).releaseTag with
  | ok dev => exact Iff.rfl
  | error e => exact Iff.rfl

theorem wp_dropRequest_of_pos {post : Unit → System σ → Prop} {r : RequestId} {q : Request}
    (h : 0 < (s.devices.get q.device).inflight)
    (hpost : post () { s with
      requests := s.requests.set r none
      devices := s.devices.set q.device
        { s.devices.get q.device with inflight := (s.devices.get q.device).inflight - 1 } }) :
    (dropRequest r q).wp post stop s := by
  rw [wp_dropRequest, Device.releaseTag_eq_ok_iff.mpr ⟨h, rfl⟩]; exact hpost

@[simp] theorem wp_sleeper {post : Sleeper → System σ → Prop} {i : SleeperId} :
    (sleeper i).wp post stop s ↔ post (s.sleepers.get i) s := Iff.rfl

@[simp] theorem wp_setSleeper {post : Unit → System σ → Prop} {i : SleeperId} {x : Sleeper} :
    (setSleeper i x).wp post stop s ↔ post () { s with sleepers := s.sleepers.set i x } := Iff.rfl

@[simp] theorem wp_addSleeper {post : SleeperId → System σ → Prop} :
    (addSleeper : Run σ _).wp post stop s ↔
      post s.sleepers.fresh { s with sleepers := s.sleepers.set s.sleepers.fresh {} } := Iff.rfl

/-- A line the limiter may hold back is written, or its count of lines does not fit. -/
theorem wp_logLimited {post : Unit → System σ → Prop} {text : String}
    (hpost : ∀ limiter console, post () { s with limiter, console })
    (hstop : stop (.overflow .add)) : (logLimited text).wp post stop s := by
  simp only [logLimited, wp_bind, wp_get]
  have hcount : ∀ r : RateLimit, r.count = .error (.overflow .add) ∨ ∃ x, r.count = .ok x := by
    intro r
    unfold RateLimit.count
    split
    · exact Or.inr ⟨_, rfl⟩
    · split
      · exact Or.inr ⟨_, rfl⟩
      · exact Or.inl rfl
  have hcheck : s.limiter.checkOn s.clock s.console = .error (.overflow .add) ∨
      ∃ x, s.limiter.checkOn s.clock s.console = .ok x := by
    unfold RateLimit.checkOn
    split
    · exact Or.inr ⟨_, rfl⟩
    · rename_i now _
      simp only [RateLimit.check, bind, Except.bind]
      rcases hcount (s.limiter.enter now) with h | ⟨x, h⟩
      · exact Or.inl (by rw [h])
      · exact Or.inr (by rw [h]; exact ⟨_, rfl⟩)
  rcases hcheck with h | ⟨⟨passes, limiter, console⟩, h⟩
  · rw [h]; exact hstop
  · rw [h]
    cases passes with
    | false => exact hpost limiter console
    | true => exact hpost limiter _

@[simp] theorem wp_log {post : Unit → System σ → Prop} {l : Level} {text : String} :
    (log l text).wp post stop s ↔ post () { s with console := s.console.log l text } := Iff.rfl

end

/-! ## 4. Branches -/

theorem wp_ite {post : α → System σ → Prop} {stop : Fault → Prop} {s : System σ} {c : Prop}
    [Decidable c] {m n : Run σ α} :
    (if c then m else n).wp post stop s ↔ if c then m.wp post stop s else n.wp post stop s := by
  split <;> exact Iff.rfl

end Run

end PageSwap
