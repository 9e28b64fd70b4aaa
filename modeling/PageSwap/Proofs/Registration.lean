/-
# The registry is one atomic map

Bringing an area up looks at the registry twice, with the layout of the area in between, and other
callers come and go meanwhile.  So the first look proves nothing.  Still every operation takes
effect at one moment, the last of its steps: the answers of all callers, in the order they are
given, are those of a map on which each operation is a single step, and the registry is that map.
What holds of the map's histories -- an area is under its own number, and is there if it was
brought up once more often than taken down -- then holds of the registry.

* `Answer.Fits`, `Answer.effect`, `Legal` -- the atomic map, and the histories it allows.
* `Legal.orderly`, `Legal.balance` -- what holds of them.
* `Desk`, `Visit`, `Visits` -- callers with their steps in any order.
* `Visiting.swapOn` -- bringing an area up, others nested in it or not, is a run of visits.
* `registry_is_linearizable` -- the registry and the atomic map.
-/
import Mathlib.Logic.Function.Basic
import PageSwap.Proofs.Areas
import PageSwap.Proofs.Disks
import PageSwap.Proofs.Writes

namespace PageSwap

variable {σ : Type}

/-! ## 1. An atomic registry -/

/-- What a caller of the registry is answered. -/
inductive Answer
  | swapOn (number : UInt32) (answer : Except Refusal Area)
  | swapOff (number : UInt32) (answer : Except Refusal Area)
  | swapArea (number : UInt32) (answer : Except Refusal Area)
  | areaOf (slot : Option Slot) (answer : Except Refusal Area)

/-- The area of a slot. -/
def slotArea (t : Table (Option Area)) (slot : Option Slot) : Option Area :=
  slot.bind fun slot => t.get slot.area.toNat

namespace Answer

/-- A map `t` on which each operation is a single step may answer this.  A new area is refused for
its number, or because the number is taken, or because the area cannot be built. -/
def Fits (t : Table (Option Area)) : Answer → Prop
  | .swapOn number (.ok a) =>
    a.number = number ∧ number < Slot.areaLimit ∧ a.pages ≠ 0 ∧ t.get number.toNat = none
  | .swapOn number (.error why) =>
    Slot.areaLimit ≤ number ∧ why = .areaNumber ∨ number < Slot.areaLimit ∧
      (why = .areaTaken ∧ (t.get number.toNat).isSome ∨ why = .hole ∨ why = .emptyArea)
  | .swapOff number answer | .swapArea number answer =>
    answer = (t.get number.toNat).elim (.error .noArea) .ok
  | .areaOf slot answer => answer = (slotArea t slot).elim (.error .noSlot) .ok

/-- What becomes of the map. -/
def effect (t : Table (Option Area)) : Answer → Table (Option Area)
  | .swapOn number (.ok a) => t.set number.toNat (some a)
  | .swapOff number (.ok _) => t.set number.toNat none
  | _ => t

/-- An area was brought up under `n`. -/
def isUp (n : Nat) : Answer → Bool
  | .swapOn number (.ok _) => number.toNat = n
  | _ => false

/-- The area under `n` was taken down. -/
def isDown (n : Nat) : Answer → Bool
  | .swapOff number (.ok _) => number.toNat = n
  | _ => false

/-- **A refused area changes nothing**, and is refused with one of two error numbers. -/
theorem fits_refused {t : Table (Option Area)} {number : UInt32} {why : Refusal}
    (h : Fits t (.swapOn number (.error why))) :
    effect t (.swapOn number (.error why)) = t ∧
      (why.errno = Errno.invalid ∨ why.errno = Errno.alreadyExists) := by
  refine ⟨rfl, ?_⟩
  rcases h with ⟨-, rfl⟩ | ⟨-, ⟨rfl, -⟩ | rfl | rfl⟩
  · exact .inl rfl
  · exact .inr rfl
  · exact .inl rfl
  · exact .inl rfl

end Answer

/-- **Histories of the atomic map** that begin with `t`. -/
def Legal : Table (Option Area) → List Answer → Prop
  | _, [] => True
  | t, a :: as => a.Fits t ∧ Legal (a.effect t) as

/-- One answer more. -/
theorem legal_concat {a : Answer} : ∀ {as : List Answer} {t : Table (Option Area)},
    Legal t (as ++ [a]) ↔ Legal t as ∧ a.Fits (as.foldl Answer.effect t)
  | [], t => by simp [Legal]
  | a' :: as, t => by
    simp only [List.cons_append, Legal, List.foldl_cons, and_assoc]
    exact and_congr_right fun _ => legal_concat

/-! ## 2. What holds of its histories -/

/-- Areas are under their own numbers, and each has a page to use. -/
def Orderly (t : Table (Option Area)) : Prop :=
  ∀ n a, t.get n = some a → a.number.toNat = n ∧ n < 64 ∧ 1 ≤ a.pages.toNat

/-- Whether there is an area, as a number. -/
def taken (t : Table (Option Area)) (n : Nat) : Nat := if (t.get n).isSome then 1 else 0

theorem taken_of_vacant {t : Table (Option Area)} {n : Nat} (h : t.get n = none) :
    taken t n = 0 := by
  unfold taken
  rw [h]
  rfl

theorem toNat_areaLimit : Slot.areaLimit.toNat = 64 := rfl

/-- An answer that fits keeps areas in order. -/
theorem Answer.Fits.orderly {t : Table (Option Area)} {a : Answer} (h : a.Fits t)
    (ht : Orderly t) : Orderly (a.effect t) := by
  rcases a with ⟨number, why | area⟩ | ⟨number, why | area⟩ | ⟨number, answer⟩ | ⟨slot, answer⟩
  case swapOn.ok =>
    obtain ⟨hnumber, hlimit, hpages, -⟩ := h
    intro n a hn
    replace hn : (t.set number.toNat (some area)).get n = some a := hn
    rw [Table.get_set] at hn
    split at hn
    · rename_i hne
      injection hn with hn
      subst hn hne
      refine ⟨congrArg _ hnumber, ?_, ?_⟩
      · rw [← toNat_areaLimit]
        exact UInt32.lt_iff_toNat_lt.mp hlimit
      · exact Nat.pos_of_ne_zero fun hzero => hpages (UInt64.toNat_inj.mp hzero)
    · exact ht n a hn
  case swapOff.ok =>
    intro n a hn
    replace hn : (t.set number.toNat none).get n = some a := hn
    rw [Table.get_set] at hn
    split at hn
    · exact absurd hn nofun
    · exact ht n a hn
  all_goals exact ht

theorem Legal.orderly : ∀ {as : List Answer} {t : Table (Option Area)}, Legal t as → Orderly t →
    Orderly (as.foldl Answer.effect t)
  | [], _, _, ht => ht
  | _ :: _, _, h, ht => h.2.orderly (h.1.orderly ht)

/-- An answer that fits keeps the account of ups and downs. -/
theorem Answer.Fits.balance {t : Table (Option Area)} {a : Answer} (h : a.Fits t) (n : Nat) :
    taken t n + (a.isUp n).toNat = taken (a.effect t) n + (a.isDown n).toNat := by
  rcases a with ⟨number, why | area⟩ | ⟨number, why | area⟩ | ⟨number, answer⟩ | ⟨slot, answer⟩
  case swapOn.ok =>
    obtain ⟨-, -, -, hvacant⟩ := h
    show taken t n + (decide (number.toNat = n)).toNat = taken (t.set number.toNat (some area)) n
    unfold taken
    rw [Table.get_set]
    by_cases hn : n = number.toNat
    · subst hn
      simp [hvacant]
    · simp [hn, Ne.symm hn]
  case swapOff.ok =>
    have hthere : t.get number.toNat = some area := by
      replace h : Except.ok area = (t.get number.toNat).elim (.error Refusal.noArea) .ok := h
      cases hget : t.get number.toNat with
      | none => rw [hget] at h; exact absurd h nofun
      | some a => rw [hget] at h; injection h with h; rw [h]
    show taken t n = taken (t.set number.toNat none) n + (decide (number.toNat = n)).toNat
    unfold taken
    rw [Table.get_set]
    by_cases hn : n = number.toNat
    · subst hn
      simp [hthere]
    · simp [hn, Ne.symm hn]
  all_goals rfl

/-- **Ups and downs of an area balance.** -/
theorem Legal.balance (n : Nat) : ∀ {as : List Answer} {t : Table (Option Area)}, Legal t as →
    taken t n + as.countP (Answer.isUp n) =
      taken (as.foldl Answer.effect t) n + as.countP (Answer.isDown n)
  | [], _, _ => rfl
  | a :: as, t, h => by
    have hhead := h.1.balance n
    have htail := Legal.balance n h.2
    rw [List.countP_cons, List.countP_cons, List.foldl_cons]
    cases hup : a.isUp n <;> cases hdown : a.isDown n <;>
      simp only [hup, hdown, Bool.toNat_true, Bool.toNat_false, if_true, Bool.false_eq_true,
        if_false] at hhead ⊢ <;> omega

/-! ## 3. Callers -/

/-- Where a caller is who brings an area up. -/
inductive Stage
  /-- Not at the desk. -/
  | away
  /-- Has found its number vacant. -/
  | looked (spec : AreaSpec) (limit : UInt64)
  /-- Has built its area. -/
  | built (area : Area)

/-- **The registry with its callers**, and what they have been answered, the latest last. -/
structure Desk (σ : Type) where
  system : System σ
  callers : Nat → Stage := fun _ => .away
  answers : List Answer := []

namespace Desk

/-- Caller `i` goes on to another stage. -/
def move (o : Desk σ) (i : Nat) (stage : Stage) (s : System σ) : Desk σ :=
  { o with system := s, callers := Function.update o.callers i stage }

/-- Somebody is answered. -/
def answer (o : Desk σ) (a : Answer) (s : System σ) : Desk σ :=
  { o with system := s, answers := o.answers ++ [a] }

end Desk

/-- **One step of a caller**: one visit to the registry, or the layout of an area, which is done
without it.  A caller whose layout faults makes no further step. -/
inductive Visit (b : Backend σ) (o : Desk σ) : Desk σ → Prop
  | look {i : Nat} {spec : AreaSpec} {limit : UInt64} {s : System σ}
      (hstage : o.callers i = .away) (hrun : checkVacant spec.number o.system = .ok (.ok (), s)) :
      Visit b o (o.move i (.looked spec limit) s)
  | refused {i : Nat} {spec : AreaSpec} {why : Refusal} {s : System σ}
      (hstage : o.callers i = .away)
      (hrun : checkVacant spec.number o.system = .ok (.error why, s)) :
      Visit b o (o.answer (.swapOn spec.number (.error why)) s)
  | build {i : Nat} {spec : AreaSpec} {limit : UInt64} {a : Area} {s : System σ}
      (hstage : o.callers i = .looked spec limit)
      (hrun : activate b spec limit o.system = .ok (.ok a, s)) :
      Visit b o (o.move i (.built a) s)
  | giveUp {i : Nat} {spec : AreaSpec} {limit : UInt64} {why : Refusal} {s : System σ}
      (hstage : o.callers i = .looked spec limit)
      (hrun : activate b spec limit o.system = .ok (.error why, s)) :
      Visit b o ((o.move i .away s).answer (.swapOn spec.number (.error why)) s)
  | register {i : Nat} {a : Area} {answer : Except Refusal Area} {s : System σ}
      (hstage : o.callers i = .built a)
      (hrun : PageSwap.register a o.system = .ok (answer, s)) :
      Visit b o ((o.move i .away s).answer (.swapOn a.number answer) s)
  | swapOff {number : UInt32} {answer : Except Refusal Area} {s : System σ}
      (hrun : PageSwap.swapOff number o.system = .ok (answer, s)) :
      Visit b o (o.answer (.swapOff number answer) s)
  | swapArea {number : UInt32} {answer : Except Refusal Area} {s : System σ}
      (hrun : PageSwap.swapArea number o.system = .ok (answer, s)) :
      Visit b o (o.answer (.swapArea number answer) s)
  | areaOf {p : PageId} {answer : Except Refusal Area} {s : System σ}
      (hrun : PageSwap.areaOf p o.system = .ok (answer, s)) :
      Visit b o (o.answer (.areaOf (o.system.pages.get p).slot answer) s)
  /-- Anything that leaves the registry alone. -/
  | elsewhere {s : System σ} (hregistry : s.registry = o.system.registry) :
      Visit b o { o with system := s }

/-- Steps of any number of callers, in any order. -/
abbrev Visits (b : Backend σ) : Desk σ → Desk σ → Prop := Relation.ReflTransGen (Visit b)

/-! ## 4. What one step does -/

section

variable {b : Backend σ} {s s' : System σ} {spec : AreaSpec} {limit : UInt64}

/-- **The first look at the registry.** -/
theorem checkVacant_eq (number : UInt32) (s : System σ) : checkVacant number s =
    .ok (if Slot.areaLimit ≤ number then .error .areaNumber
      else if (s.area? number).isSome then .error .areaTaken else .ok (), s) := by
  unfold checkVacant
  by_cases hlimit : Slot.areaLimit ≤ number
  · rw [if_pos hlimit, if_pos hlimit]
    rfl
  · rw [if_neg hlimit, if_neg hlimit]
    refine Run.eq_ok_of_wp ?_
    simp only [Run.wp_bind, Run.wp_get]
    cases s.area? number with
    | none => exact ⟨rfl, rfl⟩
    | some area => exact ⟨rfl, rfl⟩

/-- The only refusal of a plan is a hole. -/
theorem Area.Ground.plan_refused {g : Area.Ground} {why : Refusal}
    (h : g.plan limit = .error (.refused why)) : why = .hole := by
  cases g with
  | pages available =>
    unfold Area.Ground.plan Area.linear at h
    dsimp only at h
    by_cases hmax : min available limit = 0
    · rw [if_pos hmax] at h
      exact absurd h nofun
    · rw [if_neg hmax] at h
      rcases ExtentTable.lists_range hmax with ⟨k, t, hadd, -⟩ | hadd
      · rw [hadd] at h
        exact absurd h nofun
      · rw [hadd] at h
        exact absurd h (by simp [bind, Except.bind])
  | blocks map =>
    have hscan := Layout.scan_spec map limit
    replace h : Layout.scan map limit = .error (.refused why) := h
    rw [h] at hscan
    rcases hscan with hscan | hscan | ⟨hscan, -⟩
    · injection hscan with hscan
    · exact absurd hscan nofun
    · exact absurd hscan nofun

/-- What the layout of an area may answer: an area with the number of the spec and a page to use, or
that there is a hole, or that no page is left to use. -/
def AreaSpec.Gives (spec : AreaSpec) : Except Refusal Area → Prop
  | .ok a => a.number = spec.number ∧ a.pages ≠ 0
  | .error why => why = .hole ∨ why = .emptyArea

theorem AreaSpec.gives_build (spec : AreaSpec) (synchronous : Bool)
    (plan : ExtentTable × Dimensions) : spec.Gives (Area.build spec synchronous plan) := by
  unfold Area.build
  by_cases hpages : plan.2.pages = 0
  · rw [if_pos hpages]
    exact .inr rfl
  · rw [if_neg hpages]
    exact ⟨rfl, hpages⟩

/-- **The layout of an area** leaves the registry alone. -/
theorem activate_cases {answer : Except Refusal Area}
    (hrun : activate b spec limit s = .ok (answer, s')) :
    s'.registry = s.registry ∧ spec.Gives answer := by
  have hspec := activate_spec b spec limit s
  rcases hplan : (groundOf b spec s).plan limit with (why | f) | plan
  all_goals rw [hplan] at hspec
  · obtain ⟨console, hspec⟩ := hspec
    rw [hspec] at hrun
    injection hrun with hrun
    injection hrun with hanswer hstate
    subst hanswer hstate
    exact ⟨rfl, .inl (Area.Ground.plan_refused hplan)⟩
  · exact absurd (hspec.symm.trans hrun) nofun
  · obtain ⟨console, hspec⟩ := hspec
    rw [hspec] at hrun
    injection hrun with hrun
    injection hrun with hanswer hstate
    subst hanswer hstate
    exact ⟨rfl, spec.gives_build _ _⟩

/-- **The second look**, and the only place where an area gets registered. -/
theorem register_cases {a : Area} {answer : Except Refusal Area}
    (hrun : register a s = .ok (answer, s')) :
    (s.registry.get a.number.toNat).isSome ∧ answer = .error .areaTaken ∧
        s'.registry = s.registry ∨
      s.registry.get a.number.toNat = none ∧ answer = .ok a ∧
        s'.registry = s.registry.set a.number.toNat (some a) := by
  have hwp : (register a : Run σ _).wp (fun answer s' =>
      (s.registry.get a.number.toNat).isSome ∧ answer = .error .areaTaken ∧
          s'.registry = s.registry ∨
        s.registry.get a.number.toNat = none ∧ answer = .ok a ∧
          s'.registry = s.registry.set a.number.toNat (some a)) (fun _ => True) s := by
    unfold register System.area?
    simp only [Run.wp_bind, Run.wp_get]
    cases s.registry.get a.number.toNat with
    | none => exact .inr ⟨rfl, rfl, rfl⟩
    | some other => exact .inl ⟨rfl, rfl, rfl⟩
  exact hwp.of_ok hrun

/-- Taking an area down. -/
theorem swapOff_cases {number : UInt32} {answer : Except Refusal Area}
    (hrun : swapOff number s = .ok (answer, s')) :
    answer = (s.registry.get number.toNat).elim (.error .noArea) .ok ∧
      s'.registry = Answer.effect s.registry (.swapOff number answer) := by
  have hwp : (swapOff number : Run σ _).wp (fun answer s' =>
      answer = (s.registry.get number.toNat).elim (.error .noArea) .ok ∧
        s'.registry = Answer.effect s.registry (.swapOff number answer)) (fun _ => True) s := by
    unfold swapOff System.area?
    simp only [Run.wp_bind, Run.wp_get]
    cases s.registry.get number.toNat with
    | none => exact ⟨rfl, rfl⟩
    | some a => exact ⟨rfl, rfl⟩
  exact hwp.of_ok hrun

/-- Looking an area up. -/
theorem swapArea_cases {number : UInt32} {answer : Except Refusal Area}
    (hrun : swapArea number s = .ok (answer, s')) :
    answer = (s.registry.get number.toNat).elim (.error .noArea) .ok ∧ s' = s := by
  have hwp : (swapArea number : Run σ _).wp (fun answer s' =>
      answer = (s.registry.get number.toNat).elim (.error .noArea) .ok ∧ s' = s)
      (fun _ => True) s := by
    unfold swapArea System.area?
    simp only [Run.wp_bind, Run.wp_get]
    cases s.registry.get number.toNat with
    | none => exact ⟨rfl, rfl⟩
    | some a => exact ⟨rfl, rfl⟩
  exact hwp.of_ok hrun

/-- Looking the area of a page up. -/
theorem areaOf_cases {p : PageId} {answer : Except Refusal Area}
    (hrun : areaOf p s = .ok (answer, s')) :
    answer = (slotArea s.registry (s.pages.get p).slot).elim (.error .noSlot) .ok ∧ s' = s := by
  have hwp : (areaOf p : Run σ _).wp (fun answer s' =>
      answer = (slotArea s.registry (s.pages.get p).slot).elim (.error .noSlot) .ok ∧ s' = s)
      (fun _ => True) s := by
    have harea : s.areaAt p = slotArea s.registry (s.pages.get p).slot := rfl
    rw [areaOf_wp, harea]
    cases slotArea s.registry (s.pages.get p).slot with
    | none => exact ⟨rfl, rfl⟩
    | some a => exact ⟨rfl, rfl⟩
  exact hwp.of_ok hrun

end

/-- A caller only goes on with a number that fits, and with an area that has a page to use. -/
def Stage.Sound : Stage → Prop
  | .away => True
  | .looked spec _ => spec.number < Slot.areaLimit
  | .built a => a.number < Slot.areaLimit ∧ a.pages ≠ 0

section

variable {b : Backend σ} {o o' : Desk σ}

theorem Stage.sound_away : Stage.away.Sound := trivial

theorem sound_update {callers : Nat → Stage} (h : ∀ i, (callers i).Sound) {stage : Stage}
    (hstage : stage.Sound) (i j : Nat) : (Function.update callers i stage j).Sound := by
  by_cases hj : j = i
  · subst hj
    rwa [Function.update_self]
  · rw [Function.update_of_ne hj]
    exact h j

/-- A step leaves callers sound. -/
theorem Visit.sound (hstep : Visit b o o') (h : ∀ i, (o.callers i).Sound) (i : Nat) :
    (o'.callers i).Sound := by
  cases hstep with
  | @look j spec limit s _ hrun =>
    refine sound_update h ?_ j i
    rw [checkVacant_eq] at hrun
    by_cases hlimit : Slot.areaLimit ≤ spec.number
    · rw [if_pos hlimit] at hrun
      exact absurd hrun (by simp)
    · exact UInt32.not_le.mp hlimit
  | @build j spec limit a s hstage hrun =>
    obtain ⟨-, hnumber, hpages⟩ := activate_cases hrun
    have hlooked := h j
    rw [hstage] at hlooked
    have hbuilt : (Stage.built a).Sound := ⟨hnumber ▸ hlooked, hpages⟩
    exact sound_update h hbuilt j i
  | @giveUp j => exact sound_update h Stage.sound_away j i
  | @register j => exact sound_update h Stage.sound_away j i
  | refused => exact h i
  | swapOff => exact h i
  | swapArea => exact h i
  | areaOf => exact h i
  | elsewhere => exact h i

/-- **A step answers nobody and leaves the registry alone, or it is the single step of the atomic
map that gives its answer.** -/
theorem Visit.atomic (hstep : Visit b o o') (h : ∀ i, (o.callers i).Sound) :
    o'.answers = o.answers ∧ o'.system.registry = o.system.registry ∨
      ∃ a : Answer, o'.answers = o.answers ++ [a] ∧ a.Fits o.system.registry ∧
        o'.system.registry = a.effect o.system.registry := by
  cases hstep with
  | look _ hrun =>
    rw [checkVacant_eq] at hrun
    injection hrun with hrun
    injection hrun with _ hstate
    exact .inl ⟨rfl, congrArg System.registry hstate.symm⟩
  | refused _ hrun =>
    rw [checkVacant_eq] at hrun
    injection hrun with hrun
    injection hrun with hanswer hstate
    refine .inr ⟨_, rfl, ?_, congrArg System.registry hstate.symm⟩
    split at hanswer
    · rename_i hlimit
      injection hanswer with hanswer
      exact .inl ⟨hlimit, hanswer.symm⟩
    · rename_i hlimit
      split at hanswer
      · rename_i htaken
        injection hanswer with hanswer
        exact .inr ⟨UInt32.not_le.mp hlimit, .inl ⟨hanswer.symm, htaken⟩⟩
      · exact absurd hanswer nofun
  | build _ hrun => exact .inl ⟨rfl, (activate_cases hrun).1⟩
  | @giveUp i spec limit why s hstage hrun =>
    have hlooked := h i
    rw [hstage] at hlooked
    obtain ⟨hregistry, hwhy⟩ := activate_cases hrun
    exact .inr ⟨_, rfl, .inr ⟨hlooked, .inr hwhy⟩, hregistry⟩
  | @register i a answer s hstage hrun =>
    have hbuilt := h i
    rw [hstage] at hbuilt
    refine .inr ⟨_, rfl, ?_⟩
    rcases register_cases hrun with ⟨htaken, rfl, hregistry⟩ | ⟨hvacant, rfl, hregistry⟩
    · exact ⟨.inr ⟨hbuilt.1, .inl ⟨rfl, htaken⟩⟩, hregistry⟩
    · exact ⟨⟨rfl, hbuilt.1, hbuilt.2, hvacant⟩, hregistry⟩
  | swapOff hrun => exact .inr ⟨_, rfl, swapOff_cases hrun⟩
  | swapArea hrun =>
    obtain ⟨hanswer, rfl⟩ := swapArea_cases hrun
    exact .inr ⟨_, rfl, hanswer, rfl⟩
  | areaOf hrun =>
    obtain ⟨hanswer, rfl⟩ := areaOf_cases hrun
    exact .inr ⟨_, rfl, hanswer, rfl⟩
  | elsewhere hregistry => exact .inl ⟨rfl, hregistry⟩

end

/-! ## 5. What any number of steps does -/

/-- Nobody has come yet, and there is no area. -/
structure Desk.Fresh (o : Desk σ) : Prop where
  callers : ∀ i, o.callers i = .away
  answers : o.answers = []
  vacant : ∀ n, o.system.registry.get n = none

/-- The answers are those of the atomic map that began with `t`, and the registry is that map. -/
structure Desk.Atomic (t : Table (Option Area)) (o : Desk σ) : Prop where
  sound : ∀ i, (o.callers i).Sound
  legal : Legal t o.answers
  registry : o.system.registry = o.answers.foldl Answer.effect t

section

variable {b : Backend σ} {start o o' : Desk σ} {t : Table (Option Area)}

theorem Desk.Fresh.atomic (h : o.Fresh) : o.Atomic o.system.registry where
  sound := fun i => by rw [h.callers i]; trivial
  legal := by rw [h.answers]; trivial
  registry := by rw [h.answers]; rfl

theorem Visit.keeps_atomic (hstep : Visit b o o') (h : o.Atomic t) : o'.Atomic t := by
  have hsound := hstep.sound h.sound
  rcases hstep.atomic h.sound with ⟨hanswers, hregistry⟩ | ⟨a, hanswers, hfits, hregistry⟩
  · exact ⟨hsound, hanswers ▸ h.legal, hanswers ▸ hregistry.trans h.registry⟩
  · rw [h.registry] at hfits hregistry
    refine ⟨hsound, ?_, ?_⟩
    · rw [hanswers]
      exact legal_concat.mpr ⟨h.legal, hfits⟩
    · rw [hanswers, List.foldl_append]
      exact hregistry

theorem Visits.atomic (hrun : Visits b start o) (h : start.Atomic t) : o.Atomic t := by
  induction hrun with
  | refl => exact h
  | tail _ hstep ih => exact hstep.keeps_atomic ih

/-- **The registry is linearizable and fails atomically.**  Any number of callers make their steps
in any order, and reach `o` from a desk nobody has come to yet:

* the answers given are a history of the atomic map, in their order, and the registry is that map;
* an area is under its own number, below 64, and has a page to use;
* a step that answers nobody leaves the registry alone; so does one that refuses an area, which it
  does with `invalid` or `alreadyExists`; one that accepts an area has put this area in a vacant
  place;
* an area is there if it was brought up once more often than taken down, otherwise it was taken down
  as often;
* the area of a page is the one whose number its slot has. -/
theorem registry_is_linearizable (hfresh : start.Fresh) (hrun : Visits b start o) :
    (Legal start.system.registry o.answers ∧
      o.system.registry = o.answers.foldl Answer.effect start.system.registry) ∧
    (∀ n a, o.system.registry.get n = some a → a.number.toNat = n ∧ n < 64 ∧ 1 ≤ a.pages.toNat) ∧
    (∀ o', Visit b o o' →
      (o'.answers = o.answers → o'.system.registry = o.system.registry) ∧
      (∀ number why, o'.answers = o.answers ++ [.swapOn number (.error why)] →
        o'.system.registry = o.system.registry ∧
          (why.errno = Errno.invalid ∨ why.errno = Errno.alreadyExists)) ∧
      ∀ number a, o'.answers = o.answers ++ [.swapOn number (.ok a)] →
        a.number = number ∧ o.system.registry.get number.toNat = none ∧
          o'.system.registry = o.system.registry.set number.toNat (some a)) ∧
    (∀ n, (o.answers.countP (Answer.isUp n) : Int) - o.answers.countP (Answer.isDown n) =
      if (o.system.registry.get n).isSome then 1 else 0) ∧
    ∀ p a s, areaOf p o.system = .ok (.ok a, s) →
      ∃ slot, (o.system.pages.get p).slot = some slot ∧ a.number = slot.area := by
  have h : o.Atomic start.system.registry := Visits.atomic hrun hfresh.atomic
  have horderly : Orderly o.system.registry := by
    rw [h.registry]
    exact h.legal.orderly fun n a hn => absurd ((hfresh.vacant n).symm.trans hn) nofun
  -- a step that gives an answer is the atomic one
  have hatomic : ∀ {o' a}, Visit b o o' → o'.answers = o.answers ++ [a] →
      a.Fits o.system.registry ∧ o'.system.registry = a.effect o.system.registry := by
    intro o' a hstep hanswer
    rcases hstep.atomic h.sound with ⟨hnone, -⟩ | ⟨a', hanswer', hfits, hregistry⟩
    · rw [hnone] at hanswer
      exact absurd (congrArg List.length hanswer) (by simp)
    · rw [hanswer'] at hanswer
      obtain rfl := List.singleton_inj.mp (List.append_cancel_left hanswer)
      exact ⟨hfits, hregistry⟩
  refine ⟨⟨h.legal, h.registry⟩, horderly, fun o' hstep => ⟨?_, ?_, ?_⟩, fun n => ?_, ?_⟩
  · intro hnone
    rcases hstep.atomic h.sound with ⟨-, hregistry⟩ | ⟨a, hanswer, -⟩
    · exact hregistry
    · rw [hnone] at hanswer
      exact absurd (congrArg List.length hanswer) (by simp)
  · intro number why hanswer
    obtain ⟨hfits, hregistry⟩ := hatomic hstep hanswer
    obtain ⟨hsame, herrno⟩ := Answer.fits_refused hfits
    exact ⟨hregistry.trans hsame, herrno⟩
  · intro number a hanswer
    obtain ⟨hfits, hregistry⟩ := hatomic hstep hanswer
    exact ⟨hfits.1, hfits.2.2.2, hregistry⟩
  · have hbalance := h.legal.balance n
    rw [← h.registry, taken_of_vacant (hfresh.vacant n)] at hbalance
    have htaken : (if (o.system.registry.get n).isSome then (1 : Int) else 0) =
        taken o.system.registry n := by
      unfold taken
      split <;> rfl
    rw [htaken]
    omega
  · intro p a s harea
    obtain ⟨hanswer, -⟩ := areaOf_cases harea
    unfold slotArea at hanswer
    cases hslot : (o.system.pages.get p).slot with
    | none => rw [hslot] at hanswer; exact absurd hanswer nofun
    | some slot =>
      rw [hslot, Option.bind_some] at hanswer
      cases hget : o.system.registry.get slot.area.toNat with
      | none => rw [hget] at hanswer; exact absurd hanswer nofun
      | some a' =>
        rw [hget] at hanswer
        injection hanswer with hanswer
        subst hanswer
        exact ⟨slot, rfl, UInt32.toNat_inj.mp (horderly _ _ hget).1⟩

end

/-! ## 6. Areas brought up inside of each other -/

/-- Among callers who are where they are, the operation `m` is a run of visits, at the end of which
its caller has been told what `said` makes of its answer. -/
def Visiting {α : Type} (b : Backend σ) (m : Run σ α) (said : α → List Answer)
    (callers : Nat → Stage) : Prop :=
  ∀ (o : Desk σ) a s, o.callers = callers → m o.system = .ok (a, s) →
    ∃ o' others, Visits b o o' ∧ o'.system = s ∧ o'.callers = callers ∧
      o'.answers = o.answers ++ others ++ said a

section

variable {b : Backend σ} {callers : Nat → Stage}

theorem visiting_pure : Visiting b (pure () : Run σ Unit) (fun _ => []) callers := by
  rintro o a s rfl hrun
  injection hrun with hrun
  injection hrun with _ hstate
  exact ⟨o, [], .refl, hstate, rfl, by simp⟩

/-- What an operation answers need not be looked at. -/
theorem Visiting.discard {α : Type} {m : Run σ α} {said : α → List Answer}
    (h : Visiting b m said callers) :
    Visiting b (do let _ ← m; pure () : Run σ Unit) (fun _ => []) callers := by
  intro o a s hcallers hrun
  replace hrun : (m o.system >>= fun r => (pure () : Run σ Unit) r.2) = .ok (a, s) := hrun
  cases hm : m o.system with
  | error f => rw [hm] at hrun; exact absurd hrun nofun
  | ok r =>
    rw [hm] at hrun
    injection hrun with hrun
    injection hrun with _ hstate
    obtain ⟨o', others, hvisits, hsystem, hcallers', hanswers⟩ := h o _ _ hcallers hm
    exact ⟨o', others ++ said r.1, hvisits, hsystem.trans hstate, hcallers', by simp [hanswers]⟩

/-- **Bringing an area up is a run of visits**, whatever runs of visits take place meanwhile. -/
theorem Visiting.swapOn {spec : AreaSpec} {limit : UInt64} {meanwhile : Run σ Unit} {i : Nat}
    {said : Unit → List Answer} (haway : callers i = .away)
    (hmeanwhile : Visiting b meanwhile said (Function.update callers i (.looked spec limit))) :
    Visiting b (PageSwap.swapOn b spec limit meanwhile) (fun r => [.swapOn spec.number r])
      callers := by
  rintro o answer s rfl hrun
  unfold PageSwap.swapOn at hrun
  replace hrun := Run.of_bind hrun
  obtain ⟨vacant, s₀, hvacant, hrun⟩ := hrun
  cases vacant with
  | error why =>
    injection hrun with hrun
    injection hrun with hanswer hstate
    subst hanswer hstate
    exact ⟨_, [], .single (.refused haway hvacant), rfl, rfl, by simp [Desk.answer]⟩
  | ok u =>
    obtain ⟨u', s₁, hmean, hrun⟩ := Run.of_bind hrun
    obtain ⟨built, s₂, hbuild, hrun⟩ := Run.of_bind hrun
    have hlook : Visit b o (o.move i (.looked spec limit) s₀) := .look haway hvacant
    obtain ⟨o₁, others, hvisits, hsystem, hcallers, hanswers⟩ :=
      hmeanwhile (o.move i (.looked spec limit) s₀) u' s₁ rfl hmean
    have hlooked : o₁.callers i = .looked spec limit := by
      rw [hcallers, Function.update_self]
    have hback : Function.update o₁.callers i .away = o.callers := by
      rw [hcallers, Function.update_idem, ← haway, Function.update_eq_self]
    rw [← hsystem] at hbuild
    have hbefore : Visits b o o₁ := .head hlook hvisits
    cases built with
    | error why =>
      injection hrun with hrun
      injection hrun with hanswer hstate
      subst hanswer hstate
      refine ⟨_, others ++ said u', hbefore.tail (.giveUp hlooked hbuild), rfl, hback, ?_⟩
      simp [Desk.answer, Desk.move, hanswers]
    | ok a =>
      obtain ⟨-, hnumber, -⟩ := activate_cases hbuild
      refine ⟨_, others ++ said u', (hbefore.tail (.build hlooked hbuild)).tail
        (.register (Function.update_self _ _ _) hrun), rfl, ?_, ?_⟩
      · show Function.update (Function.update o₁.callers i (.built a)) i .away = o.callers
        rw [Function.update_idem]
        exact hback
      · simp [Desk.answer, Desk.move, hanswers, hnumber]

end

/-- An area on a file, brought up while an area on a device is laid out under the same number. -/
def ramNested : Run RamDisk (Except Refusal Area) :=
  swapOn (ramDisk true) (ramSpec (.device 0)) 8 do
    let _ ← swapOn (ramDisk true) (ramSpec (.file 0)) 8
    pure ()

/-- The state after it. -/
def ramNestedUp : System RamDisk :=
  match ramNested ramStart with
  | .ok (_, s) => s
  | .error _ => ramStart

/-- **The inner area gets the number and the outer one is refused**, though it had found the number
vacant. -/
theorem inner_area_gets_the_number :
    ramNested ramStart = .ok (.error .areaTaken, ramNestedUp) ∧
    (ramNestedUp.registry.get 0).map (·.backing) = some (.file 0) ∧
    ∃ o, Visits (ramDisk true) { system := ramStart } o ∧ o.system = ramNestedUp ∧
      o.answers.getLast? = some (.swapOn 0 (.error .areaTaken)) ∧
      (o.answers.countP (Answer.isUp 0) : Int) - o.answers.countP (Answer.isDown 0) = 1 := by
  have hrun : ramNested ramStart = .ok (.error .areaTaken, ramNestedUp) := rfl
  have hup : (ramNestedUp.registry.get 0).map (·.backing) = some (.file 0) := by decide +kernel
  have hinner : Visiting (ramDisk true) (do let _ ← swapOn (ramDisk true) (ramSpec (.file 0)) 8) _
      (Function.update (fun _ => .away) 0 (.looked (ramSpec (.device 0)) 8)) :=
    (Visiting.swapOn (i := 1) rfl visiting_pure).discard
  obtain ⟨o, others, hvisits, hsystem, -, hanswers⟩ :=
    Visiting.swapOn (i := 0) rfl hinner { system := ramStart } _ _ rfl hrun
  have hfresh : Desk.Fresh { system := ramStart } := ⟨fun _ => rfl, rfl, fun _ => rfl⟩
  obtain ⟨-, -, -, hbalance, -⟩ := registry_is_linearizable hfresh hvisits
  refine ⟨hrun, hup, o, hvisits, hsystem, ?_, ?_⟩
  · rw [hanswers, List.getLast?_append]
    rfl
  · rw [hbalance 0, hsystem]
    decide +kernel

end PageSwap
