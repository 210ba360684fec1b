import LayerInference.Runs
import LayerInference.ThreadCounts

/-!
# The backpressure guard of the Python gateway

Requests on any number of threads share one guard: a monitor with a lock, a
condition, a flag for the request in flight and a count of those waiting. Each
step is one access under the lock, so that requests interleave wherever the
monitor lets them. A sleeping thread may also wake without a notification, and
a thread that finds the lock free may overtake one that was notified.
-/

namespace LayerInference.BackpressureGuard

open Runs ThreadCounts

/-- Where a request stands in `acquire` and `release`. -/
inductive Point where
  | idle
  /-- At the lock of `acquire`, with its limit. -/
  | entering (limit : ℤ)
  | checkInflight (limit : ℤ)
  | checkLimit (limit : ℤ)
  | checkWaiting (limit : ℤ)
  | countUp (limit : ℤ)
  /-- At the condition of the wait loop. -/
  | testLoop
  /-- In `wait`, without the lock and not notified. -/
  | asleep
  /-- In `wait`, notified, at the lock. -/
  | notified
  | takeSlot
  /-- In the `finally` of `acquire`. -/
  | countDown
  /-- Returning from `acquire`, still with the lock. -/
  | leaving (acquired : Bool)
  /-- Behind an `acquire` that returned true. -/
  | holding
  /-- At the lock of `release`. -/
  | releasing
  | decrement
  | notify
  /-- Returning from `release`, still with the lock. -/
  | leavingRelease
  deriving DecidableEq

namespace Point

/-- Inside the lock. -/
def locked : Point → Bool
  | idle | entering _ | asleep | notified | holding | releasing => false
  | _ => true

/-- The request holds the guard. -/
def possesses : Point → Bool
  | countDown | leaving true | holding | releasing | decrement => true
  | _ => false

/-- The request is counted as waiting. -/
def blocked : Point → Bool
  | testLoop | asleep | notified | takeSlot | countDown => true
  | _ => false

/-- A notification is under way, or a waiting request is about to look again. -/
def awake : Point → Bool
  | testLoop | notified | takeSlot | notify => true
  | _ => false

/-- The way of an `acquire` that is rejected, from the lock to its return. -/
def rejecting : Point → Bool
  | checkInflight _ | checkLimit _ | checkWaiting _ | leaving false => true
  | _ => false

/-- An `acquire` that can still be rejected. -/
def mayReject : Point → Bool
  | entering _ => true
  | point => point.rejecting

end Point

variable {ι : Type} [DecidableEq ι]

/-- The guard, the owner of its lock and the requests at it. -/
structure GuardState (ι : Type) where
  inflight : ℤ := 0
  waiting : ℤ := 0
  owner : Option ι := none
  point : ι → Point := fun _ => .idle

/-- What can happen: a call, a step of a request or a wakeup for no reason. -/
inductive GuardEvent (ι : Type) where
  | acquire (t : ι) (queueLimit : ℤ)
  | release (t : ι)
  | advance (t : ι)
  | wake (t : ι)
  deriving DecidableEq

/-- The state with one request at another point. -/
def GuardState.move (s : GuardState ι) (t : ι) (point : Point) : GuardState ι :=
  { s with point := Function.update s.point t point }

/-- Every sleeping request is notified. -/
def GuardState.notifyAll (s : GuardState ι) : GuardState ι :=
  { s with point := fun t => if s.point t = .asleep then .notified else s.point t }

/-- The next step of a request, if it has one. -/
def advance (s : GuardState ι) (t : ι) : Option (GuardState ι) :=
  match s.point t with
  | .entering limit =>
    if s.owner = none then some ({ s with owner := some t }.move t (.checkInflight limit)) else none
  | .checkInflight limit =>
    if s.inflight = 0 then some ({ s with inflight := 1 }.move t (.leaving true))
    else some (s.move t (.checkLimit limit))
  | .checkLimit limit =>
    if limit = 0 then some (s.move t (.leaving false)) else some (s.move t (.checkWaiting limit))
  | .checkWaiting limit =>
    if s.waiting ≥ limit then some (s.move t (.leaving false))
    else some (s.move t (.countUp limit))
  | .countUp _ => some ({ s with waiting := s.waiting + 1 }.move t .testLoop)
  | .testLoop =>
    if s.inflight > 0 then some ({ s with owner := none }.move t .asleep)
    else some (s.move t .takeSlot)
  | .notified =>
    if s.owner = none then some ({ s with owner := some t }.move t .testLoop) else none
  | .takeSlot => some ({ s with inflight := 1 }.move t .countDown)
  | .countDown => some ({ s with waiting := s.waiting - 1 }.move t (.leaving true))
  | .leaving acquired =>
    some ({ s with owner := none }.move t (if acquired then .holding else .idle))
  | .releasing =>
    if s.owner = none then some ({ s with owner := some t }.move t .decrement) else none
  | .decrement =>
    some ({ s with
      inflight := if s.inflight > 0 then s.inflight - 1 else s.inflight }.move t .notify)
  | .notify => some (s.notifyAll.move t .leavingRelease)
  | .leavingRelease => some ({ s with owner := none }.move t .idle)
  | .idle | .asleep | .holding => none

/-- One event. A request calls `acquire` when it has nothing to do with the
guard, and `release` once behind an `acquire` that returned true. -/
def step (s : GuardState ι) : GuardEvent ι → Option (GuardState ι)
  | .acquire t queueLimit =>
    if s.point t = .idle then some (s.move t (.entering (max 0 queueLimit))) else none
  | .release t => if s.point t = .holding then some (s.move t .releasing) else none
  | .advance t => advance s t
  | .wake t => if s.point t = .asleep then some (s.move t .notified) else none

def GuardStep (s : GuardState ι) (e : GuardEvent ι) (s' : GuardState ι) : Prop := step s e = some s'

/-- The largest limit that was passed, or zero. -/
def largestLimit : List (GuardEvent ι) → ℤ
  | [] => 0
  | .acquire _ queueLimit :: events => max queueLimit (largestLimit events)
  | _ :: events => largestLimit events

/-- A request holds the guard. -/
def Holds (s : GuardState ι) (t : ι) : Prop := (s.point t).possesses

/-- A request is blocked in `acquire`. -/
def Blocked (s : GuardState ι) (t : ι) : Prop := (s.point t).blocked

instance (s : GuardState ι) : DecidablePred (Holds s) := fun t =>
  inferInstanceAs (Decidable ((s.point t).possesses = true))

instance (s : GuardState ι) : DecidablePred (Blocked s) := fun t =>
  inferInstanceAs (Decidable ((s.point t).blocked = true))

section Invariant

variable {bound : ℤ} {s s' : GuardState ι}

/-- What is known where a request stands. Behind the checks the shared values
still are what was read, because the lock is held. -/
def Fits (bound inflight waiting : ℤ) : Point → Prop
  | .entering limit | .checkInflight limit | .checkLimit limit | .checkWaiting limit =>
    limit ≤ bound
  | .countUp limit => waiting < limit ∧ limit ≤ bound
  | .takeSlot => inflight = 0
  | _ => True

/-- The invariant over the points of all requests. -/
structure Consistent [Fintype ι] (bound : ℤ) (s : GuardState ι) : Prop where
  lock : ∀ t, (s.point t).locked = true ↔ s.owner = some t
  inflight : s.inflight = countAt Point.possesses s.point
  single : s.inflight ≤ 1
  waiting : s.waiting = countAt Point.blocked s.point
  bounded : s.waiting ≤ bound
  fits : ∀ t, Fits bound s.inflight s.waiting (s.point t)
  wakeup : s.inflight = 0 → (∃ t, s.point t = .asleep) → ∃ t, (s.point t).awake = true

/-- Away from the lock nothing is known of the shared values. -/
theorem Fits.of_unlocked {inflight waiting inflight' waiting' : ℤ} {point : Point}
    (h : Fits bound inflight waiting point) (hlocked : point.locked = false) :
    Fits bound inflight' waiting' point := by
  cases point with
  | countUp limit => cases hlocked
  | takeSlot => cases hlocked
  | _ => exact h

variable [Fintype ι]

/-- One request moves; the counters follow its points, and only the owner of
the lock changes them. -/
theorem Consistent.move (h : Consistent bound s) {t : ι} {p q : Point} (hp : s.point t = p)
    {inflight waiting : ℤ} {owner : Option ι}
    (hlock : q.locked = true ∧ owner = some t ∧ (p.locked = true ∨ s.owner = none) ∨
      q.locked = false ∧ owner = if p.locked then none else s.owner)
    (hinflight : inflight = s.inflight + weight Point.possesses q - weight Point.possesses p)
    (hsingle : inflight ≤ 1)
    (hwaiting : waiting = s.waiting + weight Point.blocked q - weight Point.blocked p)
    (hbounded : waiting ≤ bound) (hfits : Fits bound inflight waiting q)
    (hothers : p.locked = true ∨ inflight = s.inflight ∧ waiting = s.waiting)
    (hwakeup : inflight ≠ 0 ∨ q.awake = true ∨
      q ≠ .asleep ∧ (s.inflight = 0 ∧ p.awake = false ∨ ∀ u, s.point u ≠ .asleep)) :
    Consistent bound ⟨inflight, waiting, owner, Function.update s.point t q⟩ where
  lock u := by
    dsimp only
    subst p
    by_cases hu : u = t
    · subst u
      rw [Function.update_self]
      rcases hlock with ⟨hq, howner, -⟩ | ⟨hq, howner⟩
      · exact iff_of_true hq howner
      · refine iff_of_false (by rw [hq]; decide) ?_
        rw [howner]
        split
        · exact Option.some_ne_none t ∘ Eq.symm
        · next hp => exact fun hs => hp ((h.lock t).mpr hs)
    · rw [Function.update_of_ne hu, h.lock u]
      rcases hlock with ⟨-, howner, hbefore⟩ | ⟨-, howner⟩
      · rw [howner]
        refine iff_of_false ?_ fun heq => hu (Option.some.inj heq).symm
        rcases hbefore with hp | hnone
        · rw [(h.lock t).mp hp]
          exact fun heq => hu (Option.some.inj heq).symm
        · rw [hnone]
          exact Option.some_ne_none u ∘ Eq.symm
      · rw [howner]
        split
        · next hp =>
          rw [(h.lock t).mp hp]
          exact iff_of_false (fun heq => hu (Option.some.inj heq).symm)
            (Option.some_ne_none u ∘ Eq.symm)
        · rfl
  inflight := by rw [countAt_update, ← h.inflight, hp, hinflight]
  single := hsingle
  waiting := by rw [countAt_update, ← h.waiting, hp, hwaiting]
  bounded := hbounded
  fits u := by
    dsimp only
    subst p
    by_cases hu : u = t
    · subst u
      rw [Function.update_self]
      exact hfits
    · rw [Function.update_of_ne hu]
      rcases hothers with hp | ⟨hi, hw⟩
      · refine (h.fits u).of_unlocked (Bool.eq_false_iff.mpr fun hlocked => ?_)
        have howner := (h.lock u).mp hlocked
        rw [(h.lock t).mp hp] at howner
        exact hu (Option.some.inj howner).symm
      · subst hi
        subst hw
        exact h.fits u
  wakeup hzero := by
    dsimp only at hzero ⊢
    subst p
    rintro ⟨u, hu⟩
    rcases hwakeup with hne | hq | ⟨hq, hrest⟩
    · exact absurd hzero hne
    · exact ⟨t, by rw [Function.update_self]; exact hq⟩
    · have hut : u ≠ t := by
        rintro rfl
        rw [Function.update_self] at hu
        exact hq hu
      rw [Function.update_of_ne hut] at hu
      rcases hrest with ⟨hbefore, hp⟩ | hnone
      · obtain ⟨v, hv⟩ := h.wakeup hbefore ⟨u, hu⟩
        have hvt : v ≠ t := by
          rintro rfl
          rw [hp] at hv
          cases hv
        exact ⟨v, by rw [Function.update_of_ne hvt]; exact hv⟩
      · exact absurd hu (hnone u)

omit [DecidableEq ι] in
/-- Notifying all changes no class of points. -/
theorem Consistent.notifyAll (h : Consistent bound s) : Consistent bound s.notifyAll := by
  have hclass : ∀ (p : Point → Bool), p .notified = p .asleep →
      ∀ t, p (s.notifyAll.point t) = p (s.point t) := by
    intro p hp t
    change p (if s.point t = .asleep then .notified else s.point t) = _
    split
    · next hasleep => rw [hp, hasleep]
    · rfl
  refine ⟨fun t => ?_, ?_, h.single, ?_, h.bounded, fun t => ?_, fun hzero => ?_⟩
  · rw [hclass Point.locked rfl]
    exact h.lock t
  · rw [countAt_congr (hclass Point.possesses rfl)]
    exact h.inflight
  · rw [countAt_congr (hclass Point.blocked rfl)]
    exact h.waiting
  · change Fits bound s.inflight s.waiting (if s.point t = .asleep then .notified else s.point t)
    split
    · trivial
    · exact h.fits t
  · rintro ⟨t, ht⟩
    change (if s.point t = .asleep then Point.notified else s.point t) = .asleep at ht
    split at ht
    · cases ht
    · next hasleep => exact absurd ht hasleep

omit [DecidableEq ι] in
/-- A request that possesses the guard has the flag set. -/
theorem Consistent.inflight_of_possesses (h : Consistent bound s) {t : ι}
    (ht : (s.point t).possesses = true) : s.inflight = 1 := by
  have hpos : 0 < s.inflight := by
    rw [h.inflight]
    exact countAt_pos_iff.mpr ⟨t, ht⟩
  have hle := h.single
  omega

/-- A request that moves on without a change of the counters. -/
theorem Consistent.goes (h : Consistent bound s) {t : ι} {p q : Point} (hp : s.point t = p)
    {owner : Option ι}
    (hlock : q.locked = true ∧ owner = some t ∧ (p.locked = true ∨ s.owner = none) ∨
      q.locked = false ∧ owner = if p.locked then none else s.owner)
    (hpossesses : q.possesses = p.possesses) (hblocked : q.blocked = p.blocked)
    (hfits : Fits bound s.inflight s.waiting q)
    (hwakeup : s.inflight ≠ 0 ∨ q.awake = true ∨
      q ≠ .asleep ∧ (p.awake = false ∨ ∀ u, s.point u ≠ .asleep)) :
    Consistent bound ⟨s.inflight, s.waiting, owner, Function.update s.point t q⟩ := by
  refine h.move hp hlock ?_ h.single ?_ h.bounded hfits (.inr ⟨rfl, rfl⟩) ?_
  · rw [weight, weight, hpossesses]
    omega
  · rw [weight, weight, hblocked]
    omega
  · by_cases hzero : s.inflight = 0
    · refine hwakeup.imp id (Or.imp id fun hboth => ⟨hboth.1, ?_⟩)
      exact hboth.2.imp (fun hp => ⟨hzero, hp⟩) id
    · exact .inl hzero

/-- The owner of the lock moves on inside it. -/
theorem Consistent.stays (h : Consistent bound s) {t : ι} {p q : Point} (hp : s.point t = p)
    (hlocked : p.locked = true) (hlocked' : q.locked = true)
    (hpossesses : q.possesses = p.possesses) (hblocked : q.blocked = p.blocked)
    (hfits : Fits bound s.inflight s.waiting q)
    (hwakeup : q.awake = true ∨ p.awake = false ∧ q ≠ .asleep) : Consistent bound (s.move t q) := by
  have howner : s.owner = some t := (h.lock t).mp (hp ▸ hlocked)
  exact h.goes hp (.inl ⟨hlocked', howner, .inl hlocked⟩) hpossesses hblocked hfits
    (.inr (hwakeup.imp id fun hboth => ⟨hboth.2, .inl hboth.1⟩))

/-- One step of a request keeps the invariant. -/
theorem Consistent.advance (h : Consistent bound s) {t : ι}
    (hstep : BackpressureGuard.advance s t = some s') : Consistent bound s' := by
  have hfits := h.fits t
  have hlock := (h.lock t).mp
  unfold BackpressureGuard.advance at hstep
  cases hp : s.point t with
  | idle => rw [hp] at hstep; cases hstep
  | asleep => rw [hp] at hstep; cases hstep
  | holding => rw [hp] at hstep; cases hstep
  | entering limit =>
    rw [hp] at hstep hfits
    dsimp only at hstep
    split at hstep
    · next hfree =>
      obtain rfl := Option.some.inj hstep
      exact h.goes hp (.inl ⟨rfl, rfl, .inr hfree⟩) rfl rfl hfits (.inr (.inr ⟨(Point.noConfusion ·), .inl rfl⟩))
    · cases hstep
  | checkInflight limit =>
    rw [hp] at hstep hfits hlock
    dsimp only at hstep
    split at hstep
    · next hzero =>
      obtain rfl := Option.some.inj hstep
      exact h.move hp (.inl ⟨rfl, hlock rfl, .inl rfl⟩) (by rw [hzero]; rfl) le_rfl
        (by rw [weight, weight]; simp [Point.blocked]) h.bounded trivial (.inl rfl)
        (.inl one_ne_zero)
    · obtain rfl := Option.some.inj hstep
      exact h.stays hp rfl rfl rfl rfl hfits (.inr ⟨rfl, (Point.noConfusion ·)⟩)
  | checkLimit limit =>
    rw [hp] at hstep hfits
    dsimp only at hstep
    split at hstep
    · obtain rfl := Option.some.inj hstep
      exact h.stays hp rfl rfl rfl rfl trivial (.inr ⟨rfl, (Point.noConfusion ·)⟩)
    · obtain rfl := Option.some.inj hstep
      exact h.stays hp rfl rfl rfl rfl hfits (.inr ⟨rfl, (Point.noConfusion ·)⟩)
  | checkWaiting limit =>
    rw [hp] at hstep hfits
    dsimp only at hstep
    split at hstep
    · obtain rfl := Option.some.inj hstep
      exact h.stays hp rfl rfl rfl rfl trivial (.inr ⟨rfl, (Point.noConfusion ·)⟩)
    · next hroom =>
      obtain rfl := Option.some.inj hstep
      exact h.stays hp rfl rfl rfl rfl ⟨not_le.mp hroom, hfits⟩ (.inr ⟨rfl, (Point.noConfusion ·)⟩)
  | countUp limit =>
    rw [hp] at hstep hfits hlock
    obtain rfl := Option.some.inj hstep
    exact h.move hp (.inl ⟨rfl, hlock rfl, .inl rfl⟩) (by simp [weight, Point.possesses]) h.single
      (by simp [weight, Point.blocked]) (le_trans hfits.1 hfits.2) trivial (.inl rfl)
      (.inr (.inl rfl))
  | testLoop =>
    rw [hp] at hstep
    dsimp only at hstep
    split at hstep
    · next hbusy =>
      obtain rfl := Option.some.inj hstep
      exact h.goes hp (.inr ⟨rfl, rfl⟩) rfl rfl trivial (.inl hbusy.ne')
    · next hfree =>
      obtain rfl := Option.some.inj hstep
      have hnonneg : 0 ≤ s.inflight := h.inflight ▸ countAt_nonneg _ _
      exact h.stays hp rfl rfl rfl rfl (le_antisymm (not_lt.mp hfree) hnonneg) (.inl rfl)
  | notified =>
    rw [hp] at hstep
    dsimp only at hstep
    split at hstep
    · next hfree =>
      obtain rfl := Option.some.inj hstep
      exact h.goes hp (.inl ⟨rfl, rfl, .inr hfree⟩) rfl rfl trivial (.inr (.inl rfl))
    · cases hstep
  | takeSlot =>
    rw [hp] at hstep hfits hlock
    obtain rfl := Option.some.inj hstep
    have hzero : s.inflight = 0 := hfits
    exact h.move hp (.inl ⟨rfl, hlock rfl, .inl rfl⟩) (by rw [hzero]; rfl) le_rfl
      (by simp [weight, Point.blocked]) h.bounded trivial (.inl rfl) (.inl one_ne_zero)
  | countDown =>
    rw [hp] at hstep hlock
    obtain rfl := Option.some.inj hstep
    have hbusy := h.inflight_of_possesses (hp ▸ rfl : (s.point t).possesses = true)
    have hbounded := h.bounded
    exact h.move hp (.inl ⟨rfl, hlock rfl, .inl rfl⟩) (by simp [weight, Point.possesses]) h.single
      (by simp [weight, Point.blocked]) (by dsimp only; omega) trivial (.inl rfl)
      (.inl (by dsimp only; omega))
  | leaving acquired =>
    rw [hp] at hstep
    obtain rfl := Option.some.inj hstep
    cases acquired with
    | false => exact h.goes hp (.inr ⟨rfl, rfl⟩) rfl rfl trivial (.inr (.inr ⟨(Point.noConfusion ·), .inl rfl⟩))
    | true => exact h.goes hp (.inr ⟨rfl, rfl⟩) rfl rfl trivial (.inr (.inr ⟨(Point.noConfusion ·), .inl rfl⟩))
  | releasing =>
    rw [hp] at hstep
    dsimp only at hstep
    split at hstep
    · next hfree =>
      obtain rfl := Option.some.inj hstep
      exact h.goes hp (.inl ⟨rfl, rfl, .inr hfree⟩) rfl rfl trivial
        (.inr (.inr ⟨(Point.noConfusion ·), .inl rfl⟩))
    · cases hstep
  | decrement =>
    rw [hp] at hstep hlock
    obtain rfl := Option.some.inj hstep
    have hbusy := h.inflight_of_possesses (hp ▸ rfl : (s.point t).possesses = true)
    exact h.move hp (.inl ⟨rfl, hlock rfl, .inl rfl⟩) (by rw [hbusy]; rfl)
      (by dsimp only; rw [hbusy]; decide)
      (by simp [weight, Point.blocked]) h.bounded trivial (.inl rfl) (.inr (.inl rfl))
  | notify =>
    rw [hp] at hstep hlock
    obtain rfl := Option.some.inj hstep
    have hpoint : s.notifyAll.point t = .notify := by
      change (if s.point t = .asleep then Point.notified else s.point t) = .notify
      rw [hp]
      rfl
    refine h.notifyAll.goes hpoint (.inl ⟨rfl, hlock rfl, .inl rfl⟩) rfl rfl trivial
      (.inr (.inr ⟨(Point.noConfusion ·), .inr fun u hu => ?_⟩))
    change (if s.point u = .asleep then Point.notified else s.point u) = .asleep at hu
    split at hu
    · cases hu
    · next hawake => exact hawake hu
  | leavingRelease =>
    rw [hp] at hstep
    obtain rfl := Option.some.inj hstep
    exact h.goes hp (.inr ⟨rfl, rfl⟩) rfl rfl trivial (.inr (.inr ⟨(Point.noConfusion ·), .inl rfl⟩))

/-- A call within the bound keeps the invariant, as does every other event. -/
theorem consistent_step {e : GuardEvent ι} (h : Consistent bound s) (hstep : GuardStep s e s')
    (hbound : ∀ t queueLimit, e = .acquire t queueLimit → queueLimit ≤ bound) (hzero : 0 ≤ bound) :
    Consistent bound s' := by
  cases e with
  | acquire t queueLimit =>
    simp only [GuardStep, step] at hstep
    split at hstep
    · next hp =>
      obtain rfl := Option.some.inj hstep
      exact h.goes hp (.inr ⟨rfl, rfl⟩) rfl rfl (max_le hzero (hbound t queueLimit rfl))
        (.inr (.inr ⟨nofun, .inl rfl⟩))
    · cases hstep
  | release t =>
    simp only [GuardStep, step] at hstep
    split at hstep
    · next hp =>
      obtain rfl := Option.some.inj hstep
      exact h.goes hp (.inr ⟨rfl, rfl⟩) rfl rfl trivial (.inr (.inr ⟨nofun, .inl rfl⟩))
    · cases hstep
  | advance t => exact h.advance hstep
  | wake t =>
    simp only [GuardStep, step] at hstep
    split at hstep
    · next hp =>
      obtain rfl := Option.some.inj hstep
      exact h.goes hp (.inr ⟨rfl, rfl⟩) rfl rfl trivial (.inr (.inl rfl))
    · cases hstep

omit [DecidableEq ι] in
theorem consistent_initial (hzero : 0 ≤ bound) : Consistent bound ({} : GuardState ι) where
  lock t := by simp [Point.locked]
  inflight := by simp [countAt, weight, Point.possesses]
  single := zero_le_one
  waiting := by simp [countAt, weight, Point.blocked]
  bounded := hzero
  fits _ := trivial
  wakeup _ h := by simp at h

omit [DecidableEq ι] [Fintype ι] in
theorem largestLimit_nonneg (events : List (GuardEvent ι)) : 0 ≤ largestLimit events := by
  induction events with
  | nil => exact le_rfl
  | cons e events ih =>
    cases e with
    | acquire t queueLimit => exact le_max_of_le_right ih
    | _ => exact ih

omit [DecidableEq ι] [Fintype ι] in
theorem le_largestLimit {t : ι} {queueLimit : ℤ} {events : List (GuardEvent ι)}
    (h : .acquire t queueLimit ∈ events) : queueLimit ≤ largestLimit events := by
  induction events with
  | nil => cases h
  | cons e events ih =>
    rcases List.mem_cons.mp h with rfl | hmem
    · exact le_max_left _ _
    · cases e with
      | acquire t' queueLimit' => exact le_max_of_le_right (ih hmem)
      | _ => exact ih hmem

/-- The invariant holds after every run. -/
theorem consistent_run {start : GuardState ι} (hstart : Consistent bound start)
    {events : List (GuardEvent ι)} (hrun : Run GuardStep start events s)
    (hbound : largestLimit events ≤ bound) : Consistent bound s := by
  have hzero := (largestLimit_nonneg events).trans hbound
  have hall : ∀ e ∈ events, ∀ t queueLimit, e = .acquire t queueLimit → queueLimit ≤ bound := by
    rintro e he t queueLimit rfl
    exact (le_largestLimit he).trans hbound
  exact (hrun.restrict hall).invariant hstart
    fun _ _ _ hs hstep => consistent_step hs hstep.1 hstep.2 hzero

end Invariant

section Rejection

variable {bound : ℤ} {s s' : GuardState ι} {t : ι}

@[simp] theorem move_point_self (s : GuardState ι) (t : ι) (point : Point) :
    (s.move t point).point t = point := Function.update_self ..

theorem move_point_of_ne (s : GuardState ι) {t u : ι} (h : u ≠ t) (point : Point) :
    (s.move t point).point u = s.point u := Function.update_of_ne h ..

/-- Without the lock a request that needs it cannot move. -/
theorem advance_of_taken {u : ι} (howner : s.owner = some t)
    (hlocked : (s.point u).locked = false) : advance s u = none := by
  unfold advance
  cases hp : s.point u with
  | entering limit => simp [howner]
  | notified => simp [howner]
  | releasing => simp [howner]
  | idle => rfl
  | asleep => rfl
  | holding => rfl
  | _ => rw [hp] at hlocked; cases hlocked

/-- While one request has the lock, the steps of the others leave the counters
and its point. -/
theorem Consistent.kept_by_others [Fintype ι] (h : Consistent bound s)
    (ht : (s.point t).locked = true) {e : GuardEvent ι} (hother : e ≠ .advance t)
    (hstep : GuardStep s e s') :
    s'.inflight = s.inflight ∧ s'.waiting = s.waiting ∧ s'.point t = s.point t := by
  have hne {u : ι} {p : Point} (hu : s.point u = p) (hp : p.locked = false) : t ≠ u := by
    rintro rfl
    rw [hu, hp] at ht
    cases ht
  have howner := (h.lock t).mp ht
  cases e with
  | acquire u queueLimit =>
    simp only [GuardStep, step] at hstep
    split at hstep
    · next hp =>
      obtain rfl := Option.some.inj hstep
      exact ⟨rfl, rfl, move_point_of_ne s (hne hp rfl) _⟩
    · cases hstep
  | release u =>
    simp only [GuardStep, step] at hstep
    split at hstep
    · next hp =>
      obtain rfl := Option.some.inj hstep
      exact ⟨rfl, rfl, move_point_of_ne s (hne hp rfl) _⟩
    · cases hstep
  | advance u =>
    have hu : u ≠ t := fun heq => hother (heq ▸ rfl)
    have hunlocked : (s.point u).locked = false := by
      refine Bool.eq_false_iff.mpr fun hlocked => hu ?_
      have howner' := (h.lock u).mp hlocked
      rw [howner] at howner'
      exact (Option.some.inj howner').symm
    rw [GuardStep, step, advance_of_taken howner hunlocked] at hstep
    cases hstep
  | wake u =>
    simp only [GuardStep, step] at hstep
    split at hstep
    · next hp =>
      obtain rfl := Option.some.inj hstep
      exact ⟨rfl, rfl, move_point_of_ne s (hne hp rfl) _⟩
    · cases hstep

/-- A step moves one request, and notifies others at most. -/
theorem advance_shape (hstep : advance s t = some s') : ∃ m q, s' = GuardState.move m t q ∧
    (∀ u, m.point u = s.point u ∨ m.point u = .notified) ∧
      ((s.point t).mayReject = false → q.mayReject = false) := by
  unfold advance at hstep
  cases hp : s.point t with
  | idle => rw [hp] at hstep; cases hstep
  | asleep => rw [hp] at hstep; cases hstep
  | holding => rw [hp] at hstep; cases hstep
  | countUp limit =>
    rw [hp] at hstep
    obtain rfl := Option.some.inj hstep
    exact ⟨_, _, rfl, fun _ => .inl rfl, fun _ => rfl⟩
  | takeSlot =>
    rw [hp] at hstep
    obtain rfl := Option.some.inj hstep
    exact ⟨_, _, rfl, fun _ => .inl rfl, fun _ => rfl⟩
  | countDown =>
    rw [hp] at hstep
    obtain rfl := Option.some.inj hstep
    exact ⟨_, _, rfl, fun _ => .inl rfl, fun _ => rfl⟩
  | leaving acquired =>
    rw [hp] at hstep
    obtain rfl := Option.some.inj hstep
    exact ⟨_, _, rfl, fun _ => .inl rfl, fun _ => by cases acquired <;> rfl⟩
  | decrement =>
    rw [hp] at hstep
    obtain rfl := Option.some.inj hstep
    exact ⟨_, _, rfl, fun _ => .inl rfl, fun _ => rfl⟩
  | notify =>
    rw [hp] at hstep
    obtain rfl := Option.some.inj hstep
    refine ⟨_, _, rfl, fun u => ?_, fun _ => rfl⟩
    by_cases hasleep : s.point u = .asleep
    · exact .inr (if_pos hasleep)
    · exact .inl (if_neg hasleep)
  | leavingRelease =>
    rw [hp] at hstep
    obtain rfl := Option.some.inj hstep
    exact ⟨_, _, rfl, fun _ => .inl rfl, fun _ => rfl⟩
  | entering limit =>
    rw [hp] at hstep
    dsimp only at hstep
    split at hstep
    · obtain rfl := Option.some.inj hstep
      exact ⟨_, _, rfl, fun _ => .inl rfl, fun h => by cases h⟩
    · cases hstep
  | notified =>
    rw [hp] at hstep
    dsimp only at hstep
    split at hstep
    · obtain rfl := Option.some.inj hstep
      exact ⟨_, _, rfl, fun _ => .inl rfl, fun _ => rfl⟩
    · cases hstep
  | releasing =>
    rw [hp] at hstep
    dsimp only at hstep
    split at hstep
    · obtain rfl := Option.some.inj hstep
      exact ⟨_, _, rfl, fun _ => .inl rfl, fun _ => rfl⟩
    · cases hstep
  | checkInflight limit =>
    rw [hp] at hstep
    dsimp only at hstep
    split at hstep
    · obtain rfl := Option.some.inj hstep
      exact ⟨_, _, rfl, fun _ => .inl rfl, fun _ => rfl⟩
    · obtain rfl := Option.some.inj hstep
      exact ⟨_, _, rfl, fun _ => .inl rfl, fun h => by cases h⟩
  | checkLimit limit =>
    rw [hp] at hstep
    dsimp only at hstep
    split at hstep
    · obtain rfl := Option.some.inj hstep
      exact ⟨_, _, rfl, fun _ => .inl rfl, fun h => by cases h⟩
    · obtain rfl := Option.some.inj hstep
      exact ⟨_, _, rfl, fun _ => .inl rfl, fun h => by cases h⟩
  | checkWaiting limit =>
    rw [hp] at hstep
    dsimp only at hstep
    split at hstep
    · obtain rfl := Option.some.inj hstep
      exact ⟨_, _, rfl, fun _ => .inl rfl, fun h => by cases h⟩
    · obtain rfl := Option.some.inj hstep
      exact ⟨_, _, rfl, fun _ => .inl rfl, fun _ => rfl⟩
  | testLoop =>
    rw [hp] at hstep
    dsimp only at hstep
    split at hstep
    · obtain rfl := Option.some.inj hstep
      exact ⟨_, _, rfl, fun _ => .inl rfl, fun _ => rfl⟩
    · obtain rfl := Option.some.inj hstep
      exact ⟨_, _, rfl, fun _ => .inl rfl, fun _ => rfl⟩

/-- A request that can no longer be rejected stays so until its next call. -/
theorem step_not_mayReject {e : GuardEvent ι} (hp : (s.point t).mayReject = false)
    (hcall : ∀ queueLimit, e ≠ .acquire t queueLimit) (hstep : GuardStep s e s') :
    (s'.point t).mayReject = false := by
  have hmoved : ∀ (m : GuardState ι) (u : ι) (q : Point),
      (m.point t = s.point t ∨ m.point t = .notified) → (u = t → q.mayReject = false) →
      ((m.move u q).point t).mayReject = false := by
    intro m u q hm hq
    by_cases hu : t = u
    · subst u
      rw [move_point_self]
      exact hq rfl
    · rw [move_point_of_ne m hu]
      rcases hm with hm | hm
      · rw [hm, hp]
      · rw [hm]
        rfl
  cases e with
  | acquire u queueLimit =>
    simp only [GuardStep, step] at hstep
    split at hstep
    · obtain rfl := Option.some.inj hstep
      exact hmoved s u _ (.inl rfl) fun hu => absurd (hu ▸ rfl) (hcall queueLimit)
    · cases hstep
  | release u =>
    simp only [GuardStep, step] at hstep
    split at hstep
    · obtain rfl := Option.some.inj hstep
      exact hmoved s u _ (.inl rfl) fun _ => rfl
    · cases hstep
  | advance u =>
    obtain ⟨m, q, rfl, hm, hq⟩ := advance_shape hstep
    exact hmoved m u q (hm t) fun hu => hq (hu ▸ hp)
  | wake u =>
    simp only [GuardStep, step] at hstep
    split at hstep
    · obtain rfl := Option.some.inj hstep
      exact hmoved s u _ (.inl rfl) fun _ => rfl
    · cases hstep

/-- On the way to a rejection a request changes nothing, unless it leaves it. -/
theorem advance_rejecting (hp : (s.point t).rejecting = true) (hstep : advance s t = some s') :
    (s'.point t).mayReject = false ∨ (s'.point t).rejecting = true ∧
      s'.inflight = s.inflight ∧ s'.waiting = s.waiting := by
  unfold advance at hstep
  cases hpoint : s.point t with
  | checkInflight limit =>
    rw [hpoint] at hstep
    dsimp only at hstep
    split at hstep
    · obtain rfl := Option.some.inj hstep
      exact .inl (by rw [move_point_self]; rfl)
    · obtain rfl := Option.some.inj hstep
      exact .inr ⟨by rw [move_point_self]; rfl, rfl, rfl⟩
  | checkLimit limit =>
    rw [hpoint] at hstep
    dsimp only at hstep
    split at hstep
    · obtain rfl := Option.some.inj hstep
      exact .inr ⟨by rw [move_point_self]; rfl, rfl, rfl⟩
    · obtain rfl := Option.some.inj hstep
      exact .inr ⟨by rw [move_point_self]; rfl, rfl, rfl⟩
  | checkWaiting limit =>
    rw [hpoint] at hstep
    dsimp only at hstep
    split at hstep
    · obtain rfl := Option.some.inj hstep
      exact .inr ⟨by rw [move_point_self]; rfl, rfl, rfl⟩
    · obtain rfl := Option.some.inj hstep
      exact .inl (by rw [move_point_self]; rfl)
  | leaving acquired =>
    cases acquired with
    | false =>
      rw [hpoint] at hstep
      obtain rfl := Option.some.inj hstep
      exact .inl (by rw [move_point_self]; rfl)
    | true => rw [hpoint] at hp; cases hp
  | _ => rw [hpoint] at hp; cases hp

theorem Point.locked_of_rejecting {point : Point} (h : point.rejecting = true) :
    point.locked = true := by
  cases point <;> first | rfl | cases h

/-- An `acquire` that comes back false leaves the counters as they were when it
took the lock. -/
theorem Consistent.rejected_unchanged [Fintype ι] (h : Consistent bound s)
    {events : List (GuardEvent ι)} (hrun : Run GuardStep s events s')
    (hbound : largestLimit events ≤ bound)
    (hcalls : ∀ queueLimit, .acquire t queueLimit ∉ events) {limit : ℤ}
    (hstart : s.point t = .checkInflight limit) (hend : s'.point t = .leaving false) :
    s'.inflight = s.inflight ∧ s'.waiting = s.waiting := by
  have hzero := (largestLimit_nonneg events).trans hbound
  have hall : ∀ e ∈ events, (∀ u queueLimit, e = .acquire u queueLimit → queueLimit ≤ bound) ∧
      ∀ queueLimit, e ≠ .acquire t queueLimit := by
    refine fun e he => ⟨?_, fun queueLimit heq => hcalls queueLimit (heq ▸ he)⟩
    rintro u queueLimit rfl
    exact (le_largestLimit he).trans hbound
  have hinvariant := (hrun.restrict hall).invariant
    (I := fun x => Consistent bound x ∧ ((x.point t).mayReject = false ∨
      (x.point t).rejecting = true ∧ x.inflight = s.inflight ∧ x.waiting = s.waiting))
    ⟨h, .inr ⟨by rw [hstart]; rfl, rfl, rfl⟩⟩ ?_
  · rcases hinvariant.2 with hgone | ⟨-, hkept⟩
    · rw [hend] at hgone
      cases hgone
    · exact hkept
  · rintro x e x' ⟨hx, hway⟩ ⟨hstep, hlimit, hcall⟩
    refine ⟨consistent_step hx hstep hlimit hzero, ?_⟩
    rcases hway with hgone | ⟨hrejecting, hinflight, hwaiting⟩
    · exact .inl (step_not_mayReject hgone hcall hstep)
    · by_cases hown : e = .advance t
      · subst hown
        refine (advance_rejecting hrejecting hstep).imp id fun ⟨hstill, hi, hw⟩ => ?_
        exact ⟨hstill, hi.trans hinflight, hw.trans hwaiting⟩
      · obtain ⟨hi, hw, hpoint⟩ :=
          hx.kept_by_others (Point.locked_of_rejecting hrejecting) hown hstep
        exact .inr ⟨by rw [hpoint]; exact hrejecting, hi.trans hinflight, hw.trans hwaiting⟩

end Rejection

section Safety

/-- After every run from the fresh guard: one request at most holds it, and the
flag says whether one does; the count is that of the blocked requests and no
larger than the largest limit; a rejected call changes nothing; and blocked
requests are never all asleep at a free guard with no notification to come. -/
theorem guard_safe [Fintype ι] {events : List (GuardEvent ι)} {s : GuardState ι}
    (hrun : Run GuardStep {} events s) :
    (∀ t u, Holds s t → Holds s u → t = u) ∧
      (s.inflight = 1 ↔ ∃ t, Holds s t) ∧
      s.waiting = (Finset.univ.filter (Blocked s)).card ∧
      s.waiting ≤ largestLimit events ∧
      (∀ t limit later s', s.point t = .checkInflight limit → Run GuardStep s later s' →
        (∀ queueLimit, .acquire t queueLimit ∉ later) → s'.point t = .leaving false →
        s'.inflight = s.inflight ∧ s'.waiting = s.waiting) ∧
      ¬(s.inflight = 0 ∧ (∃ t, Blocked s t) ∧ (∀ t, Blocked s t → s.point t = .asleep) ∧
        ∀ t, s.point t ≠ .notify) := by
  have hconsistent := consistent_run (consistent_initial (largestLimit_nonneg events)) hrun le_rfl
  have hsingle : countAt Point.possesses s.point ≤ 1 := hconsistent.inflight ▸ hconsistent.single
  refine ⟨fun t u ht hu => eq_of_countAt_le_one hsingle ht hu, ?_, ?_, hconsistent.bounded, ?_, ?_⟩
  · refine ⟨fun hone => ?_, fun ⟨t, ht⟩ => hconsistent.inflight_of_possesses ht⟩
    refine countAt_pos_iff.mp ?_
    rw [← hconsistent.inflight, hone]
    exact zero_lt_one
  · rw [hconsistent.waiting, countAt_eq_card]
    rfl
  · intro t limit later s' hstart hlater hcalls hend
    have hzero := (largestLimit_nonneg events).trans
      (le_max_left (largestLimit events) (largestLimit later))
    have hboth := consistent_run (consistent_initial hzero) hrun (le_max_left _ _)
    exact hboth.rejected_unchanged hlater (le_max_right _ _) hcalls hstart hend
  · rintro ⟨hzero, ⟨t, ht⟩, hasleep, hnotify⟩
    obtain ⟨u, hu⟩ := hconsistent.wakeup hzero ⟨t, hasleep t ht⟩
    by_cases hblocked : Blocked s u
    · rw [hasleep u hblocked] at hu
      cases hu
    · cases hp : s.point u with
      | notify => exact hnotify u hp
      | testLoop => exact hblocked (by rw [Blocked, hp]; rfl)
      | notified => exact hblocked (by rw [Blocked, hp]; rfl)
      | takeSlot => exact hblocked (by rw [Blocked, hp]; rfl)
      | _ => rw [hp] at hu; cases hu

/-- Every event of a list in turn, if each of them can happen. -/
def runEvents : GuardState ι → List (GuardEvent ι) → Option (GuardState ι)
  | s, [] => some s
  | s, e :: events => (step s e).bind fun s' => runEvents s' events

theorem run_of_runEvents {start s s' : GuardState ι} {before events : List (GuardEvent ι)}
    (hrun : Run GuardStep start before s) (h : runEvents s events = some s') :
    Run GuardStep start (before ++ events) s' := by
  induction events generalizing before s with
  | nil =>
    obtain rfl := Option.some.inj h
    rwa [List.append_nil]
  | cons e events ih =>
    obtain ⟨m, hstep, hrest⟩ := Option.bind_eq_some_iff.mp h
    rw [List.append_cons]
    exact ih (hrun.next hstep) hrest

/-- The second request waits for the first, the third finds the queue full. -/
def contended : List (GuardEvent (Fin 3)) :=
  [.acquire 0 1, .advance 0, .advance 0, .advance 0, .acquire 1 1, .advance 1, .advance 1,
    .advance 1, .advance 1, .advance 1, .advance 1, .acquire 2 1, .advance 2, .advance 2,
    .advance 2, .advance 2, .advance 2]

/-- One request holds the guard, one is blocked and one was rejected. -/
theorem guard_safe_contended : ∃ s, Run GuardStep {} contended s ∧ s.inflight = 1 ∧
    (∀ t u, Holds s t → Holds s u → t = u) ∧
      (s.inflight = 1 ↔ ∃ t, Holds s t) ∧
      s.waiting = (Finset.univ.filter (Blocked s)).card ∧
      s.waiting ≤ largestLimit contended ∧
      (∀ t limit later s', s.point t = .checkInflight limit → Run GuardStep s later s' →
        (∀ queueLimit, .acquire t queueLimit ∉ later) → s'.point t = .leaving false →
        s'.inflight = s.inflight ∧ s'.waiting = s.waiting) ∧
      ¬(s.inflight = 0 ∧ (∃ t, Blocked s t) ∧ (∀ t, Blocked s t → s.point t = .asleep) ∧
        ∀ t, s.point t ≠ .notify) := by
  have hends : (runEvents {} contended).map GuardState.inflight = some 1 := by decide
  obtain ⟨s, hs, hinflight⟩ := Option.map_eq_some_iff.mp hends
  have hrun := run_of_runEvents .start hs
  exact ⟨s, hrun, hinflight, guard_safe hrun⟩

end Safety

end LayerInference.BackpressureGuard
