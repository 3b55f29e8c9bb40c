import FlutterEngine.WebUi.AlarmClock

/-!
# When the alarm clock rings

Between two changes of `datetime` the alarm clock rings at most once: when a timer fires for the
first time at the time it is set to or later, provided that this time was not in the past when it
was set. Until then exactly one timer is pending and expires early enough.

* `Silent` and `Armed` are the states of a clock without and with a timer.
* `ring` is when a clock rings, given the times at which its timers fire (`Follows`).
* `rings_exactly_once` says so for every run.
-/

namespace WebUi.AlarmClock

open Lib Option List

variable {s t u : AlarmClock} {actions more : List Action} {start v : DateTime}
  {value : Option DateTime}

/-! ## The timer -/

/-- No timer is pending. -/
structure Silent (s : AlarmClock) : Prop where
  timer : s.timer = none
  pending : s.pending = []

/-- The alarm clock is set to `v`, and one timer is pending that expires no later. -/
structure Armed (s : AlarmClock) (v : DateTime) : Prop where
  datetime : s.datetime = some v
  timer : ∃ timer : Timer, s.timer = some timer.id ∧ s.pending = [timer] ∧
    timer.expiry ≤ v.microsecondsSinceEpoch

def Consistent (s : AlarmClock) : Prop := s.Silent ∨ ∃ v, s.Armed v

/-- Canceling leaves no timer pending. -/
lemma Consistent.cancelTimer (h : s.Consistent) :
    s.cancelTimer = { s with timer := none, pending := [] } := by
  rw [AlarmClock.cancelTimer]
  obtain ⟨htimer, hpending⟩ | ⟨v, -, timer, htimer, hpending, -⟩ := h
  · rw [htimer]
    dsimp only
    rw [← htimer, ← hpending]
  · rw [htimer, hpending]
    simp

/-- The time the alarm clock is set to, unless it is in the past. -/
def due (s : AlarmClock) (value : Option DateTime) : Option DateTime :=
  value.filter fun v => !v.isBefore s.now

/-- The alarm clock waits for `v`, or for nothing. -/
def Waits (s : AlarmClock) : Option DateTime → Prop
  | none => s.Silent
  | some v => s.Armed v

/-- A clock that waits is consistent. -/
lemma Waits.consistent {v : Option DateTime} (h : s.Waits v) : s.Consistent := by
  cases v with
  | none => exact .inl h
  | some v => exact .inr ⟨v, h⟩

/-- Time passes while a clock waits. -/
lemma Waits.pass {v : Option DateTime} (h : s.Waits v) (now : DateTime) :
    Waits { s with now } v := by
  cases v with
  | none => exact ⟨h.timer, h.pending⟩
  | some v => exact ⟨h.datetime, h.timer⟩

/-- A new timer expires when the alarm clock is to ring. -/
theorem armed_createTimer (hpending : s.pending = []) (v : DateTime) :
    Armed { s.createTimer (v.difference s.now) with datetime := some v } v := by
  refine ⟨rfl, ⟨s.nextId, s.now.microsecondsSinceEpoch + v.difference s.now⟩, rfl, ?_, ?_⟩
  · rw [createTimer, hpending]
    rfl
  · dsimp only [DateTime.difference]
    omega

/-- What has happened so far is the same. -/
structure SameLog (s t : AlarmClock) : Prop where
  now : t.now = s.now
  fired : t.fired = s.fired
  rings : t.rings = s.rings

/-- Setting the alarm clock to another time replaces the time it waits for. -/
theorem Consistent.setDatetime (h : s.Consistent) (hne : value ≠ s.datetime) :
    ∃ t, s.setDatetime value = some t ∧ t.Waits (s.due value) ∧ t.datetime = value ∧
      SameLog s t := by
  rw [AlarmClock.setDatetime, if_neg hne]
  cases value with
  | none =>
    rw [change, h.cancelTimer]
    exact ⟨_, rfl, ⟨rfl, rfl⟩, rfl, rfl, rfl, rfl⟩
  | some v =>
    rw [change]
    cases hpast : v.isBefore s.now with
    | true =>
      have hdue : s.due (some v) = none := by simp [due, hpast]
      rw [if_pos rfl, hdue, h.cancelTimer]
      exact ⟨_, rfl, ⟨rfl, rfl⟩, rfl, rfl, rfl, rfl⟩
    | false =>
      have hdue : s.due (some v) = some v := by simp [due, hpast]
      rw [if_neg Bool.false_ne_true, hdue, schedule]
      obtain ⟨htimer, hpending⟩ | ⟨d, hdatetime, timer, htimer, hpending, hexpiry⟩ := id h
      · rw [htimer]
        exact ⟨_, rfl, armed_createTimer hpending v, rfl, rfl, rfl, rfl⟩
      · rw [htimer, hdatetime]
        dsimp only
        cases hafter : d.isAfter v with
        | true =>
          -- the timer expires too late
          rw [if_pos rfl, h.cancelTimer]
          refine ⟨_, rfl, armed_createTimer (s := { s with timer := none, pending := [] }) rfl v,
            rfl, rfl, rfl, rfl⟩
        | false =>
          -- the timer stays: it expires no later than before, and `v` is no earlier
          rw [if_neg Bool.false_ne_true]
          refine ⟨_, rfl, ⟨rfl, timer, rfl, hpending, ?_⟩, rfl, rfl, rfl, rfl⟩
          rw [DateTime.isAfter, decide_eq_false_iff_not, not_lt] at hafter
          exact le_trans hexpiry hafter

/-- A timer that fires makes the alarm clock ring, or is replaced. -/
theorem Armed.fire (h : s.Armed v) {index : ℕ} (hindex : index < s.pending.length) :
    ∃ t, step s (.fire index) = some t ∧ t.datetime = some v ∧ t.now = s.now ∧
      t.fired = s.fired ++ [s.now] ∧
      if s.now.isBefore v then t.Armed v ∧ t.rings = s.rings
      else t.Silent ∧ t.rings = s.rings ++ [(v, s.now)] := by
  obtain ⟨hdatetime, timer, -, hpending, -⟩ := h
  -- there is only one timer that can fire
  obtain rfl : index = 0 := by
    rw [hpending, length_singleton] at hindex
    omega
  have hrest : s.pending.eraseIdx 0 = [] := by
    rw [hpending]
    rfl
  rw [step, if_pos hindex, hrest, timerDidFire, hdatetime]
  dsimp only
  cases hbefore : s.now.isBefore v with
  | true =>
    refine ⟨_, rfl, rfl, rfl, rfl, ?_⟩
    have harmed := armed_createTimer
      (s := { s with pending := [], fired := s.fired ++ [s.now] }) rfl v
    exact ⟨⟨rfl, harmed.timer⟩, rfl⟩
  | false => exact ⟨_, rfl, rfl, rfl, rfl, ⟨rfl, rfl⟩, rfl⟩

/-! ## Runs -/

/-- Only pending timers fire. -/
lemma lt_of_fire {index : ℕ} (hstep : step s (.fire index) = some t) :
    index < s.pending.length := by
  by_contra hge
  rw [step, if_neg hge] at hstep
  cases hstep

/-- No timer of a silent clock fires. -/
lemma Silent.not_fire (h : s.Silent) (index : ℕ) : step s (.fire index) = none := by
  rw [step, h.pending]
  exact if_neg (Nat.not_lt_zero index)

/-- Each action keeps the clock consistent. -/
lemma Consistent.step (h : s.Consistent) {a : Action} (hstep : step s a = some t) :
    t.Consistent := by
  cases a with
  | set value =>
    by_cases heq : value = s.datetime
    · rw [AlarmClock.step, AlarmClock.setDatetime, if_pos heq] at hstep
      cases hstep
      exact h
    · obtain ⟨t', ht', hwaits, -⟩ := h.setDatetime heq
      cases ht'.symm.trans hstep
      exact hwaits.consistent
  | pass now =>
    simp only [AlarmClock.step] at hstep
    split at hstep
    · cases hstep
    · cases hstep
      exact h.imp (fun h => ⟨h.timer, h.pending⟩) fun ⟨v, h⟩ => ⟨v, h.datetime, h.timer⟩
  | fire index =>
    obtain hsilent | ⟨v, harmed⟩ := h
    · rw [hsilent.not_fire] at hstep
      cases hstep
    · obtain ⟨t', ht', -, -, -, hcases⟩ := harmed.fire (lt_of_fire hstep)
      cases ht'.symm.trans hstep
      split at hcases
      · exact .inr ⟨v, hcases.1⟩
      · exact .inl hcases.1

/-- In every run the clock is consistent. -/
lemma consistent_of_run (h : Run step unguarded (init start) actions s) : s.Consistent :=
  h.invariant (.inl ⟨rfl, rfl⟩) fun _ _ _ hs _ hstep => hs.step hstep

/-- The alarm clock is not set to another value. -/
def Keeps (value : Option DateTime) (_ : AlarmClock) : Action → Prop
  | .set value' => value' = value
  | _ => True

instance : ∀ s a, Decidable (Keeps value s a)
  | _, .set value' => inferInstanceAs (Decidable (value' = value))
  | _, .pass _ => inferInstanceAs (Decidable True)
  | _, .fire _ => inferInstanceAs (Decidable True)

/-- The call of `callback` that is due, given when timers have fired. -/
def ring (due : Option DateTime) (times : List DateTime) : Option (DateTime × DateTime) :=
  due.bind fun v => (times.find? fun time => !time.isBefore v).map fun time => (v, time)

/-- What is left to wait for. -/
def remaining (due : Option DateTime) (times : List DateTime) : Option DateTime :=
  due.filter fun v => times.all fun time => time.isBefore v

section Remaining

variable {due : Option DateTime} {times : List DateTime} (h : remaining due times = some v)
include h

lemma find?_eq_none_of_remaining :
    due = some v ∧ times.find? (fun time => !time.isBefore v) = none := by
  obtain ⟨hdue, hall⟩ := filter_eq_some_iff.mp h
  refine ⟨hdue, find?_eq_none.mpr fun time htime => ?_⟩
  rw [all_eq_true.mp hall time htime]
  exact Bool.false_ne_true

/-- The alarm clock does not ring while it waits. -/
theorem ring_eq_none : ring due times = none := by
  obtain ⟨rfl, hfind⟩ := find?_eq_none_of_remaining h
  rw [ring, bind_some, hfind]
  rfl

/-- A timer that fires too early does not ring. -/
lemma append_of_isBefore {now : DateTime} (hbefore : now.isBefore v = true) :
    ring due (times ++ [now]) = none ∧ remaining due (times ++ [now]) = some v := by
  have hremaining : remaining due (times ++ [now]) = some v := by
    obtain ⟨hdue, hall⟩ := filter_eq_some_iff.mp h
    refine filter_eq_some_iff.mpr ⟨hdue, ?_⟩
    rw [all_append, hall]
    simp [hbefore]
  exact ⟨ring_eq_none hremaining, hremaining⟩

/-- A timer that fires in time rings. -/
lemma append_of_not_isBefore {now : DateTime} (hbefore : now.isBefore v = false) :
    ring due (times ++ [now]) = some (v, now) ∧ remaining due (times ++ [now]) = none := by
  obtain ⟨rfl, hfind⟩ := find?_eq_none_of_remaining h
  constructor
  · simp [ring, find?_append, hfind, hbefore]
  · simp [remaining, hbefore]

end Remaining

/-- Between two changes the alarm clock rings when it is due, and waits until then. -/
structure Follows (s : AlarmClock) (value : Option DateTime) (u : AlarmClock)
    (times : List DateTime) : Prop where
  datetime : u.datetime = value
  fired : u.fired = s.fired ++ times
  rings : u.rings = s.rings ++ (ring (s.due value) times).toList
  waits : u.Waits (remaining (s.due value) times)

/-- The clock follows its timer. -/
lemma Follows.step {times : List DateTime} (h : Follows s value t times) {a : Action}
    (hkeeps : Keeps value t a) (hstep : step t a = some u) :
    ∃ times', Follows s value u times' := by
  cases a with
  | set value' =>
    obtain rfl : value' = value := hkeeps
    rw [step, setDatetime, if_pos h.datetime.symm] at hstep
    cases hstep
    exact ⟨times, h⟩
  | pass now =>
    simp only [AlarmClock.step] at hstep
    split at hstep
    · cases hstep
    · cases hstep
      -- whether a time is past was decided when it was set
      exact ⟨times, h.datetime, h.fired, h.rings, h.waits.pass now⟩
  | fire index =>
    have hwaits := h.waits
    cases hremaining : remaining (s.due value) times with
    -- after it has rung no timer is left to fire
    | none =>
      rw [hremaining] at hwaits
      rw [hwaits.not_fire] at hstep
      cases hstep
    | some v =>
      rw [hremaining] at hwaits
      obtain ⟨u', hu', hdatetime, -, hfired, hcases⟩ := hwaits.fire (lt_of_fire hstep)
      cases hu'.symm.trans hstep
      have hvalue : u.datetime = value := by rw [hdatetime, ← hwaits.datetime, h.datetime]
      have htimes : u.fired = s.fired ++ (times ++ [t.now]) := by rw [hfired, h.fired, append_assoc]
      have hring := ring_eq_none hremaining
      refine ⟨times ++ [t.now], ?_⟩
      cases hbefore : t.now.isBefore v with
      | true =>
        rw [if_pos hbefore] at hcases
        obtain ⟨hring', hremaining'⟩ := append_of_isBefore hremaining hbefore
        refine ⟨hvalue, htimes, ?_, ?_⟩
        · rw [hcases.2, h.rings, hring, hring']
        · rw [hremaining']
          exact hcases.1
      | false =>
        rw [hbefore, if_neg Bool.false_ne_true] at hcases
        obtain ⟨hring', hremaining'⟩ := append_of_not_isBefore hremaining hbefore
        refine ⟨hvalue, htimes, ?_, ?_⟩
        · rw [hcases.2, h.rings, hring, hring', toList_none, append_nil, toList_some]
        · rw [hremaining']
          exact hcases.1

/-- The clock follows its timers until it is set again. -/
lemma follows_of_run (h : Follows s value t []) (hmore : Run step (Keeps value) t more u) :
    ∃ times, Follows s value u times := by
  induction hmore with
  | nil => exact ⟨[], h⟩
  | snoc _ hkeeps hstep ih =>
    obtain ⟨times, hfollows⟩ := ih
    exact hfollows.step hkeeps hstep

/-- Right after a change nothing has happened yet. -/
theorem Consistent.follows (h : s.Consistent) (hne : value ≠ s.datetime)
    (hset : AlarmClock.step s (.set value) = some t) : Follows s value t [] := by
  obtain ⟨t', ht', hwaits, hdatetime, hlog⟩ := h.setDatetime hne
  cases ht'.symm.trans hset
  have hring : ring (s.due value) [] = none := by
    rw [ring]
    cases s.due value <;> rfl
  have hremaining : remaining (s.due value) [] = s.due value := by
    rw [remaining]
    cases s.due value <;> rfl
  refine ⟨hdatetime, ?_, ?_, ?_⟩
  · rw [hlog.fired, append_nil]
  · rw [hlog.rings, hring, toList_none, append_nil]
  · rw [hremaining]
    exact hwaits

/-- There is one timer at most. -/
lemma Consistent.length_pending (h : s.Consistent) : s.pending.length ≤ 1 := by
  obtain ⟨-, hpending⟩ | ⟨v, -, timer, -, hpending, -⟩ := h
  · rw [hpending]
    exact Nat.zero_le 1
  · rw [hpending]
    exact Nat.le_refl 1

/-- No assertion fails. -/
theorem Consistent.isSome_step (h : s.Consistent) :
    (∀ value, (AlarmClock.step s (.set value)).isSome) ∧
      ∀ index < s.pending.length, (AlarmClock.step s (.fire index)).isSome := by
  constructor
  · intro value
    by_cases heq : value = s.datetime
    · rw [AlarmClock.step, AlarmClock.setDatetime, if_pos heq]
      rfl
    · obtain ⟨t, ht, -⟩ := h.setDatetime heq
      exact isSome_iff_exists.mpr ⟨t, ht⟩
  · intro index hindex
    obtain hsilent | ⟨v, harmed⟩ := h
    · rw [hsilent.pending] at hindex
      exact absurd hindex (Nat.not_lt_zero index)
    · obtain ⟨t, ht, -⟩ := harmed.fire hindex
      exact isSome_iff_exists.mpr ⟨t, ht⟩

/-- At most one timer is pending and no assertion fails. After `datetime` has been set to another
value, and until it is set to yet another one, the callback is called once if that value was not in
the past, when a timer fires for the first time at it or later; until then a timer is pending that
expires no later. The callback is not called otherwise, nor before `datetime` is set at all. -/
theorem rings_exactly_once (h : Run step unguarded (init start) actions s) :
    s.pending.length ≤ 1 ∧
      ((∀ value, (step s (.set value)).isSome) ∧
        ∀ index < s.pending.length, (step s (.fire index)).isSome) ∧
      (∀ value t more u, value ≠ s.datetime → step s (.set value) = some t →
        Run step (Keeps value) t more u →
        ∃ times, u.fired = s.fired ++ times ∧
          u.rings = s.rings ++ (ring (s.due value) times).toList ∧
          (remaining (s.due value) times = none → u.pending = []) ∧
          ∀ v, remaining (s.due value) times = some v →
            ∃ timer, u.pending = [timer] ∧ timer.expiry ≤ v.microsecondsSinceEpoch) ∧
      ∀ more u, Run step (Keeps none) (init start) more u → u.rings = [] := by
  have hconsistent := consistent_of_run h
  refine ⟨hconsistent.length_pending, hconsistent.isSome_step, ?_, ?_⟩
  · intro value t more u hne hset hmore
    obtain ⟨times, hfollows⟩ := follows_of_run (hconsistent.follows hne hset) hmore
    have hwaits := hfollows.waits
    refine ⟨times, hfollows.fired, hfollows.rings, fun hnone => ?_, fun v hsome => ?_⟩
    · rw [hnone] at hwaits
      exact hwaits.pending
    · rw [hsome] at hwaits
      obtain ⟨-, timer, -, hpending, hexpiry⟩ := hwaits
      exact ⟨timer, hpending, hexpiry⟩
  · intro more u hmore
    have hinit : Follows (init start) none (init start) [] := ⟨rfl, rfl, rfl, rfl, rfl⟩
    obtain ⟨times, hfollows⟩ := follows_of_run hinit hmore
    exact hfollows.rings

/-- The alarm clock is set to 100, then to 200; a timer fires early at 100, then late. -/
theorem rings_exactly_once_postponed :
    ∃ s t u, Run step unguarded (init ⟨0, true⟩) [.set (some ⟨100, true⟩)] s ∧
      step s (.set (some ⟨200, true⟩)) = some t ∧
      Run step (Keeps (some ⟨200, true⟩)) t
        [.pass ⟨100, true⟩, .fire 0, .pass ⟨250, true⟩, .fire 0] u ∧
      ∃ times, u.fired = s.fired ++ times ∧
        u.rings = s.rings ++ (ring (s.due (some ⟨200, true⟩)) times).toList ∧
        u.rings = [(⟨200, true⟩, ⟨250, true⟩)] := by
  have hrun := run_iff_exec.mpr
    (show exec step unguarded (init ⟨0, true⟩) [.set (some ⟨100, true⟩)] = some _ from rfl)
  obtain ⟨-, -, hrings, -⟩ := rings_exactly_once hrun
  have hmore := run_iff_exec.mpr (show exec step (Keeps (some ⟨200, true⟩))
    ⟨some 0, some ⟨200, true⟩, ⟨0, true⟩, [⟨0, 100⟩], 1, [], []⟩
    [.pass ⟨100, true⟩, .fire 0, .pass ⟨250, true⟩, .fire 0] = some _ from rfl)
  obtain ⟨times, htimes, hring, -⟩ := hrings (some ⟨200, true⟩) _ _ _ (by decide) rfl hmore
  exact ⟨_, _, _, hrun, rfl, hmore, times, htimes, hring, rfl⟩

/-- The alarm clock is set to 100 and has not been set to anything else when this time is reached.
Before the timer fires, it is set to 200: the callback is never called for 100. -/
theorem not_rung_when_reached :
    ∃ u, Run step unguarded (init ⟨0, true⟩)
        [.set (some ⟨100, true⟩), .pass ⟨150, true⟩, .set (some ⟨200, true⟩), .pass ⟨250, true⟩,
          .fire 0] u ∧
      u.pending = [] ∧ u.rings = [(⟨200, true⟩, ⟨250, true⟩)] :=
  ⟨_, run_iff_exec.mpr rfl, rfl, rfl⟩

end WebUi.AlarmClock
