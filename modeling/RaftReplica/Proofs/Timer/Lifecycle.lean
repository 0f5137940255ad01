/-
RaftReplica/Proofs/Timer/Lifecycle.lean

What holds of a repeating timer whatever happens to it, in whatever order: calls from any number of
threads, also from inside the callback, and the timer's own steps.  A history is a list of
happenings; nothing is said about their times.

The invariant is a balance.  A timer that is running owes exactly one thing that will go on with it,
a pending sleep or a callback in flight, and one that is not running owes nothing:

    t.pending + t.inFlight = t.running.toNat

`Balanced` adds what the balance needs to be kept: the pending sleep is the current one, so giving
up cancels it.  Whether the last notice was given already is no further state: it was exactly if the
timer is destroyed and not running (`told`), and every step accounts for it (`Accounts`).

* Each of the eight events accounts for itself (`accounts_start` to `accounts_leave`).  A step that
  begins a sleep does so on an idle timer (`Balanced.arm_of_idle`), and one that stops the timer
  gives up the sleep that is pending (`Balanced.stopped_giveUp`).
* A history then accounts for all of its notices, by induction (`accounts_run`).
* The callback is run by one event only, and only while the timer is started
  (`stopped_eq_false_of_run`), and a stopped timer stays stopped until someone starts it
  (`stopped_take`).

`lifecycle` reads its eight statements off the balance and off these facts.
-/
import Mathlib.Tactic.Common
import RaftReplica.Proofs.Counting
import RaftReplica.Timer.Basic

namespace RaftReplica.Timer

/-! ### Histories -/

/-- Something that happens to a timer: what and when it is, and how the task would adjust the time
to sleep at that moment. -/
structure Happening where
  event : TimerEvent
  now : Nat
  adjust : Nat → Nat

/-- The step that a happening makes the timer take. -/
def take (t : Timer) (h : Happening) : Step := t.step h.adjust h.now h.event

/-- The timer after a history, and all notices it gave on the way. -/
def run (t : Timer) : List Happening → Step
  | [] => (t, [])
  | h :: hs => (((t.take h).1.run hs).1, (t.take h).2 ++ ((t.take h).1.run hs).2)

/-- How many sleeps are armed and have not ended. -/
def pending (t : Timer) : Nat := t.sleeps.countP (·.state = .pending)

/-- How many callbacks are dispatched or executing. -/
def inFlight (t : Timer) : Nat := t.dispatched + t.executing

/-- The happening is a start that takes effect. -/
def StartedBy (t : Timer) (h : Happening) : Prop :=
  h.event = .start ∧ t.stopped = true ∧ t.destroyed = false

/-- Some start of the history takes effect. -/
def Starts (t : Timer) : List Happening → Prop
  | [] => False
  | h :: hs => t.StartedBy h ∨ (t.take h).1.Starts hs

/-! ### Counting sleeps -/

/-- Taking a pending sleep to another state takes one away from those that are pending. -/
theorem pending_setSleep {t : Timer} {n : Nat} {s : Sleep} {state : SleepState}
    (hn : t.sleeps[n]? = some s) (hs : s.state = .pending) (hne : state ≠ .pending) :
    (t.setSleep n state).pending + 1 = t.pending := by
  have hset : (t.setSleep n state).sleeps = t.sleeps.set n { s with state } := by
    have : Inhabited Sleep := ⟨s⟩
    rw [setSleep, List.modify_eq_set, hn]
    rfl
  have hcount := countP_set_add (p := fun s : Sleep => s.state = .pending) { s with state } hn
  simp only [pending, hset]
  simpa [hs, hne] using hcount

/-- A sleep that is pending is counted. -/
theorem pending_pos {t : Timer} {n : Nat} {s : Sleep} (hn : t.sleeps[n]? = some s)
    (hs : s.state = .pending) : 0 < t.pending := by
  rw [pending, List.countP_pos_iff]
  exact ⟨s, List.mem_of_getElem? hn, by simp [hs]⟩

/-! ### The invariant -/

/-- A running timer owes exactly one sleep or callback, one at rest owes none. -/
structure Balanced (t : Timer) : Prop where
  balance : t.pending + t.inFlight = t.running.toNat
  /-- Only the current sleep can be pending. -/
  current : ∀ {n s}, t.sleeps[n]? = some s → s.state = .pending → t.current = some n
  running_of_started : t.stopped = false → t.running = true
  stopped_of_destroyed : t.destroyed = true → t.stopped = true

variable {t : Timer} {adjust : Nat → Nat} {now : Nat}

/-- A new timer is balanced, with nothing pending and nothing in flight. -/
theorem balanced_new (timeout : Nat) : Balanced { timeout } where
  balance := rfl
  current := by simp
  running_of_started := by simp
  stopped_of_destroyed := by simp

/-- What `pending?` finds is the current sleep, and it is pending. -/
theorem pending?_eq_some {n : Nat} (h : t.pending? = some n) :
    t.current = some n ∧ ∃ s, t.sleeps[n]? = some s ∧ s.state = .pending := by
  obtain ⟨hc, hs⟩ := Option.filter_eq_some_iff.1 h
  exact ⟨hc, by simpa [Option.any_eq_true] using hs⟩

/-- No sleep is pending if `pending?` finds none. -/
theorem Balanced.pending_eq_zero (hb : t.Balanced) (h : t.pending? = none) : t.pending = 0 := by
  rw [pending, List.countP_eq_zero]
  intro s hs hp
  obtain ⟨n, hn⟩ := List.mem_iff_getElem?.1 hs
  have hc := hb.current hn (by simpa using hp)
  simp [pending?, hc, hn, (by simpa using hp : s.state = .pending)] at h

/-- If `pending?` finds a sleep it is the only thing that the timer owes. -/
theorem Balanced.of_pending? (hb : t.Balanced) {n : Nat} (h : t.pending? = some n) :
    t.pending = 1 ∧ t.inFlight = 0 ∧ t.running = true := by
  obtain ⟨-, s, hn, hs⟩ := pending?_eq_some h
  have hpos := pending_pos hn hs
  have hbal := hb.balance
  cases hr : t.running <;> simp [hr] at hbal ⊢ <;> omega

/-- A timer that is given up has no pending sleep, and nothing else changes. -/
theorem Balanced.pending_giveUp (hb : t.Balanced) : t.giveUp.pending = 0 := by
  cases h : t.pending? with
  | none => simpa [giveUp, h, pending] using hb.pending_eq_zero h
  | some n =>
    obtain ⟨-, s, hn, hs⟩ := pending?_eq_some h
    have hone := (hb.of_pending? h).1
    have hless := pending_setSleep hn hs (by simp : SleepState.cancelled ≠ .pending)
    have hgive : t.giveUp.pending = (t.setSleep n .cancelled).pending := by
      simp only [giveUp, h, pending]
    omega

@[simp] theorem giveUp_running : t.giveUp.running = t.running := by unfold giveUp; split <;> rfl
@[simp] theorem giveUp_stopped : t.giveUp.stopped = t.stopped := by unfold giveUp; split <;> rfl
@[simp] theorem giveUp_destroyed : t.giveUp.destroyed = t.destroyed := by
  unfold giveUp; split <;> rfl
@[simp] theorem giveUp_inFlight : t.giveUp.inFlight = t.inFlight := by unfold giveUp; split <;> rfl

theorem not_pending_of_eq_zero (h : t.pending = 0) {n : Nat} {s : Sleep}
    (hn : t.sleeps[n]? = some s) : s.state ≠ .pending := fun hs =>
  Nat.ne_of_gt (pending_pos hn hs) h

theorem pending_arm : (t.arm adjust now).1.pending = t.pending + 1 := by
  simp [arm, pending, List.countP_append]

/-- The sleep that is begun is the current one. -/
theorem current_arm (h : t.pending = 0) {n : Nat} {s : Sleep}
    (hn : (t.arm adjust now).1.sleeps[n]? = some s) (hs : s.state = .pending) :
    (t.arm adjust now).1.current = some n := by
  simp only [arm] at hn ⊢
  rw [List.getElem?_append] at hn
  split at hn
  · exact absurd hs (not_pending_of_eq_zero h hn)
  · next hlen =>
    have hlt := (List.getElem?_eq_some_iff.1 hn).1
    simp only [List.length_singleton] at hlt
    congr 1
    omega

/-! ### What one step keeps -/

/-- How often the last notice was given: once, when the timer is destroyed and at rest. -/
def told (t : Timer) : Nat := (t.destroyed && !t.running).toNat

/-- What a step has to do: it keeps the balance, and it gives the last notice exactly if it brings a
destroyed timer to rest. -/
def Accounts (t : Timer) (s : Step) : Prop :=
  s.1.Balanced ∧ t.told + s.2.count .destroyed = s.1.told

/-- A sleep may begin where nothing is owed. -/
theorem Balanced.arm_of_idle {u : Timer} (hp : u.pending = 0) (hf : u.inFlight = 0)
    (hr : u.running = true) (hd : u.destroyed = true → u.stopped = true) :
    (u.arm adjust now).1.Balanced where
  balance := by
    have hinFlight : (u.arm adjust now).1.inFlight = u.inFlight := rfl
    have hrunning : (u.arm adjust now).1.running = u.running := rfl
    rw [pending_arm, hinFlight, hrunning, hp, hf, hr]
    rfl
  current := current_arm hp
  running_of_started := fun _ => hr
  stopped_of_destroyed := hd

/-- Starting begins a sleep only if the timer is at rest; a running one goes on with what it
owes. -/
theorem accounts_start (hb : t.Balanced) : t.Accounts (t.start adjust now) := by
  unfold start
  split
  · exact ⟨hb, rfl⟩
  · next hs =>
    simp only [Bool.or_eq_true, Bool.not_eq_true', not_or, Bool.not_eq_true,
      Bool.not_eq_false] at hs
    obtain ⟨hd, hs⟩ := hs
    split
    · next hr =>
      refine ⟨⟨hb.balance, hb.current, fun _ => hr, ?_⟩, rfl⟩
      simp [hd]
    · next hr =>
      -- a timer at rest owes nothing, so a sleep may begin
      have hidle : t.pending + t.inFlight = 0 := by simpa [hr] using hb.balance
      refine ⟨Balanced.arm_of_idle ?_ ?_ rfl ?_, ?_⟩
      · exact (Nat.add_eq_zero_iff.1 hidle).1
      · exact (Nat.add_eq_zero_iff.1 hidle).2
      · simp [hd]
      · simp [told, arm, hd]

/-- Giving up and stopping settles the timer unless its callback is in flight. -/
theorem Balanced.stopped_giveUp (hb : t.Balanced) (destroyed : Bool) :
    Balanced { t.giveUp with
      destroyed, stopped := true, running := t.running && t.pending?.isNone } where
  balance := by
    have hzero : t.giveUp.pending + t.giveUp.inFlight = t.inFlight := by
      rw [hb.pending_giveUp, giveUp_inFlight, Nat.zero_add]
    apply hzero.trans
    -- without a pending sleep a callback is in flight, or nothing is owed; a pending sleep is all
    -- there is
    cases h : t.pending? with
    | none =>
      have hbal := hb.balance
      rw [hb.pending_eq_zero h, Nat.zero_add] at hbal
      simpa using hbal
    | some n => simpa using (hb.of_pending? h).2.1
  current := fun hn hs => absurd hs (not_pending_of_eq_zero hb.pending_giveUp hn)
  running_of_started := by simp
  stopped_of_destroyed := fun _ => rfl

/-- Stopping gives up the pending sleep, and leaves a callback to bring the timer to rest. -/
theorem accounts_stop (hb : t.Balanced) : t.Accounts t.stop := by
  unfold stop
  split
  · exact ⟨hb, rfl⟩
  · next hs =>
    -- a destroyed timer is stopped, so this one is not destroyed
    have hd : t.destroyed = false := by
      cases h : t.destroyed with
      | false => rfl
      | true => exact absurd (hb.stopped_of_destroyed h) hs
    have hkept := hb.stopped_giveUp t.destroyed
    rw [← giveUp_destroyed] at hkept
    exact ⟨hkept, by simp [told, hd]⟩

/-- A timer that was only given up still owes its callback. -/
theorem Balanced.giveUp_of_none (hb : t.Balanced) (h : t.pending? = none) : t.giveUp.Balanced where
  balance := by
    rw [hb.pending_giveUp, giveUp_inFlight, giveUp_running, ← hb.balance, hb.pending_eq_zero h]
  current := fun hn hs => absurd hs (not_pending_of_eq_zero hb.pending_giveUp hn)
  running_of_started := by simpa using hb.running_of_started
  stopped_of_destroyed := by simpa using hb.stopped_of_destroyed

/-- Setting a timer back begins the sleep anew if one is pending, and does nothing otherwise. -/
theorem accounts_rearm (hb : t.Balanced) : t.Accounts (t.rearm adjust now) := by
  unfold rearm
  split
  · exact ⟨hb, rfl⟩
  · next hs =>
    cases h : t.pending? with
    | none =>
      refine ⟨by simpa [h] using hb.giveUp_of_none h, ?_⟩
      simp [told]
    | some n =>
      obtain ⟨-, hf, hr⟩ := hb.of_pending? h
      simp only [Option.isSome_some, if_true]
      refine ⟨Balanced.arm_of_idle hb.pending_giveUp ?_ ?_ ?_, ?_⟩
      · rw [giveUp_inFlight, hf]
      · rw [giveUp_running, hr]
      · simpa using hb.stopped_of_destroyed
      · simp [told, arm, hr]

/-- A timer at rest is a stopped one. -/
theorem Balanced.stopped_of_idle (hb : t.Balanced) (hr : t.running = false) : t.stopped = true := by
  cases hs : t.stopped with
  | true => rfl
  | false => simp [hb.running_of_started hs] at hr

/-- Destroying gives the last notice if nothing is in flight, and leaves it to the callback
otherwise. -/
theorem accounts_destroy (hb : t.Balanced) : t.Accounts t.destroy := by
  unfold destroy
  split
  · exact ⟨hb, rfl⟩
  · next hd =>
    simp only [Bool.not_eq_true] at hd
    split
    · next hr =>
      -- nothing is in flight, so the notice is given here
      simp only [Bool.not_eq_true'] at hr
      refine ⟨⟨hb.balance, hb.current, hb.running_of_started, fun _ => hb.stopped_of_idle hr⟩, ?_⟩
      simp [told, hd, hr]
    · next hr =>
      simp only [Bool.not_eq_true', Bool.not_eq_false] at hr
      split
      · next hs =>
        refine ⟨⟨hb.balance, hb.current, hb.running_of_started, fun _ => hs⟩, ?_⟩
        simp [told, hd, hr]
      · have hkept := hb.stopped_giveUp true
        cases h : t.pending? with
        | none =>
          simp only [Option.isSome_none, Bool.false_eq_true, if_false]
          refine ⟨by simpa [h, hr] using hkept, ?_⟩
          simp [told, hd, hr]
        | some n =>
          simp only [Option.isSome_some, if_true]
          refine ⟨by simpa [h] using hkept, ?_⟩
          simp [told, hd]

/-- A sleep that ends hands over to a callback. -/
theorem accounts_fire (hb : t.Balanced) (n : Nat) : t.Accounts (t.fire n) := by
  unfold fire
  split
  · next h =>
    obtain ⟨s, hn, hs⟩ : ∃ s, t.sleeps[n]? = some s ∧ s.state = .pending := by
      simpa [Option.any_eq_true] using h
    have hless := pending_setSleep hn hs (by simp : SleepState.fired ≠ .pending)
    have hbal := hb.balance
    have hle : t.running.toNat ≤ 1 := Bool.toNat_le _
    -- the sleep that ends was the only one, and a callback takes its place in the balance
    have hzero : (t.setSleep n .fired).pending = 0 := by omega
    refine ⟨⟨?_, ?_, hb.running_of_started, hb.stopped_of_destroyed⟩, rfl⟩
    · show (t.setSleep n .fired).pending + (t.dispatched + 1 + t.executing) = t.running.toNat
      unfold inFlight at hbal
      omega
    · exact fun hm hp => absurd hp (not_pending_of_eq_zero hzero hm)
  · exact ⟨hb, rfl⟩

/-- A callback in flight is all that the timer owes. -/
theorem Balanced.of_inFlight (hb : t.Balanced) (h : 0 < t.inFlight) :
    t.pending = 0 ∧ t.inFlight = 1 ∧ t.running = true := by
  have hbal := hb.balance
  cases hr : t.running <;> simp [hr] at hbal ⊢ <;> omega

/-- A stopped timer whose callback has ended is at rest, and tells so if it was destroyed. -/
theorem accounts_settle {u : Timer} (hp : u.pending = 0) (hf : u.inFlight = 0)
    (hs : u.stopped = true) : u.settle.1.Balanced ∧
      u.settle.2.count .destroyed = u.settle.1.told := by
  refine ⟨⟨?_, ?_, ?_, fun _ => hs⟩, ?_⟩
  · have hsum : u.pending + u.inFlight = 0 := by rw [hp, hf]
    exact hsum
  · exact fun hn hs => absurd hs (not_pending_of_eq_zero hp hn)
  · simp [settle, hs]
  · cases hd : u.destroyed <;> simp [settle, told, hd]

/-- A callback that is entered runs, or brings a stopped timer to rest. -/
theorem accounts_enter (hb : t.Balanced) : t.Accounts t.enter := by
  unfold enter
  split
  · exact ⟨hb, rfl⟩
  · next hd =>
    obtain ⟨hp, hf, hr⟩ := hb.of_inFlight (by unfold inFlight; omega)
    have htold : t.told = 0 := by simp [told, hr]
    unfold inFlight at hf
    dsimp only
    split
    · next hs =>
      have hrest : (t.dispatched - 1) + t.executing = 0 := by omega
      obtain ⟨hb', hc⟩ := accounts_settle
        (u := { t with dispatched := t.dispatched - 1, current := none }) hp hrest hs
      exact ⟨hb', by rw [htold, hc, Nat.zero_add]⟩
    · next hs =>
      refine ⟨⟨?_, ?_, fun _ => hr, hb.stopped_of_destroyed⟩, ?_⟩
      · have hbal := hb.balance
        simp only [pending, inFlight] at hbal ⊢
        omega
      · exact fun hm hq => absurd hq (not_pending_of_eq_zero hp hm)
      · simp [told, hr]

/-- A callback that is left begins the next sleep, or brings a stopped timer to rest. -/
theorem accounts_leave (hb : t.Balanced) : t.Accounts (t.leave adjust now) := by
  unfold leave
  split
  · exact ⟨hb, rfl⟩
  · next he =>
    obtain ⟨hp, hf, hr⟩ := hb.of_inFlight (by unfold inFlight; omega)
    have htold : t.told = 0 := by simp [told, hr]
    unfold inFlight at hf
    have hrest : t.dispatched + (t.executing - 1) = 0 := by omega
    dsimp only
    split
    · next hs =>
      obtain ⟨hb', hc⟩ := accounts_settle
        (u := { t with executing := t.executing - 1, invoking := false }) hp hrest hs
      exact ⟨hb', by rw [htold, hc, Nat.zero_add]⟩
    · refine ⟨Balanced.arm_of_idle hp hrest hr hb.stopped_of_destroyed, ?_⟩
      simp [told, arm, hr]

/-- Every step keeps the balance and accounts for the last notice. -/
theorem accounts_take (hb : t.Balanced) (h : Happening) : t.Accounts (t.take h) := by
  unfold take step
  -- one case for each event; a new timeout is no more than a new timeout
  cases h.event with
  | start => exact accounts_start hb
  | stop => exact accounts_stop hb
  | reset => exact accounts_rearm hb
  | resetWith timeout =>
    have hb' : Balanced { t with timeout } :=
      ⟨hb.balance, hb.current, hb.running_of_started, hb.stopped_of_destroyed⟩
    exact accounts_rearm hb'
  | destroy => exact accounts_destroy hb
  | fire n => exact accounts_fire hb n
  | enter => exact accounts_enter hb
  | leave => exact accounts_leave hb

/-- So does every history. -/
theorem accounts_run (hb : t.Balanced) (hs : List Happening) : t.Accounts (t.run hs) := by
  induction hs generalizing t with
  | nil => exact ⟨hb, rfl⟩
  | cons h hs ih =>
    obtain ⟨hb₁, hc₁⟩ := accounts_take hb h
    obtain ⟨hb₂, hc₂⟩ := ih hb₁
    refine ⟨hb₂, ?_⟩
    rw [run, List.count_append, ← Nat.add_assoc, hc₁, hc₂]

/-! ### Stopped timers -/

/-- Setting a timer back does not run the callback. -/
theorem run_notMem_rearm : Notice.run ∉ (t.rearm adjust now).2 := by
  unfold rearm arm
  split
  · simp
  · split <;> simp

/-- A callback runs only when a worker takes it up and finds that the timer was not stopped. -/
theorem stopped_eq_false_of_run {h : Happening} (hrun : Notice.run ∈ (t.take h).2) :
    h.event = .enter ∧ t.stopped = false := by
  unfold take step at hrun
  -- all events but one give other notices, if any
  cases he : h.event <;> simp only [he] at hrun
  case enter =>
    unfold enter at hrun
    split at hrun
    · simp at hrun
    · dsimp only at hrun
      split at hrun
      · unfold settle at hrun
        split at hrun <;> simp at hrun
      · next hs => exact ⟨rfl, by simpa using hs⟩
  case start =>
    unfold start arm at hrun
    split at hrun
    · simp at hrun
    · split at hrun <;> simp at hrun
  case stop =>
    unfold stop at hrun
    split at hrun <;> simp at hrun
  case reset => exact absurd hrun run_notMem_rearm
  case resetWith => exact absurd hrun run_notMem_rearm
  case destroy =>
    unfold destroy at hrun
    repeat' split at hrun
    all_goals simp at hrun
  case fire =>
    unfold fire at hrun
    split at hrun <;> simp at hrun
  case leave =>
    unfold leave settle arm at hrun
    repeat' (first | split at hrun | dsimp only at hrun)
    all_goals simp at hrun

/-- Only a start that takes effect ends it that a timer is stopped. -/
theorem stopped_take {h : Happening} (hs : t.stopped = true) (hn : ¬ t.StartedBy h) :
    (t.take h).1.stopped = true := by
  unfold take step
  cases he : h.event with
  -- starting is the exception, and it does nothing to a destroyed timer
  | start =>
    have hd : t.destroyed = true := by simpa [StartedBy, he, hs] using hn
    simp [start, hd, hs]
  | stop => simp [stop, hs]
  | reset => simp [rearm, hs]
  | resetWith timeout => simp [rearm, hs]
  | destroy =>
    simp only [destroy, hs]
    repeat' split
    all_goals first | rfl | exact hs
  | fire n =>
    simp only [fire]
    split <;> exact hs
  | enter =>
    simp only [enter, hs, if_true]
    split
    · exact hs
    · rfl
  | leave =>
    simp only [leave, hs, if_true]
    split
    · exact hs
    · rfl

/-- Once it is stopped a timer runs no callback before a start takes effect. -/
theorem run_notMem_of_not_starts {hs : List Happening} (hstop : t.stopped = true)
    (hn : ¬ t.Starts hs) : Notice.run ∉ (t.run hs).2 := by
  induction hs generalizing t with
  | nil => simp [run]
  | cons h hs ih =>
    obtain ⟨hn₁, hn₂⟩ := not_or.1 hn
    rw [run, List.mem_append, not_or]
    refine ⟨?_, ih (stopped_take hstop hn₁) hn₂⟩
    intro hrun
    have hgo := (stopped_eq_false_of_run hrun).2
    simp [hstop] at hgo

/-- A timer is stopped when it is told to stop, and when it is destroyed. -/
theorem stopped_of_stop_or_destroy (hb : t.Balanced) {h : Happening}
    (he : h.event = .stop ∨ h.event = .destroy) : (t.take h).1.stopped = true := by
  unfold take step
  rcases he with he | he
  · simp only [he, stop]
    split
    · assumption
    · rfl
  · -- a destroyed timer is a stopped one, whichever way it came to that
    have hd : (t.destroy).1.destroyed = true := by
      unfold destroy
      repeat' split
      all_goals first | assumption | rfl
    have hkept := (accounts_destroy hb).1
    simpa only [he] using hkept.stopped_of_destroyed hd

/-! ### Destroyed timers -/

theorem told_le_one (t : Timer) : t.told ≤ 1 := Bool.toNat_le _

theorem told_eq_one : t.told = 1 ↔ t.destroyed = true ∧ t.running = false := by
  simp [told]

/-- No start takes effect on a timer that gave its last notice. -/
theorem not_starts_of_told (hb : t.Balanced) (ht : t.told = 1) (hs : List Happening) :
    ¬ t.Starts hs := by
  induction hs generalizing t with
  | nil => exact id
  | cons h hs ih =>
    obtain ⟨hb', hc⟩ := accounts_take hb h
    have hle := told_le_one (t.take h).1
    rintro (⟨-, -, hd⟩ | hs')
    · rw [(told_eq_one.1 ht).1] at hd
      simp at hd
    · exact ih hb' (by omega) hs'

/-- After its last notice a timer has no callback in flight, and none runs any more. -/
theorem quiet_of_told (hb : t.Balanced) (ht : t.told = 1) (hs : List Happening) :
    t.inFlight = 0 ∧ Notice.run ∉ (t.run hs).2 := by
  obtain ⟨-, hr⟩ := told_eq_one.1 ht
  have hbal : t.pending + t.inFlight = 0 := by simpa [hr] using hb.balance
  refine ⟨(Nat.add_eq_zero_iff.1 hbal).2, ?_⟩
  exact run_notMem_of_not_starts (hb.stopped_of_idle hr) (not_starts_of_told hb ht hs)

/-! ### The life of a timer -/

/-- **The life of a timer.**  For every history of a new timer, in whatever order the calls and the
timer's own steps come:

* at most one callback executes at a time;
* the timer is running exactly if one sleep is pending or one callback is in flight, never both,
  and a timer that is not stopped is running;
* once it was stopped or destroyed no callback runs before a start takes effect;
* the last notice is given at most once, at a moment when no callback is under way, and no callback
  runs after it;
* a destroyed timer at rest has given it. -/
theorem lifecycle (timeout : Nat) (hs : List Happening) :
    let new : Timer := { timeout }
    let t := (new.run hs).1
    t.executing ≤ 1 ∧
    (t.running = true ↔ t.pending = 1 ∨ t.inFlight = 1) ∧
    t.pending + t.inFlight ≤ 1 ∧
    (t.stopped = false → t.running = true) ∧
    (∀ before h after, hs = before ++ h :: after → h.event = .stop ∨ h.event = .destroy →
      let stopped := (((new.run before).1).take h).1
      ¬ stopped.Starts after → Notice.run ∉ (stopped.run after).2) ∧
    (new.run hs).2.count .destroyed ≤ 1 ∧
    (∀ before h after, hs = before ++ h :: after →
      let s := (new.run before).1.take h
      Notice.destroyed ∈ s.2 → s.1.inFlight = 0 ∧ Notice.run ∉ (s.1.run after).2) ∧
    (t.destroyed = true → t.running = false → (new.run hs).2.count .destroyed = 1) := by
  intro new t
  have hnew : new.Balanced := balanced_new timeout
  obtain ⟨hb, hc⟩ := accounts_run hnew hs
  -- a new timer has told nothing, so what is told in the end was told by the history
  have hcount : (new.run hs).2.count .destroyed = t.told := by
    rw [← hc]
    exact (Nat.zero_add _).symm
  have hbal : t.pending + t.inFlight = t.running.toNat := hb.balance
  have hle : t.running.toNat ≤ 1 := Bool.toNat_le _
  refine ⟨?_, ?_, ?_, hb.running_of_started, ?_, ?_, ?_, ?_⟩
  · have hinFlight : t.inFlight = t.dispatched + t.executing := rfl
    omega
  · cases hr : t.running <;> simp [hr] at hbal ⊢ <;> omega
  · omega
  · intro before h after _ he stopped hn
    have hbefore := (accounts_run hnew before).1
    exact run_notMem_of_not_starts (stopped_of_stop_or_destroy hbefore he) hn
  · rw [hcount]
    exact told_le_one t
  · intro before h after _ s hmem
    have hbefore := (accounts_run hnew before).1
    obtain ⟨hs, hcs⟩ : (new.run before).1.Accounts s := accounts_take hbefore h
    -- the notice is given by the step that brings the destroyed timer to rest
    have hpos : 0 < s.2.count .destroyed := List.count_pos_iff.2 hmem
    have htold : s.1.told = 1 := by
      have := told_le_one s.1
      omega
    exact quiet_of_told hs htold after
  · intro hd hr
    rw [hcount]
    exact told_eq_one.2 ⟨hd, hr⟩

end RaftReplica.Timer
