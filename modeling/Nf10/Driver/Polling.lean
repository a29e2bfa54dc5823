import Nf10.Driver.RxRing

/-!
# Nf10 — who looks at the RX ring next

The device raises no interrupt. A frame is noticed by `rx_poll_timer_cb`, which hands over to NAPI,
and `nf10_napi_struct_poll` hands back to the timer once the ring is empty. The two netlink commands
`genl_cmd_napi_enable` and `genl_cmd_napi_disable` start and stop the timer without asking whose
turn it is.

* **`polling_never_lost`** — until polling is disabled, the timer is pending or NAPI is scheduled;
* **`enable_while_scheduled_rearms`** — an enable issued while NAPI is scheduled puts two owners in
  charge, and the poll then arms a pending timer;
* **`add_timer_only_when_idle`** — in every run without such an enable the timer is armed only while
  it is not pending.

A poll is a sequence of steps here, the device and the commands may run between any two of them.
-/

namespace Nf10

/-! ## The timer, NAPI and the poll

Three things decide whether somebody looks at the ring: the timer, the NAPI schedule and a poll that
is running. The kernel's part in them is what it documents of `add_timer`, `del_timer`,
`napi_schedule` and `napi_complete`. -/

/-- Where a running `nf10_napi_struct_poll` stands: inside its loop, or past it and short of the
flag test that decides whether it is done. -/
inductive PollPoint where
  | loop (c : PollCall)
  | left (c : PollCall)
deriving DecidableEq, Repr

/-- The driver, the kernel's view of `rx_poll_timer` and of `nf10_napi_struct`, and the poll that is
running if there is one. -/
structure Polling where
  driver : Driver
  timerPending : Bool
  napiScheduled : Bool
  poll : Option PollPoint
  -- One entry for each `add_timer` call: was the timer pending?
  arms : List Bool

namespace Polling

/-- Arms the timer, and records whether it was armed already, which the kernel treats as a bug. -/
def addTimer (s : Polling) : Polling :=
  { s with timerPending := true, arms := s.arms ++ [s.timerPending] }

/-- Disarms it, pending or not. -/
def delTimer (s : Polling) : Polling :=
  { s with timerPending := false }

/-- The kernel is to call the poll. -/
def napiSchedule (s : Polling) : Polling :=
  { s with napiScheduled := true }

/-- The poll has nothing left to do. -/
def napiComplete (s : Polling) : Polling :=
  { s with napiScheduled := false }

/-- After the first successful `probe`, whose last act is to start the timer. -/
def probed (d : Driver) (n : Nat) : Polling :=
  { driver := probeStreams d n
    timerPending := false
    napiScheduled := false
    poll := none
    arms := [] : Polling }.addTimer

/-- `rx_poll_timer_cb`. A flag that is not 1 is no frame to it, and it comes back later. -/
def rxPollTimerCb (s : Polling) : Polling :=
  if s.driver.rxDmaStream.flags s.driver.rxDmaStream.bufIndex = 1 then s.napiSchedule
  else s.addTimer

/-- The timer runs out: it is taken off the list before its callback runs. -/
def timerFires (s : Polling) : Polling :=
  if s.timerPending then s.delTimer.rxPollTimerCb else s

/-- The kernel calls the poll that was scheduled; one at a time. -/
def pollEnter (s : Polling) (budget : Int) : Polling :=
  match s.poll with
  | none =>
    if s.napiScheduled then { s with poll := some (.loop (pollStart s.driver budget)) } else s
  | some _ => s

/-- One turn of the loop, or its end. -/
def pollTurn (b : Build) (s : Polling) (skbOk : Bool) : Polling :=
  match s.poll with
  | some (.loop c) =>
    if pollTest s.driver c then
      let r := pollIteration b s.driver c skbOk
      { s with driver := r.1, poll := some (.loop r.2.1) }
    else { s with poll := some (.left c) }
  | _ => s

/-- "Check if we processed everything", at the poll's own index. Any value but 0, also one that
ended the loop by not being 1, leaves the poll scheduled. -/
def pollReturn (s : Polling) : Polling :=
  match s.poll with
  | some (.left c) =>
    let s := { s with poll := none }
    if s.driver.rxDmaStream.flags c.bufIndex = 0 then s.napiComplete.addTimer else s
  | _ => s

/-- `genl_cmd_napi_enable` restarts the timer without a look at whether a poll is scheduled. -/
def genlCmdNapiEnable (s : Polling) : Polling :=
  s.delTimer.addTimer

/-- `genl_cmd_napi_disable` stops the timer. A poll that is scheduled goes on. -/
def genlCmdNapiDisable (s : Polling) : Polling :=
  s.delTimer

/-- The device writes slot `i`; `flag` is whatever it leaves in the flag word. -/
def hwFill (s : Polling) (i : Nat) (f : Frame) (flag : UInt32) : Polling :=
  { s with driver := { s.driver with
      rxDmaStream := (s.driver.rxDmaStream.hwFill i f).setFlag i flag } }

end Polling

/-- What may happen, in any order: the device may leave any flag in any slot. -/
inductive PollEvent where
  | timerFires
  | pollEnter (budget : Int)
  | pollTurn (skbOk : Bool)
  | pollReturn
  | hwFill (i : Nat) (f : Frame) (flag : UInt32)
  | dmaRx (hasInfo : Bool) (calls : DmaRxCalls)
  | napiEnable
  | napiDisable

/-- One event. -/
def Polling.step (b : Build) (s : Polling) : PollEvent → Polling
  | .timerFires => s.timerFires
  | .pollEnter budget => s.pollEnter budget
  | .pollTurn skbOk => s.pollTurn b skbOk
  | .pollReturn => s.pollReturn
  | .hwFill i f flag => s.hwFill i f flag
  | .dmaRx hasInfo calls => { s with driver := (genlCmdDmaRx s.driver hasInfo calls).1 }
  | .napiEnable => s.genlCmdNapiEnable
  | .napiDisable => s.genlCmdNapiDisable

namespace Polling

variable {s : Polling}

@[simp] theorem addTimer_poll : s.addTimer.poll = s.poll := rfl
@[simp] theorem addTimer_timerPending : s.addTimer.timerPending = true := rfl
@[simp] theorem addTimer_napiScheduled : s.addTimer.napiScheduled = s.napiScheduled := rfl
@[simp] theorem addTimer_arms : s.addTimer.arms = s.arms ++ [s.timerPending] := rfl
@[simp] theorem delTimer_poll : s.delTimer.poll = s.poll := rfl
@[simp] theorem delTimer_timerPending : s.delTimer.timerPending = false := rfl
@[simp] theorem delTimer_napiScheduled : s.delTimer.napiScheduled = s.napiScheduled := rfl
@[simp] theorem delTimer_arms : s.delTimer.arms = s.arms := rfl
@[simp] theorem napiSchedule_poll : s.napiSchedule.poll = s.poll := rfl
@[simp] theorem napiSchedule_timerPending : s.napiSchedule.timerPending = s.timerPending := rfl
@[simp] theorem napiSchedule_napiScheduled : s.napiSchedule.napiScheduled = true := rfl
@[simp] theorem napiSchedule_arms : s.napiSchedule.arms = s.arms := rfl
@[simp] theorem napiComplete_poll : s.napiComplete.poll = s.poll := rfl
@[simp] theorem napiComplete_timerPending : s.napiComplete.timerPending = s.timerPending := rfl
@[simp] theorem napiComplete_napiScheduled : s.napiComplete.napiScheduled = false := rfl
@[simp] theorem napiComplete_arms : s.napiComplete.arms = s.arms := rfl

/-! ## What a step can do to the timer and to NAPI

The ring is behind the driver; whose turn it is, is in the four other fields. -/

/-- The moves of a step, read on the timer, NAPI, the running poll and the log of `add_timer`. -/
inductive Moves : Polling → PollEvent → Polling → Prop where
  -- the ring may change, or the poll may move on inside its loop
  | still {s s' : Polling} {e : PollEvent} (htimer : s'.timerPending = s.timerPending)
      (hnapi : s'.napiScheduled = s.napiScheduled) (hpoll : s'.poll.isSome = s.poll.isSome)
      (harms : s'.arms = s.arms) : Moves s e s'
  | rearmed {s s' : Polling} (hfired : s.timerPending = true) (htimer : s'.timerPending = true)
      (hnapi : s'.napiScheduled = s.napiScheduled) (hpoll : s'.poll = s.poll)
      (harms : s'.arms = s.arms ++ [false]) : Moves s .timerFires s'
  | scheduled {s s' : Polling} (hfired : s.timerPending = true) (htimer : s'.timerPending = false)
      (hnapi : s'.napiScheduled = true) (hpoll : s'.poll = s.poll)
      (harms : s'.arms = s.arms) : Moves s .timerFires s'
  | entered {s s' : Polling} {budget : Int} (hsched : s.napiScheduled = true)
      (htimer : s'.timerPending = s.timerPending) (hnapi : s'.napiScheduled = true)
      (hpoll : s'.poll.isSome) (harms : s'.arms = s.arms) : Moves s (.pollEnter budget) s'
  | completed {s s' : Polling} (hran : s.poll.isSome) (htimer : s'.timerPending = true)
      (hnapi : s'.napiScheduled = false) (hpoll : s'.poll = none)
      (harms : s'.arms = s.arms ++ [s.timerPending]) : Moves s .pollReturn s'
  | again {s s' : Polling} (hran : s.poll.isSome) (htimer : s'.timerPending = s.timerPending)
      (hnapi : s'.napiScheduled = s.napiScheduled) (hpoll : s'.poll = none)
      (harms : s'.arms = s.arms) : Moves s .pollReturn s'
  | enabled {s s' : Polling} (htimer : s'.timerPending = true)
      (hnapi : s'.napiScheduled = s.napiScheduled) (hpoll : s'.poll = s.poll)
      (harms : s'.arms = s.arms ++ [false]) : Moves s .napiEnable s'
  | disabled {s s' : Polling} (htimer : s'.timerPending = false)
      (hnapi : s'.napiScheduled = s.napiScheduled) (hpoll : s'.poll = s.poll)
      (harms : s'.arms = s.arms) : Moves s .napiDisable s'

/-- The callback either schedules NAPI or comes back later. -/
theorem timerFires_moves (s : Polling) : Moves s .timerFires s.timerFires := by
  unfold timerFires
  split
  · next hfired =>
    unfold rxPollTimerCb
    split
    · exact .scheduled hfired rfl rfl rfl rfl
    · exact .rearmed hfired rfl rfl rfl rfl
  · exact .still rfl rfl rfl rfl

/-- Entering changes neither the timer nor the schedule. -/
theorem pollEnter_moves (s : Polling) (budget : Int) :
    Moves s (.pollEnter budget) (s.pollEnter budget) := by
  unfold pollEnter
  split
  · split
    · next hsched => exact .entered hsched rfl hsched rfl rfl
    · exact .still rfl rfl rfl rfl
  · exact .still rfl rfl rfl rfl

theorem pollTurn_moves (b : Build) (s : Polling) (skbOk : Bool) :
    Moves s (.pollTurn skbOk) (s.pollTurn b skbOk) := by
  unfold pollTurn
  split
  · next c hpoll =>
    have hsome : s.poll.isSome := by simp [hpoll]
    split
    · exact .still rfl rfl hsome.symm rfl
    · exact .still rfl rfl hsome.symm rfl
  · exact .still rfl rfl rfl rfl

/-- On its return the poll hands over to the timer, or stays scheduled. -/
theorem pollReturn_moves (s : Polling) : Moves s .pollReturn s.pollReturn := by
  unfold pollReturn
  split
  · next c hpoll =>
    have hsome : s.poll.isSome := by simp [hpoll]
    dsimp only
    split
    · exact .completed hsome rfl rfl rfl rfl
    · exact .again hsome rfl rfl rfl rfl
  · exact .still rfl rfl rfl rfl

/-- **What a step can do** to the timer, the schedule and the poll. The two invariants below look
at these cases and not at the code. -/
theorem step_moves (b : Build) (s : Polling) (e : PollEvent) : Moves s e (s.step b e) := by
  cases e with
  | timerFires => exact timerFires_moves s
  | pollEnter budget => exact pollEnter_moves s budget
  | pollTurn skbOk => exact pollTurn_moves b s skbOk
  | pollReturn => exact pollReturn_moves s
  | hwFill i f flag => exact .still rfl rfl rfl rfl
  | dmaRx hasInfo calls => exact .still rfl rfl rfl rfl
  | napiEnable => exact .enabled rfl rfl rfl rfl
  | napiDisable => exact .disabled rfl rfl rfl rfl

/-- `hw_state` belongs to `probe` alone. -/
theorem step_hwState (b : Build) (s : Polling) (e : PollEvent) :
    (s.step b e).driver.hwState = s.driver.hwState := by
  cases e with
  | timerFires =>
    simp only [step, timerFires, rxPollTimerCb]
    split_ifs <;> rfl
  | pollEnter budget =>
    simp only [step, pollEnter]
    split
    · split_ifs <;> rfl
    · rfl
  | pollTurn skbOk =>
    simp only [step, pollTurn]
    split
    · split_ifs
      · simp [pollIteration]
      · rfl
    · rfl
  | pollReturn =>
    simp only [step, pollReturn]
    split
    · split_ifs <;> rfl
    · rfl
  | dmaRx hasInfo calls =>
    obtain ⟨heq, _⟩ | ⟨_, heq, _⟩ := genlCmdDmaRx_cases s.driver hasInfo calls
    · simp only [step, heq]
    · simp only [step, heq, Driver.retire_hwState]
  | hwFill i f flag => rfl
  | napiEnable => rfl
  | napiDisable => rfl

/-! ## Polling is never lost

Between a `probe` and the first `genl_cmd_napi_disable` there is always somebody who will look at
the ring, also when the device leaves values in the flags that the driver does not know. -/

/-- Somebody will look at the ring: the timer, or a poll; and a running poll is a scheduled one. -/
structure Watched (s : Polling) : Prop where
  watched : s.timerPending = true ∨ s.napiScheduled = true
  running : s.poll.isSome → s.napiScheduled = true

theorem probed_watched (d : Driver) (n : Nat) : (probed d n).Watched where
  watched := Or.inl rfl
  running h := by simp [probed] at h

/-- Every step but a disable hands the watch on. -/
theorem Watched.step (b : Build) (s : Polling) (e : PollEvent) (h : s.Watched)
    (he : e ≠ .napiDisable) : (s.step b e).Watched := by
  obtain ⟨hw, hr⟩ := h
  cases step_moves b s e with
  | still htimer hnapi hpoll _ =>
    exact ⟨by rwa [htimer, hnapi], by rwa [hpoll, hnapi]⟩
  | rearmed _ htimer hnapi hpoll _ => exact ⟨Or.inl htimer, by rwa [hpoll, hnapi]⟩
  | scheduled _ _ hnapi _ _ => exact ⟨Or.inr hnapi, fun _ => hnapi⟩
  | entered _ _ hnapi _ _ => exact ⟨Or.inr hnapi, fun _ => hnapi⟩
  | completed _ htimer _ hpoll _ => exact ⟨Or.inl htimer, by simp [hpoll]⟩
  | again hran _ hnapi hpoll _ => exact ⟨Or.inr (hnapi.trans (hr hran)), by simp [hpoll]⟩
  | enabled htimer hnapi hpoll _ => exact ⟨Or.inl htimer, by rwa [hpoll, hnapi]⟩
  | disabled => exact absurd rfl he

/-- **Polling is never lost.** After a successful probe, in every order of the steps and whatever
the device leaves in the flags, the timer is pending or NAPI is scheduled until a
`genl_cmd_napi_disable`. -/
theorem polling_never_lost (b : Build) (d : Driver) (n : Nat) (es : List PollEvent)
    (h : ∀ e ∈ es, e ≠ .napiDisable) :
    (Runs.run (step b) (probed d n) es).timerPending = true
      ∨ (Runs.run (step b) (probed d n) es).napiScheduled = true := by
  have hsteps : Runs.Along (step b) (fun _ e => e ≠ .napiDisable) (probed d n) es :=
    Runs.along_of_mem (fun e he _ => h e he) (probed d n)
  have hinv : (Runs.run (step b) (probed d n) es).Watched :=
    Runs.run_invariant (Watched.step b) (probed_watched d n) hsteps
  exact hinv.watched

/-- The ring of one slot is filled with a flag value the driver does not know. The poll that is
scheduled for a proper frame finds it in place of the frame and stays scheduled. -/
theorem polling_never_lost_unknown_flag :
    (Runs.run (step plainBuild) (probed plainDriver 1)
        [.hwFill 0 (taggedFrame 0).val 1, .timerFires, .hwFill 0 (taggedFrame 1).val 2,
          .pollEnter 64, .pollTurn true, .pollReturn]).timerPending = true
      ∨ (Runs.run (step plainBuild) (probed plainDriver 1)
        [.hwFill 0 (taggedFrame 0).val 1, .timerFires, .hwFill 0 (taggedFrame 1).val 2,
          .pollEnter 64, .pollTurn true, .pollReturn]).napiScheduled = true :=
  polling_never_lost plainBuild plainDriver 1 _ (by simp)

/-! ## The timer and NAPI at once

A timer that is armed while a poll is scheduled gives two that arm it later. An enable at the wrong
moment does that, and nothing else does. -/

/-- `genl_cmd_napi_enable` is issued only while NAPI is not scheduled. -/
def EnabledInTurn (s : Polling) : PollEvent → Prop
  | .napiEnable => s.napiScheduled = false
  | _ => True

instance (s : Polling) : ∀ e, Decidable (EnabledInTurn s e)
  | .napiEnable => inferInstanceAs (Decidable (s.napiScheduled = false))
  | .timerFires => isTrue trivial
  | .pollEnter _ => isTrue trivial
  | .pollTurn _ => isTrue trivial
  | .pollReturn => isTrue trivial
  | .hwFill _ _ _ => isTrue trivial
  | .dmaRx _ _ => isTrue trivial
  | .napiDisable => isTrue trivial

/-- The right to arm the timer has one owner: NAPI from the callback that schedules it until
`napi_complete`, the timer itself before and after. -/
structure OneOwner (s : Polling) : Prop where
  exclusive : s.timerPending = true → s.napiScheduled = false
  running : s.poll.isSome → s.napiScheduled = true
  armedIdle : ∀ p ∈ s.arms, p = false

theorem probed_oneOwner (d : Driver) (n : Nat) : (probed d n).OneOwner where
  exclusive _ := rfl
  running h := by simp [probed] at h
  armedIdle p hp := by simpa [probed] using hp

/-- While NAPI has it the timer is not armed. -/
theorem OneOwner.not_pending {s : Polling} (h : s.OneOwner) (hs : s.napiScheduled = true) :
    s.timerPending = false := by
  cases hp : s.timerPending with
  | false => rfl
  | true => simp [h.exclusive hp] at hs

/-- One more call of `add_timer`, on a timer that was not armed. -/
theorem forall_mem_arm {arms : List Bool} (h : ∀ p ∈ arms, p = false) {q : Bool}
    (hq : q = false) : ∀ p ∈ arms ++ [q], p = false := by
  intro p hp
  rcases List.mem_append.mp hp with hp | hp
  · exact h p hp
  · rw [List.mem_singleton.mp hp, hq]

/-- Every step but an enable out of turn keeps one owner. -/
theorem OneOwner.step (b : Build) (s : Polling) (e : PollEvent) (h : s.OneOwner)
    (he : EnabledInTurn s e) : (s.step b e).OneOwner := by
  have hx := h.exclusive
  have hr := h.running
  have ha := h.armedIdle
  cases step_moves b s e with
  | still htimer hnapi hpoll harms =>
    exact ⟨by rwa [htimer, hnapi], by rwa [hpoll, hnapi], by rwa [harms]⟩
  | rearmed hfired _ hnapi hpoll harms =>
    exact ⟨fun _ => hnapi.trans (hx hfired), by rwa [hpoll, hnapi],
      harms ▸ forall_mem_arm ha rfl⟩
  | scheduled _ htimer hnapi _ harms =>
    exact ⟨by simp [htimer], fun _ => hnapi, by rwa [harms]⟩
  | entered hsched htimer hnapi _ harms =>
    have hidle : s.timerPending = false := h.not_pending hsched
    exact ⟨by simp [htimer, hidle], fun _ => hnapi, by rwa [harms]⟩
  | completed hran _ hnapi hpoll harms =>
    -- the poll was scheduled, so the timer it arms was idle
    have hidle : s.timerPending = false := h.not_pending (hr hran)
    exact ⟨fun _ => hnapi, by simp [hpoll], harms ▸ forall_mem_arm ha hidle⟩
  | again hran htimer hnapi hpoll harms =>
    exact ⟨by rwa [htimer, hnapi], by simp [hpoll], by rwa [harms]⟩
  | enabled _ hnapi hpoll harms =>
    exact ⟨fun _ => hnapi.trans he, by rwa [hpoll, hnapi], harms ▸ forall_mem_arm ha rfl⟩
  | disabled htimer hnapi hpoll harms =>
    exact ⟨by simp [htimer], by rwa [hpoll, hnapi], by rwa [harms]⟩

/-- **One owner.** In every run in which polling is enabled only while NAPI is not scheduled,
every `add_timer` finds the timer not pending. -/
theorem add_timer_only_when_idle (b : Build) (d : Driver) (n : Nat) (es : List PollEvent)
    (h : Runs.Along (step b) EnabledInTurn (probed d n) es) :
    ∀ p ∈ (Runs.run (step b) (probed d n) es).arms, p = false := by
  have hinv : (Runs.run (step b) (probed d n) es).OneOwner :=
    Runs.run_invariant (OneOwner.step b) (probed_oneOwner d n) h
  exact hinv.armedIdle

/-- A frame comes in and goes up, polling is switched off and on again while nothing is
scheduled, and a second frame comes in. -/
def restartedRun : List PollEvent :=
  [.hwFill 0 (taggedFrame 0).val 1, .timerFires, .pollEnter 64, .pollTurn true, .pollTurn true,
    .pollReturn, .napiDisable, .napiEnable, .hwFill 1 (taggedFrame 1).val 1, .timerFires,
    .pollEnter 64, .pollTurn true, .pollTurn true, .pollReturn]

/-- There are four calls of `add_timer` in that run, and none of them is on a pending timer. -/
theorem add_timer_only_when_idle_restarted :
    (Runs.run (step plainBuild) (probed plainDriver 2) restartedRun).arms.length = 4
      ∧ ∀ p ∈ (Runs.run (step plainBuild) (probed plainDriver 2) restartedRun).arms, p = false :=
  ⟨by decide +kernel,
    add_timer_only_when_idle plainBuild plainDriver 2 restartedRun (by decide +kernel)⟩

/-- The condition cannot be dropped anywhere: whenever a poll is scheduled and has not begun, an
enable puts the timer next to it, and a poll that finds its slot emptied arms it a second time. -/
theorem enable_while_scheduled_rearms (b : Build) (s : Polling) (hsched : s.napiScheduled = true)
    (hpoll : s.poll = none)
    (hflag : s.driver.rxDmaStream.flags s.driver.rxDmaStream.bufIndex = 0
      ∨ s.driver.rxDmaStream.flags s.driver.rxDmaStream.bufIndex = 1) :
    true ∈ (Runs.run (step b) s [.napiEnable, .pollEnter 0, .pollTurn true,
      .dmaRx true dmaRxCallsOk, .pollReturn]).arms := by
  have hempty : (genlCmdDmaRx s.driver true dmaRxCallsOk).1.rxDmaStream.flags
      s.driver.rxDmaStream.bufIndex = 0 := by
    rcases hflag with h0 | h1
    · simp [genlCmdDmaRx, dmaRxCallsOk, h0]
    · simp [genlCmdDmaRx, dmaRxCallsOk, h1, DmaStream.retired]
  simp [step, genlCmdNapiEnable, pollEnter, hpoll, hsched, pollTurn, pollTest, pollStart,
    pollReturn, addTimer, delTimer, napiComplete, hempty]

/-- **Counterexample.** A frame comes in, the timer schedules a poll, polling is enabled once more,
and the poll that empties the ring arms the timer while it is pending. -/
theorem add_timer_while_pending :
    ¬ ∀ p ∈ (Runs.run (step plainBuild) (probed plainDriver 1)
      [.hwFill 0 (taggedFrame 0).val 1, .timerFires, .napiEnable, .pollEnter 64, .pollTurn true,
        .pollTurn true, .pollReturn]).arms, p = false := by
  decide +kernel

end Polling

end Nf10
