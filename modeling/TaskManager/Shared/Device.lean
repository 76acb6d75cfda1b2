import TaskManager.Verified.InOrder
import TaskManager.Shared.SerialExecutor

/-!
# The way of a request

A call on `AsyncStorage` is one call of a native method.  It goes into the `_queue` of the
bridge, with the queue to the thread of the native modules, and from there as a task to the
`SerialExecutor`.  The body of the task works on the database and invokes the callback, which
goes into the queue of the thread that runs the program.  `Device` is a program with all
of these queues, and `Device.step` moves any of them at any point.

A call has one pair here, as all calls of the application do.  Of several, one bad pair takes
the others back with it, and the callback is not invoked, other than the comment on
`multiSet` says.

`EventLoop.Program` knows nothing of this.  `Device.state` forgets on which part of its way a
request is, and `Move.action` which moves bring it further.

## Main results

* `exec_state` — a run on the device is a run of the program in which the store performs
  and reports in the order of issue.
* `exec_of_inLine` — every such run of the program is one on the device.
-/

namespace TaskManager.Verified.EventLoop

variable {D A R U E : Type}

/-- The actions of a store that performs, refuses and reports in the order of issue. -/
def Action.InLine : Action E → Prop
  | .serve i => i = 0
  | .reject i => i = 0
  | .resolve i => i = 0
  | _ => True

end TaskManager.Verified.EventLoop

namespace TaskManager.Shared

open TaskManager.Verified.EventLoop

variable {D A R U E : Type}

/-- A program and the requests it has issued, part by part of their way. -/
structure Device (D A R U : Type) where
  disk : D
  ui : U
  effects : List A
  /-- `_queue` of the `MessageQueue`. -/
  queue : List A := []
  /-- What has been flushed to the thread of the native modules. -/
  calls : List A := []
  workers : Workers A := {}
  /-- What has been invoked on the thread of the program. -/
  callbacks : List R := []

namespace Device

/-- What can happen next: on the thread of the program, in the queue of calls, on the
threads of the pool, and to the process. -/
inductive Move (E : Type) where
  | user (e : E)
  | effect (i : Nat)
  | flush
  | call
  | start (i : Nat)
  | perform (i : Nat)
  | fail (i : Nat)
  | finish (i : Nat)
  | callback
  | kill
  deriving DecidableEq, Repr

/-- What the program notices of a move. -/
def Move.action : Move E → Option (Action E)
  | .user e => some (.user e)
  | .effect i => some (.effect i)
  | .perform i => some (.serve i)
  | .fail i => some (.reject i)
  | .callback => some (.resolve 0)
  | .kill => some .kill
  | .flush | .call | .start _ | .finish _ => none

/-- The requests of a handler are queued for the next flush. -/
def issue (d : Device D A R U) (out : U × Issued A) : Device D A R U :=
  { d with
    ui := out.1
    effects := d.effects ++ out.2.effects
    queue := d.queue ++ out.2.requests }

section Program

variable (P : Program D A R U E)

/-- A fresh process. -/
def boot (disk : D) (ui : U) : Device D A R U :=
  { disk := disk
    ui := (P.launch ui).1
    effects := (P.launch ui).2.effects
    queue := (P.launch ui).2.requests }

/-- One move, if it can be made. -/
def step (d : Device D A R U) : Move E → Option (Device D A R U)
  | .user e => (P.handle e d.ui).map d.issue
  | .effect i => d.effects[i]?.map fun a =>
      { d with effects := d.effects.eraseIdx i, queue := d.queue ++ [a] }
  | .flush => some { d with queue := [], calls := d.calls ++ d.queue }
  | .call =>
      match d.calls with
      | [] => none
      | a :: as => some { d with calls := as, workers := d.workers.submit a }
  | .start i => (d.workers.start i).map fun w => { d with workers := w }
  | .perform i => (d.workers.leave i).map fun out =>
      { d with
        disk := (P.serve out.1 d.disk).1
        workers := out.2
        callbacks := d.callbacks ++ [(P.serve out.1 d.disk).2] }
  -- The promise is rejected, or never settled: the database has thrown.
  | .fail i => (d.workers.leave i).map fun out => { d with workers := out.2 }
  | .finish i => (d.workers.finish i).map fun w => { d with workers := w }
  | .callback =>
      match d.callbacks with
      | [] => none
      | r :: rs => some ({ d with callbacks := rs }.issue (P.resume r d.ui))
  | .kill => some (boot P d.disk d.ui)

/-- A run, move by move. -/
def exec (d : Device D A R U) : List (Move E) → Option (Device D A R U)
  | [] => some d
  | m :: ms => (step P d m).bind fun d' => exec d' ms

end Program

/-- The state of the program, wherever the requests are. -/
def state (d : Device D A R U) : State D A R U where
  disk := d.disk
  ui := d.ui
  effects := d.effects
  pending := d.workers.waiting ++ d.calls ++ d.queue
  served := d.callbacks

/-- What a handler issues, in the state of the program. -/
theorem state_issue (d : Device D A R U) (out : U × Issued A) :
    (d.issue out).state = d.state.issue out := by
  simp [state, issue, State.issue]

variable {P : Program D A R U E} {d d' : Device D A R U}

@[simp] theorem state_boot (disk : D) (ui : U) : (boot P disk ui).state = P.boot disk ui := by
  simp [state, boot, Program.boot, Workers.waiting]

/-! ## What a run on the device is for the program -/

theorem exec_one {s s' : State D A R U} {x : Action E} (h : P.Step s x s') :
    P.exec s [x] = some s' := by
  rw [P.exec_cons, P.step_iff.mpr h]
  rfl

/-- A move is at most one action of the program, and one in line. -/
theorem step_state (hSerial : d.workers.Serial) {m : Move E} (hStep : step P d m = some d') :
    d'.workers.Serial ∧ P.exec d.state m.action.toList = some d'.state ∧
      ∀ x ∈ m.action, x.InLine := by
  cases m with
  | user e =>
      simp only [step, Option.map_eq_some_iff] at hStep
      obtain ⟨out, hOut, rfl⟩ := hStep
      refine ⟨hSerial, ?_, by simp [Move.action, Action.InLine]⟩
      rw [state_issue]
      exact exec_one (.user hOut)
  | effect i =>
      simp only [step, Option.map_eq_some_iff] at hStep
      obtain ⟨a, hAt, rfl⟩ := hStep
      refine ⟨hSerial, ?_, by simp [Move.action, Action.InLine]⟩
      have hEffect := exec_one (P := P) (.effect (s := d.state) hAt)
      simpa [state, Move.action] using hEffect
  | flush =>
      simp only [step, Option.some.injEq] at hStep
      subst hStep
      refine ⟨hSerial, ?_, by simp [Move.action]⟩
      simp [state, Move.action]
  | call =>
      cases hCalls : d.calls with
      | nil => simp [step, hCalls] at hStep
      | cons a as =>
          simp only [step, hCalls, Option.some.injEq] at hStep
          subst hStep
          obtain ⟨hSerial', hWaiting⟩ := hSerial.submit a
          refine ⟨hSerial', ?_, by simp [Move.action]⟩
          simp [state, Move.action, hWaiting, hCalls]
  | start i =>
      simp only [step, Option.map_eq_some_iff] at hStep
      obtain ⟨w, hStart, rfl⟩ := hStep
      obtain ⟨hSerial', hWaiting⟩ := hSerial.start hStart
      refine ⟨hSerial', ?_, by simp [Move.action]⟩
      simp [state, Move.action, hWaiting]
  | perform i =>
      simp only [step, Option.map_eq_some_iff] at hStep
      obtain ⟨⟨a, w⟩, hLeave, rfl⟩ := hStep
      obtain ⟨hSerial', rfl, hWaiting⟩ := hSerial.leave hLeave
      refine ⟨hSerial', ?_, by simp [Move.action, Action.InLine]⟩
      have hHead : d.state.pending = a :: (w.waiting ++ d.calls ++ d.queue) := by
        simp [state, hWaiting]
      exact exec_one (Program.step_serveHead hHead)
  | fail i =>
      simp only [step, Option.map_eq_some_iff] at hStep
      obtain ⟨⟨a, w⟩, hLeave, rfl⟩ := hStep
      obtain ⟨hSerial', rfl, hWaiting⟩ := hSerial.leave hLeave
      refine ⟨hSerial', ?_, by simp [Move.action, Action.InLine]⟩
      have hHead : d.state.pending = a :: (w.waiting ++ d.calls ++ d.queue) := by
        simp [state, hWaiting]
      have hReject := Program.Step.reject (P := P) (s := d.state) (i := 0) (a := a)
        (by rw [hHead]; rfl)
      rw [hHead] at hReject
      exact exec_one hReject
  | finish i =>
      simp only [step, Option.map_eq_some_iff] at hStep
      obtain ⟨w, hFinish, rfl⟩ := hStep
      obtain ⟨hSerial', hWaiting⟩ := hSerial.finish hFinish
      refine ⟨hSerial', ?_, by simp [Move.action]⟩
      simp [state, Move.action, hWaiting]
  | callback =>
      cases hCallbacks : d.callbacks with
      | nil => simp [step, hCallbacks] at hStep
      | cons r rs =>
          simp only [step, hCallbacks, Option.some.injEq] at hStep
          subst hStep
          refine ⟨hSerial, ?_, by simp [Move.action, Action.InLine]⟩
          rw [state_issue]
          exact exec_one (Program.step_resolveHead hCallbacks)
  | kill =>
      simp only [step, Option.some.injEq] at hStep
      subst hStep
      refine ⟨.empty, ?_, by simp [Move.action, Action.InLine]⟩
      rw [state_boot]
      exact exec_one .kill

/-- **A run on the device** is a run of the program, in line. -/
theorem exec_state (hSerial : d.workers.Serial) {ms : List (Move E)}
    (hRun : exec P d ms = some d') :
    d'.workers.Serial ∧ P.exec d.state (ms.filterMap Move.action) = some d'.state ∧
      ∀ x ∈ ms.filterMap Move.action, x.InLine := by
  induction ms generalizing d with
  | nil =>
      simp only [exec, Option.some.injEq] at hRun
      subst hRun
      exact ⟨hSerial, rfl, by simp⟩
  | cons m ms ih =>
      simp only [exec, Option.bind_eq_some_iff] at hRun
      obtain ⟨d₁, hStep, hRest⟩ := hRun
      obtain ⟨hSerial₁, hExec₁, hLine₁⟩ := step_state hSerial hStep
      obtain ⟨hSerial', hExec, hLine⟩ := ih hSerial₁ hRest
      have hSplit : (m :: ms).filterMap Move.action =
          m.action.toList ++ ms.filterMap Move.action := by
        cases hAction : m.action <;> simp [hAction]
      rw [hSplit]
      refine ⟨hSerial', ?_, ?_⟩
      · rw [P.exec_append, hExec₁]
        exact hExec
      · intro x hx
        rcases List.mem_append.mp hx with hHead | hTail
        · exact hLine₁ x (by simpa using hHead)
        · exact hLine x hTail

/-! ## What the program does in line, the device can do -/

/-- Runs compose. -/
theorem exec_append (ms ns : List (Move E)) :
    exec P d (ms ++ ns) = (exec P d ms).bind fun d₁ => exec P d₁ ns := by
  induction ms generalizing d with
  | nil => rfl
  | cons m ms ih =>
      simp only [List.cons_append, exec, Option.bind_assoc]
      congr 1
      funext d₁
      exact ih

/-- Moves the program does not notice. -/
def Silent (P : Program D A R U E) (d d' : Device D A R U) : Prop :=
  ∃ ms : List (Move E), ms.filterMap Move.action = [] ∧ exec P d ms = some d'

theorem Silent.refl : Silent P d d := ⟨[], rfl, rfl⟩

theorem Silent.move {d₁ : Device D A R U} {m : Move E} (hAction : m.action = none)
    (hStep : step P d m = some d₁) (h : Silent P d₁ d') : Silent P d d' := by
  obtain ⟨ms, hSilent, hRun⟩ := h
  refine ⟨m :: ms, ?_, ?_⟩
  · simp [hAction, hSilent]
  · simp [exec, hStep, hRun]

/-- Moves that the program does not notice leave its state alone. -/
theorem Silent.state (hSerial : d.workers.Serial) (h : Silent P d d') :
    d'.workers.Serial ∧ d'.state = d.state := by
  obtain ⟨ms, hSilent, hRun⟩ := h
  obtain ⟨hSerial', hExec, -⟩ := exec_state hSerial hRun
  rw [hSilent, P.exec_nil, Option.some.injEq] at hExec
  exact ⟨hSerial', hExec.symm⟩

/-- The first request that waits becomes a task. -/
theorem submitted_of_pending {a : A} {as : List A} (h : d.state.pending = a :: as) :
    ∃ d' rest, Silent P d d' ∧ (d.workers.Serial → d'.workers.waiting = a :: rest) := by
  cases hWaiting : d.workers.waiting with
  | cons b rest =>
      refine ⟨d, rest, .refl, fun _ => ?_⟩
      simp only [Device.state, hWaiting, List.cons_append, List.cons.injEq] at h
      rw [hWaiting, h.1]
  | nil =>
      simp only [Device.state, hWaiting, List.nil_append] at h
      have hCalls : (d.calls ++ d.queue) = a :: as := h
      refine ⟨{ d with queue := [], calls := as, workers := d.workers.submit a }, [], ?_, ?_⟩
      · refine .move (m := .flush) rfl rfl (.move (m := .call) rfl ?_ .refl)
        simp [step, hCalls]
      · intro hSerial
        rw [(hSerial.submit a).2, hWaiting, List.nil_append]

theorem Silent.trans {d₁ : Device D A R U} (h : Silent P d d₁) (h' : Silent P d₁ d') :
    Silent P d d' := by
  obtain ⟨ms, hSilent, hRun⟩ := h
  obtain ⟨ns, hSilent', hRun'⟩ := h'
  refine ⟨ms ++ ns, by rw [List.filterMap_append, hSilent, hSilent']; rfl, ?_⟩
  rw [exec_append, hRun]
  exact hRun'

/-- The first request that waits becomes a task whose body is at work. -/
theorem running_of_pending (hSerial : d.workers.Serial) {a : A} {as : List A}
    (h : d.state.pending = a :: as) : ∃ d', Silent P d d' ∧ d'.workers.running = [a] := by
  obtain ⟨d₁, rest, hSilent, hWaiting⟩ := submitted_of_pending (P := P) h
  obtain ⟨hSerial₁, -⟩ := hSilent.state hSerial
  have hStart : ∀ d₂ : Device D A R U, d₂.workers.handed = [a] → d₂.workers.running = [] →
      ∃ d₃, Silent P d₂ d₃ ∧ d₃.workers.running = [a] := by
    intro d₂ hHanded hRunning
    obtain ⟨w, hStep, hDone⟩ := Workers.start_of_handed hHanded hRunning
    exact ⟨{ d₂ with workers := w }, .move (m := .start 0) rfl (by simp [step, hStep]) .refl, hDone⟩
  rcases hSerial₁.ready (hWaiting hSerial) with hRunning | ⟨hHanded, hRunning⟩ | hFinish
  · exact ⟨d₁, hSilent, hRunning⟩
  · obtain ⟨d₂, hSilent₂, hDone⟩ := hStart d₁ hHanded hRunning
    exact ⟨d₂, hSilent.trans hSilent₂, hDone⟩
  · obtain ⟨w, hStep, hHanded, hRunning⟩ := hFinish
    obtain ⟨d₂, hSilent₂, hDone⟩ := hStart { d₁ with workers := w } hHanded hRunning
    refine ⟨d₂, hSilent.trans (.move (m := .finish 0) rfl ?_ hSilent₂), hDone⟩
    simp [step, hStep]

/-- An action in line that the program can take is a move, after some that it does not
notice. -/
theorem move_of_step (hSerial : d.workers.Serial) {x : Action E} {s' : State D A R U}
    (hLine : x.InLine) (hStep : P.Step d.state x s') :
    ∃ d₁ m d', Silent P d d₁ ∧ Move.action m = some x ∧ step P d₁ m = some d' := by
  have hBody : ∀ a, d.state.pending[0]? = some a →
      ∃ d₁ w, Silent P d d₁ ∧ d₁.workers.leave 0 = some (a, w) := by
    intro a hAt
    rw [← List.head?_eq_getElem?, List.head?_eq_some_iff] at hAt
    obtain ⟨as, hPending⟩ := hAt
    obtain ⟨d₁, hSilent, hRunning⟩ := running_of_pending (P := P) hSerial hPending
    exact ⟨d₁, _, hSilent, by rw [Workers.leave, hRunning]; rfl⟩
  cases hStep with
  | @user e out hOut =>
      exact ⟨d, .user e, d.issue out, .refl, rfl, congrArg (Option.map d.issue) hOut⟩
  | @effect i a hAt =>
      exact ⟨d, .effect i, _, .refl, rfl, congrArg (Option.map _) hAt⟩
  | @serve i a hAt =>
      obtain rfl : i = 0 := hLine
      obtain ⟨d₁, w, hSilent, hLeave⟩ := hBody a hAt
      exact ⟨d₁, .perform 0, _, hSilent, rfl, congrArg (Option.map _) hLeave⟩
  | @reject i a hAt =>
      obtain rfl : i = 0 := hLine
      obtain ⟨d₁, w, hSilent, hLeave⟩ := hBody a hAt
      exact ⟨d₁, .fail 0, _, hSilent, rfl, congrArg (Option.map _) hLeave⟩
  | @resolve i r hAt =>
      obtain rfl : i = 0 := hLine
      have hHead : d.callbacks[0]? = some r := hAt
      rw [← List.head?_eq_getElem?, List.head?_eq_some_iff] at hHead
      obtain ⟨rs, hCallbacks⟩ := hHead
      exact ⟨d, .callback, _, .refl, rfl, by simp only [step, hCallbacks]; rfl⟩
  | kill => exact ⟨d, .kill, _, .refl, rfl, rfl⟩

/-- **Every run in line** is one on the device. -/
theorem exec_of_inLine (hSerial : d.workers.Serial) {xs : List (Action E)} {s' : State D A R U}
    (hLine : ∀ x ∈ xs, x.InLine) (hRun : P.exec d.state xs = some s') :
    ∃ (ms : List (Move E)) (d' : Device D A R U),
      ms.filterMap Move.action = xs ∧ exec P d ms = some d' ∧ d'.state = s' := by
  induction xs generalizing d with
  | nil =>
      rw [P.exec_nil, Option.some.injEq] at hRun
      exact ⟨[], d, rfl, rfl, hRun⟩
  | cons x xs ih =>
      rw [P.exec_cons] at hRun
      obtain ⟨s₁, hStep, hRest⟩ := Option.bind_eq_some_iff.mp hRun
      have hx := P.step_iff.mp hStep
      obtain ⟨d₁, m, d₂, ⟨before, hSilent, hBefore⟩, hAction, hMove⟩ :=
        move_of_step hSerial (hLine x List.mem_cons_self) hx
      have hRun₁ : exec P d (before ++ [m]) = some d₂ := by
        rw [exec_append, hBefore]
        simp [exec, hMove]
      have hActions : (before ++ [m]).filterMap Move.action = [x] := by
        simp [hSilent, hAction]
      -- the program cannot tell the device's step from its own
      obtain ⟨hSerial₂, hExec, -⟩ := exec_state hSerial hRun₁
      rw [hActions, exec_one hx, Option.some.injEq] at hExec
      obtain ⟨ms, d', hRestActions, hRestRun, hState⟩ :=
        ih hSerial₂ (fun y hy => hLine y (List.mem_cons_of_mem x hy)) (hExec ▸ hRest)
      refine ⟨(before ++ [m]) ++ ms, d', ?_, ?_, hState⟩
      · rw [List.filterMap_append, hActions, hRestActions]
        rfl
      · rw [exec_append, hRun₁]
        exact hRestRun

end Device

end TaskManager.Shared
