import Mathlib.Data.List.Basic

/-!
# The executor of the store

The native half of `AsyncStorage` does its work on a pool of threads, and it hands
every task to the pool through a `SerialExecutor`.  The class has two fields:
`mTasks`, the tasks that wait, and `mActive`, the one that has been handed on.  A task is
handed on by `execute` when there is no active one, and otherwise by the `finally` block
of the task before it.

The pool takes every task it is handed, and a body comes to its end in some way.  About the
order of the threads nothing is assumed: `Workers.start`, `Workers.leave` and
`Workers.finish` name the position they act on, so that any thread may go ahead at any
point.  `Workers.finish` is the call of `scheduleNext` together with the return of `run()`:
a task counts as in the pool until it has called `scheduleNext`, and the thread that
returns after the next task is handed on is not counted any more.

## Main results

* `Serial.submit`, `Serial.start`, `Serial.leave`, `Serial.finish` — whatever the threads do,
  the active task is the only one the pool has, an executor without an active task has none
  that waits, and the body that comes to its end is that of the oldest task.
* `Serial.exec` — the bodies come to their end in the order of submission.
* `Serial.ready` — threads that keep going get to the oldest task.
-/

namespace TaskManager.Shared

variable {T : Type}

/-- `SerialExecutor`, the oldest task first. -/
structure SerialExecutor (T : Type) where
  mTasks : List T := []
  mActive : Option T := none
  deriving DecidableEq, Repr

namespace SerialExecutor

/-- `scheduleNext()`, and what it hands to the executor below. -/
def scheduleNext (e : SerialExecutor T) : SerialExecutor T × List T :=
  match e.mTasks with
  | [] => ({ mTasks := [], mActive := none }, [])
  | r :: rest => ({ mTasks := rest, mActive := some r }, [r])

/-- `execute(r)`, and what it hands to the executor below. -/
def execute (e : SerialExecutor T) (r : T) : SerialExecutor T × List T :=
  let offered := { e with mTasks := e.mTasks ++ [r] }
  if e.mActive.isNone then offered.scheduleNext else (offered, [])

end SerialExecutor

/-- The executor and the threads below it.  A task that was handed on is begun (`handed`),
comes to the end of its body (`running`) and calls `scheduleNext` (`leaving`). -/
structure Workers (T : Type) where
  executor : SerialExecutor T := {}
  handed : List T := []
  running : List T := []
  leaving : List T := []
  deriving DecidableEq, Repr

namespace Workers

/-- What the pool has. -/
def pool (w : Workers T) : List T := w.handed ++ w.running ++ w.leaving

/-- The tasks whose body has not come to its end, the oldest first. -/
def waiting (w : Workers T) : List T := w.handed ++ w.running ++ w.executor.mTasks

/-- `execute(r)`, by any thread.  The pool does not refuse what it is handed. -/
def submit (w : Workers T) (r : T) : Workers T :=
  { w with
    executor := (w.executor.execute r).1
    handed := w.handed ++ (w.executor.execute r).2 }

/-- A thread takes the task at the position and begins `r.run()`. -/
def start (w : Workers T) (i : Nat) : Option (Workers T) :=
  w.handed[i]?.map fun r =>
    { w with handed := w.handed.eraseIdx i, running := w.running ++ [r] }

/-- `r.run()` returns, or throws. -/
def leave (w : Workers T) (i : Nat) : Option (T × Workers T) :=
  w.running[i]?.map fun r =>
    (r, { w with running := w.running.eraseIdx i, leaving := w.leaving ++ [r] })

/-- The `finally` block. -/
def finish (w : Workers T) (i : Nat) : Option (Workers T) :=
  w.leaving[i]?.map fun _ =>
    { w with
      executor := w.executor.scheduleNext.1
      handed := w.handed ++ w.executor.scheduleNext.2
      leaving := w.leaving.eraseIdx i }

/-! ## One task at a time -/

/-- The active task is the only one the pool has, and without one none waits. -/
structure Serial (w : Workers T) : Prop where
  pool : w.pool = w.executor.mActive.toList
  idle : w.executor.mActive = none → w.executor.mTasks = []

/-- An executor with no task. -/
theorem Serial.empty : Serial ({} : Workers T) where
  pool := rfl
  idle _ := rfl

/-- Where the one task of the pool is. -/
inductive Place (w : Workers T) : Prop
  | idle (hHanded : w.handed = []) (hRunning : w.running = []) (hLeaving : w.leaving = [])
      (hActive : w.executor.mActive = none) (hTasks : w.executor.mTasks = [])
  | handed (r : T) (hHanded : w.handed = [r]) (hRunning : w.running = [])
      (hLeaving : w.leaving = []) (hActive : w.executor.mActive = some r)
  | running (r : T) (hHanded : w.handed = []) (hRunning : w.running = [r])
      (hLeaving : w.leaving = []) (hActive : w.executor.mActive = some r)
  | leaving (r : T) (hHanded : w.handed = []) (hRunning : w.running = [])
      (hLeaving : w.leaving = [r]) (hActive : w.executor.mActive = some r)

theorem Serial.place {w : Workers T} (h : w.Serial) : w.Place := by
  have hPool := h.pool
  simp only [Workers.pool] at hPool
  cases hActive : w.executor.mActive with
  | none =>
      simp only [hActive, Option.toList_none, List.append_eq_nil_iff] at hPool
      exact .idle hPool.1.1 hPool.1.2 hPool.2 hActive (h.idle hActive)
  | some r =>
      simp only [hActive, Option.toList_some, List.append_eq_singleton_iff,
        List.append_eq_nil_iff] at hPool
      rcases hPool with ⟨⟨hHanded, hRunning⟩, hLeaving⟩ | ⟨hTwo, hLeaving⟩
      · exact .leaving r hHanded hRunning hLeaving hActive
      · rcases hTwo with ⟨hHanded, hRunning⟩ | ⟨hHanded, hRunning⟩
        · exact .running r hHanded hRunning hLeaving hActive
        · exact .handed r hHanded hRunning hLeaving hActive

/-- The pool has one task at most. -/
theorem Serial.length_pool {w : Workers T} (h : w.Serial) : w.pool.length ≤ 1 := by
  rw [h.pool]
  cases w.executor.mActive <;> simp

section Moves

variable {w w' : Workers T}

theorem eq_of_getElem?_singleton {r₀ r : T} {i : Nat} (h : [r₀][i]? = some r) :
    i = 0 ∧ r₀ = r := by
  rw [List.getElem?_singleton] at h
  by_cases hi : i = 0
  · rw [if_pos hi, Option.some.injEq] at h
    exact ⟨hi, h⟩
  · rw [if_neg hi] at h
    nomatch h

/-- A task that is submitted waits behind the others. -/
theorem Serial.submit (h : w.Serial) (r : T) :
    (w.submit r).Serial ∧ (w.submit r).waiting = w.waiting ++ [r] := by
  cases hActive : w.executor.mActive with
  | none =>
      have hTasks := h.idle hActive
      have hPool := h.pool
      simp only [Workers.pool, hActive, Option.toList_none, List.append_eq_nil_iff] at hPool
      refine ⟨⟨?_, ?_⟩, ?_⟩
      · simp [Workers.submit, Workers.pool, SerialExecutor.execute, SerialExecutor.scheduleNext,
          hActive, hTasks, hPool]
      · simp [Workers.submit, SerialExecutor.execute, SerialExecutor.scheduleNext, hActive, hTasks]
      · simp [Workers.submit, waiting, SerialExecutor.execute, SerialExecutor.scheduleNext, hActive,
          hTasks, hPool]
  | some r₀ =>
      have hPool := h.pool
      simp only [Workers.pool] at hPool
      refine ⟨⟨?_, ?_⟩, ?_⟩
      · simpa [Workers.submit, Workers.pool, SerialExecutor.execute, hActive] using hPool
      · simp [Workers.submit, SerialExecutor.execute, hActive]
      · simp [Workers.submit, waiting, SerialExecutor.execute, hActive]

/-- Only the first of the tasks handed on can begin: there is no other. -/
theorem Serial.start (h : w.Serial) {i : Nat} (hStart : w.start i = some w') :
    w'.Serial ∧ w'.waiting = w.waiting := by
  simp only [Workers.start, Option.map_eq_some_iff] at hStart
  obtain ⟨r, hAt, rfl⟩ := hStart
  cases h.place with
  | handed r₀ hHanded hRunning hLeaving hActive =>
      rw [hHanded] at hAt
      obtain ⟨rfl, rfl⟩ := eq_of_getElem?_singleton hAt
      refine ⟨⟨?_, ?_⟩, ?_⟩
      · simp [Workers.pool, hHanded, hRunning, hLeaving, hActive]
      · simp [hActive]
      · simp [waiting, hHanded, hRunning]
  | idle hHanded _ _ _ _ => simp [hHanded] at hAt
  | running _ hHanded _ _ _ => simp [hHanded] at hAt
  | leaving _ hHanded _ _ _ => simp [hHanded] at hAt

/-- The body that comes to its end is that of the oldest task. -/
theorem Serial.leave (h : w.Serial) {i : Nat} {r : T} (hLeave : w.leave i = some (r, w')) :
    w'.Serial ∧ i = 0 ∧ w.waiting = r :: w'.waiting := by
  simp only [Workers.leave, Option.map_eq_some_iff, Prod.mk.injEq] at hLeave
  obtain ⟨r₁, hAt, rfl, rfl⟩ := hLeave
  cases h.place with
  | running r₀ hHanded hRunning hLeaving hActive =>
      rw [hRunning] at hAt
      obtain ⟨rfl, rfl⟩ := eq_of_getElem?_singleton hAt
      refine ⟨⟨?_, ?_⟩, rfl, ?_⟩
      · simp [Workers.pool, hHanded, hRunning, hLeaving, hActive]
      · simp [hActive]
      · simp [waiting, hHanded, hRunning]
  | idle _ hRunning _ _ _ => simp [hRunning] at hAt
  | handed _ _ hRunning _ _ => simp [hRunning] at hAt
  | leaving _ _ hRunning _ _ => simp [hRunning] at hAt

/-- A task that is through makes room for the next. -/
theorem Serial.finish (h : w.Serial) {i : Nat} (hFinish : w.finish i = some w') :
    w'.Serial ∧ w'.waiting = w.waiting := by
  simp only [Workers.finish, Option.map_eq_some_iff] at hFinish
  obtain ⟨r, hAt, rfl⟩ := hFinish
  cases h.place with
  | leaving r₀ hHanded hRunning hLeaving hActive =>
      rw [hLeaving] at hAt
      obtain ⟨rfl, rfl⟩ := eq_of_getElem?_singleton hAt
      cases hTasks : w.executor.mTasks with
      | nil =>
          refine ⟨⟨?_, ?_⟩, ?_⟩
          · simp [Workers.pool, SerialExecutor.scheduleNext, hHanded, hRunning, hLeaving, hTasks]
          · simp [SerialExecutor.scheduleNext, hTasks]
          · simp [waiting, SerialExecutor.scheduleNext, hHanded, hRunning, hTasks]
      | cons r₁ rest =>
          refine ⟨⟨?_, ?_⟩, ?_⟩
          · simp [Workers.pool, SerialExecutor.scheduleNext, hHanded, hRunning, hLeaving, hTasks]
          · simp [SerialExecutor.scheduleNext, hTasks]
          · simp [waiting, SerialExecutor.scheduleNext, hHanded, hRunning, hTasks]
  | idle _ _ hLeaving _ _ => simp [hLeaving] at hAt
  | handed _ _ _ hLeaving _ => simp [hLeaving] at hAt
  | running _ _ _ hLeaving _ => simp [hLeaving] at hAt

/-- Threads that keep going get to the body of the oldest task: they begin it, after the
task before it has called `scheduleNext`. -/
theorem Serial.ready (h : w.Serial) {r : T} {rs : List T} (hWaiting : w.waiting = r :: rs) :
    w.running = [r] ∨ (w.handed = [r] ∧ w.running = []) ∨
      ∃ w', w.finish 0 = some w' ∧ w'.handed = [r] ∧ w'.running = [] := by
  simp only [waiting] at hWaiting
  cases h.place with
  | idle hHanded hRunning _ _ hTasks =>
      rw [hHanded, hRunning, hTasks] at hWaiting
      nomatch hWaiting
  | handed r₀ hHanded hRunning _ _ =>
      rw [hHanded, hRunning] at hWaiting
      obtain rfl : r₀ = r := (List.cons.inj hWaiting).1
      exact .inr (.inl ⟨hHanded, hRunning⟩)
  | running r₀ hHanded hRunning _ _ =>
      rw [hHanded, hRunning] at hWaiting
      obtain rfl : r₀ = r := (List.cons.inj hWaiting).1
      exact .inl hRunning
  | leaving r₀ hHanded hRunning hLeaving _ =>
      rw [hHanded, hRunning] at hWaiting
      have hTasks : w.executor.mTasks = r :: rs := hWaiting
      refine .inr (.inr ⟨_, by rw [Workers.finish, hLeaving]; rfl, ?_, ?_⟩)
      · simp [SerialExecutor.scheduleNext, hHanded, hTasks]
      · exact hRunning

theorem start_of_handed {r : T} (hHanded : w.handed = [r]) (hRunning : w.running = []) :
    ∃ w', w.start 0 = some w' ∧ w'.running = [r] :=
  ⟨_, by rw [Workers.start, hHanded]; rfl, by simp [hRunning]⟩

end Moves

/-! ## Runs -/

/-- What happens next to the executor and its pool. -/
inductive Move (T : Type) where
  | submit (r : T)
  | start (i : Nat)
  | leave (i : Nat)
  | finish (i : Nat)
  deriving DecidableEq, Repr

/-- One move, and the task whose body has come to its end in it. -/
def step (w : Workers T) : Move T → Option (List T × Workers T)
  | .submit r => some ([], w.submit r)
  | .start i => (w.start i).map fun w' => ([], w')
  | .leave i => (w.leave i).map fun out => ([out.1], out.2)
  | .finish i => (w.finish i).map fun w' => ([], w')

/-- A run, and the tasks whose bodies have come to their end in it, the earliest first. -/
def exec (w : Workers T) : List (Move T) → Option (List T × Workers T)
  | [] => some ([], w)
  | m :: ms => (w.step m).bind fun out =>
      (exec out.2 ms).map fun rest => (out.1 ++ rest.1, rest.2)

/-- The tasks that are submitted, the earliest first. -/
def submitted : List (Move T) → List T
  | [] => []
  | .submit r :: ms => r :: submitted ms
  | _ :: ms => submitted ms

/-- The moves of the threads. -/
def Move.isThread : Move T → Bool
  | .submit _ => false
  | _ => true

/-- What the threads have still to do. -/
def work (w : Workers T) : Nat :=
  3 * (w.executor.mTasks.length + w.handed.length) + 2 * w.running.length + w.leaving.length

section Runs

variable {w w' : Workers T} {ended : List T}

theorem submitted_cons (m : Move T) (ms : List (Move T)) :
    submitted (m :: ms) = submitted [m] ++ submitted ms := by
  cases m <;> rfl

/-- A move keeps the tasks in line, and ends the first of them or none. -/
theorem Serial.step (h : w.Serial) {m : Move T} (hStep : w.step m = some (ended, w')) :
    w'.Serial ∧ w.waiting ++ submitted [m] = ended ++ w'.waiting := by
  cases m with
  | submit r =>
      simp only [Workers.step, Option.some.injEq, Prod.mk.injEq] at hStep
      obtain ⟨rfl, rfl⟩ := hStep
      exact ⟨(h.submit r).1, (h.submit r).2.symm⟩
  | start i =>
      simp only [Workers.step, Option.map_eq_some_iff, Prod.mk.injEq] at hStep
      obtain ⟨w₁, hStart, rfl, rfl⟩ := hStep
      obtain ⟨hSerial, hWaiting⟩ := h.start hStart
      exact ⟨hSerial, by simp [submitted, hWaiting]⟩
  | leave i =>
      simp only [Workers.step, Option.map_eq_some_iff, Prod.mk.injEq] at hStep
      obtain ⟨out, hLeave, rfl, rfl⟩ := hStep
      obtain ⟨hSerial, -, hWaiting⟩ := h.leave hLeave
      exact ⟨hSerial, by simp [submitted, hWaiting]⟩
  | finish i =>
      simp only [Workers.step, Option.map_eq_some_iff, Prod.mk.injEq] at hStep
      obtain ⟨w₁, hFinish, rfl, rfl⟩ := hStep
      obtain ⟨hSerial, hWaiting⟩ := h.finish hFinish
      exact ⟨hSerial, by simp [submitted, hWaiting]⟩

theorem length_eraseIdx_of_getElem? {l : List T} {i : Nat} {r : T} (h : l[i]? = some r) :
    (l.eraseIdx i).length + 1 = l.length := by
  have hLength := (List.getElem?_eq_some_iff.mp h).1
  rw [List.length_eraseIdx_of_lt hLength]
  omega

theorem work_scheduleNext (e : SerialExecutor T) :
    e.scheduleNext.1.mTasks.length + e.scheduleNext.2.length = e.mTasks.length := by
  unfold SerialExecutor.scheduleNext
  cases hTasks : e.mTasks <;> simp

theorem work_execute (e : SerialExecutor T) (r : T) :
    (e.execute r).1.mTasks.length + (e.execute r).2.length = e.mTasks.length + 1 := by
  unfold SerialExecutor.execute
  by_cases hActive : e.mActive.isNone
  · simp [hActive, work_scheduleNext]
  · simp [hActive]

/-- A move of a thread is a third of a task. -/
theorem work_step {m : Move T} (hStep : w.step m = some (ended, w')) :
    w'.work + [m].countP Move.isThread = w.work + 3 * (submitted [m]).length := by
  cases m with
  | submit r =>
      simp only [Workers.step, Option.some.injEq, Prod.mk.injEq] at hStep
      obtain ⟨rfl, rfl⟩ := hStep
      have hExecute := work_execute w.executor r
      simp [work, Workers.submit, submitted, Move.isThread]
      omega
  | start i =>
      simp only [Workers.step, Workers.start, Option.map_eq_some_iff, Prod.mk.injEq] at hStep
      obtain ⟨w₁, ⟨r, hAt, rfl⟩, rfl, rfl⟩ := hStep
      have hErase := length_eraseIdx_of_getElem? hAt
      simp [work, submitted, Move.isThread]
      omega
  | leave i =>
      simp only [Workers.step, Workers.leave, Option.map_eq_some_iff, Prod.mk.injEq] at hStep
      obtain ⟨out, ⟨r, hAt, rfl⟩, rfl, rfl⟩ := hStep
      have hErase := length_eraseIdx_of_getElem? hAt
      simp [work, submitted, Move.isThread]
      omega
  | finish i =>
      simp only [Workers.step, Workers.finish, Option.map_eq_some_iff, Prod.mk.injEq] at hStep
      obtain ⟨w₁, ⟨r, hAt, rfl⟩, rfl, rfl⟩ := hStep
      have hErase := length_eraseIdx_of_getElem? hAt
      have hNext := work_scheduleNext w.executor
      simp [work, submitted, Move.isThread]
      omega

/-- **The bodies come to their end in the order of submission**, and every task costs the
threads three moves. -/
theorem Serial.exec (h : w.Serial) {ms : List (Move T)} (hRun : w.exec ms = some (ended, w')) :
    w'.Serial ∧ w.waiting ++ submitted ms = ended ++ w'.waiting ∧
      w'.work + ms.countP Move.isThread = w.work + 3 * (submitted ms).length := by
  induction ms generalizing w ended with
  | nil =>
      simp only [Workers.exec, Option.some.injEq, Prod.mk.injEq] at hRun
      obtain ⟨rfl, rfl⟩ := hRun
      exact ⟨h, by simp [submitted], by simp [submitted]⟩
  | cons m ms ih =>
      simp only [Workers.exec, Option.bind_eq_some_iff, Option.map_eq_some_iff,
        Prod.mk.injEq] at hRun
      obtain ⟨⟨ended₁, w₁⟩, hStep, ⟨ended₂, w₂⟩, hRest, rfl, rfl⟩ := hRun
      obtain ⟨hSerial, hWaiting⟩ := h.step hStep
      obtain ⟨hSerial', hWaiting', hWork⟩ := ih hSerial hRest
      have hWorkStep := work_step hStep
      refine ⟨hSerial', ?_, ?_⟩
      · calc w.waiting ++ submitted (m :: ms)
            = (w.waiting ++ submitted [m]) ++ submitted ms := by
              rw [submitted_cons, List.append_assoc]
          _ = ended₁ ++ (w₁.waiting ++ submitted ms) := by rw [hWaiting, List.append_assoc]
          _ = (ended₁ ++ ended₂) ++ w₂.waiting := by rw [hWaiting', List.append_assoc]
      · rw [submitted_cons, List.length_append, ← List.singleton_append, List.countP_append]
        omega

/-- As long as a task waits, some thread can go on. -/
theorem Serial.waiting_eq_nil (h : w.Serial)
    (hStuck : ∀ m : Move T, m.isThread = true → w.step m = none) : w.waiting = [] := by
  cases hWaiting : w.waiting with
  | nil => rfl
  | cons r rs =>
      exfalso
      rcases h.ready hWaiting with hRunning | ⟨hHanded, -⟩ | ⟨w', hFinish, -⟩
      · have hLeave := hStuck (.leave 0) rfl
        simp [Workers.step, Workers.leave, hRunning] at hLeave
      · have hStart := hStuck (.start 0) rfl
        simp [Workers.step, Workers.start, hHanded] at hStart
      · have hNone := hStuck (.finish 0) rfl
        simp [Workers.step, hFinish] at hNone

end Runs

end Workers

end TaskManager.Shared
