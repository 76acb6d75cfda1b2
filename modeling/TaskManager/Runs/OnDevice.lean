import TaskManager.App.Scripts
import TaskManager.Shared.Device

/-!
# Runs on the device

The tasks of the store, among themselves (`tasks_run_one_after_another`), and the
application over them: what it goes through on the device is exactly what it goes through
over a store that performs and reports in the order of issue (`device_runs`).
-/

namespace TaskManager.Runs

open TaskManager.Shared
open TaskManager.Routes
open TaskManager.Verified.EventLoop
open TaskManager.App

/-- **Tasks run one after another.**  However the threads of the pool go ahead and whenever
tasks are submitted, the pool never has two of them, their bodies come to an end in the order
of submission, and none is lost: when no thread can go on, all are done.  Threads that keep
going get there, for every task costs them three moves. -/
theorem tasks_run_one_after_another {T : Type} (moves : List (Workers.Move T)) (ended : List T)
    (w : Workers T) (hRun : Workers.exec {} moves = some (ended, w)) :
    w.pool.length ≤ 1 ∧ ended ++ w.waiting = Workers.submitted moves ∧
      moves.countP Workers.Move.isThread ≤ 3 * (Workers.submitted moves).length ∧
      ((∀ m : Workers.Move T, m.isThread = true → w.step m = none) →
        ended = Workers.submitted moves) := by
  obtain ⟨hSerial, hWaiting, hWork⟩ := Workers.Serial.empty.exec hRun
  have hEnded : ended ++ w.waiting = Workers.submitted moves := hWaiting.symm
  refine ⟨hSerial.length_pool, hEnded, ?_, fun hStuck => ?_⟩
  · have hNothing : Workers.work ({} : Workers T) = 0 := rfl
    omega
  · rw [← hEnded, hSerial.waiting_eq_nil hStuck, List.append_nil]

/-- Two tasks, the second submitted while the first is at work. -/
theorem tasks_run_one_after_another_two :
    let w : Workers Nat := { executor := { mActive := some 2 }, handed := [2] }
    w.pool.length ≤ 1 ∧ [1] ++ w.waiting = Workers.submitted
        [.submit 1, .start 0, .submit 2, .leave 0, .finish 0] ∧
      [Workers.Move.submit 1, .start 0, .submit 2, .leave 0, .finish 0].countP
        Workers.Move.isThread ≤ 3 * (Workers.submitted
        [Workers.Move.submit 1, .start 0, .submit 2, .leave 0, .finish 0]).length ∧
      ((∀ m : Workers.Move Nat, m.isThread = true → w.step m = none) →
        [1] = Workers.submitted [.submit 1, .start 0, .submit 2, .leave 0, .finish 0]) :=
  tasks_run_one_after_another [.submit 1, .start 0, .submit 2, .leave 0, .finish 0] [1] _ rfl

/-- The moves of the application and of the device under it. -/
abbrev Move := Device.Move Event

/-- The application on the device, at its first launch. -/
def deviceInit : Device Disk Await Ready Ui where
  disk := init.disk
  ui := init.ui
  effects := init.effects

/-- A run of the application on the device. -/
abbrev deviceRun (moves : List Move) : Option (Device Disk Await Ready Ui) :=
  Device.exec app deviceInit moves

/-- **The device works in the order of issue, and that is all that is known of it.**  The
actions and the final state of a run on the device are those of a run whose requests are
performed, refused and reported in the order of issue; and every such run happens on some
device. -/
theorem device_runs (xs : List Action) (s : State) :
    (∃ moves d, moves.filterMap Device.Move.action = xs ∧ deviceRun moves = some d ∧
      d.state = s) ↔
    (∀ x ∈ xs, x.InLine) ∧ run xs = some s := by
  have hInit : deviceInit.state = init := rfl
  constructor
  · rintro ⟨moves, d, rfl, hRun, rfl⟩
    obtain ⟨-, hExec, hLine⟩ := Device.exec_state Workers.Serial.empty hRun
    rw [hInit] at hExec
    exact ⟨hLine, hExec⟩
  · rintro ⟨hLine, hRun⟩
    exact Device.exec_of_inLine Workers.Serial.empty hLine hRun

end TaskManager.Runs
