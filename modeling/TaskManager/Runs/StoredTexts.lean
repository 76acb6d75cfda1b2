import TaskManager.App.Scripts
import TaskManager.App.TextStore

/-!
# The texts in the store

A run over a store of texts is a run over a store of records, seen through
`JSON.stringify`: `texts_follow_records`.  Whatever strings were typed, no
`JSON.parse` of the application ever throws: `never_throws`.
-/

namespace TaskManager.Runs

open TaskManager.Verified.JsText
open TaskManager.Verified.Json
open TaskManager.Verified.EventLoop
open TaskManager.Shared
open TaskManager.Routes
open TaskManager.App

/-- The states of the application over texts. -/
abbrev TextState := TaskManager.Verified.EventLoop.State Texts Await TextReady Ui

/-- The first launch over an empty store. -/
def initText : TextState where
  disk := fun _ => none
  ui := Ui.first
  effects := [.login (.isUserLoggedIn 0)]
  pending := []
  served := []

theorem state_init : asTexts.state init = initText := by
  have hEmpty : texts {} = fun _ => none := by
    funext key
    cases key <;> rfl
  show ({ disk := texts {}, ui := Ui.first, effects := _, pending := _, served := _ } :
    TextState) = _
  rw [hEmpty]
  rfl

theorem exec_asTexts (s : State) (xs : List Action) :
    textApp.exec (asTexts.state s) xs = (app.exec s xs).map asTexts.state := by
  have hSame : xs.map asTexts.action = xs := by
    rw [funext (f := asTexts.action) (g := id) Action.map_id, List.map_id]
  rw [← asTexts.exec_map s trivial xs, hSame]

/-- **The store of texts follows the store of records.**  The same actions can happen over
both, and at every point each entry is the text of what the records say, and each
continuation waits with the text of what it waits for over records. -/
theorem texts_follow_records (xs : List Action) :
    textApp.exec initText xs = (run xs).map asTexts.state := by
  rw [← state_init]
  exact exec_asTexts init xs

/-! ## Every text can be read -/

/-- Nobody stores a task. -/
theorem tasks_run {xs : List Action} {s : State} (hRun : run xs = some s) :
    s.disk.tasks = none := by
  refine app.exec_invariant (fun s => s.disk.tasks = none) rfl ?_ hRun
  intro s x s' hInv hx
  cases hx with
  | user _ => exact hInv
  | effect _ => exact hInv
  | serve _ => rw [tasks_serve]; exact hInv
  | resolve _ => exact hInv
  | reject _ => exact hInv
  | kill => exact hInv

theorem parse_texts {d : Disk} (hTasks : d.tasks = none) {key : StorageKey} {text : JsString}
    (h : texts d key = some text) : ∃ v, parse text = some v := by
  cases key with
  | USER_ADMIN_KEY =>
      obtain ⟨list, -, rfl⟩ := Option.map_eq_some_iff.mp h
      exact ⟨_, parse_stringify _⟩
  | USER_MEMBER_KEY =>
      obtain ⟨list, -, rfl⟩ := Option.map_eq_some_iff.mp h
      exact ⟨_, parse_stringify _⟩
  | USER_LOGGEDIN_KEY =>
      obtain ⟨record, -, rfl⟩ := Option.map_eq_some_iff.mp h
      exact ⟨_, parse_stringify _⟩
  | TASKS_KEY =>
      rw [texts, hTasks] at h
      exact absurd h (by simp)
  | TEMP_MEMBERS =>
      obtain ⟨list, -, rfl⟩ := Option.map_eq_some_iff.mp h
      exact ⟨_, parse_stringify _⟩

/-- **No `JSON.parse` throws.**  In every state that can be reached over a store of texts,
each entry is the text of a JSON value, and each handler that waits with a text goes on. -/
theorem never_throws (xs : List Action) (t : TextState)
    (hRun : textApp.exec initText xs = some t) :
    (∀ key text, t.disk key = some text → ∃ v, parse text = some v) ∧
      ∀ what text, .read what text ∈ t.served → ∀ ui, (what.resume text ui).isSome := by
  rw [← state_init, exec_asTexts, Option.map_eq_some_iff] at hRun
  obtain ⟨s, hRun, rfl⟩ := hRun
  refine ⟨fun key text h => parse_texts (tasks_run hRun) h, fun what text hWaits ui => ?_⟩
  obtain ⟨r, -, hText⟩ := List.mem_map.mp hWaits
  rw [resume_read hText ui]
  rfl

/-- Ann signs up with a quotation mark in her password. -/
def annQuoted : List Action :=
  loaded ++ [openSignup] ++ fillSignup (js "ann@x.co") (js "p\"w") (js "Ann") ++ [pressSignup] ++
    answered ++ answered

/-- The text of the member accounts after that. -/
def annText : JsString :=
  js ("[\x7b\"email\":\"ann@x.co\",\"password\":\"p\\\"w\",\"name\":\"Ann\"," ++
    "\"isAdmin\":false\x7d]")

theorem never_throws_ann :
    ∃ t, textApp.exec initText annQuoted = some t ∧ t.disk .USER_MEMBER_KEY = some annText ∧
      ∃ v, parse annText = some v := by
  obtain ⟨t, hRun⟩ := Option.isSome_iff_exists.mp
    (show (textApp.exec initText annQuoted).isSome = true by decide +kernel)
  have hText : (textApp.exec initText annQuoted).map (fun t => t.disk .USER_MEMBER_KEY) =
      some (some annText) := by
    decide +kernel
  rw [hRun, Option.map_some, Option.some.injEq] at hText
  exact ⟨t, hRun, hText, (never_throws annQuoted t hRun).1 .USER_MEMBER_KEY annText hText⟩

end TaskManager.Runs
