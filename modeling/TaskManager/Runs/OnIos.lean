import TaskManager.App.NativeCalls
import TaskManager.Runs.StoredTexts

/-!
# Runs on iOS

What the directory of the store has after any calls, whenever the process ends
(`directory_follows_calls`), and what it loses when its files do not work
(`broken_files_lose`).  Over it the application goes through what it goes through over a store
of texts, with the requests in the order of issue, but that a small text that takes the place
of a large one can be cut off and leave nothing (`ios_runs`).
-/

namespace TaskManager.Runs

open TaskManager.Verified.JsText
open TaskManager.Verified.EventLoop
open TaskManager.Shared
open TaskManager.Routes
open TaskManager.App

/-- **Why the files have to work.**  Between two calls of any such run, the manifest could not
be written once, and a large value that is answered afterwards is not in the directory; or a
file could not be read once, and a small value under another key makes it forgotten for good. -/
theorem broken_files_lose {K V : Type} [DecidableEq K] (small : V → Bool) (writes : Bool)
    (ms : List (MethodQueue.Move K V)) (es : List (MethodQueue.Event K V))
    (t : MethodQueue K V) (hRun : MethodQueue.exec small {} ms = some (es, t))
    (hHarmless : ∀ m ∈ ms, m.Harmless writes) (hIdle : t.atWork = none) (key : K) (old : V)
    (hOld : t.store.durable key = some old) :
    (small old = true → ∀ v v', small v = false → small v' = false →
      ∃ t', MethodQueue.exec small t
          [.call {} (.multiSet key v), .save false, .call {} (.multiSet key v')] =
            some ([.replied (.multiSet key v) .failed, .replied (.multiSet key v') .done], t') ∧
        t'.store.durable = t.store.durable) ∧
    (small old = false → ∀ key' v, key' ≠ key → small v = true →
      ∃ t', MethodQueue.exec small t
          [.evict key, .call { read := false } (.multiGet key), .call {} (.multiSet key' v),
            .save true] =
            some ([.replied (.multiGet key) .failed, .replied (.multiSet key' v) .done], t') ∧
        t'.store.durable =
          Function.update (Function.update t.store.durable key none) key' (some v)) := by
  obtain ⟨d, -, hInv⟩ := MethodQueue.Inv.empty.exec hHarmless hRun
  obtain rfl := hInv.durable_eq hIdle
  constructor
  · intro hSmall v v' hLarge hLarge'
    exact hInv.unsaved hIdle hOld hSmall hLarge hLarge'
  · intro hLarge key' v hKey hSmall
    exact hInv.unread hIdle hOld hLarge hKey hSmall

/-- A large value is forgotten with a small one under another key. -/
theorem broken_files_lose_unread :
    ∃ t t', MethodQueue.exec (fun v : Nat => v ≤ 3) {}
        [.call {} (.multiSet true 9), .save true] =
          some ([.replied (.multiSet true 9) .done], t) ∧
      t.store.durable true = some 9 ∧
      MethodQueue.exec (fun v : Nat => v ≤ 3) t
        [.evict true, .call { read := false } (.multiGet true), .call {} (.multiSet false 1),
          .save true] =
          some ([.replied (.multiGet true) .failed, .replied (.multiSet false 1) .done], t') ∧
      t'.store.durable true = none := by
  have hRun : ∃ t, MethodQueue.exec (fun v : Nat => v ≤ 3) {}
      [.call {} (.multiSet true 9), .save true] =
        some ([.replied (.multiSet true 9) .done], t) ∧ t.atWork = none ∧
      t.store.durable true = some 9 := ⟨_, rfl, rfl, rfl⟩
  obtain ⟨t, hRun, hIdle, hOld⟩ := hRun
  obtain ⟨t', hLater, hLost⟩ := (broken_files_lose (fun v : Nat => v ≤ 3) true _ _ t hRun
    (by simp [MethodQueue.Move.Harmless]) hIdle true 9 hOld).2 (by decide) false 1 (by decide)
    (by decide)
  exact ⟨t, t', hRun, hOld, hLater, by rw [hLost]; rfl⟩

/-! ## The application -/

/-- The moves of the application and of iOS under it. -/
abbrev IosMove := Ios.Move StorageKey Event

/-- The application on iOS, at its first launch. -/
def iosInit : Ios StorageKey JsString Await TextReady Ui where
  ui := initText.ui
  effects := initText.effects
  pending := initText.pending

/-- A run of the application on iOS. -/
abbrev iosRun (moves : List IosMove) : Option (Ios StorageKey JsString Await TextReady Ui) :=
  Ios.exec textCalls isInline iosInit moves

/-- What becomes of the application over a store of texts. -/
abbrev fateRun (ys : List (Fate Event)) : Option TextState :=
  Fate.exec textCalls isInline initText ys

theorem sound_iosInit : Ios.Sound textCalls isInline initText.disk iosInit where
  inv := .empty
  atWork _ h := by simp [iosInit] at h

/-- **iOS works in the order of issue, but for the files it may tear.**  As long as the files
work, a run on iOS is a fate of the application over a store of texts, with the same user
events, callbacks, continuations and ends of the process; without a loss it is a run of the
application over records.  And every such fate without refusals happens on iOS. -/
theorem ios_runs :
    (∀ ms d, (∀ m ∈ ms, m.Harmless) → iosRun ms = some d →
      ∃ ys s, (∀ y ∈ ys, y.InLine) ∧ ys.filterMap Fate.seen = ms.filterMap Ios.Move.seen ∧
        fateRun ys = some s ∧ d.state s.disk = s ∧
        (d.queue.atWork = none → d.queue.store.durable = s.disk) ∧
        (.lose ∉ ys → ∃ xs r, ys = xs.map .act ∧ run xs = some r ∧ asTexts.state r = s)) ∧
    ∀ ys s, (∀ y ∈ ys, y.InLine) → (∀ i, .act (.reject i) ∉ ys) → fateRun ys = some s →
      ∃ ms d, (∀ m ∈ ms, m.Harmless) ∧
        ms.filterMap Ios.Move.seen = ys.filterMap Fate.seen ∧ iosRun ms = some d ∧
        d.queue.store.durable = s.disk ∧ d.state s.disk = s := by
  have hInit : iosInit.state initText.disk = initText := rfl
  constructor
  · intro ms d hHarmless hRun
    obtain ⟨ys, disk, hLine, hSeen, hFate, hSound⟩ := sound_iosInit.exec hHarmless hRun
    rw [hInit] at hFate
    refine ⟨ys, d.state disk, hLine, hSeen, hFate, rfl, hSound.durable_eq, fun hLose => ?_⟩
    obtain ⟨xs, rfl⟩ := Fate.eq_map_act hLose
    rw [Fate.exec_act, ← state_init, exec_asTexts, Option.map_eq_some_iff] at hFate
    obtain ⟨r, hRecords, hState⟩ := hFate
    exact ⟨xs, r, rfl, hRecords, hState⟩
  · intro ys s hLine hReject hFate
    have hFrom : Fate.exec textCalls isInline (iosInit.state initText.disk) ys = some s := hFate
    obtain ⟨ms, d, hHarmless, hSeen, hRun, hIdle, hSound, hState⟩ :=
      sound_iosInit.exec_of_fate rfl hLine hReject hFrom
    exact ⟨ms, d, hHarmless, hSeen, hRun, hSound.durable_eq hIdle, hState⟩

end TaskManager.Runs
