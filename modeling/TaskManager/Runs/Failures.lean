import TaskManager.App.Operations
import TaskManager.Runs.Login

/-!
# Storage calls that fail

No handler catches a rejection, so an operation whose storage call is refused
ends there.  `failed_operation_harmless_iff` goes through every operation and
every one of its calls: the store, the stack and the screen are as before, and
the operation can be repeated, except when

* the launch check of `LOGIN` cannot read the session: `LOGIN` loads for ever;
* `Signup` cannot write the session: the account is already stored;
* the arrow of `TaskCreation` cannot remove the draft: the screen is left.
-/

namespace TaskManager.Runs

open TaskManager.Verified.JsText
open TaskManager.Verified.EventLoop
open TaskManager.Shared
open TaskManager.Pages
open TaskManager.Routes
open TaskManager.App

/-! ## Operations that fail -/

/-- The screen instance an operation is started from. -/
def startedOn (s : State) : Action → Option Nat
  | .user _ => some s.ui.focused.key
  | .effect i => (s.effects[i]?).bind awaitKey
  | _ => none

/-- The screen has something to press: `LOGIN` has nothing while it loads. -/
def Accepts : Screen → Prop
  | .AUTH (.LOGIN st) => st.isLoading = false
  | _ => True

/-- In `t`, the operation that `x` starts in `s`: the same press, or the same
callback. -/
def restart (s : State) (x : Action) (t : State) : Option State :=
  match x with
  | .effect i => s.effects[i]?.map fun a => { t with pending := t.pending ++ [a] }
  | x => app.step t x

/-- What an operation has come to: the store, the screens with their states, and
the callbacks that are due. -/
structure SameResult (s t : State) : Prop where
  disk : t.disk = s.disk
  stack : t.ui.stack = s.ui.stack
  effects : t.effects = s.effects

/-- The operation started by `x` in `s` has ended in `s'` and changed nothing, and
comes to the same when it is repeated and its calls are answered. -/
structure Harmless (s : State) (x : Action) (s' : State) : Prop where
  disk : s'.disk = s.disk
  stack : labels s'.ui = labels s.ui
  input : ∀ key, startedOn s x = some key → ∀ r ∈ s'.ui.stack, r.key = key → Accepts r.screen
  again : ∀ n s₁, app.exec s (x :: answers Event n) = some s₁ → s₁.pending = [] →
    ∃ t s₂, restart s x s' = some t ∧ app.exec t (answers Event n) = some s₂ ∧
      s₂.pending = [] ∧ SameResult s₁ s₂

/-- The operation started by `x` leaves something behind when its call number `k`
is refused. -/
def Unsafe (s : State) (x : Action) (k : Nat) : Prop :=
  match x with
  | .user (.signup .handleSubmit) => k = 2
  | .user (.create .handleBack) => True
  | .effect i => ∃ key, s.effects[i]? = some (.login (.isUserLoggedIn key)) ∧
      ∃ r ∈ s.ui.stack, r.key = key ∧ ¬ Accepts r.screen
  | _ => False

/-! ## The numbers of presses do not matter -/

/-- The request without the number of the press it belongs to. -/
def unnumbered : Await → Await
  | .login (.getUsers call) => .login (.getUsers { call with id := 0 })
  | .login (.setLoggedIn call record) => .login (.setLoggedIn { call with id := 0 } record)
  | .signup (.getUsers call) => .signup (.getUsers { call with id := 0 })
  | .signup (.setUsers call data) => .signup (.setUsers { call with id := 0 } data)
  | .signup (.setLoggedIn call) => .signup (.setLoggedIn { call with id := 0 })
  | .home (.logout _ key) => .home (.logout 0 key)
  | a => a

/-- The continuation without the number of the press it belongs to. -/
def unnumberedReady : Ready → Ready
  | .login (.getUsers call data) => .login (.getUsers { call with id := 0 } data)
  | .login (.setLoggedIn call record) => .login (.setLoggedIn { call with id := 0 } record)
  | .signup (.getUsers call data) => .signup (.getUsers { call with id := 0 } data)
  | .signup (.setUsers call) => .signup (.setUsers { call with id := 0 })
  | .signup (.setLoggedIn call) => .signup (.setLoggedIn { call with id := 0 })
  | .home (.logout _ key) => .home (.logout 0 key)
  | r => r

theorem serve_unnumbered (a : Await) (d : Disk) :
    app.serve (unnumbered a) d = ((app.serve a d).1, unnumberedReady (app.serve a d).2) := by
  rcases a with a | a | a | a | a <;> cases a <;> rfl

theorem resume_unnumbered (r : Ready) (ui : Ui) :
    app.resume (unnumberedReady r) ui =
      ((app.resume r ui).1,
        { (app.resume r ui).2 with
          requests := (app.resume r ui).2.requests.map unnumbered }) := by
  rcases r with r | r | r | r | r <;> cases r <;> try rfl
  · rename_i call data
    simp only [unnumberedReady, resume_login, Login.Ready.resume, Login.Ready.key,
      Login.afterUsers]
    generalize (data.getD []).filter (fun e => e.email = call.email) = found
    cases found <;> rfl
  · rename_i call data
    simp only [unnumberedReady, resume_signup, Signup.Ready.resume, Signup.Ready.key,
      Signup.afterUsers]
    generalize (data.getD []).filter (fun e => e.email = call.email) = found
    cases found <;> rfl
  · rename_i key list
    rcases list with _ | _ | ⟨m, ms⟩ <;> rfl

theorem resume_renumber (r : Ready) (ui : Ui) (n : Nat) :
    (app.resume r { ui with nextCall := n }).1 = { (app.resume r ui).1 with nextCall := n } ∧
      (app.resume r { ui with nextCall := n }).2.effects = (app.resume r ui).2.effects ∧
      (app.resume r { ui with nextCall := n }).2.requests = (app.resume r ui).2.requests := by
  obtain ⟨hUi, hEffects⟩ := resume_shape r ui
  obtain ⟨hUi', hEffects'⟩ := resume_shape r { ui with nextCall := n }
  rw [moved_renumber] at hUi' hEffects'
  refine ⟨?_, hEffects'.trans hEffects.symm, ?_⟩
  · rw [hUi', hUi]
    rfl
  · rcases r with r | r | r | r | r <;> cases r <;> rfl

/-- The two states differ in the numbers of presses only. -/
structure Same (s t : State) : Prop where
  disk : t.disk = s.disk
  ui : t.ui = { s.ui with nextCall := t.ui.nextCall }
  effects : t.effects = s.effects
  pending : t.pending.map unnumbered = s.pending.map unnumbered

theorem Same.answer {s t : State} {a b : Await} (hSame : Same s t) (hs : s.pending = [a])
    (ht : t.pending = [b]) : Same (app.answer s a) (app.answer t b) := by
  have hAwait : unnumbered b = unnumbered a := by
    simpa [hs, ht] using hSame.pending
  have hServe := serve_unnumbered b s.disk
  rw [hAwait, serve_unnumbered, Prod.mk.injEq] at hServe
  obtain ⟨hDisk, hReady⟩ := hServe
  have hReply := resume_unnumbered (app.serve b s.disk).2 t.ui
  rw [← hReady, resume_unnumbered, Prod.mk.injEq, Issued.mk.injEq] at hReply
  obtain ⟨hUi, hRequests, hEffects⟩ := hReply
  obtain ⟨hUi', hEffects', hRequests'⟩ :=
    resume_renumber (app.serve a s.disk).2 s.ui t.ui.nextCall
  rw [← hSame.ui] at hUi' hEffects' hRequests'
  refine ⟨?_, ?_, ?_, ?_⟩
  · rw [Program.disk_answer, Program.disk_answer, hSame.disk, hDisk]
  · rw [Program.ui_answer, Program.ui_answer, hSame.disk, ← hUi, hUi']
  · rw [Program.effects_answer, Program.effects_answer, hSame.disk, hSame.effects, ← hEffects,
      hEffects']
  · rw [Program.pending_answer, Program.pending_answer, hSame.disk, ← hRequests, hRequests']

theorem Same.completed {s t s' : State} {n : Nat} (hSame : Same s t)
    (h : app.Completed s n s') : ∃ t', app.Completed t n t' ∧ Same s' t' := by
  induction h generalizing t with
  | done hDone =>
      have hNone : t.pending = [] := by
        have hMap := hSame.pending
        rwa [hDone, List.map_nil, List.map_eq_nil_iff] at hMap
      exact ⟨t, .done hNone, hSame⟩
  | @answer s a n s' hAt _ ih =>
      obtain ⟨b, hb⟩ : ∃ b, t.pending = [b] := by
        have hLength := congrArg List.length hSame.pending
        rw [List.length_map, List.length_map, hAt] at hLength
        exact List.length_eq_one_iff.mp hLength
      obtain ⟨t', hDone, hSame'⟩ := ih (hSame.answer hAt hb)
      exact ⟨t', .answer hb hDone, hSame'⟩

theorem Same.result {s t : State} (hSame : Same s t) : SameResult s t := by
  refine ⟨hSame.disk, ?_, hSame.effects⟩
  rw [hSame.ui]
  rfl

/-! ## Loads run on their own screens -/

/-- The screen a mount or focus callback loads for. -/
def loadName : Await → Option RouteName
  | .login (.isUserLoggedIn _) => some .AUTH
  | .home (.getUserInfo _) => some .HOME
  | .create (.fetchMembers _) => some .CREATE
  | .list (.getDraft _) => some .LIST
  | _ => none

theorem loadName_of_moves {ui : Ui} {nav : Option Nav} {out : Ui × List Await}
    (h : Moves ui nav out) {a : Await} (ha : a ∈ out.2) :
    loadName a = some out.1.focused.screen.name := by
  have hMount : ∀ r : Route, a ∈ r.mountEffects → loadName a = some r.screen.name := by
    rintro ⟨key, screen⟩ hr
    unfold Route.mountEffects at hr
    split at hr
    all_goals rename_i hScreen
    all_goals simp only [List.mem_singleton, List.not_mem_nil] at hr hScreen
    all_goals rw [hScreen, hr]
    all_goals rfl
  cases h with
  | stays => simp at ha
  | @back _ r rest _ =>
      have hFocus : a ∈ r.focusEffects := ha
      unfold Route.focusEffects at hFocus
      split at hFocus
      · rename_i hScreen
        rw [List.mem_singleton.mp hFocus]
        show some RouteName.CREATE = some r.screen.name
        rw [hScreen]
        rfl
      · simp at hFocus
  | replaces name => exact hMount _ ha
  | resets name => exact hMount _ ha
  | pushes name dates _ => exact hMount _ ha

/-- A load that is due is due on a screen of its own kind, if that is mounted. -/
def Housed (s : State) : Prop :=
  ∀ a ∈ s.effects, ∀ l ∈ labels s.ui, awaitKey a = some l.1 → loadName a = some l.2

theorem Housed.step {s s' : State} {x : Action} (hKeys : KeysBelow s) (hInv : Housed s)
    (hx : app.Step s x s') : Housed s' := by
  -- the loads that were due before
  have hOld : ∀ a ∈ s.effects, ∀ l ∈ labels s'.ui, awaitKey a = some l.1 →
      loadName a = some l.2 := by
    intro a ha l hl hKey
    rcases (labels_of_step hx).2 l hl with hSame | hNew
    · exact hInv a ha l hSame hKey
    · have hBelow := hKeys.effects a ha _ hKey
      omega
  cases stackStep_of_step hx with
  | still hUi hEffects _ => exact fun a ha => hOld a (hEffects ha)
  | @follows _ _ nav out h hUi hEffects _ =>
      intro a ha l hl hKey
      rw [hEffects] at ha
      rcases List.mem_append.mp ha with hBefore | hNew
      · exact hOld a hBefore l hl hKey
      · have hMoves := moved_moves s.ui nav
        obtain ⟨hFresh, -, hFocus⟩ := hKeys.fresh.moves hMoves
        rw [h.effects] at hNew
        rw [hUi, h.labels] at hl
        rw [loadName_of_moves hMoves hNew]
        rw [hFocus a hNew, Option.some.injEq] at hKey
        obtain ⟨r, hr, rfl⟩ := List.mem_map.mp hl
        have hRoute := List.inj_on_of_nodup_map hFresh.nodup List.mem_cons_self hr hKey
        rw [hRoute]
  | kill =>
      intro a ha l hl _
      obtain rfl : a = .login (.isUserLoggedIn s.ui.nextKey) := List.mem_singleton.mp ha
      obtain rfl : l = (s.ui.nextKey, .AUTH) := List.mem_singleton.mp hl
      rfl

theorem housed_run {xs : List Action} {s : State} (hRun : run xs = some s) : Housed s := by
  refine app.exec_induction (fun _ _ => True) (fun _ s => Housed s) ?_ ?_ (fun _ _ => trivial) hRun
  · intro a ha l hl _
    obtain rfl : a = .login (.isUserLoggedIn 0) := List.mem_singleton.mp ha
    obtain rfl : l = (0, .AUTH) := List.mem_singleton.mp hl
    rfl
  · rintro h s x s' ⟨ys, hPre, -⟩ - hInv hx
    exact hInv.step (keysBelow_run hPre) hx

/-! ## Presses that fail -/

theorem accepts_of_pressed {ui : Ui} {e : Event} {a : Await} (h : Pressed ui e a) :
    Accepts ui.focused.screen := by
  cases h with
  | login hs hLoaded _ =>
      rw [hs]
      exact hLoaded
  | signup hs _ => rw [hs]; trivial
  | logout hs => rw [hs]; trivial
  | handleBack hs => rw [hs]; trivial
  | save hs => rw [hs]; trivial

/-- The same press can be made again while the focused route stays as it is. -/
theorem pressed_again {ui ui' : Ui} {e : Event} {a : Await} (h : Pressed ui e a)
    (hFocus : ui'.focused = ui.focused) :
    ∃ a', Pressed ui' e a' ∧ unnumbered a' = unnumbered a := by
  cases h with
  | login hs hLoaded hAcc =>
      exact ⟨_, .login (hFocus ▸ hs) hLoaded hAcc, by rw [hFocus]; rfl⟩
  | signup hs hAcc => exact ⟨_, .signup (hFocus ▸ hs) hAcc, by rw [hFocus]; rfl⟩
  | logout hs => exact ⟨_, .logout (hFocus ▸ hs), by rw [hFocus]; rfl⟩
  | handleBack hs => exact ⟨_, .handleBack (hFocus ▸ hs), rfl⟩
  | save hs => exact ⟨_, .save (hFocus ▸ hs), by rw [hFocus]⟩

/-- A press that has ended with the screens in place can be made again, and comes
to the same. -/
theorem harmless_press {s s' : State} {e : Event} {a a' : Await} (hFresh : Ui.Fresh s'.ui)
    (hPending : s.pending = []) (hServed : s.served = []) (hPending' : s'.pending = [])
    (hServed' : s'.served = []) (hPress : Pressed s.ui e a) (hPress' : Pressed s'.ui e a')
    (hBack : e ≠ .create .handleBack) (hDisk : s'.disk = s.disk)
    (hLabels : labels s'.ui = labels s.ui)
    (hEnd : ∀ n s₁, app.Completed (begun s a) n s₁ →
      ∃ s₂, app.Completed (begun s' a') n s₂ ∧ SameResult s₁ s₂) :
    Harmless s (.user e) s' where
  disk := hDisk
  stack := hLabels
  input key hKey r hr hOwn := by
    have hHeads := congrArg (fun l => l.head?.map Prod.fst) hLabels
    have hSame : s'.ui.focused.key = s.ui.focused.key := Option.some.inj hHeads
    have hFocus : s'.ui.focused.key = r.key := by
      rw [hOwn, hSame]
      exact Option.some.inj hKey
    rw [← List.inj_on_of_nodup_map hFresh.nodup List.mem_cons_self hr hFocus]
    exact accepts_of_pressed hPress'
  again n s₁ hRun hDone := by
    rw [exec_pressed hPress hBack] at hRun
    have hOne : (begun s a).pending.length ≤ 1 := by simp [begun, State.issue, hPending]
    obtain ⟨s₂, hEnd', hSame⟩ := hEnd n s₁
      ((Program.completed_iff oneAtATime hOne hServed).mpr ⟨hRun, hDone⟩)
    have hOne' : (begun s' a').pending.length ≤ 1 := by simp [begun, State.issue, hPending']
    obtain ⟨hRun', hDone'⟩ := (Program.completed_iff oneAtATime hOne' hServed').mp hEnd'
    refine ⟨begun s' a', s₂, ?_, hRun', hDone', hSame⟩
    show app.step s' (.user e) = _
    rw [app.step_iff]
    exact .user (handle_of_pressed hPress' hBack)

/-- The first call of a press is refused. -/
theorem harmless_first {s : State} {e : Event} {a : Await} (hFresh : Ui.Fresh s.ui)
    (hPending : s.pending = []) (hServed : s.served = []) (hPress : Pressed s.ui e a)
    (hBack : e ≠ .create .handleBack) :
    Harmless s (.user e) { begun s a with pending := [] } := by
  obtain ⟨a', hPress', hNumber⟩ : ∃ a', Pressed (counted s.ui) e a' ∧
      unnumbered a' = unnumbered a := pressed_again hPress rfl
  refine harmless_press hFresh.counted hPending hServed rfl hServed hPress hPress' hBack rfl rfl ?_
  intro n s₁ hDone
  have hSame : Same (begun s a) (begun { begun s a with pending := [] } a') := by
    refine ⟨rfl, rfl, ?_, ?_⟩
    · simp [begun, State.issue]
    · simp [begun, State.issue, hPending, hNumber]
  obtain ⟨s₂, hDone', hSame'⟩ := hSame.completed hDone
  exact ⟨s₂, hDone', hSame'.result⟩

theorem modify_twice (ui : Ui) (key : Nat) {f : Screen → Screen}
    (hf : ∀ screen, f (f screen) = f screen) :
    (ui.modify key f).modify key f = ui.modify key f := by
  let on (r : Route) : Route := if r.key = key then { r with screen := f r.screen } else r
  have hOn : ∀ r, on (on r) = on r := by
    intro r
    by_cases hKey : r.key = key <;> simp [on, hKey, hf]
  show ({ ui with focused := on (on ui.focused), below := (ui.below.map on).map on } : Ui) =
    { ui with focused := on ui.focused, below := ui.below.map on }
  rw [hOn, List.map_map, show on ∘ on = on from funext hOn]

/-- The call after a read is refused: when the press is repeated, the screen is
told once more what it has been told. -/
theorem harmless_second {s : State} {e : Event} {a a' b b' : Await} {key : Nat}
    {f : Screen → Screen} (hFresh : Ui.Fresh s.ui) (hPending : s.pending = [])
    (hServed : s.served = []) (hPress : Pressed s.ui e a) (hBack : e ≠ .create .handleBack)
    (hPress' : Pressed ((counted s.ui).modify key f) e a') (hNext : GoesOn s.disk a key f b)
    (hNext' : GoesOn s.disk a' key f b') (hNumber : unnumbered b' = unnumbered b)
    (hTwice : ∀ screen, f (f screen) = f screen)
    (hName : ∀ screen, (f screen).name = screen.name) :
    Harmless s (.user e) { app.answer (begun s a) a with pending := [] } := by
  have hAnswer : app.answer (begun s a) a = _ := GoesOn.answer (s := begun s a) hNext
  rw [hAnswer]
  let s' : State := { begun s a with ui := (counted s.ui).modify key f, pending := [] }
  have hAnswer' : app.answer (begun s' a') a' = _ := GoesOn.answer (s := begun s' a') hNext'
  refine harmless_press (hFresh.counted.modify key f) hPending hServed rfl hServed hPress hPress'
    hBack rfl (labels_modify (counted s.ui) key hName) fun n s₁ hDone => ?_
  have hSame : Same (app.answer (begun s a) a) (app.answer (begun s' a') a') := by
    rw [hAnswer, hAnswer']
    refine ⟨rfl, ?_, ?_, ?_⟩
    · show counted (((counted s.ui).modify key f).modify key f) = _
      rw [modify_twice _ _ hTwice]
      rfl
    · simp [s', begun, State.issue]
    · simp [hNumber]
  cases hDone with
  | done hNone => simp [begun, State.issue] at hNone
  | @answer _ c n _ hAt hRest =>
      obtain rfl : a = c := by simpa [begun, State.issue, hPending] using hAt
      obtain ⟨s₂, hDone', hSame'⟩ := hSame.completed hRest
      exact ⟨s₂, .answer (by simp [begun, State.issue]) hDone', hSame'.result⟩

/-! ## Submits -/

/-- The error text has no part in a press of `LOGIN`. -/
theorem pressed_login_told {ui : Ui} {call : Login.Call}
    (h : Pressed ui (.login .handleSubmit) (.login (.getUsers call))) :
    ∃ n, Pressed ((counted ui).modify call.key (Screen.onLogin fun st => { st with error := "" }))
      (.login .handleSubmit) (.login (.getUsers { call with id := n })) := by
  cases h with
  | @login st hs hLoaded hAcc =>
      have hFocused : ((counted ui).modify ui.focused.key
          (Screen.onLogin fun st => { st with error := "" })).focused =
            ⟨ui.focused.key, .AUTH (.LOGIN { st with error := "" })⟩ := by
        simp [Ui.modify, counted, hs, Screen.onLogin]
      have hPress := Pressed.login (congrArg Route.screen hFocused) hLoaded hAcc
      rw [hFocused] at hPress
      exact ⟨_, hPress⟩

theorem pressed_signup_told {ui : Ui} {call : Signup.Call}
    (h : Pressed ui (.signup .handleSubmit) (.signup (.getUsers call))) :
    ∃ n, Pressed
      ((counted ui).modify call.key (Screen.onSignup fun st => { st with error := "" }))
      (.signup .handleSubmit) (.signup (.getUsers { call with id := n })) := by
  cases h with
  | @signup st hs hAcc =>
      have hFocused : ((counted ui).modify ui.focused.key
          (Screen.onSignup fun st => { st with error := "" })).focused =
            ⟨ui.focused.key, .AUTH (.SIGNUP { st with error := "" })⟩ := by
        simp [Ui.modify, counted, hs, Screen.onSignup]
      have hPress := Pressed.signup (congrArg Route.screen hFocused) hAcc
      rw [hFocused] at hPress
      exact ⟨_, hPress⟩

theorem failed_login {s s' : State} {call : Login.Call} {k : Nat} (hFresh : Ui.Fresh s.ui)
    (hPending : s.pending = []) (hServed : s.served = [])
    (hPress : Pressed s.ui (.login .handleSubmit) (.login (.getUsers call)))
    (hFails : app.Refused (begun s (.login (.getUsers call))) k s') :
    Harmless s (.user (.login .handleSubmit)) s' := by
  rcases hFails.split (pending_begun hPending _) with ⟨-, rfl⟩ | ⟨k, rfl, hNext⟩
  · exact harmless_first hFresh hPending hServed hPress (by simp)
  · cases hFind : (s.disk.accounts call.isAdmin).find? fun e => e.email = call.email with
    | none =>
        have hAnswer := resume_login_users call s.disk (counted s.ui)
        rw [hFind] at hAnswer
        refine absurd ?_ hNext.pending_ne_nil
        rw [Program.pending_answer]
        exact congrArg (fun out => out.2.requests) hAnswer
    | some user =>
        obtain ⟨n, hPress'⟩ := pressed_login_told hPress
        have hGoes := goesOn_login hFind
        have hGoes' : GoesOn s.disk (.login (.getUsers { call with id := n })) call.key _ _ :=
          goesOn_login hFind
        have hPending' : (app.answer (begun s (.login (.getUsers call)))
            (.login (.getUsers call))).pending = [.login (.setLoggedIn call user)] := by
          rw [GoesOn.answer (s := begun s _) hGoes]
        rcases hNext.split hPending' with ⟨-, rfl⟩ | ⟨k, -, hNext'⟩
        · refine harmless_second hFresh hPending hServed hPress (by simp) hPress' hGoes hGoes' rfl
            ?_ (name_onLogin _)
          intro screen
          rcases screen with (st | st) | st | st | st <;> rfl
        · refine absurd ?_ hNext'.pending_ne_nil
          rw [Program.pending_answer]
          rfl

/-- Only the write of the session fails too late: the account is stored. -/
theorem failed_signup {s s' : State} {call : Signup.Call} {k : Nat} (hFresh : Ui.Fresh s.ui)
    (hPending : s.pending = []) (hServed : s.served = [])
    (hPress : Pressed s.ui (.signup .handleSubmit) (.signup (.getUsers call)))
    (hFails : app.Refused (begun s (.signup (.getUsers call))) k s') :
    Harmless s (.user (.signup .handleSubmit)) s' ↔ k ≠ 2 := by
  rcases hFails.split (pending_begun hPending _) with ⟨rfl, rfl⟩ | ⟨k, rfl, hNext⟩
  · exact iff_of_true (harmless_first hFresh hPending hServed hPress (by simp)) (by simp)
  · by_cases hTaken : ∃ u ∈ s.disk.accounts call.isAdmin, u.email = call.email
    · obtain ⟨u, hu, hEmail⟩ := hTaken
      refine absurd ?_ hNext.pending_ne_nil
      rw [Program.pending_answer]
      exact congrArg (fun out => out.2.requests) (resume_signup_taken hu hEmail (counted s.ui))
    · obtain ⟨n, hPress'⟩ := pressed_signup_told hPress
      have hNew : ∀ u ∈ s.disk.accounts call.isAdmin, u.email ≠ call.email :=
        fun u hu hEmail => hTaken ⟨u, hu, hEmail⟩
      have hGoes := goesOn_signup hNew
      have hGoes' : GoesOn s.disk (.signup (.getUsers { call with id := n })) call.key _ _ :=
        goesOn_signup hNew
      have hAnswer := GoesOn.answer (s := begun s (.signup (.getUsers call))) hGoes
      have hPending' : (app.answer (begun s (.signup (.getUsers call)))
          (.signup (.getUsers call))).pending =
            [.signup (.setUsers call (s.disk.accounts call.isAdmin))] := by
        rw [hAnswer]
      rcases hNext.split hPending' with ⟨rfl, rfl⟩ | ⟨k, rfl, hNext'⟩
      · refine iff_of_true ?_ (by simp)
        refine harmless_second hFresh hPending hServed hPress (by simp) hPress' hGoes hGoes' rfl
          ?_ (name_onSignup _)
        intro screen
        rcases screen with (st | st) | st | st | st <;> rfl
      · rcases hNext'.split (Program.pending_answer _ _ _) with ⟨rfl, rfl⟩ | ⟨k, -, hLast⟩
        · refine iff_of_false (fun hHarmless => ?_) (by simp)
          have hDisk := hHarmless.disk
          rw [hAnswer] at hDisk
          have hStored : s.disk.setUsers call.isAdmin
              (call.account :: s.disk.accounts call.isAdmin) = s.disk := hDisk
          have hLonger := congrArg (fun d => (d.accounts call.isAdmin).length) hStored
          simp at hLonger
        · refine absurd ?_ hLast.pending_ne_nil
          rw [Program.pending_answer]
          rfl

/-! ## The other presses -/

/-- A press whose only call is refused has changed nothing. -/
theorem failed_single {s s' : State} {e : Event} {a : Await} {k : Nat}
    (hFresh : Ui.Fresh s.ui) (hPending : s.pending = []) (hServed : s.served = [])
    (hPress : Pressed s.ui e a) (hBack : e ≠ .create .handleBack)
    (hLast : ∀ d ui, (app.resume (app.serve a d).2 ui).2.requests = [])
    (hFails : app.Refused (begun s a) k s') : Harmless s (.user e) s' := by
  rcases hFails.split (pending_begun hPending _) with ⟨-, rfl⟩ | ⟨k, -, hNext⟩
  · exact harmless_first hFresh hPending hServed hPress hBack
  · exact absurd ((Program.pending_answer _ _ _).trans (hLast _ _)) hNext.pending_ne_nil

/-- The arrow of `CREATE` has left the screen before its call. -/
theorem failed_back {s s' : State} {st : TaskCreation.State} {k : Nat} {out : Ui × Issued Await}
    (hGround : Grounded s.ui.names) (hPending : s.pending = [])
    (hs : s.ui.focused.screen = .CREATE st)
    (hOut : app.handle (.create .handleBack) s.ui = some out)
    (hFails : app.Refused (s.issue out) k s') : ¬ Harmless s (.user (.create .handleBack)) s' := by
  intro hHarmless
  have hName : s.ui.focused.screen.name = .CREATE := by rw [hs]; rfl
  cases handle_cases hOut with
  | create hs' =>
      have hAt : (s.issue ((counted s.ui).perform Screen.onCreate .create s.ui.focused.key
          (TaskCreation.handle .handleBack))).pending = [.create .handleBack] := by
        simp [State.issue, hPending, TaskCreation.handle]
      rcases hFails.split hAt with ⟨-, rfl⟩ | ⟨k, -, hNext⟩
      · have hLabels := hHarmless.stack
        simp only [State.issue] at hLabels
        rw [perform_eq, labels_modify _ _ (name_onCreate _)] at hLabels
        have hLeaves : labels (moved (counted s.ui) (some .goBack)).1 ≠ labels (counted s.ui) :=
          goBack_leaves hGround hName
        exact hLeaves hLabels
      · exact absurd (Program.pending_answer _ _ _) hNext.pending_ne_nil

/-! ## Loads that fail -/

/-- A load that has ended without telling its screen anything can run again. -/
theorem harmless_load {s : State} {i : Nat} {a : Await} (hAt : s.effects[i]? = some a)
    (hInput : ∀ key, awaitKey a = some key → ∀ r ∈ s.ui.stack, r.key = key → Accepts r.screen) :
    Harmless s (.effect i) { s with effects := s.effects.eraseIdx i } where
  disk := rfl
  stack := rfl
  input key hKey := hInput key (by simpa [startedOn, hAt] using hKey)
  again n s₁ hRun hDone := by
    have hStart : app.step s (.effect i) =
        some { s with effects := s.effects.eraseIdx i, pending := s.pending ++ [a] } := by
      rw [app.step_iff]
      exact .effect hAt
    rw [app.exec_cons, hStart, Option.bind_some] at hRun
    refine ⟨_, s₁, ?_, hRun, hDone, rfl, rfl, rfl⟩
    simp [restart, hAt]

/-- Only `LOGIN` can have nothing to press. -/
theorem accepts_of_name {screen : Screen} (h : screen.name ≠ .AUTH) : Accepts screen := by
  cases screen with
  | AUTH _ => exact absurd rfl h
  | HOME _ => trivial
  | CREATE _ => trivial
  | LIST _ => trivial

/-- A load that is not the launch check of a `LOGIN` that still loads runs on a
screen with something to press. -/
theorem accepts_of_load {s : State} {i : Nat} {a : Await} {k : Nat} (hLoad : IsLoad a)
    (hHoused : Housed s) (hAt : s.effects[i]? = some a) (hSafe : ¬ Unsafe s (.effect i) k) :
    ∀ key, awaitKey a = some key → ∀ r ∈ s.ui.stack, r.key = key → Accepts r.screen := by
  intro key hKey r hr hOwn
  have hName : loadName a = some r.screen.name :=
    hHoused a (List.mem_of_getElem? hAt) (r.key, r.screen.name) (List.mem_map_of_mem hr)
      (by rw [hOwn, hKey])
  cases hLoad with
  | login key' =>
      obtain rfl : key' = key := Option.some.inj hKey
      by_contra hNot
      exact hSafe ⟨key', hAt, r, hr, hOwn, hNot⟩
  | home key' => exact accepts_of_name fun hAuth => by simp [loadName, hAuth] at hName
  | create key' => exact accepts_of_name fun hAuth => by simp [loadName, hAuth] at hName
  | list key' => exact accepts_of_name fun hAuth => by simp [loadName, hAuth] at hName

/-- Both calls of a load end it with the screens in place. -/
theorem refused_load {s s' : State} {i : Nat} {a : Await} {k : Nat} (hLoad : IsLoad a)
    (hPending : s.pending = [])
    (hFails : app.Refused
      { s with effects := s.effects.eraseIdx i, pending := s.pending ++ [a] } k s') :
    s' = { s with effects := s.effects.eraseIdx i } := by
  have hSame : ∀ es : List Await, ({ s with effects := es, pending := [] } : State) =
      { s with effects := es } := by
    intro es
    rw [← hPending]
  have hAt : s.pending ++ [a] = [a] := by rw [hPending]; rfl
  rcases hFails.split hAt with ⟨-, rfl⟩ | ⟨k, -, hNext⟩
  · exact hSame _
  · have hMore := hNext.pending_ne_nil
    rw [Program.pending_answer] at hMore
    cases hLoad with
    | login key => exact absurd rfl hMore
    | home key => exact absurd rfl hMore
    | create key => exact absurd rfl hMore
    | list key =>
        have hEmpty : s.disk.tempMembers.getD [] = [] := by
          by_contra hDraft
          exact hMore (resume_list_draft key s.ui hDraft)
        have hAnswer := GoesOn.answer (s := { s with
          effects := s.effects.eraseIdx i, pending := s.pending ++ [.list (.getDraft key)] })
          (goesOn_list key hEmpty)
        rw [hAnswer] at hNext
        rcases hNext.split rfl with ⟨-, rfl⟩ | ⟨k, -, hLast⟩
        · rw [modify_id]
          exact hSame _
        · exact absurd (Program.pending_answer _ _ _) hLast.pending_ne_nil

/-- A load fails without a trace, unless it is the launch check of a `LOGIN` that
loads. -/
theorem failed_load {s s' : State} {i : Nat} {a : Await} {k : Nat} (hLoad : IsLoad a)
    (hHoused : Housed s) (hPending : s.pending = []) (hAt : s.effects[i]? = some a)
    (hFails : app.Refused
      { s with effects := s.effects.eraseIdx i, pending := s.pending ++ [a] } k s') :
    Harmless s (.effect i) s' ↔ ¬ Unsafe s (.effect i) k := by
  obtain rfl := refused_load hLoad hPending hFails
  constructor
  · rintro hHarmless ⟨key, hCheck, r, hr, hOwn, hNot⟩
    exact hNot (hHarmless.input key (by simp [startedOn, hCheck, awaitKey]) r hr hOwn)
  · intro hSafe
    exact harmless_load hAt (accepts_of_load hLoad hHoused hAt hSafe)

/-! ## Every operation -/

theorem failed_press {s s' : State} {e : Event} {out : Ui × Issued Await} {k : Nat}
    (hFresh : Ui.Fresh s.ui) (hGround : Grounded s.ui.names) (hPending : s.pending = [])
    (hServed : s.served = []) (hOut : app.handle e s.ui = some out)
    (hFails : app.exec (s.issue out) (refusal Event k) = some s') :
    Harmless s (.user e) s' ↔ ¬ Unsafe s (.user e) k := by
  have hShort : (s.issue out).pending.length ≤ 1 := by
    simpa [State.issue, hPending] using handle_oneAtATime hOut
  have hRefused := (Program.refused_iff oneAtATime hShort hServed).mpr hFails
  obtain ⟨a, ha⟩ := List.exists_mem_of_ne_nil _ hRefused.pending_ne_nil
  have hPress : Pressed s.ui e a := handle_requests hOut (by simpa [State.issue, hPending] using ha)
  by_cases hBack : e = .create .handleBack
  · subst hBack
    cases hPress with
    | handleBack hs =>
        exact iff_of_false (failed_back hGround hPending hs hOut hRefused) (fun h => h trivial)
  · have hBegun : s.issue out = begun s a := by
      have hSame := handle_of_pressed hPress hBack
      rw [hOut, Option.some.injEq] at hSame
      rw [hSame, begun]
    rw [hBegun] at hRefused
    cases hPress with
    | login hs hLoaded hAcc =>
        exact iff_of_true
          (failed_login hFresh hPending hServed (.login hs hLoaded hAcc) hRefused) id
    | signup hs hAcc => exact failed_signup hFresh hPending hServed (.signup hs hAcc) hRefused
    | logout hs =>
        exact iff_of_true (failed_single hFresh hPending hServed (.logout hs) hBack
          (fun _ _ => rfl) hRefused) id
    | handleBack _ => exact absurd rfl hBack
    | save hs =>
        exact iff_of_true (failed_single hFresh hPending hServed (.save hs) hBack
          (fun _ _ => rfl) hRefused) id

/-- **A failed operation changes nothing, with three exceptions.**  Starting with
nothing outstanding, `x` starts an operation whose first `k` calls are answered
and whose next one is refused. -/
theorem failed_operation_harmless_iff (s s' : State) (x : Action) (k : Nat)
    (hReach : Reachable s) (hPending : s.pending = []) (hServed : s.served = [])
    (hFails : app.exec s (x :: refusal Event k) = some s') :
    Harmless s x s' ↔ ¬ Unsafe s x k := by
  obtain ⟨xs, hRun⟩ := hReach
  have hFresh := (keysBelow_run hRun).fresh
  rw [app.exec_cons] at hFails
  obtain ⟨m, hStep, hRest⟩ := Option.bind_eq_some_iff.mp hFails
  have hx := app.step_iff.mp hStep
  cases hx with
  | @user e out hOut => exact failed_press hFresh (grounded_run hRun) hPending hServed hOut hRest
  | @effect i a hAt =>
      refine failed_load (isLoad_of_mem_effects hRun _ (List.mem_of_getElem? hAt))
        (housed_run hRun) hPending hAt
        ((Program.refused_iff oneAtATime ?_ ?_).mpr hRest)
      · simp [hPending]
      · exact hServed
  | serve hAt => simp [hPending] at hAt
  | resolve hAt => simp [hServed] at hAt
  | reject hAt => simp [hPending] at hAt
  | kill =>
      have hRefused := (Program.refused_iff oneAtATime (Nat.zero_le _) rfl).mpr hRest
      exact absurd rfl hRefused.pending_ne_nil

/-- Ann's session cannot be written when she logs in again. -/
theorem failed_operation_harmless_ann :
    ∃ s s', run (annReturns annCall.password) = some s ∧
      app.exec s (pressLogin :: refusal Event 1) = some s' ∧ Harmless s pressLogin s' := by
  obtain ⟨s, hRun⟩ := Option.isSome_iff_exists.mp
    (show (run (annReturns annCall.password)).isSome = true by decide)
  have hIdle : (run (annReturns annCall.password)).map (fun s => (s.pending, s.served)) =
      some ([], []) := by decide
  have hFails : ((run (annReturns annCall.password)).bind fun s =>
      app.exec s (pressLogin :: refusal Event 1)).isSome = true := by decide
  rw [hRun, Option.map_some, Option.some.injEq, Prod.mk.injEq] at hIdle
  rw [hRun, Option.bind_some] at hFails
  obtain ⟨s', hExec⟩ := Option.isSome_iff_exists.mp hFails
  have hHarmless := (failed_operation_harmless_iff s s' pressLogin 1 ⟨_, hRun⟩ hIdle.1 hIdle.2
    hExec).mpr id
  exact ⟨s, s', hRun, hExec, hHarmless⟩

/-- The form of `SIGNUP` is filled in. -/
def annFillsIn : List Action :=
  loaded ++ [openSignup] ++ fillSignup (js "ann@x.co") (js "pw") (js "Ann")

/-- The account is stored, and the write of the session is refused. -/
theorem failed_signup_stores_account :
    ¬ ∀ s s' x k, Reachable s → s.pending = [] → s.served = [] →
      app.exec s (x :: refusal Event k) = some s' → Harmless s x s' := by
  intro hClaim
  obtain ⟨s, hRun⟩ := Option.isSome_iff_exists.mp (show (run annFillsIn).isSome = true by decide)
  have hIdle : (run annFillsIn).map (fun s => (s.pending, s.served)) = some ([], []) := by decide
  have hBefore : (run annFillsIn).map (fun s => s.disk.accounts false) = some [] := by decide
  have hAfter : ((run annFillsIn).bind fun s => app.exec s (pressSignup :: refusal Event 2)).map
      (fun s => s.disk.accounts false) = some [annCall.account] := by decide
  rw [hRun, Option.map_some, Option.some.injEq] at hIdle hBefore
  rw [Prod.mk.injEq] at hIdle
  rw [hRun, Option.bind_some, Option.map_eq_some_iff] at hAfter
  obtain ⟨s', hExec, hStored⟩ := hAfter
  have hSame := (hClaim s s' pressSignup 2 ⟨_, hRun⟩ hIdle.1 hIdle.2 hExec).disk
  rw [hSame, hBefore] at hStored
  simp at hStored

end TaskManager.Runs
