import TaskManager.App.AuthRoute
import TaskManager.App.Operations
import TaskManager.Runs.AccountStores

/-!
# The stacks that there are

`Grounded` of `App/Stack.lean` says what lies at the bottom of the stack and below `LIST`.
Here the stacks are listed: `AUTH` is alone, and elsewhere there is at least one `HOME` at the
bottom, over which at most one `CREATE` lies, with `LIST` or one more `HOME` on it.

The list cannot be made shorter.  A submit that is reported when its user has gone on
replaces the focused screen by one more `HOME`, and nothing ever takes it away but the back
action and logout: `piled` piles up as many of them as there were presses.

## Main results

* `shape_of_run` — in every run the stack is one of the list.
* `stack_shapes` — each of them is the stack of some run.
-/

namespace TaskManager.Runs

open TaskManager.Verified.JsText
open TaskManager.Verified.EventLoop
open TaskManager.Shared
open TaskManager.Pages
open TaskManager.Routes
open TaskManager.App

/-! ## Shapes -/

/-- A stack of `HOME` alone. -/
abbrev homes (n : Nat) : List RouteName := List.replicate n .HOME

/-- The stacks that the root navigator can have. -/
inductive Shape : List RouteName → Prop
  | auth : Shape [.AUTH]
  | home (n : Nat) : Shape (homes (n + 1))
  | create (n : Nat) : Shape (.CREATE :: homes (n + 1))
  | list (n : Nat) : Shape (.LIST :: .CREATE :: homes (n + 1))
  | homeOver (n : Nat) : Shape (.HOME :: .CREATE :: homes (n + 1))

/-- No other screen is found among `HOME`s. -/
theorem dropWhile_homes (n : Nat) {name : RouteName} (hName : name ≠ .HOME) :
    (homes n).dropWhile (fun m => m ≠ name) = [] := by
  rw [List.dropWhile_eq_nil_iff]
  intro m hm
  rw [List.eq_of_mem_replicate hm]
  simpa using hName.symm

section Moves

variable {names : List RouteName}

/-- A late submit puts `HOME` in place of the focused screen. -/
theorem Shape.replaceHome (h : Shape names) :
    Shape (moveNames (some (.replace .HOME)) names) := by
  cases h with
  | auth => exact .home 0
  | home n => exact .home n
  | create n => exact .home (n + 1)
  | list n => exact .homeOver n
  | homeOver n => exact .homeOver n

/-- Going back from a shape leads to a shape. -/
theorem Shape.goBack (h : Shape names) : Shape (moveNames (some .goBack) names) := by
  cases h with
  | auth => exact .auth
  | home n =>
      cases n with
      | zero => exact .home 0
      | succ n => exact .home n
  | create n => exact .home n
  | list n => exact .create n
  | homeOver n => exact .create n

/-- The root of the authentication screens is alone. -/
theorem Shape.alone (h : Shape names) (hAuth : .AUTH ∈ names) : names = [.AUTH] := by
  cases h with
  | auth => rfl
  | home n => simp [List.mem_replicate] at hAuth
  | create n => simp [List.mem_replicate] at hAuth
  | list n => simp [List.mem_replicate] at hAuth
  | homeOver n => simp [List.mem_replicate] at hAuth

theorem Shape.createTask (h : Shape names) (hHome : names.head? = some .HOME)
    (dates : Nat × Nat) : Shape (moveNames (some (.navigate .CREATE dates)) names) := by
  cases h with
  | auth => simp at hHome
  | home n =>
      have hNone := dropWhile_homes n (show RouteName.CREATE ≠ .HOME by decide)
      simp only [moveNames, List.replicate_succ, List.head?_cons, List.tail_cons, hNone]
      exact .create n
  | create n => simp at hHome
  | list n => simp at hHome
  | homeOver n => exact .create n

theorem Shape.addMembers (h : Shape names) (hCreate : names.head? = some .CREATE)
    (dates : Nat × Nat) : Shape (moveNames (some (.navigate .LIST dates)) names) := by
  cases h with
  | auth => simp at hCreate
  | home n => simp [List.replicate_succ] at hCreate
  | create n =>
      have hNone := dropWhile_homes (n + 1) (show RouteName.LIST ≠ .HOME by decide)
      simp only [moveNames, List.head?_cons, List.tail_cons, hNone]
      exact .list n
  | list n => simp at hCreate
  | homeOver n => simp at hCreate

end Moves

/-- An event asks only for moves between shapes. -/
theorem Shape.asks {ui : Ui} (h : Shape ui.names) {e : Event} {nav : Option Nav}
    (hAsks : Asks ui e nav) : Shape (moveNames nav ui.names) := by
  have hHead : ui.names.head? = some ui.focused.screen.name := rfl
  cases hAsks with
  | nothing => exact h
  | link hAuth hName =>
      have hAlone := h.alone (by rw [← hAuth]; exact List.mem_cons_self)
      rw [hAlone]
      rcases hName with rfl | rfl <;> exact .auth
  | createTask hHome _ => exact h.createTask (hHome ▸ hHead) _
  | addMembers hCreate => exact h.addMembers (hCreate ▸ hHead) _
  | back => exact h.goBack

/-- A continuation asks only for moves between shapes. -/
theorem Shape.asksLater {names : List RouteName} (h : Shape names) {r : Ready} {nav : Option Nav}
    (hAsks : AsksLater r nav) : Shape (moveNames nav names) := by
  cases hAsks with
  | nothing => exact h
  | home => exact h.replaceHome
  | auth _ => exact .auth
  | back => exact h.goBack

/-- Every step leaves a shape. -/
theorem Shape.step {s s' : State} {x : Action} (h : Shape s.ui.names) (hx : app.Step s x s') :
    Shape s'.ui.names := by
  cases hx with
  | user hOut =>
      obtain ⟨nav, hFollows, hAsks⟩ := handle_asks hOut
      exact hFollows.names ▸ h.asks hAsks
  | effect _ => exact h
  | serve _ => exact h
  | @resolve i r _ =>
      have hFollows := resume_follows r s.ui
      exact hFollows.names ▸ h.asksLater (navOf_asksLater r)
  | reject _ => exact h
  | kill => exact .auth

/-- Every run leaves a shape. -/
theorem shape_of_run {xs : List Action} {s : State} (hRun : run xs = some s) :
    Shape s.ui.names := by
  refine app.exec_invariant (fun s => Shape s.ui.names) ?_ (fun _ _ _ h hx => h.step hx) hRun
  exact Shape.auth

/-- `AUTH` is never on the stack with another screen. -/
theorem authAlone_run {xs : List Action} {s : State} (hRun : run xs = some s) :
    AuthAlone s.ui := (shape_of_run hRun).alone

/-! ## Submits that are reported late -/

/-- Some run goes from one state to the other. -/
def Leads (s s' : State) : Prop := ∃ xs, app.exec s xs = some s'

theorem Leads.trans {s m s' : State} (h : Leads s m) (h' : Leads m s') : Leads s s' := by
  obtain ⟨xs, hXs⟩ := h
  obtain ⟨ys, hYs⟩ := h'
  exact ⟨xs ++ ys, by rw [app.exec_append, hXs]; exact hYs⟩

theorem Leads.step {s s' : State} {x : Action} (hx : app.Step s x s') : Leads s s' :=
  ⟨_, app.exec_snoc (app.exec_nil s) hx⟩

/-- What is left of a Login press once its session has been written. -/
def IsLate (r : Ready) : Prop := ∃ call record, r = .login (.setLoggedIn call record)

/-- `n` screens are on the stack, as named, and `k` submits have still to be reported. -/
structure Piled (names : List RouteName) (k : Nat) (s : State) : Prop where
  names : s.ui.names = names
  late : ∀ r ∈ s.served, IsLate r
  count : s.served.length = k

section Piled

variable {names : List RouteName} {k : Nat} {s : State}

/-- One more submit is reported. -/
theorem Piled.report (h : Piled names (k + 1) s) :
    ∃ s', Leads s s' ∧ Piled (.HOME :: names.tail) k s' := by
  cases hServed : s.served with
  | nil =>
      have hCount := h.count
      rw [hServed] at hCount
      nomatch hCount
  | cons r rs =>
      have hLate := h.late
      rw [hServed] at hLate
      obtain ⟨call, record, rfl⟩ := hLate r List.mem_cons_self
      have hStep := Program.step_resolveHead (P := app) hServed
      refine ⟨_, .step hStep, ?_, ?_, ?_⟩
      · have hFollows := resume_follows (.login (.setLoggedIn call record)) s.ui
        exact hFollows.names.trans (by rw [h.names]; rfl)
      · exact fun q hq => hLate q (List.mem_cons_of_mem _ hq)
      · have hCount := h.count
        rw [hServed, List.length_cons] at hCount
        exact Nat.succ.inj hCount

/-- An event that is handled leaves the reports as they are. -/
theorem Piled.press (h : Piled names k s) {e : Event} {out : Ui × Issued Await}
    (hOut : app.handle e s.ui = some out) {names' : List RouteName}
    (hNames : out.1.names = names') :
    ∃ s', Leads s s' ∧ Piled names' k s' :=
  ⟨_, .step (.user hOut), hNames, h.late, h.count⟩

/-- `CREATE` opens over any number of `HOME`s. -/
theorem Piled.createTask {n : Nat} (h : Piled (homes (n + 1)) k s) :
    ∃ s', Leads s s' ∧ Piled (.CREATE :: homes (n + 1)) k s' := by
  have hHead : s.ui.focused.screen.name = .HOME := (List.cons.inj h.names).1
  obtain ⟨st, hs⟩ : ∃ st, s.ui.focused.screen = .HOME st := by
    cases hs : s.ui.focused.screen with
    | HOME st => exact ⟨st, rfl⟩
    | AUTH st => nomatch hs ▸ hHead
    | CREATE st => nomatch hs ▸ hHead
    | LIST st => nomatch hs ▸ hHead
  have hOut : app.handle (.home (.createTask (0, 0))) s.ui =
      some ((counted s.ui).perform Screen.onHome .home s.ui.focused.key
        { navigate := some (.navigate .CREATE (0, 0)) }) := by
    simp only [app, handle, hs]
    rfl
  refine h.press hOut ?_
  let eff : Effect Home.State Home.Await := { navigate := some (.navigate .CREATE (0, 0)) }
  have hAsks : Asks s.ui (.home (.createTask (0, 0))) eff.navigate := .createTask hHead rfl
  have hFollows := follows_perform name_onHome Await.home hAsks
  have hNone := dropWhile_homes n (show RouteName.CREATE ≠ .HOME by decide)
  rw [hFollows.names, h.names]
  simp only [eff, moveNames, List.replicate_succ, List.head?_cons, List.tail_cons, hNone]
  rfl

/-- The list opens over `CREATE`. -/
theorem Piled.addMembers {n : Nat} (h : Piled (.CREATE :: homes (n + 1)) k s) :
    ∃ s', Leads s s' ∧ Piled (.LIST :: .CREATE :: homes (n + 1)) k s' := by
  have hHead : s.ui.focused.screen.name = .CREATE := (List.cons.inj h.names).1
  obtain ⟨st, hs⟩ : ∃ st, s.ui.focused.screen = .CREATE st := by
    cases hs : s.ui.focused.screen with
    | CREATE st => exact ⟨st, rfl⟩
    | AUTH st => nomatch hs ▸ hHead
    | HOME st => nomatch hs ▸ hHead
    | LIST st => nomatch hs ▸ hHead
  have hOut : app.handle (.create .addMembers) s.ui =
      some ((counted s.ui).perform Screen.onCreate .create s.ui.focused.key
        { navigate := some (.navigate .LIST) }) := by
    simp only [app, handle, hs]
    rfl
  refine h.press hOut ?_
  let eff : Effect TaskCreation.State TaskCreation.Await := { navigate := some (.navigate .LIST) }
  have hAsks : Asks s.ui (.create .addMembers) eff.navigate := .addMembers hHead
  have hFollows := follows_perform name_onCreate Await.create hAsks
  have hNone := dropWhile_homes (n + 1) (show RouteName.LIST ≠ .HOME by decide)
  rw [hFollows.names, h.names]
  simp only [eff, moveNames, List.head?_cons, List.tail_cons, hNone]
  rfl

/-- Each report puts one more `HOME` in the place of a `CREATE`. -/
theorem Piled.pile {n m : Nat} (h : Piled (homes (n + 1)) (k + m) s) :
    ∃ s', Leads s s' ∧ Piled (homes (n + m + 1)) k s' := by
  induction m generalizing n s with
  | zero => exact ⟨s, ⟨[], rfl⟩, h⟩
  | succ m ih =>
      obtain ⟨s₁, hTo₁, hCreate⟩ := h.createTask
      obtain ⟨s₂, hTo₂, hHome⟩ := hCreate.report
      obtain ⟨s₃, hTo₃, hPiled⟩ := ih (n := n + 1) hHome
      refine ⟨s₃, (hTo₁.trans hTo₂).trans hTo₃, ?_⟩
      rw [show n + (m + 1) + 1 = n + 1 + m + 1 by omega]
      exact hPiled

end Piled

/-- `k` submits have still to be reported, and the form of `LOGIN` is filled in for one more. -/
structure AtForm (k : Nat) (s : State) : Prop where
  piled : Piled [.AUTH] k s
  pending : s.pending = []
  form : ∃ key st user, s.ui.focused = ⟨key, .AUTH (.LOGIN st)⟩ ∧ st.isLoading = false ∧
    st.accepted = true ∧
    (s.disk.accounts st.isAdmin).find? (fun e => e.email = st.email.val) = some user

/-- One more press, whose session is written at once. -/
theorem AtForm.submit {k : Nat} {s : State} (h : AtForm k s) :
    ∃ s', Leads s s' ∧ AtForm (k + 1) s' := by
  obtain ⟨key, st, user, hFocused, hLoaded, hAccepted, hFound⟩ := h.form
  have hs : s.ui.focused.screen = .AUTH (.LOGIN st) := by rw [hFocused]
  generalize hCall : st.call s.ui.focused.key s.ui.nextCall = call
  have hPressed := Pressed.login hs hLoaded hAccepted
  rw [hCall] at hPressed
  have hGoes : GoesOn s.disk (.login (.getUsers call)) call.key
      (Screen.onLogin fun st => { st with error := "" }) (.login (.setLoggedIn call user)) :=
    goesOn_login (by rw [← hCall]; exact hFound)
  have hStart : Leads s (begun s (.login (.getUsers call))) :=
    .step (.user (handle_of_pressed hPressed (by simp)))
  -- the accounts are read, and the handler goes on
  let m : State :=
    { s with
      ui := (counted s.ui).modify call.key (Screen.onLogin fun st => { st with error := "" })
      pending := [.login (.setLoggedIn call user)] }
  have hRead : Leads (begun s (.login (.getUsers call))) m := by
    have hLast : (begun s (.login (.getUsers call))).pending = [] ++ [.login (.getUsers call)] :=
      pending_begun h.pending _
    refine ⟨_, (app.exec_answer_last hLast).trans ?_⟩
    have hResume := hGoes.resume (counted s.ui)
    have hDisk := hGoes.disk
    simp only [begun, State.issue, List.append_nil, hResume, hDisk, List.nil_append, m]
  have hWrite : Leads m (app.serveHead m (.login (.setLoggedIn call user)) []) :=
    .step (Program.step_serveHead rfl)
  refine ⟨_, (hStart.trans hRead).trans hWrite, ?_, rfl, key, { st with error := "" }, user, ?_⟩
  · refine ⟨?_, ?_, ?_⟩
    · exact (names_modify (counted s.ui) call.key fun sc => name_onLogin _ sc).trans h.piled.names
    · intro r hr
      rcases List.mem_append.mp hr with hOld | hNew
      · exact h.piled.late r hOld
      · exact ⟨call, user, List.mem_singleton.mp hNew⟩
    · exact (List.length_append ..).trans (congrArg (· + 1) h.piled.count)
  · have hKey : call.key = key := by rw [← hCall, Login.State.call, hFocused]
    refine ⟨?_, hLoaded, hAccepted, ?_⟩
    · show ((counted s.ui).modify call.key _).focused = _
      simp [Ui.modify, counted, hFocused, hKey, Screen.onLogin]
    · show (Disk.accounts { s.disk with userLoggedIn := some user } st.isAdmin).find? _ = _
      rw [← hFound]
      rfl

/-- The button can be pressed any number of times before the first press is reported. -/
theorem AtForm.submits {k : Nat} {s : State} (h : AtForm k s) (n : Nat) :
    ∃ s', Leads s s' ∧ AtForm (k + n) s' := by
  induction n with
  | zero => exact ⟨s, ⟨[], rfl⟩, h⟩
  | succ n ih =>
      obtain ⟨m, hTo, hForm⟩ := ih
      obtain ⟨s', hTo', hForm'⟩ := hForm.submit
      exact ⟨s', hTo.trans hTo', hForm'⟩

/-- Ann signs up, logs out and fills in the form. -/
def annAtForm : List Action :=
  annSignedUp ++ loaded ++ [pressLogout] ++ answered ++ loaded
    ++ fillLogin (js "ann@x.co") (js "pw")

/-- Ann has signed up, logged out, and filled in `LOGIN`. -/
theorem atForm_ann : ∃ s, run annAtForm = some s ∧ AtForm 0 s := by
  obtain ⟨s, hRun⟩ := Option.isSome_iff_exists.mp
    (show (run annAtForm).isSome = true by decide)
  let st : Login.State :=
    { email := .typed (js "ann@x.co"), password := .typed (js "pw"), isLoading := false }
  have hScreen : (run annAtForm).map (fun s => (s.ui.focused.screen, s.ui.below)) =
      some (.AUTH (.LOGIN st), []) := by decide
  have hQueues : (run annAtForm).map (fun s => (s.pending, s.served)) = some ([], []) := by decide
  have hAccounts : (run annAtForm).map (fun s => s.disk.accounts false) =
      some [annCall.account] := by decide
  rw [hRun, Option.map_some, Option.some.injEq] at hScreen hQueues hAccounts
  simp only [Prod.mk.injEq] at hScreen hQueues
  refine ⟨s, hRun, ⟨?_, ?_, ?_⟩, hQueues.1, s.ui.focused.key, st, annCall.account, ?_, rfl, ?_, ?_⟩
  · simp [Ui.names, Ui.stack, hScreen, Screen.name]
  · simp [hQueues]
  · simp [hQueues]
  · rw [← hScreen.1]
  · decide
  · rw [hAccounts]
    decide

theorem reachable_of_leads {s s' : State} (h : Reachable s) (hTo : Leads s s') :
    Reachable s' := by
  obtain ⟨xs, hXs⟩ := hTo
  exact h.exec hXs

/-- Any number of `HOME`s, and of submits that have still to be reported. -/
theorem piled (n k : Nat) : ∃ s, Reachable s ∧ Piled (homes (n + 1)) k s := by
  obtain ⟨s₀, hRun, hForm⟩ := atForm_ann
  obtain ⟨s₁, hTo₁, hForm₁⟩ := hForm.submits (k + n + 1)
  rw [Nat.zero_add] at hForm₁
  obtain ⟨s₂, hTo₂, hHome⟩ := hForm₁.piled.report
  obtain ⟨s₃, hTo₃, hPiled⟩ := Piled.pile (n := 0) hHome
  rw [Nat.zero_add] at hPiled
  exact ⟨s₃, reachable_of_leads ⟨annAtForm, hRun⟩ ((hTo₁.trans hTo₂).trans hTo₃), hPiled⟩

/-- **The stacks that there are.**  The names on the stack of a reachable state are those of
`Shape`, and each of them is reached.  `createTask` is taken as a handler that can be called,
as everywhere in `App.handle`: the view that `Home` returns has no element that calls it, and
the runs that its views offer stay with one screen, by `no_task_is_ever_opened`. -/
theorem stack_shapes (names : List RouteName) :
    (∃ s, Reachable s ∧ s.ui.names = names) ↔ Shape names := by
  constructor
  · rintro ⟨s, ⟨xs, hRun⟩, rfl⟩
    exact shape_of_run hRun
  · intro hShape
    cases hShape with
    | auth => exact ⟨init, ⟨[], rfl⟩, rfl⟩
    | home n =>
        obtain ⟨s, hReach, hPiled⟩ := piled n 0
        exact ⟨s, hReach, hPiled.names⟩
    | create n =>
        obtain ⟨s, hReach, hPiled⟩ := piled n 0
        obtain ⟨s', hTo, hCreate⟩ := hPiled.createTask
        exact ⟨s', reachable_of_leads hReach hTo, hCreate.names⟩
    | list n =>
        obtain ⟨s, hReach, hPiled⟩ := piled n 0
        obtain ⟨m, hTo, hCreate⟩ := hPiled.createTask
        obtain ⟨s', hTo', hList⟩ := hCreate.addMembers
        exact ⟨s', reachable_of_leads hReach (hTo.trans hTo'), hList.names⟩
    | homeOver n =>
        obtain ⟨s, hReach, hPiled⟩ := piled n 1
        obtain ⟨m, hTo, hCreate⟩ := hPiled.createTask
        obtain ⟨m', hTo', hList⟩ := hCreate.addMembers
        obtain ⟨s', hTo'', hOver⟩ := hList.report
        exact ⟨s', reachable_of_leads hReach ((hTo.trans hTo').trans hTo''), hOver.names⟩

end TaskManager.Runs
