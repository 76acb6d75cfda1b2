import TaskManager.App.Operations
import TaskManager.Runs.AccountStores
import TaskManager.Shared.Email

/-!
# What the forms let through

Both forms check a field with `handleValidation` and refuse to submit while one
is rejected.  The email check is the same in both, and accepts exactly the
addresses of `Shared/Email.lean` (`email_accepted_iff`).  Signup's guard does
not look at the name, so its third check takes no part in the decision:

* `validation_enforced` — exactly when a submit of the form does what its three
  checks demand, and what that makes of the account stores over whole runs;
* `short_name_stored` — a submit with an empty name that stores an account.
-/

namespace TaskManager.Runs

open TaskManager.Verified.JsText
open TaskManager.Verified.EventLoop
open TaskManager.Shared
open TaskManager.Pages
open TaskManager.Routes
open TaskManager.App

/-! ## The email field -/

theorem email_isValid (s : JsString) : (!(s.isEmpty || !emailValid s)) = emailValid s := by
  cases s with
  | nil => decide
  | cons u us => simp

/-- **The email check accepts exactly its grammar.**  The pattern, matched with
backtracking, agrees on every string with the scan from left to right, what is
accepted has its parts in one way only, and both forms accept exactly that. -/
theorem email_accepted_iff (s : JsString) :
    (emailValid s = true ↔ (scan s).accepts = true) ∧
      ((scan s).accepts = true ↔ ∃! a : Address, a.text = s) ∧
      ((Login.handleValidation s .EMAIL).isValid = true ↔ (scan s).accepts = true) ∧
      ((Signup.handleValidation s .EMAIL).isValid = true ↔ (scan s).accepts = true) := by
  have hScan : emailValid s = true ↔ (scan s).accepts = true := by
    rw [emailValid_iff, scan_accepts_iff]
  refine ⟨hScan, ?_, ?_, ?_⟩
  · rw [scan_accepts_iff]
    constructor
    · rintro ⟨a, ha⟩
      exact ⟨a, ha, fun b hb => Address.text_injective (hb.trans ha.symm)⟩
    · rintro ⟨a, ha, -⟩
      exact ⟨a, ha⟩
  · rw [Login.handleValidation, Field.check_isValid, email_isValid]
    exact hScan
  · rw [Signup.handleValidation, Field.check_isValid, email_isValid]
    exact hScan

/-! ## A Signup submit -/

/-- The text input of each kind. -/
def field (st : Signup.State) : FieldType → Field
  | .EMAIL => st.email
  | .PASSWORD => st.password
  | .NAME => st.name

/-- What the form's own check says of a field. -/
def verdict (st : Signup.State) (t : FieldType) : Field :=
  Signup.handleValidation (field st t).val t

/-- The error text under a field. -/
def shownError (f : Field) : Option String := if f.isValid then none else some f.errMsg

/-- The submit of the form `st`, pressed in `s` and completed in `s'`, did what the
three checks demand. -/
structure Enforced (st : Signup.State) (s s' : State) : Prop where
  writes : s'.disk ≠ s.disk → ∀ t, (verdict st t).isValid = true
  rejects : (∃ t, (verdict st t).isValid = false) →
    s'.disk = s.disk ∧ labels s'.ui = labels s.ui ∧
      ∃ st', s'.ui.focused.screen = .AUTH (.SIGNUP st') ∧
        ∀ t, shownError (field st' t) = shownError (verdict st t)

/-- The name is checked in effect: it passes, or one of the other checks stops the
submit, or the email turns out to be taken while the name is still marked from an
earlier submit. -/
def Guarded (st : Signup.State) (d : Disk) : Prop :=
  (verdict st .NAME).isValid = true ∨ (verdict st .EMAIL).isValid = false ∨
    (verdict st .PASSWORD).isValid = false ∨
    ((∃ u ∈ d.accounts st.isAdmin, u.email = st.email.val) ∧
      ∀ t, shownError (field st t) = shownError (verdict st t))

theorem valid_iff (st : Signup.State) :
    (∀ t, (verdict st t).isValid = true) ↔
      st.accepted = true ∧ (verdict st .NAME).isValid = true := by
  rw [Signup.State.accepted, Bool.and_eq_true]
  constructor
  · intro h
    exact ⟨⟨h .EMAIL, h .PASSWORD⟩, h .NAME⟩
  · rintro ⟨⟨hEmail, hPassword⟩, hName⟩ (_ | _ | _)
    · exact hEmail
    · exact hPassword
    · exact hName

/-- A submit that is refused marks the fields as the checks say. -/
theorem exec_refused {s : State} {st : Signup.State}
    (hScreen : s.ui.focused.screen = .AUTH (.SIGNUP st)) (hRefused : st.accepted = false) :
    ∃ s', app.exec s [pressSignup] = some s' ∧ s'.pending = s.pending ∧ s'.disk = s.disk ∧
      labels s'.ui = labels s.ui ∧
        s'.ui.focused.screen = .AUTH (.SIGNUP { st with
          email := verdict st .EMAIL
          password := verdict st .PASSWORD
          name := verdict st .NAME }) := by
  let out : Ui × Issued Await :=
    ((counted s.ui).modify s.ui.focused.key (Screen.onSignup fun st' => { st' with
      email := verdict st .EMAIL
      password := verdict st .PASSWORD
      name := verdict st .NAME }), {})
  have hHandle : app.handle (.signup .handleSubmit) s.ui = some out := by
    simp [app, App.handle, hScreen, Signup.handle, Signup.handleSubmit_rejected hRefused,
      perform_eq, moved, verdict, field, out]
  refine ⟨s.issue out, ?_, List.append_nil _, rfl, labels_modify _ _ (name_onSignup _), ?_⟩
  · rw [app.exec_cons, pressSignup, Program.step, hHandle]
    rfl
  · simp [State.issue, out, Ui.modify, counted, hScreen, Screen.onSignup]

/-- A submit that passes the guard and finds its email taken. -/
theorem exec_taken {s : State} {st : Signup.State} (hPending : s.pending = [])
    (hServed : s.served = []) (hScreen : s.ui.focused.screen = .AUTH (.SIGNUP st))
    (hAcc : st.accepted = true)
    (hTaken : ∃ u ∈ s.disk.accounts st.isAdmin, u.email = st.email.val) :
    ∃ s', app.exec s (pressSignup :: answers Event 1) = some s' ∧ s'.pending = [] ∧
      s'.disk = s.disk ∧ labels s'.ui = labels s.ui ∧
        s'.ui.focused.screen = .AUTH (.SIGNUP { st with error := "User already added" }) := by
  let call := st.call s.ui.focused.key s.ui.nextCall
  have hPress : Pressed s.ui (.signup .handleSubmit) (.signup (.getUsers call)) :=
    .signup hScreen hAcc
  have hTaken' : ∃ u ∈ s.disk.accounts call.isAdmin, u.email = call.email := hTaken
  have hAnswer := signup_refused hTaken'
  have hEnd : app.Completed (begun s (.signup (.getUsers call))) 1 _ :=
    .answer (pending_begun hPending _) (.done (by rw [hAnswer]))
  obtain ⟨hRun, hDone⟩ := exec_completed hPress (by simp) hPending hServed hEnd
  rw [hAnswer] at hRun
  refine ⟨_, hRun, rfl, rfl, labels_modify _ _ (name_onSignup _), ?_⟩
  simp [Ui.modify, counted, hScreen, Screen.onSignup, call, Signup.State.call]

/-- A submit that passes the guard and finds its email new stores an account. -/
theorem exec_stored {s : State} {st : Signup.State} (hPending : s.pending = [])
    (hServed : s.served = []) (hScreen : s.ui.focused.screen = .AUTH (.SIGNUP st))
    (hAcc : st.accepted = true)
    (hNew : ∀ u ∈ s.disk.accounts st.isAdmin, u.email ≠ st.email.val) :
    ∃ s', app.exec s (pressSignup :: answers Event 3) = some s' ∧ s'.pending = [] ∧
      s'.disk ≠ s.disk := by
  let call := st.call s.ui.focused.key s.ui.nextCall
  have hPress : Pressed s.ui (.signup .handleSubmit) (.signup (.getUsers call)) :=
    .signup hScreen hAcc
  have hNew' : ∀ u ∈ s.disk.accounts call.isAdmin, u.email ≠ call.email := hNew
  have hRead := GoesOn.answer (s := begun s (.signup (.getUsers call))) (goesOn_signup hNew')
  have hEnd : app.Completed (begun s (.signup (.getUsers call))) 3 _ :=
    .answer (pending_begun hPending _) (.answer (by rw [hRead])
      (.answer (Program.pending_answer _ _ _) (.done (Program.pending_answer _ _ _))))
  obtain ⟨hRun, hDone⟩ := exec_completed hPress (by simp) hPending hServed hEnd
  refine ⟨_, hRun, hDone, fun hSame => ?_⟩
  rw [hRead] at hSame
  have hStored : ({ s.disk.setUsers call.isAdmin
        (call.account :: s.disk.accounts call.isAdmin) with
      userLoggedIn := some call.account } : Disk) = s.disk := hSame
  have hLonger := congrArg (fun d => (d.accounts call.isAdmin).length) hStored
  cases hRole : call.isAdmin <;>
    simp [hRole, Disk.accounts, Disk.getUsers, Disk.setUsers] at hLonger

/-- One submit, whatever the form and the store: it completes, and does what the
checks demand exactly when the name is checked in effect. -/
theorem submit_enforced {s : State} {st : Signup.State} (hPending : s.pending = [])
    (hServed : s.served = []) (hScreen : s.ui.focused.screen = .AUTH (.SIGNUP st)) :
    ∃ n s', app.exec s (pressSignup :: answers Event n) = some s' ∧ s'.pending = [] ∧
      (Enforced st s s' ↔ Guarded st s.disk) := by
  cases hAcc : st.accepted with
  | false =>
      obtain ⟨s', hRun, hQueue, hDisk, hLabels, hMarked⟩ := exec_refused hScreen hAcc
      refine ⟨0, s', hRun, hQueue.trans hPending, iff_of_true ?_ ?_⟩
      · refine ⟨fun hWrite => absurd hDisk hWrite, fun _ => ⟨hDisk, hLabels, _, hMarked, ?_⟩⟩
        rintro (_ | _ | _) <;> rfl
      · rw [Signup.State.accepted, Bool.and_eq_false_iff] at hAcc
        exact Or.inr (hAcc.imp id Or.inl)
  | true =>
      have hValid : (∀ t, (verdict st t).isValid = true) ↔ (verdict st .NAME).isValid = true := by
        rw [valid_iff, and_iff_right hAcc]
      have hChecks := hAcc
      rw [Signup.State.accepted, Bool.and_eq_true] at hChecks
      by_cases hTaken : ∃ u ∈ s.disk.accounts st.isAdmin, u.email = st.email.val
      · obtain ⟨s', hRun, hDone, hDisk, hLabels, hSame⟩ :=
          exec_taken hPending hServed hScreen hAcc hTaken
        refine ⟨1, s', hRun, hDone, ?_⟩
        constructor
        · intro h
          cases hName : (verdict st .NAME).isValid with
          | true => exact Or.inl hName
          | false =>
              obtain ⟨-, -, st', hShown, hMarks⟩ := h.rejects ⟨.NAME, hName⟩
              rw [hSame, Screen.AUTH.injEq, AuthScreen.SIGNUP.injEq] at hShown
              subst hShown
              refine Or.inr (Or.inr (Or.inr ⟨hTaken, fun t => ?_⟩))
              rw [← hMarks t]
              cases t <;> rfl
        · intro h
          refine ⟨fun hWrite => absurd hDisk hWrite, fun hRejected => ?_⟩
          refine ⟨hDisk, hLabels, _, hSame, ?_⟩
          rcases h with hName | hEmail | hPassword | ⟨-, hMarks⟩
          · obtain ⟨t, ht⟩ := hRejected
            rw [hValid.mpr hName t] at ht
            simp at ht
          · exact absurd (hChecks.1.symm.trans hEmail) (by simp)
          · exact absurd (hChecks.2.symm.trans hPassword) (by simp)
          · intro t
            rw [← hMarks t]
            cases t <;> rfl
      · have hNew : ∀ u ∈ s.disk.accounts st.isAdmin, u.email ≠ st.email.val :=
          fun u hu hEmail => hTaken ⟨u, hu, hEmail⟩
        obtain ⟨s', hRun, hDone, hWrite⟩ := exec_stored hPending hServed hScreen hAcc hNew
        refine ⟨3, s', hRun, hDone, ?_⟩
        constructor
        · intro h
          exact Or.inl (h.writes hWrite .NAME)
        · rintro (hName | hEmail | hPassword | ⟨hFound, -⟩)
          · refine ⟨fun _ => hValid.mpr hName, ?_⟩
            rintro ⟨t, ht⟩
            rw [hValid.mpr hName t] at ht
            simp at ht
          · exact absurd (hChecks.1.symm.trans hEmail) (by simp)
          · exact absurd (hChecks.2.symm.trans hPassword) (by simp)
          · exact absurd hFound hTaken

/-! ## The names in the stores -/

/-- The Signup submit whose read the step performs. -/
def readOf (p : State × Action) : Option Signup.Call :=
  match p.2 with
  | .serve i =>
      match p.1.pending[i]? with
      | some (.signup (.getUsers call)) => some call
      | _ => none
  | _ => none

/-- A submit that reads the store has a name that passes the check, or an email
that is taken. -/
def NamedRead (p : State × Action) : Prop :=
  ∀ call ∈ readOf p, (Signup.handleValidation call.name .NAME).isValid = true ∨
    ∃ u ∈ p.1.disk.accounts call.isAdmin, u.email = call.email

instance (p : State × Action) : Decidable (NamedRead p) :=
  inferInstanceAs (Decidable (∀ call ∈ readOf p,
    (Signup.handleValidation call.name .NAME).isValid = true ∨
      ∃ u ∈ p.1.disk.accounts call.isAdmin, u.email = call.email))

theorem name_isValid (val : JsString) :
    (Signup.handleValidation val .NAME).isValid = true ↔ 3 ≤ val.length := by
  cases val with
  | nil => simp [Signup.handleValidation]
  | cons u us => simp [Signup.handleValidation]

/-- Long enough to be a name. -/
def AllNamed (list : List Account) : Prop := ∀ u ∈ list, 3 ≤ u.name.length

/-- What a submit carries from its read on: names that passed. -/
def AwaitNamed : Await → Prop
  | .signup (.setUsers call data) => 3 ≤ call.name.length ∧ AllNamed data
  | _ => True

/-- What a submit has read has names, and its own is one, or its email is taken. -/
def ReadyNamed : Ready → Prop
  | .signup (.getUsers call data) =>
      AllNamed (data.getD []) ∧
        (3 ≤ call.name.length ∨ ∃ u ∈ data.getD [], u.email = call.email)
  | _ => True

/-- All stored accounts have names. -/
def StoresNamed (d : Disk) : Prop := ∀ isAdmin, AllNamed (d.accounts isAdmin)

theorem awaitNamed_of_isLoad {a : Await} (h : IsLoad a) : AwaitNamed a := by
  cases h <;> trivial

theorem awaitNamed_of_pressed {ui : Ui} {e : Event} {a : Await} (h : Pressed ui e a) :
    AwaitNamed a := by
  cases h <;> trivial

theorem awaitNamed_of_continued {r : Ready} {a : Await} (h : Continued r a)
    (hr : ReadyNamed r) : AwaitNamed a := by
  cases h with
  | signupUsers hNew =>
      obtain ⟨hData, hName | ⟨u, hu, hEmail⟩⟩ := hr
      · exact ⟨hName, hData⟩
      · exact absurd hEmail (hNew u hu)
  | loginUsers _ _ => trivial
  | signupSession => trivial
  | listMembers _ => trivial

theorem storesNamed_serve {a : Await} {d : Disk} (hd : StoresNamed d) (ha : AwaitNamed a) :
    StoresNamed (app.serve a d).1 := by
  intro isAdmin
  obtain hSame | ⟨call, data, rfl, -, hList⟩ := accounts_serve_cases a d isAdmin
  · rw [hSame]
    exact hd isAdmin
  · rw [hList]
    exact List.forall_mem_cons.mpr ha

theorem readyNamed_serve {s : State} {i : Nat} {a : Await} (hAt : s.pending[i]? = some a)
    (hRead : NamedRead (s, .serve i)) (hd : StoresNamed s.disk) :
    ReadyNamed (app.serve a s.disk).2 := by
  cases a with
  | signup a =>
      cases a with
      | getUsers call =>
          refine ⟨hd call.isAdmin, ?_⟩
          rw [← name_isValid]
          exact hRead call (by simp [readOf, hAt])
      | setUsers call data => trivial
      | setLoggedIn call => trivial
  | login a => trivial
  | home a => trivial
  | create a => trivial
  | list a => trivial

/-- The names in the stores and in flight, as long as every read has met the
condition. -/
def namesLocal : Local app init where
  disk h d := (∀ p ∈ h, NamedRead p) → StoresNamed d
  await h a := (∀ p ∈ h, NamedRead p) → AwaitNamed a
  ready h r := (∀ p ∈ h, NamedRead p) → ReadyNamed r
  disk_mono _ _ _ hd hOk := hd fun q hq => hOk q (List.mem_append_left _ hq)
  await_mono _ _ _ ha hOk := ha fun q hq => hOk q (List.mem_append_left _ hq)
  ready_mono _ _ _ hr hOk := hr fun q hq => hOk q (List.mem_append_left _ hq)
  init_disk _ isAdmin := by
    cases isAdmin <;> simp [AllNamed, init, Disk.accounts, Disk.getUsers]
  init_await := by simp [init, AwaitNamed]
  init_ready := by simp [init]
  serve h s i a _ hAt hd ha := by
    have hBefore : (∀ p ∈ h ++ [(s, Verified.EventLoop.Action.serve i)], NamedRead p) →
        ∀ p ∈ h, NamedRead p := fun hOk p hp => hOk p (List.mem_append_left _ hp)
    refine ⟨fun hOk => storesNamed_serve (hd (hBefore hOk)) (ha (hBefore hOk)), fun hOk => ?_⟩
    exact readyNamed_serve hAt (hOk _ (by simp)) (hd (hBefore hOk))
  resume _ _ _ _ _ _ hr a ha hOk :=
    (resume_awaits ha).elim awaitNamed_of_isLoad fun hNext =>
      awaitNamed_of_continued hNext (hr fun q hq => hOk q (List.mem_append_left _ hq))
  handle _ _ _ _ _ hOut a ha _ :=
    (handle_awaits hOut ha).elim awaitNamed_of_isLoad awaitNamed_of_pressed
  launch _ _ a ha _ := awaitNamed_of_isLoad (isLoad_of_mem_launch ha)

/-- **When only valid forms create accounts.**  A single submit completes, and
does what its three checks demand exactly when the name is checked in effect.
In a run whose submits all have a name that passes, or an email that is taken,
when they read the store, the stores never hold a record that fails a check. -/
theorem validation_enforced (s : State) (st : Signup.State) (hPending : s.pending = [])
    (hServed : s.served = []) (hScreen : s.ui.focused.screen = .AUTH (.SIGNUP st)) :
    (∃ n s', app.exec s (pressSignup :: answers Event n) = some s' ∧ s'.pending = [] ∧
      (Enforced st s s' ↔ Guarded st s.disk)) ∧
    ∀ (xs : List Action) (t : State), run xs = some t →
      (∀ p ∈ app.trace init xs, NamedRead p) →
      ∀ isAdmin, ∀ u ∈ t.disk.accounts isAdmin,
        3 ≤ u.name.length ∧ u.password ≠ [] ∧ emailValid u.email = true := by
  refine ⟨submit_enforced hPending hServed hScreen, ?_⟩
  intro xs t hRun hOk isAdmin u hu
  have hStores := storesOk_run hRun isAdmin
  exact ⟨(namesLocal.holds hRun).disk hOk isAdmin u hu, hStores.password u hu,
    hStores.email u hu⟩

/-- Ann has filled in the form. -/
def annFormFilled : List Action :=
  loaded ++ [openSignup] ++ fillSignup (js "ann@x.co") (js "pw") (js "Ann")

theorem validation_enforced_ann :
    ∃ s st n s' t u, run annFormFilled = some s ∧
      s.ui.focused.screen = .AUTH (.SIGNUP st) ∧
      app.exec s (pressSignup :: answers Event n) = some s' ∧
      (Enforced st s s' ↔ Guarded st s.disk) ∧
      run annSignedUp = some t ∧ u ∈ t.disk.accounts false ∧ 3 ≤ u.name.length := by
  obtain ⟨s, hRun⟩ := Option.isSome_iff_exists.mp
    (show (run annFormFilled).isSome = true by decide)
  obtain ⟨t, hDone⟩ := Option.isSome_iff_exists.mp
    (show (run annSignedUp).isSome = true by decide)
  let st : Signup.State :=
    { email := .typed (js "ann@x.co"), password := .typed (js "pw"), name := .typed (js "Ann") }
  have hState : (run annFormFilled).map
      (fun s => (s.pending, s.served, s.ui.focused.screen)) =
        some ([], [], .AUTH (.SIGNUP st)) := by
    decide
  have hStored : (run annSignedUp).map (fun s => s.disk.accounts false) =
      some [annCall.account] := by
    decide
  rw [hRun, Option.map_some, Option.some.injEq, Prod.mk.injEq, Prod.mk.injEq] at hState
  rw [hDone, Option.map_some, Option.some.injEq] at hStored
  obtain ⟨⟨n, s', hExec, -, hIff⟩, hStores⟩ :=
    validation_enforced s st hState.1 hState.2.1 hState.2.2
  have hIn : annCall.account ∈ t.disk.accounts false := by simp [hStored]
  exact ⟨s, st, n, s', t, annCall.account, hRun, hState.2.2, hExec, hIff, hDone, hIn,
    (hStores annSignedUp t hDone (by decide) false _ hIn).1⟩

/-- Ann leaves the name empty. -/
def annUnnamed : List Action :=
  loaded ++ [openSignup] ++ fillSignup (js "ann@x.co") (js "pw") []

/-- The form is submitted all the same, and an account without a name is stored. -/
theorem short_name_stored :
    (¬ ∀ (s : State) (st : Signup.State) (n : Nat) (s' : State), Reachable s →
      s.pending = [] → s.served = [] → s.ui.focused.screen = .AUTH (.SIGNUP st) →
      app.exec s (pressSignup :: answers Event n) = some s' → s'.pending = [] →
      Enforced st s s') ∧
    ¬ ∀ (xs : List Action) (s : State), run xs = some s →
      ∀ isAdmin, ∀ u ∈ s.disk.accounts isAdmin,
        3 ≤ u.name.length ∧ u.password ≠ [] ∧ emailValid u.email = true := by
  obtain ⟨s, hRun⟩ := Option.isSome_iff_exists.mp
    (show (run annUnnamed).isSome = true by decide)
  obtain ⟨s', hRun'⟩ := Option.isSome_iff_exists.mp
    (show (run (annUnnamed ++ pressSignup :: answers Event 3)).isSome = true by decide)
  have hExec : app.exec s (pressSignup :: answers Event 3) = some s' := by
    obtain ⟨m, hm, hExec⟩ := app.exec_append_some hRun'
    rw [show app.exec init annUnnamed = some s from hRun, Option.some.injEq] at hm
    exact hm ▸ hExec
  let st : Signup.State :=
    { email := .typed (js "ann@x.co"), password := .typed (js "pw"), name := .typed [] }
  let u : Account := { annCall.account with name := [] }
  have hBefore : (run annUnnamed).map
      (fun s => (s.pending, s.served, s.ui.focused.screen, s.disk)) =
        some ([], [], .AUTH (.SIGNUP st), {}) := by
    decide
  have hAfter : (run (annUnnamed ++ pressSignup :: answers Event 3)).map
      (fun s => (s.pending, s.disk)) =
        some ([], { userMember := some [u], userLoggedIn := some u }) := by
    decide
  rw [hRun, Option.map_some, Option.some.injEq, Prod.mk.injEq, Prod.mk.injEq, Prod.mk.injEq]
    at hBefore
  rw [hRun', Option.map_some, Option.some.injEq, Prod.mk.injEq] at hAfter
  obtain ⟨hPending, hServed, hScreen, hDisk⟩ := hBefore
  constructor
  · intro h
    have hEnforced := h s st 3 s' ⟨annUnnamed, hRun⟩ hPending hServed hScreen hExec hAfter.1
    have hName := hEnforced.writes (by rw [hAfter.2, hDisk]; simp) .NAME
    exact absurd hName (by decide)
  · intro h
    have hIn : u ∈ s'.disk.accounts false := by simp [hAfter.2, Disk.accounts, Disk.getUsers]
    have hLong := (h _ s' hRun' false u hIn).1
    exact absurd hLong (by decide)

end TaskManager.Runs
