import TaskManager.Runs.AccountStores

/-!
# Who is logged in

A session record is written by a Login submit, which copies it out of the list
it has read, or by a Signup submit, which builds it from its own form.
`pressLocal` ties every request in flight to the press it comes from, for every
order of steps.  The main result is `session_registered`: the record in
`USER_LOGGEDIN_KEY` is one that a Signup submit had stored under its own role,
and the submit that wrote the session was pressed with that email typed and the
switch on that role.

What a Login press proves about its password is in `Runs/Login.lean`.
-/

namespace TaskManager.Runs

open TaskManager.Verified.JsText
open TaskManager.Verified.EventLoop
open TaskManager.Shared
open TaskManager.Pages
open TaskManager.Routes
open TaskManager.App

/-! ## Submits -/

/-- One press of the button of `LOGIN` or `SIGNUP` whose form passed. -/
inductive Submit where
  | login (call : Login.Call)
  | signup (call : Signup.Call)
  deriving DecidableEq, Repr

namespace Submit

/-- The number of the press. -/
def id : Submit → Nat
  | .login call => call.id
  | .signup call => call.id

/-- The email typed at the press. -/
def email : Submit → JsString
  | .login call => call.email
  | .signup call => call.email

/-- The position of the role switch at the press. -/
def isAdmin : Submit → Bool
  | .login call => call.isAdmin
  | .signup call => call.isAdmin

end Submit

/-- The step is the press of the button: the values the handler closes over are
those of the form on the screen. -/
inductive Submits : State × Action → Submit → Prop
  | login {s : State} {st : Login.State} (hs : s.ui.focused.screen = .AUTH (.LOGIN st))
      (hAcc : st.accepted = true) :
      Submits (s, .user (.login .handleSubmit))
        (.login (st.call s.ui.focused.key s.ui.nextCall))
  | signup {s : State} {st : Signup.State}
      (hs : s.ui.focused.screen = .AUTH (.SIGNUP st)) (hAcc : st.accepted = true) :
      Submits (s, .user (.signup .handleSubmit))
        (.signup (st.call s.ui.focused.key s.ui.nextCall))

/-- The request by which a submit writes the session record. -/
inductive SessionRequest : Submit → Account → Await → Prop
  | login (call : Login.Call) (record : Account) :
      SessionRequest (.login call) record (.login (.setLoggedIn call record))
  | signup (call : Signup.Call) :
      SessionRequest (.signup call) call.account (.signup (.setLoggedIn call))

/-- The step performs the session write of a submit. -/
def WritesSession (p : State × Action) (submit : Submit) (record : Account) : Prop :=
  ∃ i a, p.2 = .serve i ∧ p.1.pending[i]? = some a ∧ SessionRequest submit record a

/-- The step performs a request on `USER_LOGGEDIN_KEY` that is not a read. -/
def TouchesSession (p : State × Action) : Prop :=
  ∃ i a, p.2 = .serve i ∧ p.1.pending[i]? = some a ∧ (sessionWrite a).isSome

/-- A request that writes a record belongs to a submit. -/
theorem sessionWrite_eq_some {a : Await} {record : Account}
    (h : sessionWrite a = some (some record)) :
    ∃ submit, SessionRequest submit record a := by
  unfold sessionWrite at h
  split at h
  · rename_i call record'
    simp only [Option.some.injEq] at h
    exact ⟨.login call, h ▸ .login call record'⟩
  · rename_i call
    simp only [Option.some.injEq] at h
    exact ⟨.signup call, h ▸ .signup call⟩
  · simp at h
  · simp at h

/-! ## What a submit in flight goes back to -/

/-- The submit was pressed in the history. -/
def PressedBefore (h : History) (submit : Submit) : Prop := ∃ p ∈ h, Submits p submit

/-- A press in the history stays there. -/
theorem PressedBefore.mono {h : History} {submit : Submit} (hs : PressedBefore h submit)
    (p : State × Action) : PressedBefore (h ++ [p]) submit := by
  obtain ⟨q, hq, hPress⟩ := hs
  exact ⟨q, List.mem_append_left _ hq, hPress⟩

/-- When the step performs the read of a Login submit, any account stored under
the typed email in the chosen role has the typed password. -/
def HonestLogin (p : State × Action) : Prop :=
  ∀ i call, p.2 = .serve i → p.1.pending[i]? = some (.login (.getUsers call)) →
    ∀ u ∈ p.1.disk.accounts call.isAdmin, u.email = call.email → u.password = call.password

/-- The Login submit whose read the step performs. -/
def loginRead (p : State × Action) : Option Login.Call :=
  match p.2 with
  | .serve i =>
      match p.1.pending[i]? with
      | some (.login (.getUsers call)) => some call
      | _ => none
  | _ => none

/-- An honest step, without the case of a step that reads no list. -/
theorem honestLogin_iff (p : State × Action) :
    HonestLogin p ↔ ∀ call ∈ loginRead p, ∀ u ∈ p.1.disk.accounts call.isAdmin,
      u.email = call.email → u.password = call.password := by
  constructor
  · intro h call hRead
    unfold loginRead at hRead
    split at hRead
    · rename_i i hServe
      split at hRead
      · rename_i call' hAt
        obtain rfl : call' = call := by simpa using hRead
        exact h i call' hServe hAt
      · simp at hRead
    · simp at hRead
  · intro h i call hServe hAt
    exact h call (by simp [loginRead, hServe, hAt])

instance (p : State × Action) : Decidable (HonestLogin p) :=
  decidable_of_iff _ (honestLogin_iff p).symm

/-- The condition on the whole run. -/
def AllHonest (h : History) : Prop := ∀ p ∈ h, HonestLogin p

theorem AllHonest.init {h : History} {p : State × Action} (hAll : AllHonest (h ++ [p])) :
    AllHonest h := fun q hq => hAll q (List.mem_append_left _ hq)

/-- Every request of a submit comes from a press, and the record a Login submit
is about to write matches the press. -/
def AwaitPressed (h : History) : Await → Prop
  | .login (.getUsers call) => PressedBefore h (.login call)
  | .login (.setLoggedIn call record) =>
      PressedBefore h (.login call) ∧ record.email = call.email ∧
        record.isAdmin = call.isAdmin ∧ (AllHonest h → record.password = call.password)
  | .signup (.getUsers call) => PressedBefore h (.signup call)
  | .signup (.setUsers call _) => PressedBefore h (.signup call)
  | .signup (.setLoggedIn call) => PressedBefore h (.signup call)
  | _ => True

/-- Every continuation of a submit comes from a press, and the accounts that a Login submit
has read are of its role. -/
def ReadyPressed (h : History) : Ready → Prop
  | .login (.getUsers call data) =>
      PressedBefore h (.login call) ∧
        ∀ u ∈ data.getD [], u.isAdmin = call.isAdmin ∧
          (AllHonest h → u.email = call.email → u.password = call.password)
  | .signup (.getUsers call _) => PressedBefore h (.signup call)
  | .signup (.setUsers call) => PressedBefore h (.signup call)
  | _ => True

theorem AwaitPressed.mono {h : History} {a : Await} (p : State × Action)
    (ha : AwaitPressed h a) : AwaitPressed (h ++ [p]) a := by
  unfold AwaitPressed at ha ⊢
  split
  · exact ha.mono p
  · obtain ⟨hPress, hEmail, hRole, hPass⟩ := ha
    exact ⟨hPress.mono p, hEmail, hRole, fun hAll => hPass hAll.init⟩
  · exact ha.mono p
  · exact ha.mono p
  · exact ha.mono p
  · trivial

theorem ReadyPressed.mono {h : History} {r : Ready} (p : State × Action)
    (hr : ReadyPressed h r) : ReadyPressed (h ++ [p]) r := by
  unfold ReadyPressed at hr ⊢
  split
  · obtain ⟨hPress, hData⟩ := hr
    refine ⟨hPress.mono p, fun u hu => ?_⟩
    exact ⟨(hData u hu).1, fun hAll => (hData u hu).2 hAll.init⟩
  · exact hr.mono p
  · exact hr.mono p
  · trivial

/-- What a submit is told of its list was read after its press. -/
theorem readyPressed_serve {h : History} {s : State} {i : Nat} {a : Await}
    (hStores : StoresOk s.disk) (hAt : s.pending[i]? = some a) (ha : AwaitPressed h a) :
    ReadyPressed (h ++ [(s, .serve i)]) (app.serve a s.disk).2 := by
  cases a with
  | login a =>
      cases a with
      | getUsers call =>
          refine ⟨ha.mono _, fun u hu => ⟨(hStores call.isAdmin).role u hu, fun hAll => ?_⟩⟩
          exact hAll (s, .serve i) (by simp) i call rfl hAt u hu
      | isUserLoggedIn key => trivial
      | setLoggedIn call record => trivial
  | signup a =>
      cases a with
      | getUsers call => exact ha.mono _
      | setUsers call data => exact ha.mono _
      | setLoggedIn call => trivial
  | home a => trivial
  | create a => trivial
  | list a => trivial

/-- A continuation issues requests for the submit whose answer it has. -/
theorem awaitPressed_of_continued {h : History} {r : Ready} {a : Await}
    (hNext : Continued r a) (hr : ReadyPressed h r) : AwaitPressed h a := by
  cases hNext with
  | loginUsers hUser hEmail =>
      obtain ⟨hPress, hData⟩ := hr
      obtain ⟨hRole, hPass⟩ := hData _ hUser
      exact ⟨hPress, hEmail, hRole, fun hAll => hPass hAll hEmail⟩
  | signupUsers _ => exact hr
  | signupSession => exact hr
  | listMembers _ => trivial

/-- A press issues requests for itself. -/
theorem awaitPressed_of_pressed {h : History} {s : State} {e : Event} {a : Await}
    (ha : Pressed s.ui e a) : AwaitPressed (h ++ [(s, .user e)]) a := by
  cases ha with
  | login hs _ hAcc => exact ⟨(s, _), by simp, .login hs hAcc⟩
  | signup hs hAcc => exact ⟨(s, _), by simp, .signup hs hAcc⟩
  | logout _ => trivial
  | handleBack _ => trivial
  | save _ => trivial

theorem awaitPressed_of_isLoad {h : History} {a : Await} (ha : IsLoad a) :
    AwaitPressed h a := by
  cases ha <;> trivial

/-- The presses behind everything in flight. -/
def pressLocal : Local app init where
  disk _ _ := True
  await := AwaitPressed
  ready := ReadyPressed
  disk_mono _ _ _ _ := trivial
  await_mono _ p _ ha := ha.mono p
  ready_mono _ p _ hr := hr.mono p
  init_disk := trivial
  init_await := by simp [init, AwaitPressed]
  init_ready := by simp [init]
  serve _ _ _ _ hReached hAt _ ha := by
    obtain ⟨xs, hRun, -⟩ := hReached
    exact ⟨trivial, readyPressed_serve (storesOk_run hRun) hAt ha⟩
  resume _ _ _ _ _ _ hr a ha :=
    (resume_awaits ha).elim awaitPressed_of_isLoad
      fun hNext => (awaitPressed_of_continued hNext hr).mono _
  handle _ _ _ _ _ hOut a ha :=
    (handle_awaits hOut ha).elim awaitPressed_of_isLoad awaitPressed_of_pressed
  launch _ _ a ha := awaitPressed_of_isLoad (isLoad_of_mem_launch ha)

/-! ## The origin of a session -/

/-- A submit is about to write a session record: it was pressed with the
record's email and role, and the record had been stored by a Signup submit. -/
structure Entitled (h : History) (submit : Submit) (record : Account) : Prop where
  registered : Registered h record
  pressed : PressedBefore h submit
  email : submit.email = record.email
  role : submit.isAdmin = record.isAdmin

/-- A session write that waits writes a record its submit is entitled to. -/
theorem entitled_of_pending {h : History} {s : State} (hReached : app.Reached init h s)
    {i : Nat} {a : Await} (hAt : s.pending[i]? = some a) {submit : Submit}
    {record : Account} (ha : SessionRequest submit record a) :
    Entitled h submit record := by
  obtain ⟨xs, hRun, rfl⟩ := hReached
  have hMem := List.mem_of_getElem? hAt
  have hFrom := (provenanceLocal.holds hRun).of_pending hMem
  have hPress := (pressLocal.holds hRun).of_pending hMem
  cases ha with
  | login call record =>
      obtain ⟨hPressed, hEmail, hRole, -⟩ := hPress
      exact ⟨hFrom, hPressed, hEmail.symm, hRole.symm⟩
  | signup call => exact ⟨hFrom, hPress, rfl, rfl⟩

/-- The session record has been written by a submit that was entitled to it,
and the entry has not been written since. -/
def SessionOrigin (h : History) (s : State) : Prop :=
  ∀ record, s.disk.userLoggedIn = some record →
    ∃ h₁ p h₂ submit, h = h₁ ++ p :: h₂ ∧ WritesSession p submit record ∧
      (∀ q ∈ h₂, ¬ TouchesSession q) ∧ Entitled h₁ submit record

/-- A step that leaves the session alone keeps its origin. -/
theorem SessionOrigin.later {h : History} {s s' : State} {x : Action}
    (hOrigin : SessionOrigin h s) (hSame : s'.disk.userLoggedIn = s.disk.userLoggedIn)
    (hNot : ¬ TouchesSession (s, x)) : SessionOrigin (h ++ [(s, x)]) s' := by
  intro record hRec
  rw [hSame] at hRec
  obtain ⟨h₁, p, h₂, submit, rfl, hWrites, hSince, hEntitled⟩ := hOrigin record hRec
  refine ⟨h₁, p, h₂ ++ [(s, x)], submit, by simp, hWrites, ?_, hEntitled⟩
  intro q hq
  rw [List.mem_append, List.mem_singleton] at hq
  rcases hq with hOld | rfl
  · exact hSince q hOld
  · exact hNot

/-- Serving a request leaves a session whose last write is in the history. -/
theorem SessionOrigin.serve {h : History} {s s' : State} {i : Nat} {a : Await}
    (hReached : app.Reached init h s) (hOrigin : SessionOrigin h s)
    (hAt : s.pending[i]? = some a) (hDisk : s'.disk = (app.serve a s.disk).1) :
    SessionOrigin (h ++ [(s, .serve i)]) s' := by
  cases hWrite : sessionWrite a with
  | none =>
      refine hOrigin.later (by rw [hDisk, userLoggedIn_serve, hWrite]; rfl) ?_
      rintro ⟨j, b, hj, hb, hTouch⟩
      obtain rfl : i = j := by simpa using hj
      obtain rfl : a = b := by simpa using hAt.symm.trans hb
      simp [hWrite] at hTouch
  | some v =>
      intro record hRec
      rw [hDisk, userLoggedIn_serve, hWrite, Option.getD_some] at hRec
      subst hRec
      obtain ⟨submit, hRequest⟩ := sessionWrite_eq_some hWrite
      exact ⟨h, (s, .serve i), [], submit, rfl, ⟨i, a, rfl, hAt, hRequest⟩, by simp,
        entitled_of_pending hReached hAt hRequest⟩

/-- In every run the session has been written by the last write of it. -/
theorem sessionOrigin_run {xs : List Action} {s : State} (hRun : run xs = some s) :
    SessionOrigin (app.trace init xs) s := by
  refine app.exec_induction (fun _ _ => True) SessionOrigin ?_ ?_
    (fun _ _ => trivial) hRun
  · intro record hRec
    simp [init] at hRec
  · intro h s x s' hReached _ hOrigin hx
    cases hx with
    | serve hAt => exact hOrigin.serve hReached hAt rfl
    | user _ => exact hOrigin.later rfl (by simp [TouchesSession])
    | effect _ => exact hOrigin.later rfl (by simp [TouchesSession])
    | resolve _ => exact hOrigin.later rfl (by simp [TouchesSession])
    | reject _ => exact hOrigin.later rfl (by simp [TouchesSession])
    | kill => exact hOrigin.later rfl (by simp [TouchesSession])

/-- **No session is forged or promoted.**  In every reachable state, the record
in `USER_LOGGEDIN_KEY` is the last one written there, by a submit that was
pressed with the record's email in the field and the switch on the record's
role; and before that a Signup submit had written the very same record to the
store of that role. -/
theorem session_registered (xs : List Action) (s : State) (hRun : run xs = some s)
    (record : Account) (hRec : s.disk.userLoggedIn = some record) :
    ∃ h₁ p h₂ submit, app.trace init xs = h₁ ++ p :: h₂ ∧
      WritesSession p submit record ∧ (∀ q ∈ h₂, ¬ TouchesSession q) ∧
      (∃ q ∈ h₁, ∃ call, StoresAccount q call ∧ call.account = record ∧
        call.isAdmin = record.isAdmin) ∧
      (∃ q ∈ h₁, Submits q submit) ∧
      submit.email = record.email ∧ submit.isAdmin = record.isAdmin := by
  obtain ⟨h₁, p, h₂, submit, hSplit, hWrites, hSince, hEntitled⟩ :=
    sessionOrigin_run hRun record hRec
  obtain ⟨q, hq, call, hStores, rfl⟩ := hEntitled.registered
  exact ⟨h₁, p, h₂, submit, hSplit, hWrites, hSince, ⟨q, hq, call, hStores, rfl, rfl⟩,
    hEntitled.pressed, hEntitled.email, hEntitled.role⟩

/-- The run of one Signup, whose session is the account it has stored. -/
theorem session_registered_ann :
    ∃ s, run annSignedUp = some s ∧ s.disk.userLoggedIn = some annCall.account ∧
      ∃ q ∈ app.trace init annSignedUp, ∃ call, StoresAccount q call ∧
        call.account = annCall.account := by
  obtain ⟨s, hRun⟩ := Option.isSome_iff_exists.mp
    (show (run annSignedUp).isSome = true by decide)
  have hSession : (run annSignedUp).bind (fun s => s.disk.userLoggedIn) =
      some annCall.account := by decide
  rw [hRun, Option.bind_some] at hSession
  obtain ⟨h₁, p, h₂, submit, hSplit, -, -, ⟨q, hq, call, hStores, hEq, -⟩, -⟩ :=
    session_registered annSignedUp s hRun annCall.account hSession
  exact ⟨s, hRun, hSession, q, by rw [hSplit]; exact List.mem_append_left _ hq, call,
    hStores, hEq⟩

end TaskManager.Runs
