import Mathlib.Data.List.Nodup
import TaskManager.App.Steps
import TaskManager.App.Scripts

/-!
# The account stores over whole runs

A Signup submit reads its role's list, refuses an email that is on it, and
writes the list it read back with the new account in front.  Two facts follow
for every order of steps, with refused requests and kills anywhere:

* `account_stores_wellFormed` — each list keeps distinct emails and holds
  records of its own role that passed the validators, however the submits
  overlap, since every list written is a list read plus one new email;
* `provenanceLocal` — every record in the stores, and every record a request
  carries, was written to a list by some submit of the run.

When such a record stays in its list is the subject of `Runs/KeptAccounts.lean`.
-/

namespace TaskManager.Runs

open TaskManager.Verified.JsText
open TaskManager.Verified.EventLoop
open TaskManager.Shared
open TaskManager.Pages
open TaskManager.Routes
open TaskManager.App

/-! ## Lists of accounts -/

/-- A list of accounts as the store of a role should hold it. -/
structure WellFormed (isAdmin : Bool) (list : List Account) : Prop where
  emails : (list.map fun u => u.email).Nodup
  role : ∀ u ∈ list, u.isAdmin = isAdmin
  email : ∀ u ∈ list, emailValid u.email = true
  password : ∀ u ∈ list, u.password ≠ []

/-- The empty list is a well-formed store of either role. -/
theorem WellFormed.nil (isAdmin : Bool) : WellFormed isAdmin [] := by
  constructor <;> simp

/-- What the validators have checked of a Signup press in flight. -/
structure Checked (call : Signup.Call) : Prop where
  email : emailValid call.email = true
  password : call.password ≠ []

/-- A checked account with a new email can be put in front. -/
theorem WellFormed.cons {call : Signup.Call} {list : List Account}
    (hList : WellFormed call.isAdmin list) (hCall : Checked call)
    (hNew : ∀ u ∈ list, u.email ≠ call.email) :
    WellFormed call.isAdmin (call.account :: list) where
  emails := by
    rw [List.map_cons, List.nodup_cons]
    refine ⟨?_, hList.emails⟩
    intro hMem
    obtain ⟨u, hu, hEq⟩ := List.mem_map.mp hMem
    exact hNew u hu hEq
  role := by
    simp only [List.forall_mem_cons]
    exact ⟨rfl, hList.role⟩
  email := by
    simp only [List.forall_mem_cons]
    exact ⟨hCall.email, hList.email⟩
  password := by
    simp only [List.forall_mem_cons]
    exact ⟨hCall.password, hList.password⟩

/-- Emails identify the records of a well-formed list. -/
theorem WellFormed.eq_of_email {isAdmin : Bool} {list : List Account}
    (hList : WellFormed isAdmin list) {u v : Account} (hu : u ∈ list) (hv : v ∈ list)
    (h : u.email = v.email) : u = v :=
  List.inj_on_of_nodup_map hList.emails hu hv h

/-! ## Every snapshot is well formed -/

/-- What a Signup submit carries while it waits: a form that passed, and a
well-formed list without its email. -/
def AwaitOk : Await → Prop
  | .signup (.getUsers call) => Checked call
  | .signup (.setUsers call data) =>
      Checked call ∧ WellFormed call.isAdmin data ∧ ∀ u ∈ data, u.email ≠ call.email
  | _ => True

/-- The list that a submit has read is well formed, and its form has passed. -/
def ReadyOk : Ready → Prop
  | .signup (.getUsers call data) => Checked call ∧ WellFormed call.isAdmin (data.getD [])
  | _ => True

/-- Both account lists are well formed. -/
def StoresOk (d : Disk) : Prop := ∀ isAdmin, WellFormed isAdmin (d.accounts isAdmin)

theorem awaitOk_of_isLoad {a : Await} (h : IsLoad a) : AwaitOk a := by
  cases h <;> trivial

/-- What a press has issued has been checked. -/
theorem awaitOk_of_pressed {ui : Ui} {e : Event} {a : Await} (h : Pressed ui e a) :
    AwaitOk a := by
  cases h with
  | signup hs hAcc =>
      obtain ⟨-, hEmail, hPass⟩ := (Signup.accepted_iff _).mp hAcc
      exact ⟨hEmail, hPass⟩
  | login _ _ _ => trivial
  | logout _ => trivial
  | handleBack _ => trivial
  | save _ => trivial

/-- A continuation writes an account only after it has looked for its email in vain. -/
theorem awaitOk_of_continued {r : Ready} {a : Await} (h : Continued r a)
    (hr : ReadyOk r) : AwaitOk a := by
  cases h with
  | signupUsers hNew => exact ⟨hr.1, hr.2, hNew⟩
  | loginUsers _ _ => trivial
  | signupSession => trivial
  | listMembers _ => trivial

/-- Serving a request keeps both stores well formed. -/
theorem storesOk_serve {a : Await} {d : Disk} (hd : StoresOk d) (ha : AwaitOk a) :
    StoresOk (app.serve a d).1 := by
  intro isAdmin
  obtain hSame | ⟨call, data, rfl, rfl, hList⟩ := accounts_serve_cases a d isAdmin
  · rw [hSame]
    exact hd isAdmin
  · obtain ⟨hCall, hData, hNew⟩ := ha
    rw [hList]
    exact hData.cons hCall hNew

/-- A list that is reported is the well-formed one that was read. -/
theorem readyOk_serve {a : Await} {d : Disk} (hd : StoresOk d) (ha : AwaitOk a) :
    ReadyOk (app.serve a d).2 := by
  cases a with
  | signup a =>
      cases a with
      | getUsers call => exact ⟨ha, hd call.isAdmin⟩
      | setUsers call data => trivial
      | setLoggedIn call => trivial
  | login a => trivial
  | home a => trivial
  | create a => trivial
  | list a => trivial

/-- The invariant of the stores, with what every request in flight carries. -/
def storesLocal : Local app init where
  disk _ d := StoresOk d
  await _ a := AwaitOk a
  ready _ r := ReadyOk r
  disk_mono _ _ _ h := h
  await_mono _ _ _ h := h
  ready_mono _ _ _ h := h
  init_disk isAdmin := by
    cases isAdmin <;> exact WellFormed.nil _
  init_await := by simp [init, AwaitOk]
  init_ready := by simp [init]
  serve _ _ _ _ _ _ hd ha := ⟨storesOk_serve hd ha, readyOk_serve hd ha⟩
  resume _ _ _ _ _ _ hr a ha :=
    (resume_awaits ha).elim awaitOk_of_isLoad fun h => awaitOk_of_continued h hr
  handle _ _ _ _ _ hOut a ha :=
    (handle_awaits hOut ha).elim awaitOk_of_isLoad awaitOk_of_pressed
  launch _ _ a ha := awaitOk_of_isLoad (isLoad_of_mem_launch ha)

/-- Both stores are well formed in every run. -/
theorem storesOk_run {xs : List Action} {s : State} (hRun : run xs = some s) :
    StoresOk s.disk :=
  (storesLocal.holds hRun).disk

/-- **The account stores stay well formed.**  Whatever the order of presses,
edits, completions, refusals and kills, the emails of each list are pairwise
distinct, its records are of its own role, and every record's email passes
`EMAIL_VALIDATION` and its password is not empty. -/
theorem account_stores_wellFormed (xs : List Action) (s : State)
    (hRun : run xs = some s) :
    ((s.disk.accounts true).map fun u => u.email).Nodup ∧
      ((s.disk.accounts false).map fun u => u.email).Nodup ∧
      (∀ u ∈ s.disk.accounts true, u.isAdmin = true) ∧
      (∀ u ∈ s.disk.accounts false, u.isAdmin = false) ∧
      ∀ isAdmin, ∀ u ∈ s.disk.accounts isAdmin,
        emailValid u.email = true ∧ u.password ≠ [] := by
  have h := storesOk_run hRun
  refine ⟨(h true).emails, (h false).emails, (h true).role, (h false).role, ?_⟩
  intro isAdmin u hu
  exact ⟨(h isAdmin).email u hu, (h isAdmin).password u hu⟩

/-- Ann signs up as a member. -/
def annSignedUp : List Action :=
  loaded ++ [openSignup] ++ fillSignup (js "ann@x.co") (js "pw") (js "Ann")
    ++ [pressSignup] ++ answered ++ answered ++ answered

/-- Ann's press. -/
def annCall : Signup.Call :=
  ⟨4, 1, js "ann@x.co", js "pw", js "Ann", false⟩

/-- Bob takes over Ann's form once her read has completed, and presses while
her list write is waiting.  His own list write comes after `HOME` is shown. -/
def annThenBob : List Action :=
  loaded ++ [openSignup] ++ fillSignup (js "ann@x.co") (js "pw") (js "Ann")
    ++ [pressSignup] ++ answered ++ fillSignup (js "bob@x.co") (js "pw") (js "Bob")
    ++ [pressSignup] ++ answered ++ answered ++ answered ++ answered

/-- Bob's press in `annThenBob`. -/
def bobCall : Signup.Call :=
  ⟨8, 1, js "bob@x.co", js "pw", js "Bob", false⟩

/-- The run of two submits, whose store holds both accounts. -/
theorem account_stores_wellFormed_ann :
    ∃ s, run annThenBob = some s ∧
      s.disk.accounts false = [bobCall.account, annCall.account] ∧
      ((s.disk.accounts false).map fun u => u.email).Nodup ∧
      ∀ u ∈ s.disk.accounts false,
        u.isAdmin = false ∧ emailValid u.email = true ∧ u.password ≠ [] := by
  obtain ⟨s, hRun⟩ := Option.isSome_iff_exists.mp
    (show (run annThenBob).isSome = true by decide)
  have hTwo : (run annThenBob).map (fun s => s.disk.accounts false) =
      some [bobCall.account, annCall.account] := by decide
  obtain ⟨-, hEmails, -, hRole, hRecords⟩ := account_stores_wellFormed annThenBob s hRun
  exact ⟨s, hRun, seen_of_run hRun hTwo, hEmails, fun u hu => ⟨hRole u hu, hRecords false u hu⟩⟩

/-! ## Where the accounts come from -/

/-- A step that performs the store write of a Signup press. -/
def StoresAccount (p : State × Action) (call : Signup.Call) : Prop :=
  ∃ i data, p.2 = .serve i ∧ p.1.pending[i]? = some (.signup (.setUsers call data))

/-- Some Signup press has written `u` to the store of the role that `u`
names. -/
def Registered (h : History) (u : Account) : Prop :=
  ∃ p ∈ h, ∃ call, StoresAccount p call ∧ call.account = u

/-- A write in the history stays there. -/
theorem Registered.mono {h : History} {u : Account} (hu : Registered h u)
    (p : State × Action) : Registered (h ++ [p]) u := by
  obtain ⟨q, hq, hWrote⟩ := hu
  exact ⟨q, List.mem_append_left _ hq, hWrote⟩

/-- The records a request carries come from Signup presses. -/
def AwaitRegistered (h : History) : Await → Prop
  | .login (.setLoggedIn _ record) => Registered h record
  | .signup (.setUsers _ data) => ∀ u ∈ data, Registered h u
  | .signup (.setLoggedIn call) => Registered h call.account
  | _ => True

/-- The records a continuation has read, or goes on to write, come from Signup presses. -/
def ReadyRegistered (h : History) : Ready → Prop
  | .login (.getUsers _ data) => ∀ u ∈ data.getD [], Registered h u
  | .signup (.getUsers _ data) => ∀ u ∈ data.getD [], Registered h u
  | .signup (.setUsers call) => Registered h call.account
  | _ => True

/-- So do the accounts in the store. -/
def StoresRegistered (h : History) (d : Disk) : Prop :=
  ∀ isAdmin, ∀ u ∈ d.accounts isAdmin, Registered h u

theorem AwaitRegistered.mono {h : History} {a : Await} (p : State × Action)
    (ha : AwaitRegistered h a) : AwaitRegistered (h ++ [p]) a := by
  unfold AwaitRegistered at ha ⊢
  split
  · exact ha.mono p
  · exact fun u hu => (ha u hu).mono p
  · exact ha.mono p
  · trivial

theorem ReadyRegistered.mono {h : History} {r : Ready} (p : State × Action)
    (hr : ReadyRegistered h r) : ReadyRegistered (h ++ [p]) r := by
  unfold ReadyRegistered at hr ⊢
  split
  · exact fun u hu => (hr u hu).mono p
  · exact fun u hu => (hr u hu).mono p
  · exact hr.mono p
  · trivial

/-- A list write puts in front an account that it has itself written. -/
theorem storesRegistered_serve {h : History} {s : State} {i : Nat} {a : Await}
    (hAt : s.pending[i]? = some a) (hd : StoresRegistered h s.disk)
    (ha : AwaitRegistered h a) :
    StoresRegistered (h ++ [(s, .serve i)]) (app.serve a s.disk).1 := by
  intro isAdmin u hu
  obtain hSame | ⟨call, data, rfl, -, hList⟩ := accounts_serve_cases a s.disk isAdmin
  · rw [hSame] at hu
    exact (hd isAdmin u hu).mono _
  · rw [hList, List.mem_cons] at hu
    rcases hu with rfl | hOld
    · exact ⟨(s, .serve i), by simp, call, ⟨i, data, rfl, hAt⟩, rfl⟩
    · exact (ha u hOld).mono _

theorem readyRegistered_serve {h : History} {s : State} {i : Nat} {a : Await}
    (hAt : s.pending[i]? = some a) (hd : StoresRegistered h s.disk) :
    ReadyRegistered (h ++ [(s, .serve i)]) (app.serve a s.disk).2 := by
  cases a with
  | login a =>
      cases a with
      | getUsers call => exact fun u hu => (hd call.isAdmin u hu).mono _
      | isUserLoggedIn key => trivial
      | setLoggedIn call record => trivial
  | signup a =>
      cases a with
      | getUsers call => exact fun u hu => (hd call.isAdmin u hu).mono _
      | setUsers call data =>
          exact ⟨(s, .serve i), by simp, call, ⟨i, data, rfl, hAt⟩, rfl⟩
      | setLoggedIn call => trivial
  | home a => trivial
  | create a => trivial
  | list a => trivial

/-- A continuation passes on the list that was reported to it. -/
theorem awaitRegistered_of_continued {h : History} {r : Ready} {a : Await}
    (hNext : Continued r a) (hr : ReadyRegistered h r) : AwaitRegistered h a := by
  cases hNext with
  | loginUsers hUser _ => exact hr _ hUser
  | signupUsers _ => exact hr
  | signupSession => exact hr
  | listMembers _ => trivial

theorem awaitRegistered_of_isLoad {h : History} {a : Await} (ha : IsLoad a) :
    AwaitRegistered h a := by
  cases ha <;> trivial

theorem awaitRegistered_of_pressed {h : History} {ui : Ui} {e : Event} {a : Await}
    (ha : Pressed ui e a) : AwaitRegistered h a := by
  cases ha <;> trivial

/-- The provenance of every record in the stores and in flight. -/
def provenanceLocal : Local app init where
  disk := StoresRegistered
  await := AwaitRegistered
  ready := ReadyRegistered
  disk_mono _ p _ hd := fun isAdmin u hu => (hd isAdmin u hu).mono p
  await_mono _ p _ ha := ha.mono p
  ready_mono _ p _ hr := hr.mono p
  init_disk := by
    intro isAdmin u hu
    cases isAdmin <;> simp [init, Disk.accounts, Disk.getUsers] at hu
  init_await := by simp [init, AwaitRegistered]
  init_ready := by simp [init]
  serve _ _ _ _ _ hAt hd ha :=
    ⟨storesRegistered_serve hAt hd ha, readyRegistered_serve hAt hd⟩
  resume _ _ _ _ _ _ hr a ha :=
    (resume_awaits ha).elim awaitRegistered_of_isLoad
      fun hNext => (awaitRegistered_of_continued hNext hr).mono _
  handle _ _ _ _ _ hOut a ha :=
    (handle_awaits hOut ha).elim awaitRegistered_of_isLoad awaitRegistered_of_pressed
  launch _ _ a ha := awaitRegistered_of_isLoad (isLoad_of_mem_launch ha)

end TaskManager.Runs
