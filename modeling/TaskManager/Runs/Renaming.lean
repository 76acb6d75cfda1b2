import Mathlib.Logic.Equiv.Basic
import TaskManager.App.PageMaps
import TaskManager.App.Scripts

/-!
# Renaming what the users type

The application compares emails, checks that they are well formed, checks that a
password is there, that a name has three characters and that a value is positive, and
looks at nothing else of what is typed.  A `Renaming` changes the texts and leaves
those answers as they are.

## Main results

* `renaming_commutes` — the run in which everything is typed renamed is the renaming of
  the run.
* `task_form_has_no_influence` — what is typed and picked on `CREATE` has no influence on
  the store, nor on any other screen.
-/

namespace TaskManager.Runs

open TaskManager.Verified.JsText
open TaskManager.Verified.EventLoop
open TaskManager.Shared
open TaskManager.Pages
open TaskManager.Routes
open TaskManager.App

/-- Emails stay apart and every text keeps the answers of the checks made on it.  What the
screens start with stays as it is: the empty texts, the value `5` and the date 0.  `text` is
for the name and the description of a task. -/
structure Renaming where
  email : JsString → JsString
  password : JsString → JsString
  name : JsString → JsString
  value : JsString → JsString
  text : JsString → JsString
  date : Nat → Nat
  email_injective : Function.Injective email
  email_valid : ∀ s, emailValid (email s) = emailValid s
  email_isEmpty : ∀ s, (email s).isEmpty = s.isEmpty
  password_isEmpty : ∀ s, (password s).isEmpty = s.isEmpty
  name_nil : name [] = []
  name_short : ∀ s, (name s).length < 3 ↔ s.length < 3
  value_default : value (js "5") = js "5"
  value_positive : ∀ s, isPositive (value s) = isPositive s
  text_nil : text [] = []
  date_zero : date 0 = 0

namespace Renaming

variable (r : Renaming)

/-! ## What is renamed -/

/-- An account; the role stays. -/
def account (a : Account) : Account :=
  { a with email := r.email a.email, password := r.password a.password, name := r.name a.name }

/-- A member; the choice stays. -/
def member (m : Member) : Member :=
  { r.account m.toAccount with isSelected := m.isSelected, value := r.value m.value }

/-- The store, record by record. -/
def disk (d : Disk) : Disk where
  userAdmin := d.userAdmin.map (List.map r.account)
  userMember := d.userMember.map (List.map r.account)
  userLoggedIn := d.userLoggedIn.map r.account
  tasks := d.tasks
  tempMembers := d.tempMembers.map (List.map r.member)

/-- The two dates of a fresh `CREATE`. -/
def dates (d : Nat × Nat) : Nat × Nat := (r.date d.1, r.date d.2)

/-- A text input with its value renamed. -/
def field (f : JsString → JsString) (x : Field) : Field := { x with val := f x.val }

theorem field_check (f : JsString → JsString) (val : JsString) (bad : Bool) (errMsg : String) :
    field f (Field.check val bad errMsg) = Field.check (f val) bad errMsg := by
  cases bad <;> rfl

theorem email_nil : r.email [] = [] := List.isEmpty_iff.mp (r.email_isEmpty [])

theorem password_nil : r.password [] = [] := List.isEmpty_iff.mp (r.password_isEmpty [])

theorem email_eq_iff (s t : JsString) : r.email s = r.email t ↔ s = t :=
  r.email_injective.eq_iff

/-- A lookup by a renamed email finds the renamed account. -/
theorem find_account (list : List Account) (email : JsString) :
    (list.map r.account).find? (fun e => e.email = r.email email) =
      (list.find? fun e => e.email = email).map r.account := by
  rw [List.find?_map]
  simp only [Function.comp_def, account, email_eq_iff]

theorem getUsers_disk (d : Disk) (isAdmin : Bool) :
    (r.disk d).getUsers isAdmin = (d.getUsers isAdmin).map (List.map r.account) := by
  cases isAdmin <;> rfl

theorem getD_map (list : Option (List Account)) :
    (list.map (List.map r.account)).getD [] = (list.getD []).map r.account := by
  cases list <;> rfl

/-! ## `LOGIN` -/

/-- The form of `LOGIN`; its message stays. -/
def loginState (s : Login.State) : Login.State :=
  { s with email := field r.email s.email, password := field r.password s.password }

/-- What a press of `LOGIN` closes over. -/
def loginCall (call : Login.Call) : Login.Call :=
  { call with email := r.email call.email, password := r.password call.password }

/-- The requests of `LOGIN`. -/
def loginAwait : Login.Await → Login.Await
  | .isUserLoggedIn key => .isUserLoggedIn key
  | .getUsers call => .getUsers (r.loginCall call)
  | .setLoggedIn call record => .setLoggedIn (r.loginCall call) (r.account record)

/-- The continuations of `LOGIN`. -/
def loginReady : Login.Ready → Login.Ready
  | .isUserLoggedIn key info => .isUserLoggedIn key (info.map r.account)
  | .getUsers call data => .getUsers (r.loginCall call) (data.map (List.map r.account))
  | .setLoggedIn call record => .setLoggedIn (r.loginCall call) (r.account record)

/-- What is typed on `LOGIN`. -/
def loginEvent : Login.Event → Login.Event
  | .changeEmail val => .changeEmail (r.email val)
  | .changePassword val => .changePassword (r.password val)
  | .toggleSwitch => .toggleSwitch
  | .handleSubmit => .handleSubmit
  | .signupLink => .signupLink

theorem login_checkEmail (val : JsString) :
    Login.handleValidation (r.email val) .EMAIL =
      field r.email (Login.handleValidation val .EMAIL) := by
  simp only [Login.handleValidation, field_check, r.email_isEmpty, r.email_valid]

theorem login_checkPassword (val : JsString) :
    Login.handleValidation (r.password val) .PASSWORD =
      field r.password (Login.handleValidation val .PASSWORD) := by
  simp only [Login.handleValidation, field_check, r.password_isEmpty]

theorem login_accepted (s : Login.State) : (r.loginState s).accepted = s.accepted := by
  simp only [Login.State.accepted, loginState, field, login_checkEmail, login_checkPassword]

theorem login_handleSubmit (key id : Nat) (s : Login.State) :
    Commutes r.dates r.loginState r.loginAwait (Login.handleSubmit key id s)
      (Login.handleSubmit key id (r.loginState s)) := by
  by_cases hAccepted : s.accepted = true
  · rw [Login.handleSubmit_accepted hAccepted,
      Login.handleSubmit_accepted ((r.login_accepted s).trans hAccepted)]
    exact ⟨rfl, fun _ => rfl, rfl⟩
  · rw [Bool.not_eq_true] at hAccepted
    rw [Login.handleSubmit_rejected hAccepted,
      Login.handleSubmit_rejected ((r.login_accepted s).trans hAccepted)]
    refine ⟨rfl, fun _ => ?_, rfl⟩
    simp only [loginState, field, login_checkEmail, login_checkPassword]

theorem login_handle (key id : Nat) (s : Login.State) (e : Login.Event) :
    Option.Rel (Commutes r.dates r.loginState r.loginAwait) (Login.handle key id s e)
      (Login.handle key id (r.loginState s) (r.loginEvent e)) := by
  by_cases hLoading : s.isLoading = true
  · rw [Login.handle.eq_def, Login.handle.eq_def, if_pos hLoading]
    rw [if_pos (show (r.loginState s).isLoading = true from hLoading)]
    exact .none
  · rw [Login.handle.eq_def, Login.handle.eq_def, if_neg hLoading]
    rw [if_neg (show ¬ (r.loginState s).isLoading = true from hLoading)]
    refine .some ?_
    cases e with
    | changeEmail val => exact ⟨rfl, fun _ => rfl, rfl⟩
    | changePassword val => exact ⟨rfl, fun _ => rfl, rfl⟩
    | toggleSwitch => exact ⟨rfl, fun _ => rfl, rfl⟩
    | handleSubmit => exact r.login_handleSubmit key id s
    | signupLink => exact ⟨rfl, fun _ => rfl, rfl⟩

theorem hasEmail_map (info : Option Account) :
    Login.hasEmail (info.map r.account) = Login.hasEmail info := by
  cases info with
  | none => rfl
  | some u => exact congrArg not (r.email_isEmpty u.email)

theorem login_resume (x : Login.Ready) :
    Commutes r.dates r.loginState r.loginAwait x.resume (r.loginReady x).resume := by
  cases x with
  | isUserLoggedIn key info =>
      refine ⟨?_, fun _ => rfl, rfl⟩
      simp only [loginReady, Login.Ready.resume, hasEmail_map]
      cases Login.hasEmail info <;> rfl
  | getUsers call data =>
      show Commutes _ _ _ (Login.afterUsers call data)
        (Login.afterUsers (r.loginCall call) (data.map (List.map r.account)))
      rw [Login.afterUsers_eq, Login.afterUsers_eq, getD_map,
        show (r.loginCall call).email = r.email call.email from rfl, find_account]
      cases (data.getD []).find? fun e => e.email = call.email with
      | none => exact ⟨rfl, fun _ => rfl, rfl⟩
      | some user => exact ⟨rfl, fun _ => rfl, rfl⟩
  | setLoggedIn call record => exact ⟨rfl, fun _ => rfl, rfl⟩

/-- `LOGIN` treats what is typed by its checks and the lookup of the email alone. -/
def login : PageMap Page.login r.disk r.dates where
  state := r.loginState
  await := r.loginAwait
  ready := r.loginReady
  event := r.loginEvent
  serve d a := by
    cases a with
    | isUserLoggedIn key => rfl
    | getUsers call =>
        exact congrArg (fun data => (r.disk d, Login.Ready.getUsers (r.loginCall call) data))
          (r.getUsers_disk d call.isAdmin)
    | setLoggedIn call record => rfl
  key x := by cases x <;> rfl
  resume := r.login_resume
  handle := r.login_handle

/-! ## `SIGNUP` -/

/-- The form of `SIGNUP`; its message stays. -/
def signupState (s : Signup.State) : Signup.State :=
  { s with
    email := field r.email s.email
    name := field r.name s.name
    password := field r.password s.password }

/-- What a press of `SIGNUP` closes over. -/
def signupCall (call : Signup.Call) : Signup.Call :=
  { call with
    email := r.email call.email
    password := r.password call.password
    name := r.name call.name }

/-- The requests of `SIGNUP`. -/
def signupAwait : Signup.Await → Signup.Await
  | .getUsers call => .getUsers (r.signupCall call)
  | .setUsers call data => .setUsers (r.signupCall call) (data.map r.account)
  | .setLoggedIn call => .setLoggedIn (r.signupCall call)

/-- The continuations of `SIGNUP`. -/
def signupReady : Signup.Ready → Signup.Ready
  | .getUsers call data => .getUsers (r.signupCall call) (data.map (List.map r.account))
  | .setUsers call => .setUsers (r.signupCall call)
  | .setLoggedIn call => .setLoggedIn (r.signupCall call)

/-- What is typed on `SIGNUP`. -/
def signupEvent : Signup.Event → Signup.Event
  | .changeName val => .changeName (r.name val)
  | .changeEmail val => .changeEmail (r.email val)
  | .changePassword val => .changePassword (r.password val)
  | .toggleSwitch => .toggleSwitch
  | .handleSubmit => .handleSubmit
  | .loginLink => .loginLink

theorem signup_checkEmail (val : JsString) :
    Signup.handleValidation (r.email val) .EMAIL =
      field r.email (Signup.handleValidation val .EMAIL) := by
  simp only [Signup.handleValidation, field_check, r.email_isEmpty, r.email_valid]

theorem signup_checkPassword (val : JsString) :
    Signup.handleValidation (r.password val) .PASSWORD =
      field r.password (Signup.handleValidation val .PASSWORD) := by
  simp only [Signup.handleValidation, field_check, r.password_isEmpty]

theorem signup_checkName (val : JsString) :
    Signup.handleValidation (r.name val) .NAME =
      field r.name (Signup.handleValidation val .NAME) := by
  have hEmpty : ∀ s : JsString, (s.isEmpty || decide (s.length < 3)) = decide (s.length < 3) := by
    intro s
    cases s with
    | nil => rfl
    | cons u s => rfl
  simp only [Signup.handleValidation, field_check]
  rw [hEmpty, hEmpty, decide_eq_decide.mpr (r.name_short val)]

theorem signup_accepted (s : Signup.State) : (r.signupState s).accepted = s.accepted := by
  simp only [Signup.State.accepted, signupState, field, signup_checkEmail, signup_checkPassword]

theorem signup_handleSubmit (key id : Nat) (s : Signup.State) :
    Commutes r.dates r.signupState r.signupAwait (Signup.handleSubmit key id s)
      (Signup.handleSubmit key id (r.signupState s)) := by
  by_cases hAccepted : s.accepted = true
  · rw [Signup.handleSubmit_accepted hAccepted,
      Signup.handleSubmit_accepted ((r.signup_accepted s).trans hAccepted)]
    exact ⟨rfl, fun _ => rfl, rfl⟩
  · rw [Bool.not_eq_true] at hAccepted
    rw [Signup.handleSubmit_rejected hAccepted,
      Signup.handleSubmit_rejected ((r.signup_accepted s).trans hAccepted)]
    refine ⟨rfl, fun _ => ?_, rfl⟩
    simp only [signupState, field, signup_checkEmail, signup_checkPassword, signup_checkName]

theorem signup_afterUsers (call : Signup.Call) (data : Option (List Account)) :
    Commutes r.dates r.signupState r.signupAwait (Signup.afterUsers call data)
      (Signup.afterUsers (r.signupCall call) (data.map (List.map r.account))) := by
  have hFound : (((data.getD []).map r.account).filter fun e =>
      e.email = (r.signupCall call).email).length =
        ((data.getD []).filter fun e => e.email = call.email).length := by
    rw [List.filter_map, List.length_map]
    simp only [Function.comp_def, account, signupCall, email_eq_iff]
  unfold Signup.afterUsers
  rw [getD_map]
  simp only [hFound]
  split
  · exact ⟨rfl, fun _ => rfl, rfl⟩
  · exact ⟨rfl, fun _ => rfl, rfl⟩

/-- `SIGNUP` treats what is typed by its checks and the search for the email alone. -/
def signup : PageMap Page.signup r.disk r.dates where
  state := r.signupState
  await := r.signupAwait
  ready := r.signupReady
  event := r.signupEvent
  serve d a := by
    cases a with
    | getUsers call =>
        exact congrArg (fun data => (r.disk d, Signup.Ready.getUsers (r.signupCall call) data))
          (r.getUsers_disk d call.isAdmin)
    | setUsers call data =>
        simp only [Page.signup, signupAwait, signupReady, Signup.Await.serve]
        congr 1
        show (r.disk d).setUsers call.isAdmin (r.account call.account :: _) = _
        cases call.isAdmin <;> rfl
    | setLoggedIn call => rfl
  key x := by cases x <;> rfl
  resume x := by
    cases x with
    | getUsers call data => exact r.signup_afterUsers call data
    | setUsers call => exact ⟨rfl, fun _ => rfl, rfl⟩
    | setLoggedIn call => exact ⟨rfl, fun _ => rfl, rfl⟩
  handle key id s e := by
    refine .some ?_
    cases e with
    | handleSubmit => exact r.signup_handleSubmit key id s
    | changeName val => exact ⟨rfl, fun _ => rfl, rfl⟩
    | changeEmail val => exact ⟨rfl, fun _ => rfl, rfl⟩
    | changePassword val => exact ⟨rfl, fun _ => rfl, rfl⟩
    | toggleSwitch => exact ⟨rfl, fun _ => rfl, rfl⟩
    | loginLink => exact ⟨rfl, fun _ => rfl, rfl⟩

/-! ## `HOME` -/

/-- The record that `HOME` shows. -/
def userInfo : Home.UserInfo → Home.UserInfo
  | .initial => .initial
  | .loaded info => .loaded (info.map r.account)

/-- The continuations of `HOME`. -/
def homeReady : Home.Ready → Home.Ready
  | .getUserInfo key info => .getUserInfo key (info.map r.account)
  | .logout id key => .logout id key

/-- The events of `HOME`, of which one has dates. -/
def homeEvent : Home.Event → Home.Event
  | .logout => .logout
  | .createTask d => .createTask (r.dates d)

/-- `HOME` does nothing with a record but show it. -/
def home : PageMap Page.home r.disk r.dates where
  state s := { s with userInfo := r.userInfo s.userInfo }
  await := id
  ready := r.homeReady
  event := r.homeEvent
  serve d a := by cases a <;> rfl
  key x := by cases x <;> rfl
  resume x := by cases x <;> exact ⟨rfl, fun _ => rfl, rfl⟩
  handle key id s e := by cases e <;> exact .some ⟨rfl, fun _ => rfl, rfl⟩

/-! ## `CREATE` -/

/-- The form of `CREATE`, with the members it shows. -/
def createState (s : TaskCreation.State) : TaskCreation.State where
  name := field r.text s.name
  desc := field r.text s.desc
  membersList := s.membersList.map r.member
  createdDate := r.date s.createdDate
  endDate := r.date s.endDate
  openCDate := s.openCDate
  openEDate := s.openEDate

/-- The continuations of `CREATE`. -/
def createReady : TaskCreation.Ready → TaskCreation.Ready
  | .fetchMembers key list => .fetchMembers key (list.map (List.map r.member))
  | .handleBack => .handleBack

/-- What is typed and picked on `CREATE`. -/
def createEvent : TaskCreation.Event → TaskCreation.Event
  | .changeName val => .changeName (r.text val)
  | .changeDesc val => .changeDesc (r.text val)
  | .pressLabel p => .pressLabel p
  | .pressDate p => .pressDate p
  | .confirm p date => .confirm p (r.date date)
  | .cancel p => .cancel p
  | .addMembers => .addMembers
  | .handleBack => .handleBack

theorem requiredMembers_map (list : Option (List Member)) :
    TaskCreation.requiredMembers (list.map (List.map r.member)) =
      (TaskCreation.requiredMembers list).map r.member := by
  cases list with
  | none => rfl
  | some list =>
      show (list.map r.member).filter _ = (list.filter _).map r.member
      rw [List.filter_map]
      simp only [Function.comp_def, member, r.value_positive]

/-- `CREATE` tests the choice and the value of a member, and nothing else. -/
def create : PageMap Page.create r.disk r.dates where
  state := r.createState
  await := id
  ready := r.createReady
  event := r.createEvent
  serve d a := by cases a <;> rfl
  key x := by cases x <;> rfl
  resume x := by
    cases x with
    | fetchMembers key list =>
        refine ⟨rfl, fun s => ?_, rfl⟩
        show r.createState { s with membersList := TaskCreation.requiredMembers list } =
          { r.createState s with
            membersList := TaskCreation.requiredMembers (list.map (List.map r.member)) }
        rw [requiredMembers_map]
        rfl
    | handleBack => exact ⟨rfl, fun _ => rfl, rfl⟩
  handle key id s e := by
    refine .some ?_
    cases e with
    | changeName val => exact ⟨rfl, fun _ => rfl, rfl⟩
    | changeDesc val => exact ⟨rfl, fun _ => rfl, rfl⟩
    | pressLabel p => cases p <;> exact ⟨rfl, fun _ => rfl, rfl⟩
    | pressDate p => cases p <;> exact ⟨rfl, fun _ => rfl, rfl⟩
    | confirm p date => cases p <;> exact ⟨rfl, fun _ => rfl, rfl⟩
    | cancel p => cases p <;> exact ⟨rfl, fun _ => rfl, rfl⟩
    | addMembers =>
        refine ⟨?_, fun _ => rfl, rfl⟩
        show some (Nav.navigate .LIST) = some (Nav.navigate .LIST (r.date 0, r.date 0))
        rw [r.date_zero]
    | handleBack => exact ⟨rfl, fun _ => rfl, rfl⟩

/-! ## `LIST` -/

/-- The records of `LIST`. -/
def listState (s : MembersList.State) : MembersList.State :=
  { s with heap := s.heap.map r.member }

/-- The requests of `LIST`. -/
def listAwait : MembersList.Await → MembersList.Await
  | .getDraft key => .getDraft key
  | .getMembers key => .getMembers key
  | .handleSubmit key list => .handleSubmit key (list.map r.member)

/-- The continuations of `LIST`. -/
def listReady : MembersList.Ready → MembersList.Ready
  | .getDraft key list => .getDraft key (list.map (List.map r.member))
  | .getMembers key list => .getMembers key (list.map (List.map r.account))
  | .handleSubmit key => .handleSubmit key

/-- What is typed on `LIST`; rows stay. -/
def listEvent : MembersList.Event → MembersList.Event
  | .arrow => .arrow
  | .handleSubmit => .handleSubmit
  | .memberPress i => .memberPress i
  | .memberValChange i val => .memberValChange i (r.value val)

theorem shown_map (s : MembersList.State) :
    (r.listState s).shown = s.shown.map r.member := by
  show (s.members.filterMap fun x => (s.heap.map r.member)[x]?) = _
  simp only [List.getElem?_map]
  exact (List.map_filterMap ..).symm

theorem setFresh_map (s : MembersList.State) (list : List Member) :
    r.listState (s.setFresh list) = (r.listState s).setFresh (list.map r.member) := by
  simp [MembersList.State.setFresh, listState]

theorem find_map (s : MembersList.State) (list : List MembersList.Ref) (email : JsString) :
    (r.listState s).find list (r.email email) = s.find list email := by
  unfold MembersList.State.find
  congr 1
  funext x
  show ((s.heap.map r.member)[x]?).any _ = _
  rw [List.getElem?_map]
  cases s.heap[x]? with
  | none => rfl
  | some m => exact decide_eq_decide.mpr (r.email_eq_iff m.email email)

/-- An edit by a renamed email changes the renamed record. -/
theorem edit_map (s : MembersList.State) (members : List MembersList.Ref) (email : JsString)
    {f f' : Member → Member} (h : ∀ m, r.member (f m) = f' (r.member m)) :
    r.listState (s.edit members email f) =
      (r.listState s).edit members (r.email email) f' := by
  unfold MembersList.State.edit
  rw [find_map]
  cases s.find members email with
  | none => rfl
  | some x =>
      simp only [listState]
      congr 1
      refine List.ext_getElem? fun i => ?_
      rw [List.getElem?_map, List.getElem?_modify, List.getElem?_modify, List.getElem?_map]
      cases s.heap[i]? with
      | none => rfl
      | some m =>
          by_cases hAt : x = i
          · simp [hAt, h]
          · simp [hAt]

theorem finish_map {list list' : List MembersList.Item}
    (h : (list.map MembersList.withDefaults).map r.member =
      list'.map MembersList.withDefaults) :
    Commutes r.dates r.listState r.listAwait (MembersList.finish list)
      (MembersList.finish list') := by
  refine ⟨rfl, fun s => ?_, rfl⟩
  show r.listState (s.setFresh _) = (r.listState s).setFresh _
  rw [setFresh_map, h]

theorem withDefaults_member (m : Member) :
    r.member (MembersList.withDefaults (.ofMember m)) =
      MembersList.withDefaults (.ofMember (r.member m)) := rfl

theorem withDefaults_account (a : Account) :
    r.member (MembersList.withDefaults (.ofAccount a)) =
      MembersList.withDefaults (.ofAccount (r.account a)) := by
  show ({ r.account a with isSelected := false, value := r.value (js "5") } : Member) = _
  rw [r.value_default]
  rfl

theorem list_resume (x : MembersList.Ready) :
    Commutes r.dates r.listState r.listAwait x.resume (r.listReady x).resume := by
  cases x with
  | getDraft key list =>
      cases list with
      | none => exact ⟨rfl, fun _ => rfl, rfl⟩
      | some list =>
          cases list with
          | nil => exact ⟨rfl, fun _ => rfl, rfl⟩
          | cons m ms =>
              refine r.finish_map ?_
              simp only [← List.map_cons, List.map_map]
              exact List.map_congr_left fun m _ => r.withDefaults_member m
  | getMembers key list =>
      refine r.finish_map ?_
      rw [getD_map]
      simp only [List.map_map]
      exact List.map_congr_left fun a _ => r.withDefaults_account a
  | handleSubmit key => exact ⟨rfl, fun _ => rfl, rfl⟩

theorem list_handle (key : Nat) (s : MembersList.State) (e : MembersList.Event) :
    Option.Rel (Commutes r.dates r.listState r.listAwait) (MembersList.handle key s e)
      (MembersList.handle key (r.listState s) (r.listEvent e)) := by
  cases e with
  | arrow => exact .some ⟨rfl, fun _ => rfl, rfl⟩
  | handleSubmit =>
      refine .some ⟨rfl, fun _ => rfl, ?_⟩
      show [MembersList.Await.handleSubmit key (r.listState s).shown] = _
      rw [shown_map]
      rfl
  | memberPress i =>
      simp only [listEvent, MembersList.handle, shown_map, List.getElem?_map]
      cases s.shown[i]? with
      | none => exact .none
      | some m => exact .some ⟨rfl, fun s' => r.edit_map s' s.members m.email fun _ => rfl, rfl⟩
  | memberValChange i val =>
      simp only [listEvent, MembersList.handle, shown_map, List.getElem?_map]
      cases s.shown[i]? with
      | none => exact .none
      | some m => exact .some ⟨rfl, fun s' => r.edit_map s' s.members m.email fun _ => rfl, rfl⟩

/-- `LIST` finds its records by their emails. -/
def list : PageMap Page.list r.disk r.dates where
  state := r.listState
  await := r.listAwait
  ready := r.listReady
  event := r.listEvent
  serve d a := by cases a <;> rfl
  key x := by cases x <;> rfl
  resume := r.list_resume
  handle key id s e := r.list_handle key s e

/-! ## The application -/

/-- All pages together. -/
def pages : AppMap where
  disk := r.disk
  dates := r.dates
  dates_zero := congrArg (fun n => (n, n)) r.date_zero
  login := r.login
  signup := r.signup
  home := r.home
  create := r.create
  list := r.list
  login_mount := by
    show r.loginState {} = {}
    simp only [loginState, field, email_nil, password_nil]
  signup_mount := by
    show r.signupState {} = {}
    simp only [signupState, field, email_nil, password_nil, r.name_nil]
  home_mount := rfl
  create_mount d := by
    show r.createState (.init d) = _
    simp only [createState, TaskCreation.State.init, field, r.text_nil]
    rfl
  list_mount := rfl
  login_load _ := rfl
  home_load _ := rfl
  create_load _ := rfl
  list_load _ := rfl

/-- What users do, with what they type renamed. -/
def action (x : Action) : Action := r.pages.morphism.action x

/-- A state of the application. -/
def state (s : State) : State := r.pages.morphism.state s

theorem state_init : r.state init = init := by
  have hMount : r.loginState {} = {} := r.pages.login_mount
  show State.mk (r.disk {}) ({ focused := ⟨0, .AUTH (.LOGIN (r.loginState {}))⟩, .. } : Ui) _ _ _ =
    _
  rw [hMount]
  rfl

/-- From any state on, renamed actions lead to the renamed state. -/
theorem exec_map (s : State) (xs : List Action) :
    app.exec (r.state s) (xs.map r.action) = (app.exec s xs).map r.state :=
  r.pages.morphism.exec_map s trivial xs

end Renaming

/-- **Renaming commutes with runs.**  With everything that is typed renamed, the same runs can
be carried out, and what they leave, in the store, on the screens and in flight, is the
renaming of what they left.  A renaming fixes the empty texts, the value `5` and the date 0. -/
theorem renaming_commutes (r : Renaming) (xs : List Action) :
    run (xs.map r.action) = (run xs).map r.state := by
  have hRun := r.exec_map init xs
  rwa [r.state_init] at hRun

/-- Two valid addresses change places, and nothing else is renamed. -/
def swapEmails (a b : JsString) (ha : emailValid a = true) (hb : emailValid b = true) :
    Renaming where
  email := Equiv.swap a b
  password := id
  name := id
  value := id
  text := id
  date := id
  email_injective := (Equiv.swap a b).injective
  email_valid s := by
    rw [Equiv.swap_apply_def]
    split_ifs with hFirst hSecond
    · rw [hFirst, ha, hb]
    · rw [hSecond, ha, hb]
    · rfl
  email_isEmpty s := by
    have hFirst := List.isEmpty_eq_false_iff.mpr (emailValid_ne_nil ha)
    have hSecond := List.isEmpty_eq_false_iff.mpr (emailValid_ne_nil hb)
    rw [Equiv.swap_apply_def]
    split_ifs with hA hB
    · rw [hA, hFirst, hSecond]
    · rw [hB, hFirst, hSecond]
    · rfl
  password_isEmpty _ := rfl
  name_nil := rfl
  name_short _ := Iff.rfl
  value_default := rfl
  value_positive _ := rfl
  text_nil := rfl
  date_zero := rfl

/-- Ann signs up and leaves, Bob signs up and leaves, and Ann logs in. -/
def annAndBob : List Action :=
  loaded ++ signUp (js "ann@x.co") (js "pw") (js "Ann") false ++ logOut
    ++ signUp (js "bob@x.co") (js "qw") (js "Bob") false ++ logOut
    ++ fillLogin (js "ann@x.co") (js "pw") ++ [pressLogin] ++ answered ++ answered

/-- With each other's addresses, Ann and Bob get each other's. -/
theorem renaming_commutes_swapped :
    ∃ s, run (annAndBob.map (swapEmails (js "ann@x.co") (js "bob@x.co") (by decide)
        (by decide)).action) = some s ∧
      s.disk.accounts false =
        [ ⟨js "ann@x.co", js "qw", js "Bob", false⟩
        , ⟨js "bob@x.co", js "pw", js "Ann", false⟩ ] ∧
      s.disk.userLoggedIn = some ⟨js "bob@x.co", js "pw", js "Ann", false⟩ := by
  obtain ⟨s, hRun⟩ := Option.isSome_iff_exists.mp
    (show (run annAndBob).isSome = true by decide +kernel)
  have hStored : s.disk.accounts false =
      [ ⟨js "bob@x.co", js "qw", js "Bob", false⟩
      , ⟨js "ann@x.co", js "pw", js "Ann", false⟩ ] :=
    seen_of_run (f := fun s => s.disk.accounts false) hRun (by decide +kernel)
  have hSession : s.disk.userLoggedIn = some ⟨js "ann@x.co", js "pw", js "Ann", false⟩ :=
    seen_of_run (f := fun s => s.disk.userLoggedIn) hRun (by decide +kernel)
  refine ⟨_, by rw [renaming_commutes, hRun, Option.map_some], ?_, ?_⟩
  · show ((swapEmails _ _ _ _).disk s.disk).accounts false = _
    rw [Disk.accounts, Renaming.getUsers_disk, Renaming.getD_map,
      show (s.disk.getUsers false).getD [] = _ from hStored]
    decide
  · show s.disk.userLoggedIn.map (swapEmails _ _ _ _).account = _
    rw [hSession]
    decide

/-! ## The form of a task -/

/-- What is typed and picked on `CREATE` is forgotten, and nothing else is. -/
def forgetForm : Renaming where
  email := id
  password := id
  name := id
  value := id
  text _ := []
  date _ := 0
  email_injective := Function.injective_id
  email_valid _ := rfl
  email_isEmpty _ := rfl
  password_isEmpty _ := rfl
  name_nil := rfl
  name_short _ := Iff.rfl
  value_default := rfl
  value_positive _ := rfl
  text_nil := rfl
  date_zero := rfl

theorem disk_forgetForm (d : Disk) : forgetForm.disk d = d := by
  have hAccount : forgetForm.account = id := rfl
  have hMember : forgetForm.member = id := rfl
  simp only [Renaming.disk, hAccount, hMember, List.map_id_fun, Option.map_id_fun, id]

/-- **The form of a task has no influence.**  Two runs that differ only in the names, the
descriptions and the dates given on `CREATE` can both be carried out or neither, leave the
same store, and have the same screens, requests and continuations once these are
forgotten. -/
theorem task_form_has_no_influence (xs ys : List Action)
    (hSame : xs.map forgetForm.action = ys.map forgetForm.action) :
    (run xs).map (fun s => s.disk) = (run ys).map (fun s => s.disk) ∧
      (run xs).map forgetForm.state = (run ys).map forgetForm.state := by
  have hStates : (run xs).map forgetForm.state = (run ys).map forgetForm.state := by
    have hRun : ∀ zs, run (zs.map forgetForm.action) = (run zs).map forgetForm.state := by
      intro zs
      have hExec := forgetForm.exec_map init zs
      rwa [forgetForm.state_init] at hExec
    rw [← hRun, hSame, hRun]
  refine ⟨?_, hStates⟩
  have hDisks := congrArg (Option.map fun s : State => s.disk) hStates
  rw [Option.map_map, Option.map_map] at hDisks
  have hDisk : ((fun s : State => s.disk) ∘ forgetForm.state) = fun s => s.disk :=
    funext fun s => disk_forgetForm s.disk
  rwa [hDisk] at hDisks

/-- Cat, an administrator, opens a task, describes it and leaves it by the arrow. -/
def catDescribes (text : JsString) (date : Nat) : List Action :=
  loaded ++ signUp (js "cat@x.co") (js "pw") (js "Cat") true ++ openTask ++
    [.user (.create (.changeDesc text)), .user (.create (.confirm .ended date)), pressBack] ++
    answered

theorem task_form_has_no_influence_ann :
    ∃ d, (run (catDescribes (js "paint the hall") 3)).map (fun s => s.disk) = some d ∧
      (run (catDescribes (js "none") 8)).map (fun s => s.disk) = some d := by
  obtain ⟨s, hRun⟩ := Option.isSome_iff_exists.mp
    (show (run (catDescribes (js "paint the hall") 3)).isSome = true by decide +kernel)
  refine ⟨s.disk, by rw [hRun]; rfl, ?_⟩
  rw [← (task_form_has_no_influence (catDescribes (js "paint the hall") 3)
    (catDescribes (js "none") 8) (by decide +kernel)).1, hRun]
  rfl

end TaskManager.Runs
