import TaskManager.Shared.Storage
import TaskManager.Shared.Component

/-!
# `pages/auth/Login.js`

`handleSubmit` checks the form, reads the accounts of the chosen role, looks
the typed email up in them, and writes the record it finds as the open
session.  The typed password takes no part in the lookup.
-/

namespace TaskManager.Pages.Login

open TaskManager.Verified.JsText
open TaskManager.Shared

/-- The form, the message over it, and whether the session is still being looked up. -/
structure State where
  email : Field := {}
  password : Field := {}
  isAdmin : Bool := false
  error : String := ""
  isLoading : Bool := true
  deriving DecidableEq, Repr

/-- The check of a field; there is no name on this form, and any passes. -/
def handleValidation (val : JsString) : FieldType → Field
  | .EMAIL => Field.check val (val.isEmpty || !emailValid val) "email address is invalid"
  | .PASSWORD => Field.check val val.isEmpty "Please Enter Password."
  | .NAME => { val := val, isValid := true, errMsg := "" }

/-- One press of the button: the values the handler closes over.  `id` tells
presses apart and `key` is the screen instance it was pressed on. -/
structure Call where
  id : Nat
  key : Nat
  email : JsString
  password : JsString
  isAdmin : Bool
  deriving DecidableEq, Repr

/-- The calls on the store: the look at the session as the screen mounts, and the two of a
submit. -/
inductive Await where
  | isUserLoggedIn (key : Nat)
  | getUsers (call : Call)
  | setLoggedIn (call : Call) (record : Account)
  deriving DecidableEq, Repr

/-- A call that has been performed, with what it has read. -/
inductive Ready where
  | isUserLoggedIn (key : Nat) (info : Option Account)
  | getUsers (call : Call) (expectedData : Option (List Account))
  | setLoggedIn (call : Call) (record : Account)
  deriving DecidableEq, Repr

/-- Two calls read, and the last one of a submit writes the session. -/
def Await.serve (d : Disk) : Await → Disk × Ready
  | .isUserLoggedIn key => (d, .isUserLoggedIn key d.userLoggedIn)
  | .getUsers call => (d, .getUsers call (d.getUsers call.isAdmin))
  | .setLoggedIn call record =>
      ({ d with userLoggedIn := some record }, .setLoggedIn call record)

/-! ## Handlers -/

/-- The form as it stands when the button is pressed. -/
def State.call (s : State) (key id : Nat) : Call where
  id := id
  key := key
  email := s.email.val
  password := s.password.val
  isAdmin := s.isAdmin

/-- The guard of `handleSubmit`. -/
def State.accepted (s : State) : Bool :=
  (handleValidation s.email.val .EMAIL).isValid
    && (handleValidation s.password.val .PASSWORD).isValid

/-- A submit that fails a check marks both fields; one that passes reads the accounts. -/
def handleSubmit (key id : Nat) (s : State) : Effect State Await :=
  let emailValidation := handleValidation s.email.val .EMAIL
  let passValidation := handleValidation s.password.val .PASSWORD
  if !emailValidation.isValid || !passValidation.isValid then
    { update := fun s =>
        { s with email := emailValidation, password := passValidation } }
  else
    { requests := [.getUsers (s.call key id)] }

/-- `handleSubmit` after the accounts have been read. -/
def afterUsers (call : Call) (expectedData : Option (List Account)) :
    Effect State Await :=
  let isUserAdded := (expectedData.getD []).filter fun e => e.email = call.email
  match isUserAdded with
  | [] => { update := fun s => { s with error := "User not found" } }
  | user :: _ =>
      { update := fun s => { s with error := "" }
        requests := [.setLoggedIn call user] }

/-- `info?.email`, as a condition. -/
def hasEmail (info : Option Account) : Bool := info.any fun u => !u.email.isEmpty

/-- The screen instance whose handler waits. -/
def Ready.key : Ready → Nat
  | .isUserLoggedIn key _ => key
  | .getUsers call _ => call.key
  | .setLoggedIn call _ => call.key

/-- The rest of a handler; a session that is found, or written, leads to `HOME`. -/
def Ready.resume : Ready → Effect State Await
  | .isUserLoggedIn _ info =>
      { navigate := if hasEmail info then some (.replace .HOME) else none
        update := fun s => { s with isLoading := false } }
  | .getUsers call expectedData => afterUsers call expectedData
  | .setLoggedIn _ _ => { navigate := some (.replace .HOME) }

/-- What a user can do on the form. -/
inductive Event where
  | changeEmail (val : JsString)
  | changePassword (val : JsString)
  | toggleSwitch
  | handleSubmit
  | signupLink
  deriving DecidableEq, Repr

/-- The screen shows nothing to press while it loads. -/
def handle (key id : Nat) (s : State) (e : Event) : Option (Effect State Await) :=
  if s.isLoading then none
  else some <|
    match e with
    | .changeEmail val => { update := fun s => { s with email := .typed val } }
    | .changePassword val => { update := fun s => { s with password := .typed val } }
    | .toggleSwitch => { update := fun s => { s with isAdmin := !s.isAdmin } }
    | .handleSubmit => Login.handleSubmit key id s
    | .signupLink => { navigate := some (.replace .SIGNUP) }

/-! ## What the handlers can do -/

/-- A form passes with a valid email and a password. -/
theorem accepted_iff (s : State) :
    s.accepted = true ↔
      s.email.val ≠ [] ∧ emailValid s.email.val = true ∧ s.password.val ≠ [] := by
  simp [State.accepted, handleValidation, and_assoc]

/-- A form that passes issues the read, and changes nothing. -/
theorem handleSubmit_accepted {key id : Nat} {s : State} (h : s.accepted = true) :
    handleSubmit key id s = { requests := [.getUsers (s.call key id)] } := by
  simp only [State.accepted, Bool.and_eq_true] at h
  simp [handleSubmit, h.1, h.2]

/-- A form that does not pass is marked, and issues nothing. -/
theorem handleSubmit_rejected {key id : Nat} {s : State} (h : s.accepted = false) :
    handleSubmit key id s =
      { update := fun s' =>
          { s' with
            email := handleValidation s.email.val .EMAIL
            password := handleValidation s.password.val .PASSWORD } } := by
  simp only [State.accepted, Bool.and_eq_false_iff] at h
  simp only [handleSubmit]
  rw [if_pos]
  simpa using h

/-- A press issues the read of its own role's accounts, for a form that passed
both validators, and no other event issues anything. -/
theorem handle_requests {key id : Nat} {s : State} {e : Event}
    {eff : Effect State Await} (h : handle key id s e = some eff) {a : Await}
    (ha : a ∈ eff.requests) :
    e = .handleSubmit ∧ s.accepted = true ∧ a = .getUsers (s.call key id) := by
  unfold handle at h
  split at h
  · simp at h
  · rw [Option.some.injEq] at h
    subst h
    cases e with
    | handleSubmit =>
        by_cases hAcc : s.accepted = true
        · simp only [handleSubmit_accepted hAcc, List.mem_singleton] at ha
          exact ⟨rfl, hAcc, ha⟩
        · rw [Bool.not_eq_true] at hAcc
          simp [handleSubmit_rejected hAcc] at ha
    | changeEmail val => simp at ha
    | changePassword val => simp at ha
    | toggleSwitch => simp at ha
    | signupLink => simp at ha

/-- The only navigation an event asks for is the link to `SIGNUP`. -/
theorem handle_navigate {key id : Nat} {s : State} {e : Event}
    {eff : Effect State Await} (h : handle key id s e = some eff) :
    eff.navigate = none ∨ eff.navigate = some (.replace .SIGNUP) := by
  unfold handle at h
  split at h
  · simp at h
  · rw [Option.some.injEq] at h
    subst h
    cases e with
    | handleSubmit =>
        cases hAcc : s.accepted with
        | true => exact Or.inl (by simp [handleSubmit_accepted hAcc])
        | false => exact Or.inl (by simp [handleSubmit_rejected hAcc])
    | signupLink => exact Or.inr rfl
    | changeEmail val => exact Or.inl rfl
    | changePassword val => exact Or.inl rfl
    | toggleSwitch => exact Or.inl rfl

/-- No event of the form starts or ends the loading. -/
theorem handle_isLoading {key id : Nat} {s : State} {e : Event} {eff : Effect State Await}
    (h : handle key id s e = some eff) (s' : State) :
    (eff.update s').isLoading = s'.isLoading := by
  unfold handle at h
  split at h
  · simp at h
  · rw [Option.some.injEq] at h
    subst h
    cases e with
    | handleSubmit =>
        cases hAcc : s.accepted with
        | true => simp [handleSubmit_accepted hAcc]
        | false => simp [handleSubmit_rejected hAcc]
    | changeEmail val => rfl
    | changePassword val => rfl
    | toggleSwitch => rfl
    | signupLink => rfl

/-- The lookup is a search for the typed email. -/
theorem afterUsers_eq (call : Call) (expectedData : Option (List Account)) :
    afterUsers call expectedData =
      match (expectedData.getD []).find? fun e => e.email = call.email with
      | none => { update := fun s => { s with error := "User not found" } }
      | some user =>
          { update := fun s => { s with error := "" }
            requests := [.setLoggedIn call user] } := by
  rw [afterUsers, ← List.head?_filter]
  generalize (expectedData.getD []).filter (fun e => e.email = call.email) = isUserAdded
  cases isUserAdded <;> rfl

/-- The lookup: either no account has the typed email, or the session to write
is the first that has it. -/
theorem afterUsers_cases (call : Call) (expectedData : Option (List Account)) :
    ((∀ u ∈ expectedData.getD [], u.email ≠ call.email) ∧
        afterUsers call expectedData =
          { update := fun s => { s with error := "User not found" } }) ∨
      ∃ user ∈ expectedData.getD [], user.email = call.email ∧
        afterUsers call expectedData =
          { update := fun s => { s with error := "" }
            requests := [.setLoggedIn call user] } := by
  unfold afterUsers
  cases hFound : (expectedData.getD []).filter fun e => e.email = call.email with
  | nil =>
      rw [List.filter_eq_nil_iff] at hFound
      exact Or.inl ⟨fun u hu => by simpa using hFound u hu, rfl⟩
  | cons user others =>
      have hUser : user ∈ (expectedData.getD []).filter fun e => e.email = call.email := by
        rw [hFound]
        exact List.mem_cons_self
      rw [List.mem_filter, decide_eq_true_eq] at hUser
      exact Or.inr ⟨user, hUser.1, hUser.2, rfl⟩

end TaskManager.Pages.Login
