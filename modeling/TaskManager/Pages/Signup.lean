import TaskManager.Shared.Storage
import TaskManager.Shared.Component

/-!
# `pages/auth/Signup.js`

`handleSubmit` checks the form, reads the accounts of the chosen role, refuses
an email that is already among them, writes the list back with the new account
in front, and then writes the new account as the open session.  The list that
is written back is the one that was read: nothing keeps the store from
changing in between.
-/

namespace TaskManager.Pages.Signup

open TaskManager.Verified.JsText
open TaskManager.Shared

/-- The form, and the message over it. -/
structure State where
  email : Field := {}
  name : Field := {}
  password : Field := {}
  isAdmin : Bool := false
  error : String := ""
  deriving DecidableEq, Repr

/-- `val.length < 3` counts UTF-16 code units. -/
def handleValidation (val : JsString) : FieldType → Field
  | .EMAIL => Field.check val (val.isEmpty || !emailValid val) "Email is invalid"
  | .PASSWORD => Field.check val val.isEmpty "Please Enter Password."
  | .NAME => Field.check val (val.isEmpty || val.length < 3) "Please enter valid name"

/-- One press of the button: the values the handler closes over. -/
structure Call where
  id : Nat
  key : Nat
  email : JsString
  password : JsString
  name : JsString
  isAdmin : Bool
  deriving DecidableEq, Repr

/-- The record a press writes, to the account store and as the session. -/
def Call.account (call : Call) : Account where
  email := call.email
  password := call.password
  name := call.name
  isAdmin := call.isAdmin

/-- The three calls of a submit: the read of the accounts, the write of the longer list, and
the write of the session. -/
inductive Await where
  | getUsers (call : Call)
  | setUsers (call : Call) (expectedData : List Account)
  | setLoggedIn (call : Call)
  deriving DecidableEq, Repr

/-- A call that has been performed, with what it has read. -/
inductive Ready where
  | getUsers (call : Call) (expectedData : Option (List Account))
  | setUsers (call : Call)
  | setLoggedIn (call : Call)
  deriving DecidableEq, Repr

/-- The list that is written is the one that was read, with the new account in front. -/
def Await.serve (d : Disk) : Await → Disk × Ready
  | .getUsers call => (d, .getUsers call (d.getUsers call.isAdmin))
  | .setUsers call expectedData =>
      (d.setUsers call.isAdmin (call.account :: expectedData), .setUsers call)
  | .setLoggedIn call =>
      ({ d with userLoggedIn := some call.account }, .setLoggedIn call)

/-! ## Handlers -/

/-- The form as it stands when the button is pressed. -/
def State.call (s : State) (key id : Nat) : Call where
  id := id
  key := key
  email := s.email.val
  password := s.password.val
  name := s.name.val
  isAdmin := s.isAdmin

/-- The guard of `handleSubmit` tests the object `nameValidation`, not its
`isValid`, and an object is never falsy. -/
def truthy (_ : Field) : Bool := true

/-- A submit that is refused marks all three fields; one that passes reads the accounts. -/
def handleSubmit (key id : Nat) (s : State) : Effect State Await :=
  let emailValidation := handleValidation s.email.val .EMAIL
  let passValidation := handleValidation s.password.val .PASSWORD
  let nameValidation := handleValidation s.name.val .NAME
  if !emailValidation.isValid || !passValidation.isValid || !truthy nameValidation then
    { update := fun s =>
        { s with
          email := emailValidation
          password := passValidation
          name := nameValidation } }
  else
    { requests := [.getUsers (s.call key id)] }

/-- `handleSubmit` after the accounts have been read. -/
def afterUsers (call : Call) (expectedData : Option (List Account)) :
    Effect State Await :=
  let isUserAdded := (expectedData.getD []).filter fun e => e.email = call.email
  if isUserAdded.length > 0 then
    { update := fun s => { s with error := "User already added" } }
  else
    { update := fun s => { s with error := "" }
      requests := [.setUsers call (expectedData.getD [])] }

/-- The screen instance whose handler waits. -/
def Ready.key : Ready → Nat
  | .getUsers call _ => call.key
  | .setUsers call => call.key
  | .setLoggedIn call => call.key

/-- The rest of a handler, call after call, and then `HOME`. -/
def Ready.resume : Ready → Effect State Await
  | .getUsers call expectedData => afterUsers call expectedData
  | .setUsers call => { requests := [.setLoggedIn call] }
  | .setLoggedIn _ => { navigate := some (.replace .HOME) }

/-- What a user can do on the form. -/
inductive Event where
  | changeName (val : JsString)
  | changeEmail (val : JsString)
  | changePassword (val : JsString)
  | toggleSwitch
  | handleSubmit
  | loginLink
  deriving DecidableEq, Repr

/-- The handlers of the form; the number and the screen instance are kept with a submit. -/
def handle (key id : Nat) (s : State) : Event → Effect State Await
  | .changeName val => { update := fun s => { s with name := .typed val } }
  | .changeEmail val => { update := fun s => { s with email := .typed val } }
  | .changePassword val => { update := fun s => { s with password := .typed val } }
  | .toggleSwitch => { update := fun s => { s with isAdmin := !s.isAdmin } }
  | .handleSubmit => Signup.handleSubmit key id s
  | .loginLink => { navigate := some (.replace .LOGIN) }

/-! ## What the handlers can do -/

/-- The guard of `handleSubmit`, which does not look at the name. -/
def State.accepted (s : State) : Bool :=
  (handleValidation s.email.val .EMAIL).isValid
    && (handleValidation s.password.val .PASSWORD).isValid

/-- The guard asks for a valid email and a password. -/
theorem accepted_iff (s : State) :
    s.accepted = true ↔
      s.email.val ≠ [] ∧ emailValid s.email.val = true ∧ s.password.val ≠ [] := by
  simp [State.accepted, handleValidation, and_assoc]

/-- A form that passes issues the read, and changes nothing. -/
theorem handleSubmit_accepted {key id : Nat} {s : State} (h : s.accepted = true) :
    handleSubmit key id s = { requests := [.getUsers (s.call key id)] } := by
  simp only [State.accepted, Bool.and_eq_true] at h
  simp [handleSubmit, truthy, h.1, h.2]

/-- A form that does not pass is marked, and issues nothing. -/
theorem handleSubmit_rejected {key id : Nat} {s : State} (h : s.accepted = false) :
    handleSubmit key id s =
      { update := fun s' =>
          { s' with
            email := handleValidation s.email.val .EMAIL
            password := handleValidation s.password.val .PASSWORD
            name := handleValidation s.name.val .NAME } } := by
  simp only [State.accepted, Bool.and_eq_false_iff] at h
  simp only [handleSubmit]
  rw [if_pos]
  simpa [truthy] using h

/-- A press issues the read of its own role's accounts, for a form whose email
and password passed, and no other event issues anything. -/
theorem handle_requests {key id : Nat} {s : State} {e : Event} {a : Await}
    (ha : a ∈ (handle key id s e).requests) :
    e = .handleSubmit ∧ s.accepted = true ∧ a = .getUsers (s.call key id) := by
  cases e with
  | handleSubmit =>
      by_cases hAcc : s.accepted = true
      · simp only [handle, handleSubmit_accepted hAcc, List.mem_singleton] at ha
        exact ⟨rfl, hAcc, ha⟩
      · rw [Bool.not_eq_true] at hAcc
        simp [handle, handleSubmit_rejected hAcc] at ha
  | changeName val => simp [handle] at ha
  | changeEmail val => simp [handle] at ha
  | changePassword val => simp [handle] at ha
  | toggleSwitch => simp [handle] at ha
  | loginLink => simp [handle] at ha

/-- The only navigation an event asks for is the link to `LOGIN`. -/
theorem handle_navigate (key id : Nat) (s : State) (e : Event) :
    (handle key id s e).navigate = none ∨
      (handle key id s e).navigate = some (.replace .LOGIN) := by
  cases e with
  | handleSubmit =>
      cases hAcc : s.accepted with
      | true => exact Or.inl (by simp [handle, handleSubmit_accepted hAcc])
      | false => exact Or.inl (by simp [handle, handleSubmit_rejected hAcc])
  | loginLink => exact Or.inr rfl
  | changeName val => exact Or.inl rfl
  | changeEmail val => exact Or.inl rfl
  | changePassword val => exact Or.inl rfl
  | toggleSwitch => exact Or.inl rfl

/-- The duplicate check: either an account has the typed email, or none has
and the list read is written back with the new account. -/
theorem afterUsers_cases (call : Call) (expectedData : Option (List Account)) :
    ((∃ u ∈ expectedData.getD [], u.email = call.email) ∧
        afterUsers call expectedData =
          { update := fun s => { s with error := "User already added" } }) ∨
      ((∀ u ∈ expectedData.getD [], u.email ≠ call.email) ∧
        afterUsers call expectedData =
          { update := fun s => { s with error := "" }
            requests := [.setUsers call (expectedData.getD [])] }) := by
  unfold afterUsers
  by_cases hFound :
      ((expectedData.getD []).filter fun e => e.email = call.email).length > 0
  · obtain ⟨u, hu⟩ := List.exists_mem_of_length_pos hFound
    rw [List.mem_filter, decide_eq_true_eq] at hu
    exact Or.inl ⟨⟨u, hu⟩, by rw [if_pos hFound]⟩
  · have hNil : (expectedData.getD []).filter (fun e => e.email = call.email) = [] :=
      List.eq_nil_of_length_eq_zero (by omega)
    rw [List.filter_eq_nil_iff] at hNil
    exact Or.inr ⟨fun u hu => by simpa using hNil u hu, by rw [if_neg hFound]⟩

end TaskManager.Pages.Signup
