import TaskManager.Verified.JsText
import TaskManager.Shared.Constants

/-!
# What the application stores

`AsyncStorage` maps each key to the JSON text of a value.  `JSON.parse` undoes
`JSON.stringify` on the records below, so an entry is modelled by the value
itself, and `none` is a key that is absent (`getItem` yields `null`, and so
does `JSON.parse(null)`).
-/

namespace TaskManager.Shared

open TaskManager.Verified.JsText

/-- A record of an account store, and the record of the open session. -/
structure Account where
  email : JsString
  password : JsString
  name : JsString
  isAdmin : Bool
  deriving DecidableEq, Repr

/-- A record of the draft of a task's members. -/
structure Member extends Account where
  isSelected : Bool
  value : JsString
  deriving DecidableEq, Repr

/-- The five entries of the store.  No screen reads or writes `TASKS_KEY`. -/
structure Disk where
  userAdmin : Option (List Account) := none
  userMember : Option (List Account) := none
  userLoggedIn : Option Account := none
  tasks : Option JsString := none
  tempMembers : Option (List Member) := none
  deriving DecidableEq, Repr

namespace Disk

/-- `getItem(USER_ADMIN_KEY)` or `getItem(USER_MEMBER_KEY)`, by role. -/
def getUsers (d : Disk) (isAdmin : Bool) : Option (List Account) :=
  if isAdmin then d.userAdmin else d.userMember

/-- `setItem` of a list of accounts, by role. -/
def setUsers (d : Disk) (isAdmin : Bool) (list : List Account) : Disk :=
  if isAdmin then { d with userAdmin := some list }
  else { d with userMember := some list }

/-- The accounts of a role: an absent entry counts as the empty list. -/
def accounts (d : Disk) (isAdmin : Bool) : List Account :=
  (d.getUsers isAdmin).getD []

@[simp] theorem getUsers_setUsers (d : Disk) (b c : Bool) (list : List Account) :
    (d.setUsers b list).getUsers c = if c = b then some list else d.getUsers c := by
  cases b <;> cases c <;> rfl

@[simp] theorem accounts_setUsers_self (d : Disk) (b : Bool) (list : List Account) :
    (d.setUsers b list).accounts b = list := by
  simp [accounts]

/-- The accounts of the other role stay. -/
theorem accounts_setUsers_ne (d : Disk) {b c : Bool} (list : List Account)
    (h : c ≠ b) : (d.setUsers b list).accounts c = d.accounts c := by
  simp [accounts, h]

@[simp] theorem userLoggedIn_setUsers (d : Disk) (b : Bool) (list : List Account) :
    (d.setUsers b list).userLoggedIn = d.userLoggedIn := by
  cases b <;> rfl

@[simp] theorem tempMembers_setUsers (d : Disk) (b : Bool) (list : List Account) :
    (d.setUsers b list).tempMembers = d.tempMembers := by
  cases b <;> rfl

@[simp] theorem tasks_setUsers (d : Disk) (b : Bool) (list : List Account) :
    (d.setUsers b list).tasks = d.tasks := by
  cases b <;> rfl

end Disk

end TaskManager.Shared
