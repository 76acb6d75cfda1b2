import TaskManager.Shared.Storage
import TaskManager.Shared.Component

/-!
# `pages/home/TaskCreation.js`

The screen shows the part of the stored draft that is selected with a positive
value, and reloads it whenever it gains focus.  The arrow leaves the screen
first and clears the draft afterwards.
-/

namespace TaskManager.Pages.TaskCreation

open TaskManager.Verified.JsText
open TaskManager.Shared

/-- The form, the part of the draft that is shown, and the two pickers; a date is a number. -/
structure State where
  name : Field := {}
  desc : Field := {}
  membersList : List Member := []
  createdDate : Nat
  endDate : Nat
  openCDate : Bool := false
  openEDate : Bool := false
  deriving DecidableEq, Repr

/-- `useState(new Date())`, twice. -/
def State.init (dates : Nat × Nat) : State where
  createdDate := dates.1
  endDate := dates.2

/-- The calls on the store: the read of the draft at each focus, and its removal by the arrow. -/
inductive Await where
  | fetchMembers (key : Nat)
  | handleBack
  deriving DecidableEq, Repr

/-- A call that has been performed, with what it has read. -/
inductive Ready where
  | fetchMembers (key : Nat) (list : Option (List Member))
  | handleBack
  deriving DecidableEq, Repr

/-- Only the arrow writes, and removes the draft. -/
def Await.serve (d : Disk) : Await → Disk × Ready
  | .fetchMembers key => (d, .fetchMembers key d.tempMembers)
  | .handleBack => ({ d with tempMembers := none }, .handleBack)

/-- `(list || []).filter(e => e.isSelected && e.value > 0)` -/
def requiredMembers (list : Option (List Member)) : List Member :=
  (list.getD []).filter fun e => e.isSelected && isPositive e.value

/-- The rest of a handler; after the removal there is nothing left to do. -/
def Ready.resume : Ready → Effect State Await
  | .fetchMembers _ list =>
      { update := fun s => { s with membersList := requiredMembers list } }
  | .handleBack => {}

/-- The two date pickers of the form. -/
inductive Picker where
  | created
  | ended
  deriving DecidableEq, Repr

/-- `openCDate` and `openEDate`. -/
def State.isOpen (s : State) : Picker → Bool
  | .created => s.openCDate
  | .ended => s.openEDate

/-- `setOpenCDate` and `setOpenEDate`. -/
def State.setOpen (s : State) (b : Bool) : Picker → State
  | .created => { s with openCDate := b }
  | .ended => { s with openEDate := b }

/-- `setCreatedDate` and `setEndDate`. -/
def State.setDate (s : State) (date : Nat) : Picker → State
  | .created => { s with createdDate := date }
  | .ended => { s with endDate := date }

/-- What a user can do on the form. -/
inductive Event where
  | changeName (val : JsString)
  | changeDesc (val : JsString)
  /-- the label above a date -/
  | pressLabel (p : Picker)
  /-- the date itself -/
  | pressDate (p : Picker)
  | confirm (p : Picker) (date : Nat)
  | cancel (p : Picker)
  | addMembers
  | handleBack
  deriving DecidableEq, Repr

/-- The handlers of the form; nothing the user types goes to the store. -/
def handle : Event → Effect State Await
  | .changeName val => { update := fun s => { s with name := .typed val } }
  | .changeDesc val => { update := fun s => { s with desc := .typed val } }
  | .pressLabel p => { update := fun s => s.setOpen (!s.isOpen p) p }
  | .pressDate p => { update := fun s => s.setOpen true p }
  | .confirm p date =>
      { update := fun s => (s.setOpen (!s.isOpen p) p).setDate date p }
  | .cancel p => { update := fun s => s.setOpen (!s.isOpen p) p }
  | .addMembers => { navigate := some (.navigate .LIST) }
  | .handleBack => { navigate := some .goBack, requests := [.handleBack] }

@[simp] theorem requiredMembers_none : requiredMembers none = [] := rfl

/-- Only leaving by the arrow issues a request. -/
theorem handle_requests {e : Event} {a : Await} (ha : a ∈ (handle e).requests) :
    e = .handleBack ∧ a = .handleBack := by
  cases e <;> simp_all [handle]

end TaskManager.Pages.TaskCreation
