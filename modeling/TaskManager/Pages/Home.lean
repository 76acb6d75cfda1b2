import TaskManager.Shared.Storage
import TaskManager.Shared.Component

/-!
# `pages/home/Home.js`

The component returns its first view; the second one, with the `Create` text,
is never reached.  `createTask` is kept as an event all the same: it is the
only way the source has to open `CREATE`.
-/

namespace TaskManager.Pages.Home

open TaskManager.Shared

/-- `useState({})`, and what `setUserInfo(JSON.parse(info))` leaves. -/
inductive UserInfo where
  | initial
  | loaded (info : Option Account)
  deriving DecidableEq, Repr

/-- `HOME` keeps the record it has read, and nothing else. -/
structure State where
  userInfo : UserInfo := .initial
  deriving DecidableEq, Repr

/-- The calls of the screen on the store: the read of the session as it mounts, and its
removal by the logout. -/
inductive Await where
  | getUserInfo (key : Nat)
  | logout (id : Nat) (key : Nat)
  deriving DecidableEq, Repr

/-- A call that has been performed, with what it has read. -/
inductive Ready where
  | getUserInfo (key : Nat) (info : Option Account)
  | logout (id : Nat) (key : Nat)
  deriving DecidableEq, Repr

/-- What the store does: only the logout writes, and removes the session. -/
def Await.serve (d : Disk) : Await → Disk × Ready
  | .getUserInfo key => (d, .getUserInfo key d.userLoggedIn)
  | .logout id key => ({ d with userLoggedIn := none }, .logout id key)

/-- The screen instance whose handler waits. -/
def Ready.key : Ready → Nat
  | .getUserInfo key _ => key
  | .logout _ key => key

/-- The rest of a handler: the record is kept, or the stack is reset to `AUTH`. -/
def Ready.resume : Ready → Effect State Await
  | .getUserInfo _ info => { update := fun s => { s with userInfo := .loaded info } }
  | .logout _ _ => { navigate := some (.reset .AUTH) }

/-- What a user can do; the dates are those of the two `new Date()` of the screen that opens. -/
inductive Event where
  | logout
  | createTask (dates : Nat × Nat)
  deriving DecidableEq, Repr

/-- The handlers of the two views. -/
def handle (key id : Nat) : Event → Effect State Await
  | .logout => { requests := [.logout id key] }
  | .createTask dates => { navigate := some (.navigate .CREATE dates) }

end TaskManager.Pages.Home
