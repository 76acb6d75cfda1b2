import TaskManager.Verified.Pattern
import TaskManager.Verified.JsText

/-!
# Constants of the application

The storage keys and the email pattern of `shared/Constants.js`.
-/

namespace TaskManager.Shared

open TaskManager.Verified.Pattern
open TaskManager.Verified.JsText

/-- The keys of the store.  The strings they stand for are different. -/
inductive StorageKey where
  | USER_ADMIN_KEY
  | USER_MEMBER_KEY
  | USER_LOGGEDIN_KEY
  | TASKS_KEY
  | TEMP_MEMBERS
  deriving DecidableEq, Repr

/-- `/^\w+@[a-zA-Z_]+?\.[a-zA-Z]{2,3}$/` -/
def EMAIL_VALIDATION : List (Node UInt16) :=
  [ .start
  , .many isWordChar 1 none true
  , .one (isChar '@')
  , .many (fun u => isLetter u || isChar '_' u) 1 none false
  , .one (isChar '.')
  , .many isLetter 2 (some 3) true
  , .finish ]

/-- `EMAIL_VALIDATION.test(val)` -/
def emailValid (val : JsString) : Bool := test EMAIL_VALIDATION val

/-- The pattern asks for an email that is not empty. -/
theorem emailValid_ne_nil {email : JsString} (h : emailValid email = true) : email ≠ [] := by
  rintro rfl
  exact absurd h (by decide)

example : (["a@b.co", "ann_1@ex_ample.com"].map fun s => emailValid (js s)) =
    [true, true] := by
  decide

example : (["", "a@b.c", "a@b.comm", "a.b@c.com", "a@b1.com", "a@b.co\n"].map
    fun s => emailValid (js s)) = [false, false, false, false, false, false] := by
  decide

end TaskManager.Shared
