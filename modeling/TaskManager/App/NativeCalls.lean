import TaskManager.App.TextStore
import TaskManager.Shared.Ios

/-!
# The requests as native calls

`getItem(key)` is `multiGet([key])`, and so on.  `textCalls` are the calls of the application
over texts, with what it goes on with when the callback is invoked.
-/

namespace TaskManager.App

open TaskManager.Verified.JsText
open TaskManager.Verified.Json
open TaskManager.Verified.EventLoop
open TaskManager.Shared
open TaskManager.Pages
open TaskManager.Routes

/-- `value.length <= RCTInlineValueThreshold` -/
def isInline (value : JsString) : Bool := value.length ≤ 1024

/-- The native call that a request of the application turns into. -/
def nativeCall (a : Await) : NativeCall StorageKey JsString :=
  match a with
  | .login (.isUserLoggedIn _) => .multiGet .USER_LOGGEDIN_KEY
  | .login (.getUsers call) => .multiGet (usersKey call.isAdmin)
  | .login (.setLoggedIn _ record) => .multiSet .USER_LOGGEDIN_KEY (accountText record)
  | .signup (.getUsers call) => .multiGet (usersKey call.isAdmin)
  | .signup (.setUsers call data) =>
      .multiSet (usersKey call.isAdmin) (recordsText Account.toJson (call.account :: data))
  | .signup (.setLoggedIn call) => .multiSet .USER_LOGGEDIN_KEY (accountText call.account)
  | .home (.getUserInfo _) => .multiGet .USER_LOGGEDIN_KEY
  | .home (.logout _ _) => .multiRemove .USER_LOGGEDIN_KEY
  | .create (.fetchMembers _) => .multiGet .TEMP_MEMBERS
  | .create .handleBack => .multiRemove .TEMP_MEMBERS
  | .list (.getDraft _) => .multiGet .TEMP_MEMBERS
  | .list (.getMembers _) => .multiGet .USER_MEMBER_KEY
  | .list (.handleSubmit _ list) => .multiSet .TEMP_MEMBERS (recordsText Member.toJson list)

/-- The value `getItem` resolves with. -/
def itemOf (r : Reply JsString) : Option JsString :=
  match r with
  | .value v => v.filter fun text => !text.isEmpty
  | _ => none

/-- The continuation that runs on the reply: a read goes on with its text, and a write with
nothing. -/
def nativeAnswer (a : Await) (r : Reply JsString) : TextReady :=
  match a with
  | .login (.isUserLoggedIn key) => .read (.isUserLoggedIn key) (itemOf r)
  | .login (.getUsers call) => .read (.loginUsers call) (itemOf r)
  | .login (.setLoggedIn call record) => .wrote (.login (.setLoggedIn call record))
  | .signup (.getUsers call) => .read (.signupUsers call) (itemOf r)
  | .signup (.setUsers call _) => .wrote (.signup (.setUsers call))
  | .signup (.setLoggedIn call) => .wrote (.signup (.setLoggedIn call))
  | .home (.getUserInfo key) => .read (.getUserInfo key) (itemOf r)
  | .home (.logout id key) => .wrote (.home (.logout id key))
  | .create (.fetchMembers key) => .read (.fetchMembers key) (itemOf r)
  | .create .handleBack => .wrote (.create .handleBack)
  | .list (.getDraft key) => .read (.getDraft key) (itemOf r)
  | .list (.getMembers key) => .read (.getMembers key) (itemOf r)
  | .list (.handleSubmit key _) => .wrote (.list (.handleSubmit key))

theorem setItem_eq (d : Texts) (key : StorageKey) (text : JsString) :
    d.setItem key text = Function.update d key (some text) := by
  funext k
  simp [Texts.setItem, Function.update_apply]

theorem removeItem_eq (d : Texts) (key : StorageKey) :
    d.removeItem key = Function.update d key none := by
  funext k
  simp [Texts.removeItem, Function.update_apply]

theorem serveText_native (a : Await) (d : Texts) :
    serveText a d =
      (Function.update d (nativeCall a).key ((nativeCall a).result (d (nativeCall a).key)),
        nativeAnswer a ((nativeCall a).reply (d (nativeCall a).key))) := by
  have hRead : ∀ key, d = Function.update d key (d key) := fun key =>
    (Function.update_eq_self key d).symm
  cases a with
  | login a =>
      cases a with
      | isUserLoggedIn key => exact congrArg (·, _) (hRead .USER_LOGGEDIN_KEY)
      | getUsers call => exact congrArg (·, _) (hRead (usersKey call.isAdmin))
      | setLoggedIn call record => exact congrArg (·, _) (setItem_eq d _ _)
  | signup a =>
      cases a with
      | getUsers call => exact congrArg (·, _) (hRead (usersKey call.isAdmin))
      | setUsers call data => exact congrArg (·, _) (setItem_eq d _ _)
      | setLoggedIn call => exact congrArg (·, _) (setItem_eq d _ _)
  | home a =>
      cases a with
      | getUserInfo key => exact congrArg (·, _) (hRead .USER_LOGGEDIN_KEY)
      | logout id key => exact congrArg (·, _) (removeItem_eq d _)
  | create a =>
      cases a with
      | fetchMembers key => exact congrArg (·, _) (hRead .TEMP_MEMBERS)
      | handleBack => exact congrArg (·, _) (removeItem_eq d _)
  | list a =>
      cases a with
      | getDraft key => exact congrArg (·, _) (hRead .TEMP_MEMBERS)
      | getMembers key => exact congrArg (·, _) (hRead .USER_MEMBER_KEY)
      | handleSubmit key list => exact congrArg (·, _) (setItem_eq d _ _)

/-- The application over texts makes its requests by native calls. -/
def textCalls : Calls textApp where
  call := nativeCall
  answer := nativeAnswer
  serve := serveText_native

end TaskManager.App
