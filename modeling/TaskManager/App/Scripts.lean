import TaskManager.App

/-!
# Sequences of actions

Stretches of runs that users and the store go through: filling in a form, and
the completion of the oldest request.
-/

namespace TaskManager.App

open TaskManager.Verified.JsText
open TaskManager.Verified.EventLoop
open TaskManager.Shared
open TaskManager.Pages
open TaskManager.Routes

/-- What is seen at the end of a run that was carried out. -/
theorem seen_of_run {α : Type} {xs : List Action} {s : State} (hRun : run xs = some s)
    {f : State → α} {a : α} (hSeen : (run xs).map f = some a) : f s = a := by
  rw [hRun] at hSeen
  exact Option.some.inj hSeen

/-- The oldest request is performed and reported. -/
def answered : List Action := [.serve 0, .resolve 0]

/-- The oldest mount or focus callback runs, and its request completes with
nothing else waiting. -/
def loaded : List Action := .effect 0 :: answered

/-- The two fields of `LOGIN` are typed. -/
def fillLogin (email password : JsString) : List Action :=
  [.user (.login (.changeEmail email)), .user (.login (.changePassword password))]

/-- The three fields of `SIGNUP` are typed. -/
def fillSignup (email password name : JsString) : List Action :=
  [ .user (.signup (.changeEmail email))
  , .user (.signup (.changePassword password))
  , .user (.signup (.changeName name)) ]

/-- The link below the form of `LOGIN`. -/
def openSignup : Action := .user (.login .signupLink)

/-- The role switch of `SIGNUP`. -/
def toggleRole : Action := .user (.signup .toggleSwitch)

/-- The button of `LOGIN`. -/
def pressLogin : Action := .user (.login .handleSubmit)

/-- The button of `SIGNUP`. -/
def pressSignup : Action := .user (.signup .handleSubmit)

/-- The button of `HOME`. -/
def pressLogout : Action := .user (.home .logout)

/-- From `LOGIN`, someone signs up, and `HOME` loads. -/
def signUp (email password name : JsString) (isAdmin : Bool) : List Action :=
  [openSignup] ++ fillSignup email password name ++ (if isAdmin then [toggleRole] else [])
    ++ [pressSignup] ++ answered ++ answered ++ answered ++ loaded

/-- The session is removed, and `LOGIN` finds none. -/
def logOut : List Action := [pressLogout] ++ answered ++ loaded

/-- `CREATE` is opened from `HOME`, and its load completes. -/
def openTask : List Action := .user (.home (.createTask (0, 0))) :: loaded

/-- `LIST` is opened from `CREATE`, finds no draft and loads the members. -/
def openMembers : List Action := .user (.create .addMembers) :: loaded ++ answered

/-- A press on the `i`-th row of `LIST`. -/
def pressMember (i : Nat) : Action := .user (.list (.memberPress i))

/-- Save completes, and `CREATE` loads again. -/
def saveMembers : List Action := .user (.list .handleSubmit) :: answered ++ loaded

/-- The arrow of `CREATE`. -/
def pressBack : Action := .user (.create .handleBack)

end TaskManager.App
