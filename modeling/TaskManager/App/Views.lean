import TaskManager.App.SingleRoute

/-!
# What the screens show

What the components return, as far as it can be read or touched.  A user event of
`App.handle` is one handler of one component; `Offered` says that the screen with the focus
has an element that calls it.

`Home` has two `return`s, one after the other, so that the second one (`Home.taskView`, the
only place from which `createTask` is called) is never reached.  The functions below take the
view of `Home` as an argument, to say what either of them would do.

## Main results

* `noTask_of_offered` — with the `return` that is reached, nothing on `HOME` opens a task.
* `isAdmin_of_offered` — with the other one, only what it shows to an admin does.
-/

namespace TaskManager.App

open TaskManager.Verified.JsText
open TaskManager.Verified.EventLoop
open TaskManager.Shared
open TaskManager.Pages
open TaskManager.Routes

/-! ## Elements -/

/-- What the user brings along: a text, a day, and the clock when a screen is opened. -/
structure Touch where
  val : JsString := []
  day : Nat := 0
  dates : Nat × Nat := (0, 0)

/-- Layout and styles are left out. -/
inductive Element (E : Type) where
  | text (content : JsString)
  | pressable (content : JsString) (onPress : E)
  /-- a press that opens a screen, which reads the clock twice -/
  | opener (content : JsString) (onPress : Nat × Nat → E)
  | input (value placeholder : JsString) (onChangeText : JsString → E)
  | switch (value : Bool) (onValueChange : E)
  | date (day : Nat) (onPress : E)
  | picker (isOpen : Bool) (date : Nat) (minimumDate : Option Nat) (onConfirm : Nat → E)
      (onCancel : E)

namespace Element

variable {E E' : Type}

/-- The same element, with other events. -/
def map (f : E → E') : Element E → Element E'
  | .text content => .text content
  | .pressable content onPress => .pressable content (f onPress)
  | .opener content onPress => .opener content fun dates => f (onPress dates)
  | .input value placeholder onChangeText =>
      .input value placeholder fun val => f (onChangeText val)
  | .switch value onValueChange => .switch value (f onValueChange)
  | .date day onPress => .date day (f onPress)
  | .picker isOpen day minimumDate onConfirm onCancel =>
      .picker isOpen day minimumDate (fun chosen => f (onConfirm chosen)) (f onCancel)

/-- The handlers that a touch calls. -/
def touched (t : Touch) : Element E → List E
  | .text _ => []
  | .pressable _ onPress => [onPress]
  | .opener _ onPress => [onPress t.dates]
  | .input _ _ onChangeText => [onChangeText t.val]
  | .switch _ onValueChange => [onValueChange]
  | .date _ onPress => [onPress]
  | .picker isOpen _ minimumDate onConfirm onCancel =>
      if isOpen then
        onCancel :: if minimumDate.all fun least => least ≤ t.day then [onConfirm t.day] else []
      else []

theorem touched_map (t : Touch) (f : E → E') (element : Element E) :
    (element.map f).touched t = (element.touched t).map f := by
  cases element with
  | picker isOpen day minimumDate onConfirm onCancel =>
      simp only [map, touched]
      split
      · split <;> rfl
      · rfl
  | text _ => rfl
  | pressable _ _ => rfl
  | opener _ _ => rfl
  | input _ _ _ => rfl
  | switch _ _ => rfl
  | date _ _ => rfl

end Element

/-- The handlers that a touch somewhere on the view calls. -/
def touchedOn {E : Type} (t : Touch) (elements : List (Element E)) : List E :=
  elements.flatMap (Element.touched t)

theorem touchedOn_map {E E' : Type} (t : Touch) (f : E → E') (elements : List (Element E)) :
    touchedOn t (elements.map (Element.map f)) = (touchedOn t elements).map f := by
  simp only [touchedOn, List.flatMap_map, List.map_flatMap, Element.touched_map]

/-! ## The views -/

/-- `{!field.isValid && <Text>{field.errMsg}</Text>}` -/
def errorOf {E : Type} (field : Field) : List (Element E) :=
  if field.isValid then [] else [.text (js field.errMsg)]

/-- The view of `LOGIN`, with nothing to touch while it loads. -/
def Login.view (s : Login.State) : List (Element Login.Event) :=
  if s.isLoading then [.text (js "Loading...")]
  else
    [ .text (js "Login")
    , .text (js "Email ")
    , .input s.email.val (js "Please Enter Your Email address") .changeEmail ]
      ++ errorOf s.email
      ++ [ .text (js "Password")
         , .input s.password.val (js "Please Enter Password") .changePassword ]
      ++ errorOf s.password
      ++ [ .pressable (js "Login") .handleSubmit
         , .text (js "Admin")
         , .switch (!s.isAdmin) .toggleSwitch
         , .text (js "Member")
         , .text (js s.error)
         , .pressable (js "New to the management? click here") .signupLink ]

/-- The view of `SIGNUP`. -/
def Signup.view (s : Signup.State) : List (Element Signup.Event) :=
  [ .text (js "Signup")
  , .text (js "Name")
  , .input s.name.val (js "Please Enter Your Name") .changeName ]
    ++ errorOf s.name
    ++ [ .text (js "Email")
       , .input s.email.val (js "Please Enter Your Email address") .changeEmail ]
    ++ errorOf s.email
    ++ [ .text (js "Password")
       , .input s.password.val (js "Please Enter Password") .changePassword ]
    ++ errorOf s.password
    ++ [ .text (js s.error)
       , .pressable (js "Sign up") .handleSubmit
       , .text (js "Admin")
       , .switch (!s.isAdmin) .toggleSwitch
       , .text (js "Member")
       , .pressable (js "Already have an account? click here") .loginLink ]

/-- `userInfo?.name`, which renders nothing when it is undefined. -/
def userName : Home.UserInfo → JsString
  | .loaded (some u) => u.name
  | _ => []

/-- `userInfo?.isAdmin`, as a condition. -/
def isAdminInfo : Home.UserInfo → Bool
  | .loaded (some u) => u.isAdmin
  | _ => false

/-- The first `return`. -/
def Home.view (s : Home.State) : List (Element Home.Event) :=
  [ .text (js "Welcome " ++ userName s.userInfo ++ js ", you are now logged in!")
  , .pressable (js "Log out") .logout ]

/-- The second `return`. -/
def Home.taskView (s : Home.State) : List (Element Home.Event) :=
  [.text (js "Hi " ++ userName s.userInfo)]
    ++ (if isAdminInfo s.userInfo then [.opener (js "Create") .createTask] else [])
    ++ [ .text (js "Home Screen")
       , .pressable (js "Log out") .logout ]

/-- The view of `CREATE`. -/
def TaskCreation.view (s : TaskCreation.State) : List (Element TaskCreation.Event) :=
  [ .pressable (js "arrowleft") .handleBack
  , .text (js "Create New Task")
  , .text (js "Name")
  , .input s.name.val (js "Please enter task name") .changeName ]
    ++ errorOf s.name
    ++ [ .text (js "Description")
       , .input s.desc.val (js "Please enter task description") .changeDesc ]
    ++ errorOf s.desc
    ++ [ .pressable (js "Created date") (.pressLabel .created)
       , .picker s.openCDate s.createdDate none (.confirm .created) (.cancel .created)
       , .date s.createdDate (.pressDate .created)
       , .pressable (js "Last date") (.pressLabel .ended)
       , .picker s.openEDate s.endDate (some s.createdDate) (.confirm .ended) (.cancel .ended)
       , .date s.endDate (.pressDate .ended)
       , .pressable (js "+ Add members") .addMembers ]
    ++ s.membersList.flatMap fun item => [.text item.name, .text item.value]

/-- The view of `LIST`, with two elements for each row. -/
def MembersList.view (s : MembersList.State) : List (Element MembersList.Event) :=
  [ .pressable (js "arrowleft") .arrow
  , .text (js "Members List")
  , .pressable (js "Save") .handleSubmit ]
    ++ s.shown.zipIdx.flatMap fun row =>
        [ .pressable row.1.name (.memberPress row.2)
        , .input row.1.value [] (.memberValChange row.2) ]

/-- What the screen with the focus shows, with the given view of `Home`. -/
def view (home : Home.State → List (Element Home.Event)) : Screen → List (Element Event)
  | .AUTH (.LOGIN s) => (Login.view s).map (Element.map .login)
  | .AUTH (.SIGNUP s) => (Signup.view s).map (Element.map .signup)
  | .HOME s => (home s).map (Element.map .home)
  | .CREATE s => (TaskCreation.view s).map (Element.map .create)
  | .LIST s => (MembersList.view s).map (Element.map .list)

/-- The events that are offered; the back action is the system's, and always there. -/
def events (home : Home.State → List (Element Home.Event)) (t : Touch) (ui : Ui) : List Event :=
  .systemBack :: touchedOn t (view home ui.focused.screen)

/-- Some touch of the screen with the focus is the event. -/
def Offered (home : Home.State → List (Element Home.Event)) (ui : Ui) (e : Event) : Prop :=
  ∃ t, e ∈ events home t ui

/-- The touch an event tells of. -/
def touchOf : Event → Touch
  | .login (.changeEmail val) => { val := val }
  | .login (.changePassword val) => { val := val }
  | .signup (.changeName val) => { val := val }
  | .signup (.changeEmail val) => { val := val }
  | .signup (.changePassword val) => { val := val }
  | .home (.createTask dates) => { dates := dates }
  | .create (.changeName val) => { val := val }
  | .create (.changeDesc val) => { val := val }
  | .create (.confirm _ day) => { day := day }
  | .list (.memberValChange _ val) => { val := val }
  | _ => {}

/-! ## What is offered -/

theorem home_of_offered {home : Home.State → List (Element Home.Event)} {ui : Ui}
    {e : Home.Event} (h : Offered home ui (.home e)) :
    ∃ s t, ui.focused.screen = .HOME s ∧ e ∈ touchedOn t (home s) := by
  obtain ⟨t, hEvent⟩ := h
  rcases List.mem_cons.mp hEvent with hBack | hTouched
  · nomatch hBack
  cases hs : ui.focused.screen with
  | HOME s =>
      rw [hs, view, touchedOn_map, List.mem_map] at hTouched
      obtain ⟨e', hHome, hSame⟩ := hTouched
      cases hSame
      exact ⟨s, t, rfl, hHome⟩
  | AUTH auth =>
      cases auth <;>
      · rw [hs, view, touchedOn_map, List.mem_map] at hTouched
        obtain ⟨_, -, hOther⟩ := hTouched
        nomatch hOther
  | CREATE s =>
      rw [hs, view, touchedOn_map, List.mem_map] at hTouched
      obtain ⟨_, -, hOther⟩ := hTouched
      nomatch hOther
  | LIST s =>
      rw [hs, view, touchedOn_map, List.mem_map] at hTouched
      obtain ⟨_, -, hOther⟩ := hTouched
      nomatch hOther

/-- **Nothing on `HOME` opens a task.** -/
theorem noTask_of_offered {ui : Ui} {e : Event} (h : Offered Home.view ui e) : NoTask e := by
  unfold NoTask
  split
  · obtain ⟨s, t, -, hTouched⟩ := home_of_offered h
    simp [touchedOn, Home.view, Element.touched] at hTouched
  · trivial

/-- **With the view that is not reached**, a task is opened from a `HOME` that shows an
admin. -/
theorem isAdmin_of_offered {ui : Ui} {dates : Nat × Nat}
    (h : Offered Home.taskView ui (.home (.createTask dates))) :
    ∃ u, ui.focused.screen = .HOME { userInfo := .loaded (some u) } ∧ u.isAdmin = true := by
  obtain ⟨⟨info⟩, t, hs, hTouched⟩ := home_of_offered h
  by_cases hAdmin : isAdminInfo info = true
  · cases info with
    | initial => nomatch hAdmin
    | loaded info =>
        cases info with
        | none => nomatch hAdmin
        | some u => exact ⟨u, hs, hAdmin⟩
  · simp [touchedOn, Home.taskView, hAdmin, Element.touched] at hTouched

end TaskManager.App
