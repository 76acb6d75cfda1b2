import TaskManager.Verified.JsText

/-!
# What a screen's handlers do between two awaits

A handler changes its own screen's state through the `useState` setters, asks
the navigator to move, and issues storage requests.  `Effect` records one
uninterrupted stretch of it.  In every handler of the application the
navigation call comes before the setters and the request of the same stretch,
and `Effect` is executed in that order.
-/

namespace TaskManager.Shared

open TaskManager.Verified.JsText

/-! ## Navigation commands -/

/-- The screens a handler names.  `LOGIN` and `SIGNUP` are nested in `AUTH`. -/
inductive RouteName where
  | AUTH
  | LOGIN
  | SIGNUP
  | HOME
  | CREATE
  | LIST
  deriving DecidableEq, Repr

/-- The calls on `navigation`.  `dates` is what the two `new Date()` of a
freshly opened `CREATE` read; the other screens do not look at it. -/
inductive Nav where
  | replace (name : RouteName)
  | navigate (name : RouteName) (dates : Nat × Nat := (0, 0))
  | reset (name : RouteName)
  | goBack
  deriving DecidableEq, Repr

/-- One stretch of a handler of a screen with state `σ`, up to the requests it
waits for, named by `α`. -/
structure Effect (σ α : Type) where
  navigate : Option Nav := none
  update : σ → σ := id
  requests : List α := []

/-! ## Form fields -/

/-- The state of a text input. -/
structure Field where
  val : JsString := []
  isValid : Bool := true
  errMsg : String := ""
  deriving DecidableEq, Repr

/-- What `onChangeText` sets. -/
def Field.typed (val : JsString) : Field := { val := val }

/-- The common shape of the validators: the value, marked with the error
message when `bad` holds. -/
def Field.check (val : JsString) (bad : Bool) (errMsg : String) : Field :=
  if bad then { val := val, isValid := false, errMsg := errMsg }
  else { val := val, isValid := true, errMsg := "" }

@[simp] theorem Field.check_isValid (val : JsString) (bad : Bool) (errMsg : String) :
    (Field.check val bad errMsg).isValid = !bad := by
  cases bad <;> rfl

/-- The fields that `handleValidation` tells apart. -/
inductive FieldType where
  | EMAIL
  | PASSWORD
  | NAME
  deriving DecidableEq, Repr

end TaskManager.Shared
