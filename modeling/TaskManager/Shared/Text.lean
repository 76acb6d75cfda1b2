import TaskManager.Verified.Json
import TaskManager.Shared.Storage

/-!
# Records as JSON texts

What `JSON.stringify` makes of the records that the screens write, and what the
screens find in a text.  A property is looked up by its name, so that the order of
the members does not matter for reading.

The screens read texts that the application has written itself.  A text that is
JSON and holds something else than records is read as `none` here, like a text
that is not JSON.
-/

namespace TaskManager.Shared

open TaskManager.Verified.JsText
open TaskManager.Verified.Json

/-! ## Writing -/

/-- `{email, password, name, isAdmin}`, as `handleSubmit` of `Signup` writes it. -/
def Account.members (a : Account) : List (JsString × Value) :=
  [(js "email", .string a.email), (js "password", .string a.password),
    (js "name", .string a.name), (js "isAdmin", .bool a.isAdmin)]

/-- The object that is written for an account. -/
def Account.toJson (a : Account) : Value := .object a.members

/-- `{isSelected, value, ...item}`: the two defaults of `MembersList` come first, even
where the item has values of its own for them. -/
def Member.toJson (m : Member) : Value :=
  .object ((js "isSelected", .bool m.isSelected) :: (js "value", .string m.value) ::
    m.toAccount.members)

/-- `JSON.stringify` of a list of records. -/
def recordsText {α : Type} (toJson : α → Value) (list : List α) : JsString :=
  stringify (.array (list.map toJson))

/-- `JSON.stringify` of one account. -/
def accountText (a : Account) : JsString := stringify a.toJson

/-! ## Reading -/

/-- A member that is a string. -/
def stringAt (key : String) (v : Value) : Option JsString :=
  match v.get? (js key) with
  | some (.string s) => some s
  | _ => none

/-- A member that is a boolean. -/
def boolAt (key : String) (v : Value) : Option Bool :=
  match v.get? (js key) with
  | some (.bool b) => some b
  | _ => none

/-- What the screens read of an account. -/
def Account.ofJson (v : Value) : Option Account := do
  let email ← stringAt "email" v
  let password ← stringAt "password" v
  let name ← stringAt "name" v
  let isAdmin ← boolAt "isAdmin" v
  return { email, password, name, isAdmin }

/-- What `TaskCreation` reads of the draft. -/
def Member.ofJson (v : Value) : Option Member := do
  let account ← Account.ofJson v
  let isSelected ← boolAt "isSelected" v
  let value ← stringAt "value" v
  return { account with isSelected, value }

/-- `JSON.parse(item)`, where an absent item is `null`, and its text `null` as well. -/
def parseItem (item : Option JsString) : Option Value := parse (item.getD (js "null"))

/-- A record, or `null`. -/
def readRecord {α : Type} (ofJson : Value → Option α) (item : Option JsString) :
    Option (Option α) :=
  (parseItem item).bind fun
    | .null => some none
    | v => (ofJson v).map some

/-- A list of records, or `null`. -/
def readRecords {α : Type} (ofJson : Value → Option α) (item : Option JsString) :
    Option (Option (List α)) :=
  (parseItem item).bind fun
    | .null => some none
    | .array vs => (vs.mapM ofJson).map some
    | _ => none

/-! ## What is written is read -/

/-- An account is read back from its object. -/
theorem Account.ofJson_toJson (a : Account) : Account.ofJson a.toJson = some a := rfl

/-- So is a member. -/
theorem Member.ofJson_toJson (m : Member) : Member.ofJson m.toJson = some m := rfl

theorem parseItem_none : parseItem none = some .null := parse_stringify .null

/-- A text that was written is read back. -/
theorem parseItem_text (v : Value) : parseItem (some (stringify v)) = some v := parse_stringify v

/-- A record is read back from its text. -/
theorem readRecord_text {α β : Type} {toJson : α → Value} {ofJson : Value → Option β} (f : α → β)
    (h : ∀ a, ofJson (toJson a) = some (f a)) (hNull : ∀ a, toJson a ≠ .null) (record : Option α) :
    readRecord ofJson (record.map fun a => stringify (toJson a)) = some (record.map f) := by
  cases record with
  | none => rw [Option.map_none, readRecord, parseItem_none]; rfl
  | some a =>
      rw [Option.map_some, readRecord, parseItem_text, Option.bind_some]
      split
      · rename_i hSame
        exact absurd hSame (hNull a)
      · rw [h]
        rfl

theorem mapM_map {α β : Type} {toJson : α → Value} {ofJson : Value → Option β} {f : α → β}
    (h : ∀ a, ofJson (toJson a) = some (f a)) (list : List α) :
    (list.map toJson).mapM ofJson = some (list.map f) := by
  induction list with
  | nil => rfl
  | cons a list ih => simp [h, ih]

/-- **A list of records that was written is read, whatever strings it holds.** -/
theorem readRecords_text {α β : Type} {toJson : α → Value} {ofJson : Value → Option β} (f : α → β)
    (h : ∀ a, ofJson (toJson a) = some (f a)) (list : Option (List α)) :
    readRecords ofJson (list.map (recordsText toJson)) = some (list.map (List.map f)) := by
  cases list with
  | none => rw [Option.map_none, readRecords, parseItem_none]; rfl
  | some list =>
      rw [Option.map_some, recordsText, readRecords, parseItem_text, Option.bind_some]
      show ((list.map toJson).mapM ofJson).map some = _
      rw [mapM_map h]
      rfl

example : accountText ⟨js "ann@x.co", js "p\"w", js "Ann", false⟩ =
    js ("\x7b\"email\":\"ann@x.co\",\"password\":\"p\\\"w\",\"name\":\"Ann\"," ++
      "\"isAdmin\":false\x7d") := by
  decide +kernel

end TaskManager.Shared
