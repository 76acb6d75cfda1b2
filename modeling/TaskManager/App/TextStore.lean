import TaskManager.App.Steps
import TaskManager.Shared.Text
import TaskManager.Verified.Morphism

/-!
# The application over a store of texts

`AsyncStorage` holds a text under each key.  Here the screens write texts with
`JSON.stringify` and parse what they read, and `asTexts` maps the application over
records to this one.
-/

namespace TaskManager.App

open TaskManager.Verified.JsText
open TaskManager.Verified.Json
open TaskManager.Verified.EventLoop
open TaskManager.Shared
open TaskManager.Pages
open TaskManager.Routes

/-! ## `AsyncStorage` -/

/-- What the store has: a text under each of its keys, or nothing. -/
abbrev Texts := StorageKey → Option JsString

/-- `getItem(key)`: an empty text is taken for an absent one. -/
def Texts.getItem (d : Texts) (key : StorageKey) : Option JsString :=
  (d key).filter fun text => !text.isEmpty

/-- `setItem(key, text)` -/
def Texts.setItem (d : Texts) (key : StorageKey) (text : JsString) : Texts :=
  fun k => if k = key then some text else d k

/-- `removeItem(key)` -/
def Texts.removeItem (d : Texts) (key : StorageKey) : Texts :=
  fun k => if k = key then none else d k

/-- The key of a role's accounts. -/
def usersKey (isAdmin : Bool) : StorageKey :=
  if isAdmin then .USER_ADMIN_KEY else .USER_MEMBER_KEY

/-! ## Continuations -/

/-- A handler that waits for a text. -/
inductive Read where
  | isUserLoggedIn (key : Nat)
  | loginUsers (call : Login.Call)
  | signupUsers (call : Signup.Call)
  | getUserInfo (key : Nat)
  | fetchMembers (key : Nat)
  | getDraft (key : Nat)
  | getMembers (key : Nat)

/-- A continuation that has been given a text, or has written one. -/
inductive TextReady where
  | read (what : Read) (text : Option JsString)
  | wrote (r : Ready)

/-- What `MembersList` reads, of the draft or of the accounts. -/
def itemOfJson (v : Value) : Option MembersList.Item := do
  let account ← Account.ofJson v
  return { account with isSelected := boolAt "isSelected" v, value := stringAt "value" v }

/-- `fetchMembers` of `MembersList` after the draft has been read. -/
def afterItems (key : Nat) (list : Option (List MembersList.Item)) :
    Effect MembersList.State MembersList.Await :=
  match list with
  | none => { requests := [.getMembers key] }
  | some [] => { requests := [.getMembers key] }
  | some (item :: items) => MembersList.finish (item :: items)

/-- A handler goes on with the text it has read; `none` is one whose `JSON.parse`
throws. -/
def Read.resume (what : Read) (text : Option JsString) (ui : Ui) : Option (Ui × Issued Await) :=
  match what with
  | .isUserLoggedIn key => (readRecord Account.ofJson text).map fun info =>
      app.resume (.login (.isUserLoggedIn key info)) ui
  | .loginUsers call => (readRecords Account.ofJson text).map fun data =>
      app.resume (.login (.getUsers call data)) ui
  | .signupUsers call => (readRecords Account.ofJson text).map fun data =>
      app.resume (.signup (.getUsers call data)) ui
  | .getUserInfo key => (readRecord Account.ofJson text).map fun info =>
      app.resume (.home (.getUserInfo key info)) ui
  | .fetchMembers key => (readRecords Member.ofJson text).map fun list =>
      app.resume (.create (.fetchMembers key list)) ui
  | .getDraft key => (readRecords itemOfJson text).map fun list =>
      ui.perform Screen.onList .list key (afterItems key list)
  | .getMembers key => (readRecords itemOfJson text).map fun list =>
      ui.perform Screen.onList .list key (MembersList.finish (list.getD []))

/-- A handler goes on; one whose `JSON.parse` throws ends there. -/
def TextReady.resume (r : TextReady) (ui : Ui) : Ui × Issued Await :=
  match r with
  | .read what text => (what.resume text ui).getD (ui, {})
  | .wrote r => app.resume r ui

/-- The store performs a request. -/
def serveText (a : Await) (d : Texts) : Texts × TextReady :=
  match a with
  | .login (.isUserLoggedIn key) =>
      (d, .read (.isUserLoggedIn key) (d.getItem .USER_LOGGEDIN_KEY))
  | .login (.getUsers call) => (d, .read (.loginUsers call) (d.getItem (usersKey call.isAdmin)))
  | .login (.setLoggedIn call record) =>
      (d.setItem .USER_LOGGEDIN_KEY (accountText record),
        .wrote (.login (.setLoggedIn call record)))
  | .signup (.getUsers call) => (d, .read (.signupUsers call) (d.getItem (usersKey call.isAdmin)))
  | .signup (.setUsers call data) =>
      (d.setItem (usersKey call.isAdmin) (recordsText Account.toJson (call.account :: data)),
        .wrote (.signup (.setUsers call)))
  | .signup (.setLoggedIn call) =>
      (d.setItem .USER_LOGGEDIN_KEY (accountText call.account),
        .wrote (.signup (.setLoggedIn call)))
  | .home (.getUserInfo key) => (d, .read (.getUserInfo key) (d.getItem .USER_LOGGEDIN_KEY))
  | .home (.logout id key) => (d.removeItem .USER_LOGGEDIN_KEY, .wrote (.home (.logout id key)))
  | .create (.fetchMembers key) => (d, .read (.fetchMembers key) (d.getItem .TEMP_MEMBERS))
  | .create .handleBack => (d.removeItem .TEMP_MEMBERS, .wrote (.create .handleBack))
  | .list (.getDraft key) => (d, .read (.getDraft key) (d.getItem .TEMP_MEMBERS))
  | .list (.getMembers key) => (d, .read (.getMembers key) (d.getItem .USER_MEMBER_KEY))
  | .list (.handleSubmit key list) =>
      (d.setItem .TEMP_MEMBERS (recordsText Member.toJson list),
        .wrote (.list (.handleSubmit key)))

/-- The application over texts: only the store and what it is read by are different. -/
def textApp : Program Texts Await TextReady Ui Event where
  serve := serveText
  resume := TextReady.resume
  handle := app.handle
  launch := app.launch

/-! ## From records to texts -/

/-- The texts of the records. -/
def texts (d : Disk) : Texts
  | .USER_ADMIN_KEY => d.userAdmin.map (recordsText Account.toJson)
  | .USER_MEMBER_KEY => d.userMember.map (recordsText Account.toJson)
  | .USER_LOGGEDIN_KEY => d.userLoggedIn.map accountText
  | .TASKS_KEY => d.tasks
  | .TEMP_MEMBERS => d.tempMembers.map (recordsText Member.toJson)

/-- A continuation over records, with the texts they were read from. -/
def readyText : Ready → TextReady
  | .login (.isUserLoggedIn key info) => .read (.isUserLoggedIn key) (info.map accountText)
  | .login (.getUsers call data) =>
      .read (.loginUsers call) (data.map (recordsText Account.toJson))
  | .signup (.getUsers call data) =>
      .read (.signupUsers call) (data.map (recordsText Account.toJson))
  | .home (.getUserInfo key info) => .read (.getUserInfo key) (info.map accountText)
  | .create (.fetchMembers key list) =>
      .read (.fetchMembers key) (list.map (recordsText Member.toJson))
  | .list (.getDraft key list) => .read (.getDraft key) (list.map (recordsText Member.toJson))
  | .list (.getMembers key list) =>
      .read (.getMembers key) (list.map (recordsText Account.toJson))
  | .login (.setLoggedIn call record) => .wrote (.login (.setLoggedIn call record))
  | .signup (.setUsers call) => .wrote (.signup (.setUsers call))
  | .signup (.setLoggedIn call) => .wrote (.signup (.setLoggedIn call))
  | .home (.logout id key) => .wrote (.home (.logout id key))
  | .create .handleBack => .wrote (.create .handleBack)
  | .list (.handleSubmit key) => .wrote (.list (.handleSubmit key))

theorem stringify_ne_nil (v : Value) : stringify v ≠ [] := by
  obtain ⟨u, us, hText, -⟩ := starts_stringify v
  simp [hText]

/-- No text that the application writes is empty. -/
theorem getItem_written {α : Type} {d : Texts} {key : StorageKey} (toJson : α → Value)
    {item : Option α} (h : d key = item.map fun a => stringify (toJson a)) :
    d.getItem key = item.map fun a => stringify (toJson a) := by
  rw [Texts.getItem, h]
  cases item with
  | none => rfl
  | some a => simp [stringify_ne_nil]

theorem getItem_session (d : Disk) :
    (texts d).getItem .USER_LOGGEDIN_KEY = d.userLoggedIn.map accountText :=
  getItem_written Account.toJson rfl

theorem getItem_draft (d : Disk) :
    (texts d).getItem .TEMP_MEMBERS = d.tempMembers.map (recordsText Member.toJson) :=
  getItem_written (fun list : List Member => .array (list.map Member.toJson)) rfl

theorem getItem_users (d : Disk) (isAdmin : Bool) :
    (texts d).getItem (usersKey isAdmin) =
      (d.getUsers isAdmin).map (recordsText Account.toJson) := by
  cases isAdmin <;>
    exact getItem_written (fun list : List Account => .array (list.map Account.toJson)) rfl

theorem setItem_session (d : Disk) (record : Account) :
    (texts d).setItem .USER_LOGGEDIN_KEY (accountText record) =
      texts { d with userLoggedIn := some record } := by
  funext key
  cases key <;> rfl

theorem removeItem_session (d : Disk) :
    (texts d).removeItem .USER_LOGGEDIN_KEY = texts { d with userLoggedIn := none } := by
  funext key
  cases key <;> rfl

theorem setItem_draft (d : Disk) (list : List Member) :
    (texts d).setItem .TEMP_MEMBERS (recordsText Member.toJson list) =
      texts { d with tempMembers := some list } := by
  funext key
  cases key <;> rfl

theorem removeItem_draft (d : Disk) :
    (texts d).removeItem .TEMP_MEMBERS = texts { d with tempMembers := none } := by
  funext key
  cases key <;> rfl

theorem setItem_users (d : Disk) (isAdmin : Bool) (list : List Account) :
    (texts d).setItem (usersKey isAdmin) (recordsText Account.toJson list) =
      texts (d.setUsers isAdmin list) := by
  funext key
  cases isAdmin <;> cases key <;> rfl

/-- Serving a request over texts is serving it over records. -/
theorem serveText_texts (a : Await) (d : Disk) :
    serveText a (texts d) = (texts (app.serve a d).1, readyText (app.serve a d).2) := by
  cases a with
  | login a =>
      cases a with
      | isUserLoggedIn key => rw [serveText, getItem_session]; rfl
      | getUsers call => rw [serveText, getItem_users]; rfl
      | setLoggedIn call record => rw [serveText, setItem_session]; rfl
  | signup a =>
      cases a with
      | getUsers call => rw [serveText, getItem_users]; rfl
      | setUsers call data => rw [serveText, setItem_users]; rfl
      | setLoggedIn call => rw [serveText, setItem_session]; rfl
  | home a =>
      cases a with
      | getUserInfo key => rw [serveText, getItem_session]; rfl
      | logout id key => rw [serveText, removeItem_session]; rfl
  | create a =>
      cases a with
      | fetchMembers key => rw [serveText, getItem_draft]; rfl
      | handleBack => rw [serveText, removeItem_draft]; rfl
  | list a =>
      cases a with
      | getDraft key => rw [serveText, getItem_draft]; rfl
      | getMembers key =>
          rw [serveText, show StorageKey.USER_MEMBER_KEY = usersKey false from rfl, getItem_users]
          rfl
      | handleSubmit key list => rw [serveText, setItem_draft]; rfl

/-! ## Reading back -/

theorem readRecord_account (record : Option Account) :
    readRecord Account.ofJson (record.map accountText) = some record := by
  have hRead := readRecord_text id Account.ofJson_toJson
    (fun _ => by simp [Account.toJson]) record
  rwa [Option.map_id] at hRead

theorem readRecords_accounts (list : Option (List Account)) :
    readRecords Account.ofJson (list.map (recordsText Account.toJson)) = some list := by
  have hRead := readRecords_text id Account.ofJson_toJson list
  rwa [List.map_id_fun, Option.map_id] at hRead

theorem readRecords_members (list : Option (List Member)) :
    readRecords Member.ofJson (list.map (recordsText Member.toJson)) = some list := by
  have hRead := readRecords_text id Member.ofJson_toJson list
  rwa [List.map_id_fun, Option.map_id] at hRead

theorem itemOfJson_member (m : Member) :
    itemOfJson m.toJson = some (MembersList.Item.ofMember m) := rfl

theorem itemOfJson_account (a : Account) :
    itemOfJson a.toJson = some (MembersList.Item.ofAccount a) := rfl

theorem afterItems_ofMember (key : Nat) (list : Option (List Member)) :
    afterItems key (list.map (List.map MembersList.Item.ofMember)) =
      MembersList.afterDraft key list := by
  rcases list with _ | _ | ⟨m, ms⟩ <;> rfl

/-- A handler that waits with a text parses it, and does what it does with the records. -/
theorem resume_read {r : Ready} {what : Read} {text : Option JsString}
    (h : readyText r = .read what text) (ui : Ui) :
    what.resume text ui = some (app.resume r ui) := by
  cases r with
  | login r =>
      cases r with
      | isUserLoggedIn key info =>
          cases h
          rw [Read.resume, readRecord_account]
          rfl
      | getUsers call data =>
          cases h
          rw [Read.resume, readRecords_accounts]
          rfl
      | setLoggedIn call record => cases h
  | signup r =>
      cases r with
      | getUsers call data =>
          cases h
          rw [Read.resume, readRecords_accounts]
          rfl
      | setUsers call => cases h
      | setLoggedIn call => cases h
  | home r =>
      cases r with
      | getUserInfo key info =>
          cases h
          rw [Read.resume, readRecord_account]
          rfl
      | logout id key => cases h
  | create r =>
      cases r with
      | fetchMembers key list =>
          cases h
          rw [Read.resume, readRecords_members]
          rfl
      | handleBack => cases h
  | list r =>
      cases r with
      | getDraft key list =>
          cases h
          rw [Read.resume, readRecords_text MembersList.Item.ofMember itemOfJson_member,
            Option.map_some, afterItems_ofMember]
          rfl
      | getMembers key list =>
          cases h
          rw [Read.resume, readRecords_text MembersList.Item.ofAccount itemOfJson_account,
            Option.map_some]
          cases list <;> rfl
      | handleSubmit key => cases h

theorem eq_of_wrote {r r' : Ready} (h : readyText r = .wrote r') : r' = r := by
  cases r with
  | login r => cases r <;> cases h; rfl
  | signup r => cases r <;> cases h <;> rfl
  | home r => cases r <;> cases h; rfl
  | create r => cases r <;> cases h; rfl
  | list r => cases r <;> cases h; rfl

theorem resume_readyText (r : Ready) (ui : Ui) :
    (readyText r).resume ui = app.resume r ui := by
  cases h : readyText r with
  | read what text => rw [TextReady.resume, resume_read h, Option.getD_some]
  | wrote r' => rw [TextReady.resume, eq_of_wrote h]

/-- The application over records, as one over texts. -/
def asTexts : Morphism app textApp where
  disk := texts
  await := id
  ready := readyText
  ui := id
  event := id
  serve := serveText_texts
  resume r ui _ := by
    rw [Issued.map_id]
    exact resume_readyText r ui
  handle e ui _ := by
    simp only [Issued.map_id]
    exact Option.map_id'.symm
  launch ui _ := by
    rw [Issued.map_id]
    rfl

end TaskManager.App
