import TaskManager.Shared.Storage
import TaskManager.Shared.Component
import TaskManager.Verified.Records

/-!
# `pages/home/MembersList.js`

The list is loaded from the draft, or from the member accounts when there is
no draft.  The handlers copy the array and then change one record in place, so
every copy made since the load shares the same records.  The model keeps the
records in `heap` and lets an array be a list of references into it.
-/

namespace TaskManager.Pages.MembersList

open TaskManager.Verified.JsText
open TaskManager.Verified.Records
open TaskManager.Shared

/-- A reference to a record created by the load. -/
abbrev Ref := Nat

/-- The records made so far, and the array that is shown. -/
structure State where
  heap : List Member := []
  members : List Ref := []
  deriving DecidableEq, Repr

/-- The records an array refers to, as they are now. -/
def State.read (s : State) (array : List Ref) : List Member :=
  array.filterMap fun r => s.heap[r]?

/-- What the screen shows. -/
def State.shown (s : State) : List Member := s.read s.members

/-- A parsed record of either source: the account stores have neither
`isSelected` nor `value`. -/
structure Item extends Account where
  isSelected : Option Bool := none
  value : Option JsString := none

/-- What `USER_MEMBER` holds: accounts, with no choice made. -/
def Item.ofAccount (a : Account) : Item := { a with }

/-- What `TEMP_MEMBERS` holds: members as they were saved. -/
def Item.ofMember (m : Member) : Item :=
  { m.toAccount with isSelected := some m.isSelected, value := some m.value }

/-- `{isSelected: false, value: '5', ...item}` -/
def withDefaults (item : Item) : Member :=
  { item.toAccount with
    isSelected := item.isSelected.getD false
    value := item.value.getD (js "5") }

/-- The calls on the store: the reads of the draft and of the members, and the write of Save. -/
inductive Await where
  | getDraft (key : Nat)
  | getMembers (key : Nat)
  | handleSubmit (key : Nat) (list : List Member)
  deriving DecidableEq, Repr

/-- A call that has been performed, with what it has read. -/
inductive Ready where
  | getDraft (key : Nat) (list : Option (List Member))
  | getMembers (key : Nat) (list : Option (List Account))
  | handleSubmit (key : Nat)
  deriving DecidableEq, Repr

/-- Two calls read, and Save writes the draft. -/
def Await.serve (d : Disk) : Await → Disk × Ready
  | .getDraft key => (d, .getDraft key d.tempMembers)
  | .getMembers key => (d, .getMembers key d.userMember)
  | .handleSubmit key list =>
      ({ d with tempMembers := some list }, .handleSubmit key)

/-! ## Loading -/

/-- `setMembers` of freshly created records. -/
def State.setFresh (s : State) (list : List Member) : State where
  heap := s.heap ++ list
  members := List.range' s.heap.length list.length

/-- The end of `fetchMembers`, with the list it settled on. -/
def finish (list : List Item) : Effect State Await :=
  { update := fun s => s.setFresh (list.map withDefaults) }

/-- `fetchMembers` after the draft has been read. -/
def afterDraft (key : Nat) (list : Option (List Member)) : Effect State Await :=
  match list with
  | none => { requests := [.getMembers key] }
  | some [] => { requests := [.getMembers key] }
  | some (m :: ms) => finish ((m :: ms).map Item.ofMember)

/-- The screen instance whose handler waits. -/
def Ready.key : Ready → Nat
  | .getDraft key _ => key
  | .getMembers key _ => key
  | .handleSubmit key => key

/-- The rest of a handler: the load goes on, or Save leaves the screen. -/
def Ready.resume : Ready → Effect State Await
  | .getDraft key list => afterDraft key list
  | .getMembers _ list => finish ((list.getD []).map Item.ofAccount)
  | .handleSubmit _ => { navigate := some .goBack }

/-! ## Handlers of the list -/

/-- `list.findIndex(e => e.email === email)`, as the reference found there. -/
def State.find (s : State) (list : List Ref) (email : JsString) : Option Ref :=
  list.find? fun r => (s.heap[r]?).any fun m => m.email = email

/-- One edit of the first record with the given email, by a handler that
closed over the array `members`. -/
def State.edit (s : State) (members : List Ref) (email : JsString)
    (f : Member → Member) : State :=
  match s.find members email with
  | none => s
  | some r => { heap := s.heap.modify r f, members := members }

/-- A press on a row turns its selection over. -/
def handleMemberPress (members : List Ref) (data : Member) (s : State) : State :=
  s.edit members data.email fun m => { m with isSelected := !m.isSelected }

/-- The typed value goes to the record with the email of the row. -/
def handleMemberValChange (members : List Ref) (val : JsString) (email : JsString)
    (s : State) : State :=
  s.edit members email fun m => { m with value := val }

/-- What a user can do; rows are counted as they are shown. -/
inductive Event where
  | arrow
  | handleSubmit
  /-- a press on the `i`-th row -/
  | memberPress (i : Nat)
  | memberValChange (i : Nat) (val : JsString)
  deriving DecidableEq, Repr

/-- Events of the current render, whose handlers close over the current array. -/
def handle (key : Nat) (s : State) : Event → Option (Effect State Await)
  | .arrow => some { navigate := some .goBack }
  | .handleSubmit => some { requests := [.handleSubmit key s.shown] }
  | .memberPress i => s.shown[i]?.map fun item =>
      { update := handleMemberPress s.members item }
  | .memberValChange i val => s.shown[i]?.map fun item =>
      { update := handleMemberValChange s.members val item.email }

/-! ## What the handlers can do -/

/-- A member account before any choice: not selected, with the value `5`. -/
def unselected (a : Account) : Member :=
  { a with isSelected := false, value := js "5" }

@[simp] theorem withDefaults_ofAccount (a : Account) :
    withDefaults (Item.ofAccount a) = unselected a := rfl

/-- A freshly loaded list is shown in the order it was loaded in. -/
theorem shown_setFresh (s : State) (list : List Member) :
    (s.setFresh list).shown = list := read_fresh s.heap list

/-- Only Save issues a request, and it carries what the screen shows. -/
theorem handle_requests {key : Nat} {s : State} {e : Event}
    {eff : Effect State Await} (h : handle key s e = some eff) {a : Await}
    (ha : a ∈ eff.requests) :
    e = .handleSubmit ∧ a = .handleSubmit key s.shown := by
  cases e with
  | arrow =>
      rw [handle, Option.some.injEq] at h
      simp [← h] at ha
  | handleSubmit =>
      rw [handle, Option.some.injEq] at h
      rw [← h, List.mem_singleton] at ha
      exact ⟨rfl, ha⟩
  | memberPress i =>
      rw [handle, Option.map_eq_some_iff] at h
      obtain ⟨item, -, rfl⟩ := h
      simp at ha
  | memberValChange i val =>
      rw [handle, Option.map_eq_some_iff] at h
      obtain ⟨item, -, rfl⟩ := h
      simp at ha

/-- An event of the list asks for no navigation, or for `goBack` when it is
the arrow. -/
theorem handle_navigate {key : Nat} {s : State} {e : Event}
    {eff : Effect State Await} (h : handle key s e = some eff) :
    eff.navigate = none ∨ (e = .arrow ∧ eff.navigate = some .goBack) := by
  cases e with
  | arrow =>
      rw [handle, Option.some.injEq] at h
      exact Or.inr ⟨rfl, by rw [← h]⟩
  | handleSubmit =>
      rw [handle, Option.some.injEq] at h
      exact Or.inl (by rw [← h])
  | memberPress i =>
      rw [handle, Option.map_eq_some_iff] at h
      obtain ⟨item, -, rfl⟩ := h
      exact Or.inl rfl
  | memberValChange i val =>
      rw [handle, Option.map_eq_some_iff] at h
      obtain ⟨item, -, rfl⟩ := h
      exact Or.inl rfl

/-! ## Rows -/

/-- The emails of the rows. -/
def State.rows (s : State) : List (Option JsString) :=
  keys (fun m : Member => m.email) s.heap s.members

/-- Two renders of one list have the same rows, whatever was chosen in between. -/
structure SameRows (old s : State) : Prop where
  members : old.members = s.members
  rows : old.rows = s.rows

theorem SameRows.refl (s : State) : SameRows s s := ⟨rfl, rfl⟩

theorem SameRows.trans {s s' s'' : State} (h : SameRows s s') (h' : SameRows s' s'') :
    SameRows s s'' :=
  ⟨h.members.trans h'.members, h.rows.trans h'.rows⟩

/-- Rows that stay show the same members. -/
theorem SameRows.emails {old s : State} (h : SameRows old s) :
    old.shown.map (fun m => m.email) = s.shown.map fun m => m.email := by
  have hRows := congrArg List.reduceOption h.rows
  rwa [State.rows, State.rows, ← map_read, ← map_read] at hRows

/-- The rows of a fresh load. -/
theorem rows_setFresh (s : State) (list : List Member) :
    (s.setFresh list).rows = (list.map fun m => m.email).map some :=
  keys_fresh (fun m : Member => m.email) s.heap list

/-- An edit changes one record in place. -/
theorem edit_eq (s : State) (email : JsString) (f : Member → Member) :
    s.edit s.members email f =
      { heap := change (fun m : Member => m.email) s.heap s.members email f
        members := s.members } := by
  have hFind : s.find s.members email =
      TaskManager.Verified.Records.find (fun m : Member => m.email) s.heap s.members email := rfl
  rw [State.edit, hFind, change]
  cases TaskManager.Verified.Records.find (fun m : Member => m.email) s.heap s.members email with
  | none => rfl
  | some r => rfl

/-- An edit keeps the rows. -/
theorem sameRows_edit (s : State) (email : JsString) {f : Member → Member}
    (hEmail : ∀ m, (f m).email = m.email) : SameRows s (s.edit s.members email f) := by
  rw [edit_eq]
  exact ⟨rfl, (keys_change hEmail s.members).symm⟩

/-- With distinct emails, an edit changes the member with its email and no other. -/
theorem shown_edit {s : State} (hDistinct : s.rows.Nodup) (email : JsString)
    (f : Member → Member) :
    (s.edit s.members email f).shown =
      s.shown.map fun m => if m.email = email then f m else m := by
  rw [edit_eq]
  exact read_change hDistinct

end TaskManager.Pages.MembersList
