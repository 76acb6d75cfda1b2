import Mathlib.Data.List.Induction
import TaskManager.App.VisitStages

/-!
# Choosing members

A row of the list is pressed, or a value is typed into it, through the handler of
any render since the load.  `OnList.choose` says what this does to the list, and
`ChoiceStep.step` that the handlers of the present render do the same.
-/

namespace TaskManager.App

open TaskManager.Verified.JsText
open TaskManager.Verified.EventLoop
open TaskManager.Shared
open TaskManager.Pages
open TaskManager.Routes

/-! ## What is chosen -/

/-- A press on a member's row, or a value typed into it. -/
inductive Choice where
  | press (email : JsString)
  | typed (email val : JsString)
  deriving DecidableEq, Repr

/-- The member it is about. -/
def Choice.email : Choice → JsString
  | .press email => email
  | .typed email _ => email

/-- What becomes of that member. -/
def Choice.change : Choice → Member → Member
  | .press _, m => { m with isSelected := !m.isSelected }
  | .typed _ val, m => { m with value := val }

/-- Other members stay as they are. -/
def Choice.apply (c : Choice) (m : Member) : Member :=
  if m.email = c.email then c.change m else m

/-- A member after all that was chosen. -/
def choose (cs : List Choice) (m : Member) : Member := cs.foldl (fun m c => c.apply m) m

/-- How often the member's row was pressed. -/
def pressed (cs : List Choice) (email : JsString) : Nat := cs.count (.press email)

/-- The last value typed into the member's row, `5` if none was. -/
def lastTyped (cs : List Choice) (email : JsString) : JsString :=
  let vals := cs.filterMap fun
    | .typed e val => if e = email then some val else none
    | .press _ => none
  vals.getLast?.getD (js "5")

theorem choose_append (cs cs' : List Choice) (m : Member) :
    choose (cs ++ cs') m = choose cs' (choose cs m) := List.foldl_append

theorem choose_snoc (cs : List Choice) (c : Choice) (m : Member) :
    choose (cs ++ [c]) m = c.apply (choose cs m) := choose_append cs [c] m

theorem email_change (c : Choice) (m : Member) : (c.change m).email = m.email := by
  cases c <;> rfl

theorem pressed_snoc (cs : List Choice) (c : Choice) (email : JsString) :
    pressed (cs ++ [c]) email = pressed cs email + if c = .press email then 1 else 0 := by
  simp [pressed, List.count_singleton]

theorem lastTyped_snoc (cs : List Choice) (c : Choice) (email : JsString) :
    lastTyped (cs ++ [c]) email = match c with
      | .typed e val => if e = email then val else lastTyped cs email
      | .press _ => lastTyped cs email := by
  cases c with
  | press e => simp [lastTyped]
  | typed e val =>
      by_cases hEmail : e = email
      · simp [lastTyped, hEmail]
      · simp [lastTyped, hEmail]

/-- What becomes of a member who was not selected: selected after an odd number of
presses, with the last value typed. -/
theorem choose_unselected (cs : List Choice) (u : Account) :
    choose cs (MembersList.unselected u) =
      { u with
        isSelected := decide (pressed cs u.email % 2 = 1)
        value := lastTyped cs u.email } := by
  induction cs using List.reverseRecOn with
  | nil => rfl
  | append_singleton cs c ih =>
      rw [choose_snoc, ih, pressed_snoc, lastTyped_snoc, Choice.apply]
      cases c with
      | press email =>
          by_cases hEmail : u.email = email
          · subst hEmail
            have hParity : (!decide (pressed cs u.email % 2 = 1)) =
                decide ((pressed cs u.email + 1) % 2 = 1) := by
              rw [← decide_not, decide_eq_decide]
              omega
            simp [Choice.email, Choice.change, hParity]
          · simp [Choice.email, hEmail, Ne.symm hEmail]
      | typed email val =>
          by_cases hEmail : u.email = email
          · subst hEmail
            simp [Choice.email, Choice.change]
          · simp [Choice.email, hEmail, Ne.symm hEmail]

/-! ## One choice -/

/-- The choice that an event of a render makes, for one that is about a listed member. -/
def chosen (shown : List Member) : MembersList.Event → Option Choice
  | .memberPress i => shown[i]?.map fun item => .press item.email
  | .memberValChange i val => shown[i]?.map fun item => .typed item.email val
  | _ => none

/-- The handler of the render in which the list was `old` makes the choice `c`. -/
def ChoiceStep (old : MembersList.State) (t : State) (c : Choice) (t' : State) : Prop :=
  ∃ e eff, chosen old.shown e = some c ∧
    MembersList.handle t.ui.focused.key old e = some eff ∧
    t' = t.issue ((counted t.ui).perform Screen.onList .list t.ui.focused.key eff)

/-- What the list becomes by a choice. -/
def edited (ls : MembersList.State) (c : Choice) : MembersList.State :=
  ls.edit ls.members c.email c.change

theorem handle_chosen {old : MembersList.State} {e : MembersList.Event} {c : Choice}
    (h : chosen old.shown e = some c) (key : Nat) :
    MembersList.handle key old e =
      some { update := fun ls => ls.edit old.members c.email c.change } := by
  cases e with
  | arrow => simp [chosen] at h
  | handleSubmit => simp [chosen] at h
  | memberPress i =>
      obtain ⟨item, hItem, rfl⟩ := Option.map_eq_some_iff.mp h
      rw [MembersList.handle, hItem]
      rfl
  | memberValChange i val =>
      obtain ⟨item, hItem, rfl⟩ := Option.map_eq_some_iff.mp h
      rw [MembersList.handle, hItem]
      rfl

/-- Renders with the same rows make the same choices. -/
theorem chosen_sameRows {old ls : MembersList.State} (h : MembersList.SameRows old ls)
    (e : MembersList.Event) : chosen old.shown e = chosen ls.shown e := by
  have hRow : ∀ (i : Nat) (f : JsString → Choice),
      (old.shown[i]?.map fun item => f item.email) = ls.shown[i]?.map fun item => f item.email := by
    intro i f
    have hEmails := congrArg (fun l => l[i]?.map f) h.emails
    simpa only [List.getElem?_map, Option.map_map, Function.comp_def] using hEmails
  cases e with
  | arrow => rfl
  | handleSubmit => rfl
  | memberPress i => exact hRow i .press
  | memberValChange i val => exact hRow i fun email => .typed email val

section

variable {s t t' : State} {st : TaskCreation.State} {old ls : MembersList.State} {c : Choice}

/-- An outdated handler does what the one of the present render does. -/
theorem handle_sameRows (hRows : MembersList.SameRows old ls) {e : MembersList.Event}
    (hChosen : chosen old.shown e = some c) (key : Nat) :
    MembersList.handle key old e = MembersList.handle key ls e := by
  rw [handle_chosen hChosen, handle_chosen (chosen_sameRows hRows e ▸ hChosen), hRows.members]

theorem ChoiceStep.step (h : ChoiceStep old t c t') (hScreen : t.ui.focused.screen = .LIST ls)
    (hRows : MembersList.SameRows old ls) : ∃ e, app.Step t (.user (.list e)) t' := by
  obtain ⟨e, eff, hChosen, hHandler, rfl⟩ := h
  refine ⟨e, .user ?_⟩
  rw [handle_sameRows hRows hChosen] at hHandler
  simp only [app, App.handle, hScreen, hHandler, Option.map_some]

theorem choiceStep_of_step {e : MembersList.Event} (hx : app.Step t (.user (.list e)) t')
    (hScreen : t.ui.focused.screen = .LIST ls) (hRows : MembersList.SameRows old ls)
    (hChosen : chosen old.shown e = some c) : ChoiceStep old t c t' := by
  cases hx with
  | user hOut =>
      simp only [app, App.handle, hScreen] at hOut
      obtain ⟨eff, hEff, rfl⟩ := Option.map_eq_some_iff.mp hOut
      exact ⟨e, eff, hChosen, handle_sameRows hRows hChosen _ ▸ hEff, rfl⟩

/-- A choice edits the list, and nothing else happens. -/
theorem OnList.choose (h : OnList s st ls t) (hFresh : Ui.Fresh s.ui)
    (hStep : ChoiceStep old t c t') (hRows : MembersList.SameRows old ls) :
    OnList s st (edited ls c) t' ∧ listReads s t' = listReads s t := by
  obtain ⟨e, eff, hChosen, hHandler, rfl⟩ := hStep
  obtain ⟨st', n, hForm, hUi⟩ := h.ui
  rw [handle_chosen hChosen, Option.some.injEq, hRows.members] at hHandler
  subst hHandler
  have hOut : (counted t.ui).perform Screen.onList .list t.ui.focused.key
        { update := fun ls' => ls'.edit ls.members c.email c.change } =
      (listShowing s.ui st' (edited ls c) (n + 1), {}) := by
    rw [hUi, perform_eq]
    exact Prod.ext (modify_listShowing hFresh st' ls (n + 1) _) rfl
  rw [hOut]
  refine ⟨⟨⟨st', n + 1, hForm, rfl⟩, h.disk, ?_, h.served⟩, ?_⟩
  · simpa [State.issue] using h.awaits
  · rw [listReads, listReads, Program.outstanding_issue]
    rfl

end

end TaskManager.App
