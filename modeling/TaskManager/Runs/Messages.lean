import TaskManager.App.ScreenInvariants
import TaskManager.Runs.Stacks

/-!
# What the forms say

`LOGIN` and `SIGNUP` have a text for the lookup of a press, `User not found` or
`User already added`, and one under each field.  Typing takes the text of its own field away
and leaves all others as they are; a later press takes away what it does not confirm.

## Main results

* `answers_run` — the text for the lookup is the answer to the last press of this screen that
  has been answered, whatever the form has become since.
* `forms_tell_the_truth` — so it is, and a text under a field is the verdict on the value
  that the field shows.
-/

namespace TaskManager.Runs

open TaskManager.Verified.JsText
open TaskManager.Verified.EventLoop
open TaskManager.Shared
open TaskManager.Pages
open TaskManager.Routes
open TaskManager.App

/-! ## The error of a press -/

/-- What the step reports of a press on the screen. -/
def reported (page : RouteName) (key : Nat) (p : State × Action) : Option String :=
  match p.2 with
  | .resolve i => p.1.served[i]?.bind (answerTo page key)
  | _ => none

/-- The last report, and nothing at first. -/
def latest (page : RouteName) (key : Nat) (h : History) : String :=
  (h.filterMap (reported page key)).getLast?.getD ""

/-- The last answer is that of the last step, or of the steps before it. -/
theorem latest_snoc (page : RouteName) (key : Nat) (h : History) (p : State × Action) :
    latest page key (h ++ [p]) = (reported page key p).getD (latest page key h) := by
  rw [latest, List.filterMap_append]
  cases hReport : reported page key p with
  | none => simp [hReport, latest]
  | some text => simp [hReport]

/-- Nothing is reported to a screen that has not been mounted. -/
theorem answerTo_fresh {s : State} (hKeys : KeysBelow s) {r : Ready} (hr : r ∈ s.served)
    {key : Nat} (hKey : s.ui.nextKey ≤ key) (page : RouteName) : answerTo page key r = none := by
  have hOther : ∀ key', readyKey r = some key' → key ≠ key' := by
    intro key' hReady hSame
    have hLt := hKeys.served r hr key' hReady
    omega
  unfold answerTo
  split
  · exact if_neg fun hBoth => hOther _ rfl hBoth.2
  · exact if_neg fun hBoth => hOther _ rfl hBoth.2
  · rfl

/-- The message on the screen is the last one that was reported to it. -/
structure Answers (h : History) (s : State) : Prop where
  unused : ∀ page key, s.ui.nextKey ≤ key → latest page key h = ""
  auth : ∀ key a, s.ui.focused = ⟨key, .AUTH a⟩ → a.error = latest a.page key h

section Answers

variable {h : History} {s s' : State}

/-- Off the AUTH screen there is no message to account for. -/
theorem Answers.of_not_auth (hUnused : ∀ page key, s.ui.nextKey ≤ key → latest page key h = "")
    (hAuth : .AUTH ∉ s.ui.names) : Answers h s where
  unused := hUnused
  auth _ _ hFocused := absurd (auth_mem_names hFocused) hAuth

/-- One AUTH screen, focused, with the message of the last answer. -/
theorem Answers.shown (hUnused : ∀ page key, s.ui.nextKey ≤ key → latest page key h = "")
    {key : Nat} {a : AuthScreen} (hFocused : s.ui.focused = ⟨key, .AUTH a⟩)
    (hError : a.error = latest a.page key h) : Answers h s where
  unused := hUnused
  auth key' a' hSame := by
    have hScreen := hFocused.symm.trans hSame
    simp only [Route.mk.injEq, Screen.AUTH.injEq] at hScreen
    obtain ⟨rfl, rfl⟩ := hScreen
    exact hError

/-- What the user does leaves the message, or brings up a page that has none yet. -/
theorem Answers.user (hAns : Answers h s) (hKeys : KeysBelow s) (hAlone : AuthAlone s.ui)
    {e : Event} {out : Ui × Issued Await} (hOut : app.handle e s.ui = some out) :
    Answers h (s.issue out) := by
  have hNext : s.ui.nextKey ≤ out.1.nextKey := (hKeys.fresh.handle hOut).next
  have hUnused : ∀ page key, out.1.nextKey ≤ key → latest page key h = "" :=
    fun page key hKey => hAns.unused page key (Nat.le_trans hNext hKey)
  cases authHandled hAlone hOut with
  | left hAuth => exact .of_not_auth hUnused hAuth
  | mounted hName hMount =>
      have hEmpty := fun page => (hAns.unused page s.ui.nextKey (Nat.le_refl _)).symm
      rcases hName with rfl | rfl
      · exact .shown hUnused hMount.focused (hEmpty _)
      · exact .shown hUnused hMount.focused (hEmpty _)
  | kept hOld hNew hSame _ =>
      refine .shown hUnused hNew ?_
      rw [hSame.error, hSame.page]
      exact hAns.auth _ _ hOld

/-- An answer replaces the message by its own. -/
theorem Answers.resolve (hAns : Answers h s) (hKeys : KeysBelow s) (hAlone : AuthAlone s.ui)
    {i : Nat} {r : Ready} (hAt : s.served[i]? = some r) :
    Answers (h ++ [(s, .resolve i)])
      ({ s with served := s.served.eraseIdx i }.issue (app.resume r s.ui)) := by
  have hNext : s.ui.nextKey ≤ (app.resume r s.ui).1.nextKey := (hKeys.fresh.resume r).next
  have hLatest : ∀ page key, latest page key (h ++ [(s, .resolve i)]) =
      (answerTo page key r).getD (latest page key h) := by
    intro page key
    have hReport : reported page key (s, .resolve i) = answerTo page key r := by
      simp [reported, hAt]
    rw [latest_snoc, hReport]
  have hEmpty : ∀ page key, s.ui.nextKey ≤ key →
      latest page key (h ++ [(s, .resolve i)]) = "" := by
    intro page key hKey
    rw [hLatest, answerTo_fresh hKeys (List.mem_of_getElem? hAt) hKey, hAns.unused page key hKey]
    rfl
  have hUnused : ∀ page key, (app.resume r s.ui).1.nextKey ≤ key →
      latest page key (h ++ [(s, .resolve i)]) = "" :=
    fun page key hKey => hEmpty page key (Nat.le_trans hNext hKey)
  cases authResumed hAlone r with
  | left hAuth => exact .of_not_auth hUnused hAuth
  | mounted hFocused _ _ =>
      exact .shown hUnused hFocused (hEmpty _ _ (Nat.le_refl _)).symm
  | @kept key a hOld hNew _ =>
      refine .shown hUnused hNew ?_
      rw [error_toldAuth, page_toldAuth, hLatest, hAns.auth key a hOld]

/-- A step that reports nothing and leaves the screens as they are. -/
theorem Answers.silent (hAns : Answers h s) (hUi : s'.ui = s.ui) {p : State × Action}
    (hSilent : ∀ page key, reported page key p = none) : Answers (h ++ [p]) s' where
  unused page key hKey := by
    rw [latest_snoc, hSilent]
    exact hAns.unused page key (hUi ▸ hKey)
  auth key a hFocused := by
    rw [latest_snoc, hSilent]
    exact hAns.auth key a (hUi ▸ hFocused)

theorem Answers.boot (hAns : Answers h s) : Answers h (app.boot s.disk s.ui) := by
  have hFocused : (app.boot s.disk s.ui).ui.focused = ⟨s.ui.nextKey, .AUTH (.LOGIN {})⟩ := rfl
  refine .shown (fun page key hKey => ?_) hFocused ?_
  · exact hAns.unused page key (Nat.le_of_succ_le hKey)
  · exact (hAns.unused _ _ (Nat.le_refl _)).symm

/-- Every step keeps the message that of the last answer. -/
theorem Answers.step (hAns : Answers h s) (hKeys : KeysBelow s) (hAlone : AuthAlone s.ui)
    {x : Action} (hx : app.Step s x s') : Answers (h ++ [(s, x)]) s' := by
  cases hx with
  | user hOut =>
      refine (hAns.user hKeys hAlone hOut).silent ?_ fun _ _ => rfl
      rfl
  | effect _ =>
      refine hAns.silent ?_ fun _ _ => rfl
      rfl
  | serve _ =>
      refine hAns.silent ?_ fun _ _ => rfl
      rfl
  | resolve hAt => exact hAns.resolve hKeys hAlone hAt
  | reject _ =>
      refine hAns.silent ?_ fun _ _ => rfl
      rfl
  | kill =>
      refine hAns.boot.silent ?_ fun _ _ => rfl
      rfl

end Answers

/-- In every run the message shown is that of the last answer. -/
theorem answers_run {xs : List Action} {s : State} (hRun : run xs = some s) :
    Answers (app.trace init xs) s := by
  refine app.exec_induction (fun _ _ => True) Answers ?_ ?_ (fun _ _ => trivial) hRun
  · have hFocused : init.ui.focused = ⟨0, .AUTH (.LOGIN {})⟩ := rfl
    exact .shown (fun _ _ _ => rfl) hFocused rfl
  · rintro h s x s' ⟨ys, hPre, -⟩ - hAns hx
    exact hAns.step (keysBelow_run hPre) (authAlone_run hPre) hx

/-! ## The texts under the fields -/

/-- A field is as it was typed, or it shows the verdict on its value. -/
def Judged (judge : JsString → Field) (f : Field) : Prop := f = .typed f.val ∨ f = judge f.val

/-- `CREATE` never judges its fields. -/
def Unjudged (f : Field) : Prop := f = .typed f.val

/-- A field may show what was typed and nothing else. -/
theorem Judged.typed (judge : JsString → Field) (val : JsString) : Judged judge (.typed val) :=
  Or.inl rfl

theorem Judged.check {judge : JsString → Field} (hKeeps : ∀ val, (judge val).val = val)
    (val : JsString) : Judged judge (judge val) :=
  Or.inr (congrArg judge (hKeeps val)).symm

@[simp] theorem field_check_val (val : JsString) (bad : Bool) (errMsg : String) :
    (Field.check val bad errMsg).val = val := by
  cases bad <;> rfl

/-- What the fields of a screen show. -/
def FieldsJudged : Screen → Prop
  | .AUTH (.LOGIN s) =>
      Judged (fun val => Login.handleValidation val .EMAIL) s.email ∧
        Judged (fun val => Login.handleValidation val .PASSWORD) s.password
  | .AUTH (.SIGNUP s) =>
      Judged (fun val => Signup.handleValidation val .EMAIL) s.email ∧
        Judged (fun val => Signup.handleValidation val .PASSWORD) s.password ∧
        Judged (fun val => Signup.handleValidation val .NAME) s.name
  | .CREATE s => Unjudged s.name ∧ Unjudged s.desc
  | .HOME _ => True
  | .LIST _ => True

theorem FieldsJudged.of_name {sc : Screen} (h : sc.name = .HOME ∨ sc.name = .LIST) :
    FieldsJudged sc := by
  cases sc with
  | AUTH a => rcases h with h | h <;> nomatch h
  | CREATE s => rcases h with h | h <;> nomatch h
  | HOME s => trivial
  | LIST s => trivial

theorem FieldsJudged.mount (dates : Nat × Nat) (name : RouteName) :
    FieldsJudged (Screen.mount dates name) := by
  cases name with
  | AUTH => exact ⟨.typed _ [], .typed _ []⟩
  | LOGIN => exact ⟨.typed _ [], .typed _ []⟩
  | SIGNUP => exact ⟨.typed _ [], .typed _ [], .typed _ []⟩
  | HOME => trivial
  | CREATE => exact ⟨rfl, rfl⟩
  | LIST => trivial

/-- A press judges the values that it finds, whatever has become of the fields. -/
theorem FieldsJudged.login {key id : Nat} {s s' : Login.State} {e : Login.Event}
    {eff : Effect Login.State Login.Await} (hEff : Login.handle key id s e = some eff)
    (h : FieldsJudged (.AUTH (.LOGIN s'))) : FieldsJudged (.AUTH (.LOGIN (eff.update s'))) := by
  unfold Login.handle at hEff
  split at hEff
  · nomatch hEff
  · rw [Option.some.injEq] at hEff
    subst hEff
    cases e with
    | changeEmail val => exact ⟨.typed _ val, h.2⟩
    | changePassword val => exact ⟨h.1, .typed _ val⟩
    | toggleSwitch => exact h
    | signupLink => exact h
    | handleSubmit =>
        cases hAcc : s.accepted with
        | true =>
            simp only [Login.handleSubmit_accepted hAcc]
            exact h
        | false =>
            simp only [Login.handleSubmit_rejected hAcc]
            have hKeeps : ∀ val type, (Login.handleValidation val type).val = val := by
              intro val type
              cases type <;> simp [Login.handleValidation]
            exact ⟨.check (fun val => hKeeps val .EMAIL) _,
              .check (fun val => hKeeps val .PASSWORD) _⟩

theorem FieldsJudged.signup (key id : Nat) (s : Signup.State) (e : Signup.Event)
    {s' : Signup.State} (h : FieldsJudged (.AUTH (.SIGNUP s'))) :
    FieldsJudged (.AUTH (.SIGNUP ((Signup.handle key id s e).update s'))) := by
  cases e with
  | changeName val => exact ⟨h.1, h.2.1, .typed _ val⟩
  | changeEmail val => exact ⟨.typed _ val, h.2⟩
  | changePassword val => exact ⟨h.1, .typed _ val, h.2.2⟩
  | toggleSwitch => exact h
  | loginLink => exact h
  | handleSubmit =>
      cases hAcc : s.accepted with
      | true =>
          simp only [Signup.handle, Signup.handleSubmit_accepted hAcc]
          exact h
      | false =>
          simp only [Signup.handle, Signup.handleSubmit_rejected hAcc]
          have hKeeps : ∀ val type, (Signup.handleValidation val type).val = val := by
            intro val type
            cases type <;> simp [Signup.handleValidation]
          exact ⟨.check (fun val => hKeeps val .EMAIL) _,
            .check (fun val => hKeeps val .PASSWORD) _, .check (fun val => hKeeps val .NAME) _⟩

theorem FieldsJudged.create (e : TaskCreation.Event) {s : TaskCreation.State}
    (h : FieldsJudged (.CREATE s)) :
    FieldsJudged (.CREATE ((TaskCreation.handle e).update s)) := by
  cases e with
  | changeName val => exact ⟨rfl, h.2⟩
  | changeDesc val => exact ⟨h.1, rfl⟩
  | pressLabel p => cases p <;> exact h
  | pressDate p => cases p <;> exact h
  | confirm p date => cases p <;> exact h
  | cancel p => cases p <;> exact h
  | addMembers => exact h
  | handleBack => exact h

theorem FieldsJudged.set {ui : Ui} {e : Event} {f : Screen → Screen} (hSets : Sets ui e f)
    {sc : Screen} (h : FieldsJudged sc) : FieldsJudged (f sc) := by
  cases hSets with
  | login _ hEff =>
      unfold Screen.onLogin
      split
      · exact h.login hEff
      · exact h
  | signup _ =>
      unfold Screen.onSignup
      split
      · exact h.signup _ _ _ _
      · exact h
  | create _ =>
      unfold Screen.onCreate
      split
      · exact h.create _
      · exact h
  | list _ _ =>
      unfold Screen.onList
      split
      · trivial
      · exact h
  | nothing => exact h

theorem FieldsJudged.loginResume (r : Login.Ready) {s : Login.State}
    (h : FieldsJudged (.AUTH (.LOGIN s))) :
    FieldsJudged (.AUTH (.LOGIN (r.resume.update s))) := by
  cases r with
  | isUserLoggedIn key info => exact h
  | setLoggedIn call record => exact h
  | getUsers call data =>
      rw [Login.Ready.resume]
      obtain ⟨-, hEff⟩ | ⟨user, -, -, hEff⟩ := Login.afterUsers_cases call data
      · rw [hEff]
        exact h
      · rw [hEff]
        exact h

theorem FieldsJudged.signupResume (r : Signup.Ready) {s : Signup.State}
    (h : FieldsJudged (.AUTH (.SIGNUP s))) :
    FieldsJudged (.AUTH (.SIGNUP (r.resume.update s))) := by
  cases r with
  | setUsers call => exact h
  | setLoggedIn call => exact h
  | getUsers call data =>
      rw [Signup.Ready.resume]
      obtain ⟨-, hEff⟩ | ⟨-, hEff⟩ := Signup.afterUsers_cases call data
      · rw [hEff]
        exact h
      · rw [hEff]
        exact h

/-- No continuation touches a field. -/
theorem FieldsJudged.told (r : Ready) (key : Nat) {sc : Screen} (h : FieldsJudged sc) :
    FieldsJudged (told r key sc) := by
  cases sc with
  | AUTH a =>
      rw [told_auth]
      cases a with
      | LOGIN st =>
          cases r with
          | login r =>
              rw [toldAuth]
              split
              · exact h.loginResume r
              · exact h
          | signup r => exact h
          | home r => exact h
          | create r => exact h
          | list r => exact h
      | SIGNUP st =>
          cases r with
          | signup r =>
              rw [toldAuth]
              split
              · exact h.signupResume r
              · exact h
          | login r => exact h
          | home r => exact h
          | create r => exact h
          | list r => exact h
  | CREATE st =>
      cases r with
      | create r =>
          cases r with
          | fetchMembers key' list =>
              rw [App.told]
              split <;> exact h
          | handleBack => exact h
      | login r =>
          rw [App.told]
          split <;> exact h
      | signup r =>
          rw [App.told]
          split <;> exact h
      | home r =>
          rw [App.told]
          split <;> exact h
      | list r =>
          rw [App.told]
          split <;> exact h
  | HOME st => exact .of_name (Or.inl (name_told r key (.HOME st)))
  | LIST st => exact .of_name (Or.inr (name_told r key (.LIST st)))

/-- Nothing is needed of the store or of what waits. -/
def fieldsJudged : Everywhere where
  disk _ _ := True
  await _ _ := True
  ready _ _ := True
  screen _ := FieldsJudged
  disk_mono _ _ _ _ := trivial
  await_mono _ _ _ _ := trivial
  ready_mono _ _ _ _ := trivial
  screen_mono _ _ _ h := h
  init := trivial
  load _ _ _ := trivial
  mount _ := FieldsJudged.mount
  press _ _ _ _ _ _ := trivial
  proceed _ _ _ _ _ := trivial
  serve _ _ _ _ _ _ _ := ⟨trivial, trivial⟩
  set _ _ _ _ _ hSets _ h := h.set hSets
  tell _ r key _ _ h := h.told r key

/-- **The forms tell the truth.**  What `LOGIN` or `SIGNUP` says about a lookup is what came
out of the last press of this screen whose lookup has been reported: it stays when the form is
changed, and goes when a later press finds otherwise.  A text under a field, on any screen of
the stack, is the verdict on the value that the field shows. -/
theorem forms_tell_the_truth (xs : List Action) (s : State) (hRun : run xs = some s) :
    (∀ key a, s.ui.focused = ⟨key, .AUTH a⟩ →
      a.error = latest a.page key (app.trace init xs)) ∧
      ∀ r ∈ s.ui.stack, FieldsJudged r.screen :=
  ⟨(answers_run hRun).auth, (fieldsJudged.holds hRun).screens⟩

/-- Bob has no account, and types after the lookup what is no address, which the
second press says. -/
def bobUnknown : List Action :=
  loaded ++ fillLogin (js "bob@x.co") (js "pw") ++ [pressLogin] ++ answered
    ++ fillLogin (js "bob") (js "pw") ++ [pressLogin]

/-- Bob is told that he is not found, and his field that it has no valid email. -/
theorem forms_tell_the_truth_bob :
    ∃ s st, run bobUnknown = some s ∧ s.ui.focused = ⟨0, .AUTH (.LOGIN st)⟩ ∧
      latest .LOGIN 0 (app.trace init bobUnknown) = "User not found" ∧
      st.email = Login.handleValidation (js "bob") .EMAIL := by
  obtain ⟨s, hRun⟩ := Option.isSome_iff_exists.mp
    (show (run bobUnknown).isSome = true by decide)
  let st : Login.State :=
    { email := { val := js "bob", isValid := false, errMsg := "email address is invalid" }
      password := { val := js "pw" }, error := "User not found", isLoading := false }
  have hShown : s.ui.focused = ⟨0, .AUTH (.LOGIN st)⟩ :=
    seen_of_run (f := fun s => s.ui.focused) hRun (by decide)
  obtain ⟨hAnswer, hFields⟩ := forms_tell_the_truth bobUnknown s hRun
  have hJudged : FieldsJudged (.AUTH (.LOGIN st)) := by
    have hFocused := hFields s.ui.focused List.mem_cons_self
    rwa [hShown] at hFocused
  refine ⟨s, st, hRun, hShown, (hAnswer 0 (.LOGIN st) hShown).symm, ?_⟩
  -- the field is not as it was typed, for it has a text
  exact hJudged.1.resolve_left (by decide)

end TaskManager.Runs
