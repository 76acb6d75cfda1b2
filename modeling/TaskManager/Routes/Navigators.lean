import Mathlib.Data.List.TakeWhile
import TaskManager.Routes.StackRouter
import TaskManager.Routes.Navigation

/-!
# The navigators of the application over their router

`MainNavigation` is a stack navigator, and `AuthNavigation` is one in a route of it.  An
action goes up from the navigator of the screen that dispatched it, and then down into the
other nested navigators, until a router handles it: `core/src/useOnAction.tsx`.  The
navigation state says which screens are mounted, by the keys of their routes; `commit` is
React mounting and unmounting them.  The handler of a screen that is gone still calls the
`navigation` it was rendered with: its navigator may go on without the screen, or be gone as
well, and then has the state it rendered last.

No screen prevents its removal, no screen has `initialParams` or `getId`, and no screen
passes params.

## Main results

* `navigate_refines` — on the mounted screens, an action that a screen of the application
  dispatches does what `Ui.navigate` does.
-/

namespace TaskManager.Routes

open TaskManager.Shared
open TaskManager.Pages
open TaskManager.Routes.StackRouter

/-! ## Navigators -/

/-- The screens of `MainNavigation`, without `DETAIL`, which nothing names. -/
def mainRouteNames : List RouteName := [.AUTH, .HOME, .CREATE, .LIST]

/-- The screens of `AuthNavigation`. -/
def authRouteNames : List RouteName := [.LOGIN, .SIGNUP]

/-- No screen has initial params or a `getId`, and params carry nothing. -/
def routerOptions : RouterConfigOptions RouteName Unit Unit where
  routeParamList _ := none
  routeGetIdList _ := none
  spread _ q := q
  empty := ()

/-- The state of `AuthNavigation`, whose routes have no navigator nested in them. -/
abbrev AuthState := NavigationState RouteName Unit Empty

/-- A route of `MainNavigation`, with the state of `AuthNavigation` in those of `AUTH`. -/
abbrev MainRoute := NavigationRoute RouteName Unit AuthState

/-- The state of `MainNavigation`. -/
abbrev MainState := NavigationState RouteName Unit AuthState

/-- The actions of both navigators. -/
abbrev RouterAction := NavigationAction RouteName Unit

/-- A nested navigator starts on its first screen. -/
def initialAuth (nanoid : Nat) : AuthState :=
  getInitialState routerOptions authRouteNames .LOGIN nanoid

/-- A route of `AUTH` renders `AuthNavigation`, which fills in its state. -/
def renderRoute (nanoid : Nat) (r : MainRoute) : MainRoute :=
  if r.name = .AUTH then { r with state := some (r.state.getD (initialAuth nanoid)) } else r

/-- Every route is rendered. -/
def renderMain (nanoid : Nat) (s : MainState) : MainState :=
  { s with routes := s.routes.map (renderRoute nanoid) }

/-! ## Dispatch -/

/-- The root navigator tries the action. -/
def offerMain (nanoid : Nat) (s : MainState) (action : RouterAction) : Option MainState :=
  (getStateForAction routerOptions nanoid s action).map fun ans =>
    renderMain nanoid (ans.settled routerOptions nanoid mainRouteNames .AUTH)

/-- The navigator nested in the `i`-th route tries the action.  A `NAVIGATE` that it handles
brings its own route to the focus. -/
def offerAuth (nanoid : Nat) (s : MainState) (action : RouterAction) (i : Nat) :
    Option MainState :=
  (s.routes[i]?).bind fun r =>
    r.state.bind fun nested =>
      (getStateForAction routerOptions nanoid nested action).map fun ans =>
        let nested' := ans.settled routerOptions nanoid authRouteNames .LOGIN
        let s' := { s with routes := s.routes.set i { r with state := some nested' } }
        match action.payload with
        | .NAVIGATE _ _ _ _ => getStateForRouteFocus s' r.key
        | _ => s'

/-- The nested navigators but the one that has tried already, the last first. -/
def offerOthers (nanoid : Nat) (s : MainState) (action : RouterAction) (tried : Option Nat) :
    Option MainState :=
  ((List.range s.routes.length).reverse.filter fun i => some i ≠ tried).findSome?
    (offerAuth nanoid s action)

/-- The screen whose `navigation` is called: by its navigator and its key. -/
inductive Sender where
  | main (key : Option (Key RouteName))
  | auth (key : Key RouteName)
  deriving DecidableEq, Repr

/-- The states that nested navigators have rendered, under the keys of their routes, the
latest first. -/
abbrev Rendered := List (Key RouteName × AuthState)

/-- What the nested navigators render. -/
def renderedBy (s : MainState) : Rendered :=
  s.routes.filterMap fun r => r.state.map fun nested => (r.key, nested)

/-- The navigator that has rendered the screen, by the key of its route. -/
def navigatorOf (rendered : Rendered) (key : Key RouteName) : Option (Key RouteName) :=
  (rendered.find? fun p => p.2.routes.any fun q => q.key = key).map Prod.fst

/-- The last state that the navigator in the route has rendered, its `initializedStateRef`. -/
def lastRendered (rendered : Rendered) (key : Key RouteName) : Option AuthState :=
  (rendered.find? fun p => p.1 = key).map Prod.snd

/-- The route whose nested navigator the screen belongs to: it holds the screen, or has
replaced it. -/
def holderOf (rendered : Rendered) (s : MainState) (key : Key RouteName) : Option Nat :=
  (s.routes.findIdx? fun r => r.state.any fun nested => nested.routes.any fun q => q.key = key)
    <|> (navigatorOf rendered key).bind fun navigator =>
      s.routes.findIdx? fun r => r.key = navigator

/-- A navigator that is not mounted any more tries the actions of its screens too, in the
state it has rendered last, and what it handles is lost. -/
def dispatch (nanoid : Nat) (rendered : Rendered) (s : MainState) (sender : Sender)
    (payload : Payload RouteName Unit) : MainState :=
  match sender with
  | .main source =>
      let action : RouterAction := { payload := payload, source := source }
      (offerMain nanoid s action <|> offerOthers nanoid s action none).getD s
  | .auth source =>
      let action : RouterAction := { payload := payload, source := some source }
      match holderOf rendered s source with
      | some i =>
          (offerAuth nanoid s action i <|> offerMain nanoid s action <|>
            offerOthers nanoid s action (some i)).getD s
      | none =>
          let last := (navigatorOf rendered source).bind (lastRendered rendered)
          if last.any fun nested => (getStateForAction routerOptions nanoid nested action).isSome
          then s
          else (offerMain nanoid s action <|> offerOthers nanoid s action none).getD s

/-- What the calls on `navigation` dispatch. -/
def payloadOf : Nav → Payload RouteName Unit
  | .replace name => .REPLACE name none none
  | .navigate name _ => .NAVIGATE (some name) none none false
  | .reset name => .RESET (.partialState [{ name := name }])
  | .goBack => .GO_BACK

/-! ## Mounted screens -/

/-- The page shown in a route: its own, or that of the nested navigator. -/
def pageOf (r : MainRoute) : Key RouteName :=
  match r.state with
  | none => r.key
  | some nested => ((nested.routes[nested.index]?).map fun q => q.key).getD r.key

/-- The instance with the key, or a fresh one. -/
def Ui.instance (ui : Ui) (dates : Nat × Nat) (key : Key RouteName) : Route :=
  (ui.stack.find? fun r => r.key = key.nanoid).getD ⟨key.nanoid, Screen.mount dates key.name⟩

/-- The screens that the navigation state asks for are mounted, the focused one first.  A
screen that was not mounted before takes the next key; the callbacks that are due are those
of the screen that has the focus now. -/
def Ui.commit (ui : Ui) (dates : Nat × Nat) (s : MainState) : Ui × List Await :=
  match (s.routes.reverse.map pageOf).map (ui.instance dates) with
  | [] => (ui, [])
  | r :: rest =>
      if ui.stack.any fun q => q.key = r.key then
        ({ ui with focused := r, below := rest },
          if r.key = ui.focused.key then [] else r.focusEffects)
      else
        ({ ui with focused := r, below := rest, nextKey := ui.nextKey + 1 }, r.mountEffects)

/-- The dates of a fresh `CREATE`. -/
def datesOf : Nav → Nat × Nat
  | .navigate _ dates => dates
  | _ => (0, 0)

/-- The navigation state with the screens it has mounted, and what has been rendered. -/
structure Displayed where
  navigation : MainState
  ui : Ui
  rendered : Rendered

/-- A call on the `navigation` of a screen. -/
def Displayed.navigate (m : Displayed) (sender : Sender) (nav : Nav) : Displayed × List Await :=
  let navigation := dispatch m.ui.nextKey m.rendered m.navigation sender (payloadOf nav)
  let (ui, effects) := m.ui.commit (datesOf nav) navigation
  ({ navigation := navigation, ui := ui, rendered := renderedBy navigation ++ m.rendered },
    effects)

/-! ## The navigation state and the mounted screens -/

/-- The screen a page is of: `LOGIN` and `SIGNUP` are pages of the nested navigator. -/
def Screen.page : Screen → RouteName
  | .AUTH (.LOGIN _) => .LOGIN
  | .AUTH (.SIGNUP _) => .SIGNUP
  | .HOME _ => .HOME
  | .CREATE _ => .CREATE
  | .LIST _ => .LIST

/-- The navigator nested in a route of `AUTH`, on one of its screens. -/
def authOn (key : Nat) (name : RouteName) (nanoid : Nat) : AuthState where
  key := key
  index := 0
  routeNames := authRouteNames
  routes := [{ key := ⟨name, nanoid⟩, name := name }]

/-- The route has the screen mounted. -/
inductive Shows : MainRoute → Route → Prop
  | auth {r q k} (hName : r.name = .AUTH) (hScreen : q.screen.name = .AUTH)
      (hParams : r.params = none) (hState : r.state = some (authOn k q.screen.page q.key)) :
      Shows r q
  | page {r q} (hName : r.name = q.screen.name) (hScreen : q.screen.name ≠ .AUTH)
      (hParams : r.params = none) (hState : r.state = none) (hKey : r.key = ⟨r.name, q.key⟩) :
      Shows r q

theorem page_of_name_ne {screen : Screen} (h : screen.name ≠ .AUTH) :
    screen.page = screen.name := by
  cases screen with
  | AUTH s => exact absurd rfl h
  | HOME s => rfl
  | CREATE s => rfl
  | LIST s => rfl

namespace Shows

variable {r : MainRoute} {q : Route}

theorem name (h : Shows r q) : r.name = q.screen.name := by
  cases h with
  | auth hName hScreen _ _ => rw [hName, hScreen]
  | page hName _ _ _ _ => exact hName

theorem params (h : Shows r q) : r.params = none := by
  cases h with
  | auth _ _ hParams _ => exact hParams
  | page _ _ hParams _ _ => exact hParams

/-- The page that a route shows is that of the screen. -/
theorem pageOf_eq (h : Shows r q) : pageOf r = ⟨q.screen.page, q.key⟩ := by
  cases h with
  | auth _ _ _ hState => simp [pageOf, hState, authOn]
  | page hName hScreen _ hState hKey =>
      rw [pageOf, hState, page_of_name_ne hScreen, ← hName]
      exact hKey

/-- A route that shows a screen renders to itself. -/
theorem rendered (h : Shows r q) (nanoid : Nat) : renderRoute nanoid r = r := by
  cases h with
  | auth hName _ _ hState =>
      rw [renderRoute, if_pos hName, hState, Option.getD_some, ← hState]
  | page hName hScreen _ _ _ =>
      rw [renderRoute, if_neg (hName ▸ hScreen)]

/-- The params of a route are none, so that an action without params leaves them. -/
theorem repeated (h : Shows r q) :
    { r with params := routerOptions.initial r.name none } = r := by
  have hParams := h.params
  cases r
  simp_all [RouterConfigOptions.initial, RouterConfigOptions.merge, routerOptions]

/-- A fresh route of `MainNavigation` mounts a fresh screen. -/
theorem fresh {name : RouteName} (hName : name ∈ mainRouteNames) (nanoid : Nat)
    (dates : Nat × Nat) :
    Shows (renderRoute nanoid
        { key := ⟨name, nanoid⟩, name := name, params := routerOptions.initial name none })
      ⟨nanoid, Screen.mount dates name⟩ := by
  cases name with
  | AUTH => exact .auth (k := nanoid) rfl rfl rfl rfl
  | HOME => exact .page rfl (fun h => RouteName.noConfusion h) rfl rfl rfl
  | CREATE => exact .page rfl (fun h => RouteName.noConfusion h) rfl rfl rfl
  | LIST => exact .page rfl (fun h => RouteName.noConfusion h) rfl rfl rfl
  | LOGIN => exact absurd hName (by decide)
  | SIGNUP => exact absurd hName (by decide)

end Shows

/-- Every route shows one of the screens. -/
theorem exists_shown {rs : List MainRoute} {qs : List Route} (h : List.Forall₂ Shows rs qs)
    {r : MainRoute} (hr : r ∈ rs) : ∃ q ∈ qs, Shows r q := by
  induction h with
  | nil => simp at hr
  | @cons r' q rs qs hHead _ ih =>
      rcases List.mem_cons.mp hr with rfl | hRest
      · exact ⟨q, List.mem_cons_self, hHead⟩
      · obtain ⟨x, hx, hShows⟩ := ih hRest
        exact ⟨x, List.mem_cons_of_mem q hx, hShows⟩

/-- The routes show the screens of the stack, and the keys of these are different and have
been given out. -/
structure Agrees (s : MainState) (ui : Ui) : Prop where
  names : s.routeNames = mainRouteNames
  last : s.index + 1 = s.routes.length
  shown : List.Forall₂ Shows s.routes.reverse ui.stack
  given : ∀ r ∈ ui.stack, r.key < ui.nextKey
  distinct : (ui.stack.map fun r => r.key).Nodup

namespace Agrees

variable {s s' : MainState} {ui : Ui}

/-- The route of the focused screen is the last one. -/
theorem split (h : Agrees s ui) : ∃ rs r, s.routes = rs ++ [r] ∧ s.index = rs.length ∧
    Shows r ui.focused ∧ List.Forall₂ Shows rs.reverse ui.below := by
  have hShown := h.shown
  have hLast := h.last
  rw [Ui.stack] at hShown
  cases hReverse : s.routes.reverse with
  | nil => simp [hReverse] at hShown
  | cons r rest =>
      rw [hReverse, List.forall₂_cons] at hShown
      have hRoutes : s.routes = rest.reverse ++ [r] := by
        rw [← List.reverse_reverse s.routes, hReverse, List.reverse_cons]
      refine ⟨rest.reverse, r, hRoutes, ?_, hShown.1, ?_⟩
      · rw [hRoutes, List.length_append, List.length_singleton] at hLast
        omega
      · rw [List.reverse_reverse]
        exact hShown.2

/-! ## Mounting -/

/-- A mounted screen keeps its instance. -/
theorem instance_old (h : Agrees s ui) {q : Route} (hq : q ∈ ui.stack) (dates : Nat × Nat)
    (name : RouteName) : ui.instance dates ⟨name, q.key⟩ = q := by
  have hFound : ui.stack.find? (fun r => r.key = q.key) = some q := by
    rw [List.find?_eq_some_iff_append]
    obtain ⟨as, bs, hSplit⟩ := List.append_of_mem hq
    refine ⟨by simp, as, bs, hSplit, fun x hx => ?_⟩
    have hDistinct := h.distinct
    rw [hSplit, List.map_append, List.map_cons, List.nodup_middle, List.nodup_cons] at hDistinct
    have hNe : x.key ≠ q.key := fun hEq =>
      hDistinct.1 (List.mem_append_left _ (hEq ▸ List.mem_map_of_mem hx))
    simpa using hNe
  rw [Ui.instance, hFound, Option.getD_some]

/-- A key that has not been given out mounts a fresh screen. -/
theorem instance_fresh (h : Agrees s ui) (dates : Nat × Nat) (name : RouteName) :
    ui.instance dates ⟨name, ui.nextKey⟩ = ⟨ui.nextKey, Screen.mount dates name⟩ := by
  have hNone : ui.stack.find? (fun r => r.key = ui.nextKey) = none := by
    rw [List.find?_eq_none]
    intro r hr
    simpa using Nat.ne_of_lt (h.given r hr)
  rw [Ui.instance, hNone, Option.getD_none]

theorem instances_old (h : Agrees s ui) {rs : List MainRoute} {qs : List Route}
    (hShown : List.Forall₂ Shows rs qs) (hOld : ∀ q ∈ qs, q ∈ ui.stack) (dates : Nat × Nat) :
    (rs.map pageOf).map (ui.instance dates) = qs := by
  induction hShown with
  | nil => rfl
  | @cons r q rs qs hHead _ ih =>
      rw [List.map_cons, List.map_cons, hHead.pageOf_eq, h.instance_old (hOld q List.mem_cons_self),
        ih fun x hx => hOld x (List.mem_cons_of_mem q hx)]

/-- Screens are unmounted from the top, or stay. -/
theorem commit_old (h : Agrees s ui) {q : Route} {qs : List Route}
    (hShown : List.Forall₂ Shows s'.routes.reverse (q :: qs))
    (hSub : (q :: qs).Sublist ui.stack) (dates : Nat × Nat) :
    ui.commit dates s' =
      ({ ui with focused := q, below := qs },
        if q.key = ui.focused.key then [] else q.focusEffects) := by
  have hMem : q ∈ ui.stack := hSub.subset List.mem_cons_self
  have hAny : (ui.stack.any fun x => x.key = q.key) = true :=
    List.any_eq_true.mpr ⟨q, hMem, by simp⟩
  rw [Ui.commit, h.instances_old hShown fun x hx => hSub.subset hx]
  simp only [hAny, if_true]

/-- A fresh screen is mounted over screens that stay. -/
theorem commit_fresh (h : Agrees s ui) {name : RouteName} {qs : List Route} {dates : Nat × Nat}
    (hShown : List.Forall₂ Shows s'.routes.reverse
      (⟨ui.nextKey, Screen.mount dates name⟩ :: qs))
    (hSub : qs.Sublist ui.stack) : ui.commit dates s' = ui.mountOver name dates qs := by
  have hNew : (ui.stack.any fun x => x.key = ui.nextKey) = false := by
    rw [List.any_eq_false]
    intro x hx
    simpa using Nat.ne_of_lt (h.given x hx)
  have hMount : Screen.mount dates (Screen.mount dates name).page = Screen.mount dates name := by
    cases name <;> rfl
  cases hReverse : s'.routes.reverse with
  | nil => simp [hReverse] at hShown
  | cons r rest =>
      rw [hReverse, List.forall₂_cons] at hShown
      rw [Ui.commit, hReverse, List.map_cons, List.map_cons, hShown.1.pageOf_eq, h.instance_fresh,
        h.instances_old hShown.2 fun x hx => hSub.subset hx]
      simp only [hMount, hNew, Bool.false_eq_true, if_false]
      rfl

/-- The routes of the screens that stay agree with them. -/
theorem old (h : Agrees s ui) {q : Route} {qs : List Route}
    (hNames : s'.routeNames = s.routeNames) (hLast : s'.index + 1 = s'.routes.length)
    (hShown : List.Forall₂ Shows s'.routes.reverse (q :: qs))
    (hSub : (q :: qs).Sublist ui.stack) :
    Agrees s' { ui with focused := q, below := qs } where
  names := hNames.trans h.names
  last := hLast
  shown := hShown
  given r hr := h.given r (hSub.subset hr)
  distinct := h.distinct.sublist (hSub.map _)

/-- A fresh screen over screens that stay agrees. -/
theorem mounted (h : Agrees s ui) {name : RouteName} {qs : List Route} {dates : Nat × Nat}
    (hNames : s'.routeNames = s.routeNames) (hLast : s'.index + 1 = s'.routes.length)
    (hShown : List.Forall₂ Shows s'.routes.reverse
      (⟨ui.nextKey, Screen.mount dates name⟩ :: qs))
    (hSub : qs.Sublist ui.stack) : Agrees s' (ui.mountOver name dates qs).1 where
  names := hNames.trans h.names
  last := hLast
  shown := hShown
  given r hr := by
    rcases List.mem_cons.mp hr with rfl | hOld
    · exact Nat.lt_succ_self _
    · exact Nat.lt_succ_of_lt (h.given r (hSub.subset hOld))
  distinct := by
    refine List.nodup_cons.mpr ⟨fun hMem => ?_, h.distinct.sublist (hSub.map _)⟩
    obtain ⟨r, hr, hEq⟩ := List.mem_map.mp hMem
    exact absurd hEq (Nat.ne_of_lt (h.given r (hSub.subset hr)))

/-! ## Dispatching -/

/-- Nested navigators do not handle the action. -/
def Declined (payload : Payload RouteName Unit) : Prop :=
  ∀ (nanoid : Nat) (nested : AuthState) (source : Option (Key RouteName)),
    nested.routeNames = authRouteNames → nested.index = 0 →
      getStateForAction routerOptions nanoid nested { payload := payload, source := source } = none

/-- The calls that name a screen of `MainNavigation`, and `goBack`, are not for the nested
navigators. -/
theorem declined {nav : Nav} (h : nav = .goBack ∨
    ∃ name ∈ mainRouteNames, nav = .replace name ∨ nav = .reset name ∨
      ∃ dates, nav = .navigate name dates) : Declined (payloadOf nav) := by
  intro nanoid nested source hNames hIndex
  have hOther : ∀ name ∈ mainRouteNames, name ∉ nested.routeNames := by
    rw [hNames]
    decide
  rcases h with rfl | ⟨name, hName, rfl | rfl | ⟨dates, rfl⟩⟩
  · exact goBack_first hIndex
  · exact replace_unregistered (hOther name hName)
  · exact reset_unregistered (List.mem_singleton_self _) (hOther name hName)
  · exact navigate_unregistered (hOther name hName)

/-- A nested navigator is `AuthNavigation`, on its first route. -/
theorem nested_eq (h : Agrees s ui) {r : MainRoute} (hr : r ∈ s.routes) {nested : AuthState}
    (hNested : r.state = some nested) : nested.routeNames = authRouteNames ∧ nested.index = 0 := by
  have hMem : r ∈ s.routes.reverse := List.mem_reverse.mpr hr
  obtain ⟨q, -, hShows⟩ := exists_shown h.shown hMem
  cases hShows with
  | auth _ _ _ hState =>
      rw [hNested, Option.some.injEq] at hState
      subst hState
      exact ⟨rfl, rfl⟩
  | page _ _ _ hState _ => rw [hNested] at hState; simp at hState

/-- A nested navigator that declines hands the action on. -/
theorem offerAuth_declined (h : Agrees s ui) {payload : Payload RouteName Unit}
    (hDeclined : Declined payload) (nanoid : Nat) (source : Option (Key RouteName)) (i : Nat) :
    offerAuth nanoid s { payload := payload, source := source } i = none := by
  unfold offerAuth
  cases hAt : s.routes[i]? with
  | none => rfl
  | some r =>
      cases hState : r.state with
      | none => simp [hState]
      | some nested =>
          obtain ⟨hNames, hIndex⟩ := h.nested_eq (List.mem_of_getElem? hAt) hState
          simp [hState, hDeclined nanoid nested source hNames hIndex]

/-- So do all the others. -/
theorem offerOthers_declined (h : Agrees s ui) {payload : Payload RouteName Unit}
    (hDeclined : Declined payload) (nanoid : Nat) (source : Option (Key RouteName))
    (tried : Option Nat) :
    offerOthers nanoid s { payload := payload, source := source } tried = none := by
  rw [offerOthers, List.findSome?_eq_none_iff]
  exact fun i _ => h.offerAuth_declined hDeclined nanoid source i

/-- The states that nested navigators render are on their first routes. -/
theorem rendered_eq (h : Agrees s ui) :
    ∀ p ∈ renderedBy s, p.2.routeNames = authRouteNames ∧ p.2.index = 0 := by
  intro p hp
  obtain ⟨r, hr, hState⟩ := List.mem_filterMap.mp hp
  obtain ⟨nested, hNested, rfl⟩ := Option.map_eq_some_iff.mp hState
  exact h.nested_eq hr hNested

/-- What nested navigators decline is up to the root navigator, whoever dispatched it. -/
theorem dispatch_declined (h : Agrees s ui) {rendered : Rendered}
    (hRendered : ∀ p ∈ rendered, p.2.routeNames = authRouteNames ∧ p.2.index = 0)
    {payload : Payload RouteName Unit} (hDeclined : Declined payload) (nanoid : Nat)
    (sender : Sender) :
    ∃ source, dispatch nanoid rendered s sender payload =
      (offerMain nanoid s { payload := payload, source := source }).getD s := by
  have hOr : ∀ o : Option MainState, (o <|> none) = o := fun o => by cases o <;> rfl
  cases sender with
  | main source =>
      refine ⟨source, ?_⟩
      simp only [dispatch, h.offerOthers_declined hDeclined, hOr]
  | auth source =>
      refine ⟨some source, ?_⟩
      cases hHolder : holderOf rendered s source with
      | some i =>
          simp only [dispatch, hHolder, h.offerAuth_declined hDeclined,
            h.offerOthers_declined hDeclined, hOr]
          rfl
      | none =>
          have hLast : ((navigatorOf rendered source).bind (lastRendered rendered)).any
              (fun nested => (getStateForAction routerOptions nanoid nested
                { payload := payload, source := some source }).isSome) = false := by
            refine (Option.any_eq_false _ _).mpr fun nested hNested => ?_
            obtain ⟨navigator, -, hFound⟩ := Option.bind_eq_some_iff.mp hNested
            obtain ⟨p, hp, rfl⟩ := Option.map_eq_some_iff.mp hFound
            obtain ⟨hNames, hIndex⟩ := hRendered p (List.mem_of_find?_eq_some hp)
            simp [hDeclined nanoid p.2 (some source) hNames hIndex]
          simp only [dispatch, hHolder, hLast, Bool.false_eq_true, if_false,
            h.offerOthers_declined hDeclined, hOr]

/-! ## The calls on `navigation` -/

/-- Routes that show screens render to themselves. -/
theorem render_shown {rs : List MainRoute} {qs : List Route}
    (h : List.Forall₂ Shows rs.reverse qs) (nanoid : Nat) :
    rs.map (renderRoute nanoid) = rs := by
  refine (List.map_congr_left fun r hr => ?_).trans (List.map_id rs)
  obtain ⟨q, -, hShows⟩ := exists_shown h (List.mem_reverse.mpr hr)
  exact hShows.rendered nanoid

/-- Committing the next navigation state mounts the next interface, and agrees with it. -/
def Commits (ui : Ui) (dates : Nat × Nat) (s' : MainState)
    (out : Ui × List Await) : Prop :=
  ui.commit dates s' = out ∧ Agrees s' out.1

/-- A fresh route on top of routes that stay. -/
theorem commits_fresh (h : Agrees s ui) {name : RouteName} {r : MainRoute}
    {rs : List MainRoute} {qs : List Route} {dates : Nat × Nat}
    (hShows : Shows r ⟨ui.nextKey, Screen.mount dates name⟩)
    (hShown : List.Forall₂ Shows rs.reverse qs) (hSub : qs.Sublist ui.stack)
    (hNames : s'.routeNames = s.routeNames) (hIndex : s'.index = rs.length)
    (hRoutes : s'.routes = rs ++ [r]) :
    Commits ui dates s' (ui.mountOver name dates qs) := by
  have hAll : List.Forall₂ Shows s'.routes.reverse
      (⟨ui.nextKey, Screen.mount dates name⟩ :: qs) := by
    rw [hRoutes, List.reverse_append, List.reverse_singleton, List.singleton_append]
    exact .cons hShows hShown
  have hLast : s'.index + 1 = s'.routes.length := by
    rw [hRoutes, List.length_append, List.length_singleton, hIndex]
  exact ⟨h.commit_fresh hAll hSub, h.mounted hNames hLast hAll hSub⟩

/-- Routes are dropped from the top. -/
theorem commits_refocus (h : Agrees s ui) {q : Route} {qs : List Route} (dates : Nat × Nat)
    (hShown : List.Forall₂ Shows s'.routes.reverse (q :: qs)) (hSub : (q :: qs).Sublist ui.below)
    (hNames : s'.routeNames = s.routeNames) (hLast : s'.index + 1 = s'.routes.length) :
    Commits ui dates s' (ui.refocus q qs) := by
  have hStack : (q :: qs).Sublist ui.stack := hSub.trans (List.sublist_cons_self _ _)
  have hNe : q.key ≠ ui.focused.key := by
    have hDistinct := h.distinct
    rw [Ui.stack, List.map_cons, List.nodup_cons] at hDistinct
    exact fun hEq => hDistinct.1 (hEq ▸ List.mem_map_of_mem (hSub.subset List.mem_cons_self))
  have hCommit := h.commit_old hShown hStack dates
  rw [if_neg hNe] at hCommit
  exact ⟨hCommit, h.old hNames hLast hShown hStack⟩

/-- Nothing changes. -/
theorem commits_same (h : Agrees s ui) (dates : Nat × Nat) :
    Commits ui dates s (ui, []) := by
  have hCommit := h.commit_old h.shown (List.Sublist.refl _) dates
  rw [if_pos rfl] at hCommit
  exact ⟨hCommit, h⟩

/-- The root navigator goes on with the whole state that its router answers. -/
theorem offerMain_state {nanoid : Nat} {action : RouterAction}
    (hAns : getStateForAction routerOptions nanoid s action = some (.state s'))
    (hNames : s'.routeNames = mainRouteNames) :
    (offerMain nanoid s action).getD s = renderMain nanoid s' := by
  rw [offerMain, hAns, Option.map_some, Option.getD_some, Answer.settled, if_pos hNames]

/-- `replace` puts a fresh screen in the place of the focused one. -/
theorem commits_replace (h : Agrees s ui) {name : RouteName} (hName : name ∈ mainRouteNames)
    (source : Option (Key RouteName)) :
    Commits ui (0, 0)
      ((offerMain ui.nextKey s { payload := .REPLACE name none none, source := source }).getD s)
      (ui.navigate (.replace name)) := by
  obtain ⟨rs, r, hRoutes, hIndex, -, hBelow⟩ := h.split
  rw [offerMain_state (replace_eq hRoutes hIndex (h.names ▸ hName)) h.names]
  refine h.commits_fresh (Shows.fresh hName ui.nextKey (0, 0)) hBelow
    (List.sublist_cons_self _ _) rfl hIndex ?_
  rw [renderMain, List.map_append, render_shown hBelow]
  rfl

/-- `reset` mounts a fresh screen alone. -/
theorem commits_reset (h : Agrees s ui) {name : RouteName} (hName : name ∈ mainRouteNames)
    (source : Option (Key RouteName)) :
    Commits ui (0, 0)
      ((offerMain ui.nextKey s
        { payload := .RESET (.partialState [{ name := name }]), source := source }).getD s)
      (ui.navigate (.reset name)) := by
  have hNames : ∀ q ∈ [({ name := name } : PartialRoute RouteName Unit)],
      q.name ∈ mainRouteNames := by
    intro q hq
    rw [List.mem_singleton.mp hq]
    exact hName
  rw [offerMain, reset_eq (List.cons_ne_nil _ _) (h.names ▸ hNames), Option.map_some,
    Option.getD_some, Answer.settled, rehydrated_eq _ (List.cons_ne_nil _ _) hNames]
  have hNone : List.Forall₂ Shows ([] : List MainRoute).reverse ([] : List Route) := .nil
  exact h.commits_fresh (Shows.fresh hName ui.nextKey (0, 0)) hNone (List.nil_sublist _)
    h.names.symm rfl rfl

/-- `goBack` drops the focused screen, unless it is the last. -/
theorem commits_goBack (h : Agrees s ui) (source : Option (Key RouteName)) :
    Commits ui (0, 0) ((offerMain ui.nextKey s { payload := .GO_BACK, source := source }).getD s)
      (ui.navigate .goBack) := by
  obtain ⟨rs, r, hRoutes, hIndex, -, hBelow⟩ := h.split
  rw [Ui.navigate]
  cases hEq : ui.below with
  | nil =>
      rw [hEq, List.forall₂_nil_right_iff, List.reverse_eq_nil_iff] at hBelow
      rw [offerMain, goBack_first (by rw [hIndex, hBelow]; rfl)]
      exact h.commits_same (0, 0)
  | cons q qs =>
      have hMore : rs ≠ [] := by
        rintro rfl
        simp [hEq] at hBelow
      have hPos := List.length_pos_of_ne_nil hMore
      rw [offerMain_state (goBack_eq hRoutes hIndex hMore) h.names, renderMain,
        render_shown hBelow]
      refine h.commits_refocus (0, 0) ?_ (List.Sublist.refl _ |>.trans (by rw [hEq])) rfl ?_
      · rw [← hEq]
        exact hBelow
      · show rs.length - 1 + 1 = rs.length
        omega

/-- A screen on the stack, and the route that shows it. -/
theorem split_below {rs : List MainRoute} {before rest : List Route} {q : Route}
    (h : List.Forall₂ Shows rs.reverse (before ++ q :: rest)) :
    ∃ as x bs, rs = as ++ x :: bs ∧ Shows x q ∧ List.Forall₂ Shows as.reverse rest ∧
      List.Forall₂ Shows bs.reverse before := by
  have hBefore := List.forall₂_take_append _ _ _ h
  have hRest := List.forall₂_drop_append _ _ _ h
  cases hDrop : rs.reverse.drop before.length with
  | nil => simp [hDrop] at hRest
  | cons x as =>
      rw [hDrop, List.forall₂_cons] at hRest
      refine ⟨as.reverse, x, (rs.reverse.take before.length).reverse, ?_, hRest.1, ?_, ?_⟩
      · have hWhole := List.take_append_drop before.length rs.reverse
        rw [hDrop] at hWhole
        calc
          rs = rs.reverse.reverse := (List.reverse_reverse rs).symm
          _ = (rs.reverse.take before.length ++ x :: as).reverse := by rw [hWhole]
          _ = as.reverse ++ x :: (rs.reverse.take before.length).reverse := by simp
      · rw [List.reverse_reverse]
        exact hRest.2
      · rw [List.reverse_reverse]
        exact hBefore

theorem names_ne {rs : List MainRoute} {qs : List Route} {name : RouteName}
    (h : List.Forall₂ Shows rs.reverse qs) (hNames : ∀ q ∈ qs, q.screen.name ≠ name) :
    ∀ r ∈ rs, r.name ≠ name := by
  intro r hr
  obtain ⟨q, hq, hShows⟩ := exists_shown h (List.mem_reverse.mpr hr)
  exact hShows.name ▸ hNames q hq

/-- `navigate` goes back to a screen of that name, or mounts a fresh one on top. -/
theorem commits_navigate (h : Agrees s ui) {name : RouteName} (hName : name ∈ mainRouteNames)
    (dates : Nat × Nat) (source : Option (Key RouteName)) :
    Commits ui dates
      ((offerMain ui.nextKey s
        { payload := .NAVIGATE (some name) none none false, source := source }).getD s)
      (ui.navigate (.navigate name dates)) := by
  obtain ⟨rs, r, hRoutes, hIndex, hFocused, hBelow⟩ := h.split
  have hRegistered : name ∈ s.routeNames := h.names ▸ hName
  have hShown := h.shown
  rw [Ui.navigate]
  by_cases hSame : ui.focused.screen.name = name
  · rw [if_pos hSame]
    have hFound : navigateIndex routerOptions s (some name) none none = some rs.length :=
      navigateIndex_same hRoutes hIndex rfl (hFocused.name.trans hSame)
    have hAt : s.routes[rs.length]? = some r := by simp [hRoutes]
    rw [offerMain_state (navigate_there hRegistered hFound hAt) h.names, hFocused.repeated]
    have hStay : renderMain ui.nextKey
        { s with index := rs.length, routes := s.routes.take rs.length ++ [r] } = s := by
      rw [hRoutes, List.take_left, ← hRoutes, ← hIndex, renderMain, render_shown hShown]
    rw [hStay]
    exact h.commits_same dates
  · rw [if_neg hSame]
    cases hDrop : ui.below.dropWhile fun q => q.screen.name ≠ name with
    | nil =>
        have hAll : ∀ q ∈ ui.stack, q.screen.name ≠ name := by
          intro q hq
          rcases List.mem_cons.mp hq with rfl | hRest
          · exact hSame
          · simpa using List.dropWhile_eq_nil_iff.mp hDrop q hRest
        have hFound : navigateIndex routerOptions s (some name) none none = none :=
          navigateIndex_none rfl (names_ne hShown hAll)
        rw [offerMain_state (navigate_fresh hRegistered hFound) h.names]
        refine h.commits_fresh (Shows.fresh hName ui.nextKey dates) hShown (List.Sublist.refl _)
          rfl rfl ?_
        rw [renderMain, List.map_append, render_shown hShown]
        rfl
    | cons q rest =>
        have hBefore : ∀ x ∈ ui.below.takeWhile fun q => q.screen.name ≠ name,
            x.screen.name ≠ name := fun x hx => by simpa using List.mem_takeWhile_imp hx
        have hName' : q.screen.name = name := by
          have hHead := List.head?_dropWhile_not (fun q : Route => decide (q.screen.name ≠ name))
            ui.below
          rw [hDrop] at hHead
          simpa using hHead
        have hSplit := List.takeWhile_append_dropWhile (p := fun q => q.screen.name ≠ name)
          (l := ui.below)
        rw [hDrop] at hSplit
        rw [← hSplit] at hBelow
        obtain ⟨as, x, bs, hRs, hShows, hRest, hBetween⟩ := split_below hBelow
        have hWhole : s.routes = as ++ x :: (bs ++ [r]) := by rw [hRoutes, hRs]; simp
        have hAfter : ∀ y ∈ bs ++ [r], y.name ≠ name := by
          intro y hy
          rcases List.mem_append.mp hy with hIn | hLast
          · exact names_ne hBetween hBefore y hIn
          · rw [List.mem_singleton.mp hLast, hFocused.name]
            exact hSame
        have hFound : navigateIndex routerOptions s (some name) none none = some as.length :=
          navigateIndex_back hWhole (by rw [hIndex, hRs]; simp) rfl (by simp)
            (hShows.name.trans hName') hAfter
        have hAt : s.routes[as.length]? = some x := by simp [hWhole]
        rw [offerMain_state (navigate_there hRegistered hFound hAt) h.names, hShows.repeated]
        have hStay : List.Forall₂ Shows (as ++ [x]).reverse (q :: rest) := by
          rw [List.reverse_append, List.reverse_singleton, List.singleton_append]
          exact .cons hShows hRest
        have hTake : s.routes.take as.length ++ [x] = as ++ [x] := by rw [hWhole, List.take_left]
        have hNames : (renderMain ui.nextKey
            { s with index := as.length, routes := s.routes.take as.length ++ [x] }).routeNames =
            s.routeNames := rfl
        refine h.commits_refocus dates ?_ ?_ hNames ?_
        · rw [hTake, renderMain, render_shown hStay]
          exact hStay
        · rw [← hSplit]
          exact List.sublist_append_right _ _
        · rw [hTake, renderMain, render_shown hStay, List.length_append]
          rfl

/-- The focused page is held by the navigator nested in the last route. -/
theorem holderOf_focused {rs : List MainRoute} {r : MainRoute} (h : Agrees s ui)
    (hRoutes : s.routes = rs ++ [r]) (hBelow : List.Forall₂ Shows rs.reverse ui.below) {k : Nat}
    (hState : r.state = some (authOn k ui.focused.screen.page ui.focused.key))
    (rendered : Rendered) :
    holderOf rendered s ⟨ui.focused.screen.page, ui.focused.key⟩ = some rs.length := by
  have hOther : rs.findIdx? (fun r => r.state.any fun nested => nested.routes.any fun q =>
      q.key = ⟨ui.focused.screen.page, ui.focused.key⟩) = none := by
    rw [List.findIdx?_eq_none_iff]
    intro x hx
    obtain ⟨q, hq, hShows⟩ := exists_shown hBelow (List.mem_reverse.mpr hx)
    have hDistinct := h.distinct
    rw [Ui.stack, List.map_cons, List.nodup_cons] at hDistinct
    have hNe : q.key ≠ ui.focused.key := fun hEq => hDistinct.1 (hEq ▸ List.mem_map_of_mem hq)
    cases hShows with
    | auth _ _ _ hAt => simp [hAt, authOn, hNe]
    | page _ _ _ hAt _ => simp [hAt]
  rw [holderOf, hRoutes, List.findIdx?_append, hOther]
  simp [hState, authOn]

/-- The links between `LOGIN` and `SIGNUP` stay in the nested navigator. -/
theorem commits_link (h : Agrees s ui) {name : RouteName} (hName : name ∈ authRouteNames)
    (hScreen : ui.focused.screen.name = .AUTH) (rendered : Rendered) :
    Commits ui (0, 0)
      (dispatch ui.nextKey rendered s (.auth ⟨ui.focused.screen.page, ui.focused.key⟩)
        (.REPLACE name none none))
      (ui.navigate (.replace name)) := by
  obtain ⟨rs, r, hRoutes, hIndex, hFocused, hBelow⟩ := h.split
  cases hFocused with
  | page _ hNot _ _ _ => exact absurd hScreen hNot
  | @auth k hRoute _ hParams hState =>
      have hAns : offerAuth ui.nextKey s
          { payload := .REPLACE name none none
            source := some ⟨ui.focused.screen.page, ui.focused.key⟩ } rs.length =
            some { s with
              routes := rs ++ [{ r with state := some (authOn k name ui.nextKey) }] } := by
        have hAt : s.routes[rs.length]? = some r := by simp [hRoutes]
        have hNested : getStateForAction routerOptions ui.nextKey
            (authOn k ui.focused.screen.page ui.focused.key)
            { payload := .REPLACE name none none
              source := some ⟨ui.focused.screen.page, ui.focused.key⟩ } =
            some (.state { authOn k ui.focused.screen.page ui.focused.key with
              routes := [] ++ [{ key := ⟨name, ui.nextKey⟩, name := name,
                                 params := routerOptions.initial name none }] }) :=
          replace_eq rfl rfl hName
        simp only [offerAuth, hAt, hState, Option.bind_some, hNested, Option.map_some,
          Answer.settled]
        simp [hRoutes, authOn, routerOptions, RouterConfigOptions.initial,
          RouterConfigOptions.merge]
      have hDispatch : dispatch ui.nextKey rendered s
          (.auth ⟨ui.focused.screen.page, ui.focused.key⟩) (.REPLACE name none none) =
            { s with routes := rs ++ [{ r with state := some (authOn k name ui.nextKey) }] } := by
        simp only [dispatch, h.holderOf_focused hRoutes hBelow hState rendered, hAns]
        rfl
      have hShows : Shows { r with state := some (authOn k name ui.nextKey) }
          ⟨ui.nextKey, Screen.mount (0, 0) name⟩ := by
        cases name with
        | LOGIN => exact .auth hRoute rfl hParams rfl
        | SIGNUP => exact .auth hRoute rfl hParams rfl
        | AUTH => exact absurd hName (by decide)
        | HOME => exact absurd hName (by decide)
        | CREATE => exact absurd hName (by decide)
        | LIST => exact absurd hName (by decide)
      rw [hDispatch]
      exact h.commits_fresh hShows hBelow (List.sublist_cons_self _ _) rfl hIndex rfl

end Agrees

/-- What the screens of the application dispatch: the screens of `MainNavigation` are named
from anywhere, and those of `AuthNavigation` by the page that has the focus there. -/
inductive Dispatched (ui : Ui) : Sender → Nav → Prop
  | replace {sender name} (hName : name ∈ mainRouteNames) : Dispatched ui sender (.replace name)
  | reset {sender name} (hName : name ∈ mainRouteNames) : Dispatched ui sender (.reset name)
  | navigate {sender name dates} (hName : name ∈ mainRouteNames) :
      Dispatched ui sender (.navigate name dates)
  | goBack {sender} : Dispatched ui sender .goBack
  | link {name} (hName : name ∈ authRouteNames) (hScreen : ui.focused.screen.name = .AUTH) :
      Dispatched ui (.auth ⟨ui.focused.screen.page, ui.focused.key⟩) (.replace name)

/-- The navigation state agrees with the screens, and what has been rendered is known. -/
structure Tracks (m : Displayed) : Prop where
  agrees : Agrees m.navigation m.ui
  rendered : ∀ p ∈ m.rendered, p.2.routeNames = authRouteNames ∧ p.2.index = 0

/-- **The router does what the model of the navigation says.** -/
theorem navigate_refines {m : Displayed} (h : Tracks m) {sender : Sender} {nav : Nav}
    (hNav : Dispatched m.ui sender nav) :
    ((m.navigate sender nav).1.ui, (m.navigate sender nav).2) = m.ui.navigate nav ∧
      Tracks (m.navigate sender nav).1 := by
  obtain ⟨h, hRendered⟩ := h
  have hCommits : Agrees.Commits m.ui (datesOf nav)
      (dispatch m.ui.nextKey m.rendered m.navigation sender (payloadOf nav))
      (m.ui.navigate nav) := by
    cases hNav with
    | @replace sender name hName =>
        obtain ⟨source, hDispatch⟩ := h.dispatch_declined hRendered
          (Agrees.declined (Or.inr ⟨name, hName, Or.inl rfl⟩)) m.ui.nextKey sender
        rw [hDispatch]
        exact h.commits_replace hName source
    | @reset sender name hName =>
        obtain ⟨source, hDispatch⟩ := h.dispatch_declined hRendered
          (Agrees.declined (Or.inr ⟨name, hName, Or.inr (Or.inl rfl)⟩)) m.ui.nextKey sender
        rw [hDispatch]
        exact h.commits_reset hName source
    | @navigate sender name dates hName =>
        obtain ⟨source, hDispatch⟩ := h.dispatch_declined hRendered
          (Agrees.declined (Or.inr ⟨name, hName, Or.inr (Or.inr ⟨dates, rfl⟩)⟩)) m.ui.nextKey sender
        rw [hDispatch]
        exact h.commits_navigate hName dates source
    | @goBack sender =>
        obtain ⟨source, hDispatch⟩ := h.dispatch_declined hRendered
          (Agrees.declined (Or.inl rfl)) m.ui.nextKey sender
        rw [hDispatch]
        exact h.commits_goBack source
    | link hName hScreen => exact h.commits_link hName hScreen m.rendered
  obtain ⟨hCommit, hAgrees⟩ := hCommits
  simp only [Displayed.navigate, hCommit]
  refine ⟨trivial, hAgrees, fun p hp => ?_⟩
  exact (List.mem_append.mp hp).elim (hAgrees.rendered_eq p) (hRendered p)

end TaskManager.Routes
