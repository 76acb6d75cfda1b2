import Mathlib.Data.List.Nodup
import Mathlib.Data.List.Basic

/-!
# `routers/src/StackRouter.tsx` and `routers/src/BaseRouter.tsx`

The router behind every stack navigator: a function from a navigation state and an
action to the next state, or to nothing when it does not handle the action.  The names
of the screens are of any type `N`, their params of any type `P`, and `S` is the state of
a navigator nested in a route.  A key is a name with the number of a `nanoid()`; numbers
from `nanoid` on have not been given out.  The count of a `POP` is any integer, though not a
fraction or `NaN`, and an index is a natural number.

The paths of deep links are left out, and so are resets to routes with states of their
own and changes of the screens that a navigator is configured with.

## Main results

* `WellFormed.step` — every plain action leaves a stack with its last route focused, with
  registered names and with different keys.  The actions that are not plain can break one:
  they pop a negative count, bring keys of their own, or reset to a whole state whose focus
  is elsewhere.
* `replace_eq`, `reset_eq`, `goBack_eq`, `navigate_there`, `navigate_fresh` — what an action
  without a target does to a stack.
-/

namespace TaskManager.Routes.StackRouter

/-! ## States -/

/-- `${name}-${nanoid()}` -/
structure Key (N : Type) where
  name : N
  nanoid : Nat
  deriving DecidableEq, Repr

/-- A route of a stack, with the state of the navigator nested in it, if there is one. -/
structure NavigationRoute (N P S : Type) where
  key : Key N
  name : N
  params : Option P := none
  state : Option S := none
  deriving DecidableEq, Repr

/-- The state of a stack navigator; `index` is the focused route. -/
structure NavigationState (N P S : Type) where
  key : Nat
  index : Nat
  routeNames : List N
  routes : List (NavigationRoute N P S)
  deriving DecidableEq, Repr

/-- A route of a partial state, which may leave its key to the router. -/
structure PartialRoute (N P : Type) where
  name : N
  key : Option (Key N) := none
  params : Option P := none
  deriving DecidableEq, Repr

/-- What is configured for the screens.  `spread p q` is `{...p, ...q}`, and `empty` is
`{}`. -/
structure RouterConfigOptions (N P I : Type) where
  routeParamList : N → Option P
  routeGetIdList : N → Option (Option P → Option I)
  spread : P → P → P
  empty : P

/-- The payload of a `RESET`: a partial state, or a whole one with `stale: false`, whose
routes may leave their keys to the router all the same. -/
inductive ResetState (N P : Type) where
  | partialState (routes : List (PartialRoute N P))
  | whole (key : Nat) (index : Nat) (routeNames : List N) (routes : List (PartialRoute N P))
  deriving DecidableEq, Repr

/-- The routes that a reset asks for. -/
def ResetState.routes : ResetState N P → List (PartialRoute N P)
  | .partialState routes => routes
  | .whole _ _ _ routes => routes

/-- The types of actions, each with its payload. -/
inductive Payload (N P : Type) where
  | REPLACE (name : N) (key : Option (Key N)) (params : Option P)
  | PUSH (name : N) (params : Option P)
  | POP (count : Int)
  | POP_TO_TOP
  | NAVIGATE (name : Option N) (key : Option (Key N)) (params : Option P) (merge : Bool)
  | GO_BACK
  | SET_PARAMS (params : Option P)
  | RESET (nextState : ResetState N P)
  deriving DecidableEq, Repr

/-- An action, with the route that sent it and the navigator that it is for. -/
structure NavigationAction (N P : Type) where
  payload : Payload N P
  source : Option (Key N) := none
  target : Option Nat := none
  deriving DecidableEq, Repr

/-- A router answers with a whole state, or with the routes of a partial one. -/
inductive Answer (N P S : Type) where
  | state (s : NavigationState N P S)
  | partialState (routes : List (PartialRoute N P))
  deriving DecidableEq, Repr

variable {N P S I : Type}

/-! ## The router -/

section

variable [DecidableEq N] [DecidableEq I] (options : RouterConfigOptions N P I)

/-- `{...a, ...b}`, where either may be `undefined`. -/
def RouterConfigOptions.merge (a b : Option P) : Option P :=
  match a, b with
  | none, b => b
  | some p, none => some p
  | some p, some q => some (options.spread p q)

/-- `{...a, ...b}` as the params of `SET_PARAMS`, which are an object in any case. -/
def RouterConfigOptions.mergeSet (a b : Option P) : Option P :=
  some ((options.merge a b).getD options.empty)

/-- The params of a fresh route: those of the action over the configured ones. -/
def RouterConfigOptions.initial (name : N) (params : Option P) : Option P :=
  options.merge (options.routeParamList name) params

/-- `getInitialState`: the stack starts with its initial route. -/
def getInitialState (routeNames : List N) (name : N) (nanoid : Nat) : NavigationState N P S where
  key := nanoid
  index := 0
  routeNames := routeNames
  routes := [{ key := ⟨name, nanoid⟩, name := name, params := options.routeParamList name }]

/-- A route of a partial state, with the `i`-th number if it has no key. -/
def rehydratedRoute (nanoid i : Nat) (r : PartialRoute N P) : NavigationRoute N P S where
  key := r.key.getD ⟨r.name, nanoid + i⟩
  name := r.name
  params := options.initial r.name r.params

/-- `initialRouteName` is the first of the names. -/
def getRehydratedState (routeNames : List N) (initialRouteName : N) (nanoid : Nat)
    (routes : List (PartialRoute N P)) : NavigationState N P S :=
  let kept := (routes.filter fun r => routeNames.contains r.name).mapIdx
    (rehydratedRoute options nanoid)
  if kept.isEmpty then getInitialState options routeNames initialRouteName nanoid
  else { key := nanoid, index := kept.length - 1, routeNames := routeNames, routes := kept }

/-- A state over other names than those of the navigator keeps the routes that it has screens
for. -/
def getStateForRouteNamesChange (state : NavigationState N P S) (routeNames : List N)
    (initialRouteName : N) (nanoid : Nat) : NavigationState N P S :=
  let kept := state.routes.filter fun r => routeNames.contains r.name
  let routes :=
    if kept.isEmpty then
      [{ key := ⟨initialRouteName, nanoid⟩
         name := initialRouteName
         params := options.routeParamList initialRouteName }]
    else kept
  { state with
    routeNames := routeNames
    routes := routes
    index := min state.index (routes.length - 1) }

/-- The index of the route that an action is about: its source, when the action is targeted
at this navigator, and the focused route otherwise. -/
def actionIndex (state : NavigationState N P S) (action : NavigationAction N P) : Option Nat :=
  if action.target = some state.key ∧ action.source.isSome then
    state.routes.findIdx? fun r => some r.key = action.source
  else some state.index

/-- `slice` takes all there is when it is asked for more, as a negative count does. -/
def getStateForPop (state : NavigationState N P S) (action : NavigationAction N P)
    (count : Int) : Option (Answer N P S) :=
  match actionIndex state action with
  | none => none
  | some index =>
      if 0 < index then
        let routes := state.routes.take (max (index - count + 1) 1).toNat ++
          state.routes.drop (index + 1)
        some (.state { state with index := routes.length - 1, routes := routes })
      else none

/-- `for (let i = n - 1; i >= 0; i--)`, up to the first index that `p` holds of. -/
def searchBack (p : Nat → Bool) : Nat → Option Nat
  | 0 => none
  | i + 1 => if p i then some i else searchBack p i

/-- The route that a `NAVIGATE` asks for: by its key, or by its name when no key is given. -/
def isAskedFor (name : Option N) (key : Option (Key N)) (r : NavigationRoute N P S) : Bool :=
  (key.isNone && some r.name = name) || some r.key = key

/-- The id of a route, when its screen has a `getId` and no key is given. -/
def actionId (name : Option N) (key : Option (Key N)) (params : Option P) :
    Option (N × (Option P → Option I) × I) :=
  match key, name with
  | none, some n =>
      (options.routeGetIdList n).bind fun getId => (getId params).map fun id => (n, getId, id)
  | _, _ => none

/-- The route that `NAVIGATE` goes back to, if there is one. -/
def navigateIndex (state : NavigationState N P S) (name : Option N) (key : Option (Key N))
    (params : Option P) : Option Nat :=
  match actionId options name key params with
  | some (n, getId, id) =>
      state.routes.findIdx? fun r => r.name = n && getId r.params = some id
  | none =>
      let at? (i : Nat) : Bool := (state.routes[i]?).any (isAskedFor name key)
      if at? state.index then some state.index else searchBack at? state.routes.length

/-- `NAVIGATE` goes back to a route, or puts a fresh one on top. -/
def getStateForNavigate (nanoid : Nat) (state : NavigationState N P S) (name : Option N)
    (key : Option (Key N)) (params : Option P) (merge : Bool) : Option (Answer N P S) :=
  if name.any fun n => !state.routeNames.contains n then none
  else if key.isNone && name.isNone then none
  else
    match navigateIndex options state name key params with
    | none =>
        -- a key alone names no screen to open
        name.map fun n =>
          let route : NavigationRoute N P S :=
            { key := key.getD ⟨n, nanoid⟩, name := n, params := options.initial n params }
          let routes := state.routes ++ [route]
          .state { state with routes := routes, index := routes.length - 1 }
    | some index =>
        (state.routes[index]?).map fun route =>
          let base := options.routeParamList route.name
          let params' :=
            if merge then options.merge (options.merge base route.params) params
            else options.merge base params
          .state
            { state with
              index := index
              routes := state.routes.take index ++ [{ route with params := params' }] }

/-- `PUSH` puts a fresh route on top, unless `getId` finds one to move there. -/
def getStateForPush (nanoid : Nat) (state : NavigationState N P S) (name : N)
    (params : Option P) : Option (Answer N P S) :=
  if state.routeNames.contains name then
    let found := (actionId options (some name) none params).bind fun (n, getId, id) =>
      state.routes.find? fun r => r.name = n && getId r.params = some id
    let params' := options.initial name params
    let routes :=
      match found with
      | some route => state.routes.filter (fun r => r.key ≠ route.key) ++
          [{ route with params := params' }]
      | none => state.routes ++ [{ key := ⟨name, nanoid⟩, name := name, params := params' }]
    some (.state { state with index := routes.length - 1, routes := routes })
  else none

/-- A route of a whole state keeps its params. -/
def keyedRoute (nanoid i : Nat) (r : PartialRoute N P) : NavigationRoute N P S where
  key := r.key.getD ⟨r.name, nanoid + i⟩
  name := r.name
  params := r.params

/-- `RESET` in `BaseRouter`. -/
def getStateForReset (nanoid : Nat) (state : NavigationState N P S)
    (nextState : ResetState N P) : Option (Answer N P S) :=
  if nextState.routes.isEmpty ||
      nextState.routes.any fun r => !state.routeNames.contains r.name then none
  else
    match nextState with
    | .partialState routes => some (.partialState routes)
    | .whole key index routeNames routes =>
        if state.routeNames.length ≠ routeNames.length ||
            routeNames.any fun name => !state.routeNames.contains name then none
        else
          some (.state
            { key := key
              index := index
              routeNames := routeNames
              routes := routes.mapIdx (keyedRoute nanoid) })

/-- `getStateForAction`: the answer of the router, or `none` for an action it does not handle. -/
def getStateForAction (nanoid : Nat) (state : NavigationState N P S)
    (action : NavigationAction N P) : Option (Answer N P S) :=
  match action.payload with
  | .REPLACE name key params =>
      match actionIndex state action with
      | none => none
      | some index =>
          if state.routeNames.contains name then
            some (.state
              { state with
                routes := state.routes.set index
                  { key := key.getD ⟨name, nanoid⟩
                    name := name
                    params := options.initial name params } })
          else none
  | .PUSH name params => getStateForPush options nanoid state name params
  | .POP count => getStateForPop state action count
  | .POP_TO_TOP =>
      getStateForPop state { payload := .POP (state.routes.length - 1) } (state.routes.length - 1)
  | .NAVIGATE name key params merge =>
      getStateForNavigate options nanoid state name key params merge
  | .GO_BACK =>
      if 0 < state.index then getStateForPop state action 1 else none
  -- from here on `BaseRouter`
  | .SET_PARAMS params =>
      let index :=
        match action.source with
        | some key => state.routes.findIdx? fun r : NavigationRoute N P S => r.key = key
        | none => some state.index
      index.map fun i =>
        .state
          { state with
            routes := state.routes.modify i fun r =>
              { r with params := options.mergeSet r.params params } }
  | .RESET nextState => getStateForReset nanoid state nextState

/-- `getStateForRouteFocus` -/
def getStateForRouteFocus (state : NavigationState N P S) (key : Key N) :
    NavigationState N P S :=
  match state.routes.findIdx? fun r : NavigationRoute N P S => r.key = key with
  | none => state
  | some index =>
      if index = state.index then state
      else { state with index := index, routes := state.routes.take (index + 1) }

/-- The state a navigator with the screens `routeNames` is in after an answer: a partial state
is rehydrated before it is used, and a whole one brought to the screens of the navigator. -/
def Answer.settled (nanoid : Nat) (routeNames : List N) (initialRouteName : N) :
    Answer N P S → NavigationState N P S
  | .state s =>
      if s.routeNames = routeNames then s
      else getStateForRouteNamesChange options s routeNames initialRouteName nanoid
  | .partialState routes =>
      getRehydratedState options routeNames initialRouteName nanoid routes

end

/-! ## Stacks stay stacks -/

/-- The keys and names of the routes. -/
def entries (routes : List (NavigationRoute N P S)) : List (Key N × N) :=
  routes.map fun r => (r.key, r.name)

/-- A state of a navigator with the screens `names`: its last route is focused, every route is
of one of the screens, and no two routes have a key in common. -/
structure WellFormed (names : List N) (s : NavigationState N P S) : Prop where
  routeNames : s.routeNames = names
  last : s.index + 1 = s.routes.length
  names : ∀ e ∈ entries s.routes, e.2 ∈ names
  keys : ((entries s.routes).map Prod.fst).Nodup

/-- The keys on the stack have been given out before `nanoid`. -/
def Given (nanoid : Nat) (s : NavigationState N P S) : Prop :=
  ∀ e ∈ entries s.routes, e.1.nanoid < nanoid

/-- The routes have their keys from the router, and a whole state focuses the last of them. -/
def ResetState.plain : ResetState N P → Bool
  | .partialState routes => routes.all fun r => r.key.isNone
  | .whole _ index _ routes => (routes.all fun r => r.key.isNone) && index + 1 = routes.length

/-- The action leaves the keys of fresh routes to the router, pops no negative count, and
resets to nothing but a stack. -/
def Payload.plain : Payload N P → Bool
  | .REPLACE _ key _ => key.isNone
  | .POP count => 0 ≤ count
  | .NAVIGATE name key _ _ => key.isNone || name.isNone
  | .RESET nextState => nextState.plain
  | _ => true

/-- How many numbers the router may use up. -/
def Payload.keysUsed : Payload N P → Nat
  | .RESET nextState => nextState.routes.length + 1
  | _ => 1

/-- Routes of the stack are dropped, and one route may come in between: a fresh one, or one
that was dropped. -/
inductive Rearranged (nanoid : Nat) (names : List N) (old new : List (Key N × N)) : Prop
  | drop (h : new.Sublist old)
  | insert (l₁ l₂ : List (Key N × N)) (e : Key N × N) (hSub : (l₁ ++ l₂).Sublist old)
      (hNew : e.1 ∉ (l₁ ++ l₂).map Prod.fst) (hName : e.2 ∈ names) (hKey : e.1.nanoid ≤ nanoid)
      (hEq : new = l₁ ++ e :: l₂)

section

variable {nanoid : Nat} {names : List N} {s s' : NavigationState N P S}

/-- A rearranged stack is a stack again. -/
theorem WellFormed.rearranged (h : WellFormed names s) (hGiven : Given nanoid s)
    (hNames : s'.routeNames = s.routeNames) (hLast : s'.index + 1 = s'.routes.length)
    (hEntries : Rearranged nanoid names (entries s.routes) (entries s'.routes)) :
    WellFormed names s' ∧ Given (nanoid + 1) s' := by
  cases hEntries with
  | drop hSub =>
      refine ⟨⟨hNames.trans h.routeNames, hLast, fun e he => ?_, h.keys.sublist (hSub.map _)⟩,
        fun e he => ?_⟩
      · exact h.names e (hSub.subset he)
      · have hOld := hGiven e (hSub.subset he)
        omega
  | insert l₁ l₂ e hSub hNew hName hKey hEq =>
      have hMem : ∀ x ∈ entries s'.routes, x = e ∨ x ∈ entries s.routes := by
        intro x hx
        rw [hEq] at hx
        rcases List.mem_append.mp hx with hLeft | hRight
        · exact Or.inr (hSub.subset (List.mem_append_left _ hLeft))
        · rcases List.mem_cons.mp hRight with hSelf | hTail
          · exact Or.inl hSelf
          · exact Or.inr (hSub.subset (List.mem_append_right _ hTail))
      refine ⟨⟨hNames.trans h.routeNames, hLast, fun x hx => ?_, ?_⟩, fun x hx => ?_⟩
      · rcases hMem x hx with rfl | hOld
        · exact hName
        · exact h.names x hOld
      · rw [hEq, List.map_append, List.map_cons, List.nodup_middle, ← List.map_append,
          List.nodup_cons]
        exact ⟨hNew, h.keys.sublist (hSub.map _)⟩
      · rcases hMem x hx with rfl | hOld
        · omega
        · have hEarlier := hGiven x hOld
          omega

/-- A fresh key is on no part of the stack. -/
theorem Given.fresh (hGiven : Given nanoid s) {l : List (Key N × N)}
    (hSub : l.Sublist (entries s.routes)) (name : N) :
    (⟨name, nanoid⟩ : Key N) ∉ l.map Prod.fst := by
  intro hMem
  obtain ⟨e, he, hEq⟩ := List.mem_map.mp hMem
  have hLess := hGiven e (hSub.subset he)
  rw [hEq] at hLess
  exact Nat.lt_irrefl _ hLess

theorem take_append_drop_sublist {α : Type} (l : List α) {i j : Nat} (h : i ≤ j) :
    (l.take i ++ l.drop j).Sublist l := by
  have hTail : (l.drop j).Sublist (l.drop i) := List.drop_sublist_drop_left l h
  have hParts := (List.append_sublist_append_left (l.take i)).mpr hTail
  rwa [List.take_append_drop] at hParts

theorem replace_rearranged (hGiven : Given nanoid s) {i : Nat} (hAt : i < s.routes.length)
    {name : N} (hName : name ∈ names) (params : Option P) :
    Rearranged nanoid names (entries s.routes)
      (entries (s.routes.set i { key := ⟨name, nanoid⟩, name := name, params := params })) := by
  have hSub : (entries (s.routes.take i) ++ entries (s.routes.drop (i + 1))).Sublist
      (entries s.routes) := by
    have hParts := (take_append_drop_sublist s.routes (Nat.le_succ i)).map
      fun r => (r.key, r.name)
    rwa [List.map_append] at hParts
  refine .insert (entries (s.routes.take i)) (entries (s.routes.drop (i + 1)))
    (⟨name, nanoid⟩, name) hSub (hGiven.fresh hSub name) hName (Nat.le_refl _) ?_
  rw [List.set_eq_take_append_cons_drop, if_pos hAt, entries, List.map_append, List.map_cons]
  rfl

/-- A fresh route on top. -/
theorem append_rearranged (hGiven : Given nanoid s) {name : N} (hName : name ∈ names)
    (params : Option P) :
    Rearranged nanoid names (entries s.routes)
      (entries (s.routes ++ [{ key := ⟨name, nanoid⟩, name := name, params := params }])) := by
  refine .insert (entries s.routes) [] (⟨name, nanoid⟩, name) (by simp) ?_ hName (Nat.le_refl _) ?_
  · rw [List.append_nil]
    exact hGiven.fresh (List.Sublist.refl _) name
  · simp [entries]

variable [DecidableEq N] [DecidableEq I] {options : RouterConfigOptions N P I}

/-- An action is about a route that is there. -/
theorem actionIndex_lt (h : WellFormed names s) {action : NavigationAction N P} {i : Nat}
    (hAt : actionIndex s action = some i) : i < s.routes.length := by
  unfold actionIndex at hAt
  split at hAt
  · exact (List.findIdx?_eq_some_iff_getElem.mp hAt).1
  · obtain rfl : s.index = i := by simpa using hAt
    have hLast := h.last
    omega

/-- A count that is not negative takes no route twice. -/
theorem pop_rearranged (h : WellFormed names s) {action : NavigationAction N P} {count : Int}
    (hCount : 0 ≤ count) {ans : Answer N P S} (hPop : getStateForPop s action count = some ans) :
    ∃ s', ans = .state s' ∧ s'.routeNames = s.routeNames ∧ s'.index + 1 = s'.routes.length ∧
      Rearranged nanoid names (entries s.routes) (entries s'.routes) := by
  unfold getStateForPop at hPop
  cases hAt : actionIndex s action with
  | none => simp [hAt] at hPop
  | some i =>
      simp only [hAt] at hPop
      split at hPop
      · rename_i hPos
        have hBound := actionIndex_lt h hAt
        rw [Option.some.injEq] at hPop
        subst hPop
        refine ⟨_, rfl, rfl, ?_, .drop ?_⟩
        · simp only [List.length_append, List.length_take, List.length_drop]
          omega
        · exact (take_append_drop_sublist s.routes (by omega)).map _
      · simp at hPop

/-- `PUSH` leaves routes out and puts one on top. -/
theorem push_rearranged (h : WellFormed names s) (hGiven : Given nanoid s) {name : N}
    {params : Option P} {ans : Answer N P S}
    (hPush : getStateForPush options nanoid s name params = some ans) :
    ∃ s', ans = .state s' ∧ s'.routeNames = s.routeNames ∧ s'.index + 1 = s'.routes.length ∧
      Rearranged nanoid names (entries s.routes) (entries s'.routes) := by
  unfold getStateForPush at hPush
  split at hPush
  · rename_i hName
    rw [Option.some.injEq] at hPush
    subst hPush
    cases hFound : (actionId options (some name) none params).bind fun (n, getId, id) =>
        s.routes.find? fun r => r.name = n && getId r.params = some id with
    | none =>
        have hMem : name ∈ names := by simpa [h.routeNames] using hName
        exact ⟨_, rfl, rfl, by simp, append_rearranged hGiven hMem _⟩
    | some route =>
        -- the route that has the id moves to the top
        have hMem : route ∈ s.routes := by
          obtain ⟨⟨n, getId, id⟩, -, hAt⟩ := Option.bind_eq_some_iff.mp hFound
          exact List.mem_of_find?_eq_some hAt
        have hEntry : (route.key, route.name) ∈ entries s.routes := List.mem_map_of_mem hMem
        refine ⟨_, rfl, rfl, by simp, .insert (entries (s.routes.filter fun r => r.key ≠ route.key))
          [] (route.key, route.name) ?_ ?_ (h.names _ hEntry) (Nat.le_of_lt (hGiven _ hEntry)) ?_⟩
        · rw [List.append_nil]
          exact List.filter_sublist.map _
        · simp [entries]
        · simp [entries]
  · simp at hPush

/-- `NAVIGATE` without a key of its own leaves routes out, or puts one on top. -/
theorem navigate_rearranged (h : WellFormed names s) (hGiven : Given nanoid s) {name : Option N}
    {key : Option (Key N)} {params : Option P} {merge : Bool} {ans : Answer N P S}
    (hKeyless : (key.isNone || name.isNone) = true)
    (hNav : getStateForNavigate options nanoid s name key params merge = some ans) :
    ∃ s', ans = .state s' ∧ s'.routeNames = s.routeNames ∧ s'.index + 1 = s'.routes.length ∧
      Rearranged nanoid names (entries s.routes) (entries s'.routes) := by
  unfold getStateForNavigate at hNav
  split at hNav
  · simp at hNav
  · rename_i hRegistered
    split at hNav
    · simp at hNav
    · split at hNav
      · -- a fresh route: the action names it, so that it gives no key
        rw [Option.map_eq_some_iff] at hNav
        obtain ⟨n, rfl, rfl⟩ := hNav
        obtain rfl : key = none := by simpa using hKeyless
        refine ⟨_, rfl, rfl, by simp, append_rearranged hGiven ?_ _⟩
        simpa [h.routeNames] using hRegistered
      · rename_i index _
        rw [Option.map_eq_some_iff] at hNav
        obtain ⟨route, hRoute, rfl⟩ := hNav
        have hBound := (List.getElem?_eq_some_iff.mp hRoute).1
        have hTake : entries (s.routes.take index ++ [route]) =
            entries (s.routes.take (index + 1)) := by
          rw [List.take_add_one, hRoute]
          rfl
        refine ⟨_, rfl, rfl, ?_, .drop ?_⟩
        · simp only [List.length_append, List.length_take, List.length_singleton]
          omega
        · have hSub : (entries (s.routes.take (index + 1))).Sublist (entries s.routes) :=
            (List.take_sublist _ _).map _
          rw [← hTake] at hSub
          simpa [entries] using hSub

omit [DecidableEq I] in
/-- A partial state whose names are all registered keeps all its routes. -/
theorem rehydrated_eq {names : List N} {routes : List (PartialRoute N P)} (name : N)
    (hSome : routes ≠ []) (hNames : ∀ r ∈ routes, r.name ∈ names) :
    getRehydratedState (S := S) options names name nanoid routes =
      { key := nanoid
        index := routes.length - 1
        routeNames := names
        routes := routes.mapIdx (rehydratedRoute options nanoid) } := by
  have hKept : (routes.filter fun r => names.contains r.name) = routes :=
    List.filter_eq_self.mpr fun r hr => by simpa using hNames r hr
  unfold getRehydratedState
  rw [hKept, if_neg (by simpa using hSome), List.length_mapIdx]

omit [DecidableEq I] in
/-- A state with routes of the navigator's screens only has its names replaced. -/
theorem names_change_eq {key : Nat} {routeNames : List N} {routes : List (PartialRoute N P)}
    {name : N} (hSome : routes ≠ []) (hNames : ∀ r ∈ routes, r.name ∈ names) :
    getStateForRouteNamesChange options
        { key := key
          index := routes.length - 1
          routeNames := routeNames
          routes := routes.mapIdx (keyedRoute (S := S) nanoid) } names name nanoid =
      { key := key
        index := routes.length - 1
        routeNames := names
        routes := routes.mapIdx (keyedRoute nanoid) } := by
  have hKept : ((routes.mapIdx (keyedRoute (S := S) nanoid)).filter fun r =>
      names.contains r.name) = routes.mapIdx (keyedRoute nanoid) := by
    refine List.filter_eq_self.mpr fun r hr => ?_
    obtain ⟨i, hi, rfl⟩ := List.mem_mapIdx.mp hr
    simpa [keyedRoute] using hNames _ (List.getElem_mem hi)
  unfold getStateForRouteNamesChange
  simp only [hKept]
  rw [if_neg (by simpa using hSome), List.length_mapIdx, Nat.min_self]

omit [DecidableEq N] [DecidableEq I] in
/-- Routes that are numbered from `nanoid` on make a stack. -/
theorem numbered_wellFormed {routes : List (PartialRoute N P)}
    {f : Nat → PartialRoute N P → NavigationRoute N P S}
    (hName : ∀ i r, (f i r).name = r.name)
    (hKey : ∀ i r, (f i r).key = r.key.getD ⟨r.name, nanoid + i⟩)
    (hKeyless : (routes.all fun r => r.key.isNone) = true) (hSome : routes ≠ [])
    (hNames : ∀ r ∈ routes, r.name ∈ names) (key : Nat) :
    WellFormed names
        { key := key
          index := routes.length - 1
          routeNames := names
          routes := routes.mapIdx f } ∧
      ∀ e ∈ entries (routes.mapIdx f), e.1.nanoid < nanoid + (routes.length + 1) := by
  have hNumber : ∀ i (hi : i < routes.length),
      (f i routes[i]).key = ⟨routes[i].name, nanoid + i⟩ := by
    intro i hi
    have hNone : routes[i].key = none := by
      simpa using List.all_eq_true.mp hKeyless routes[i] (List.getElem_mem hi)
    rw [hKey, hNone, Option.getD_none]
  have hPos := List.length_pos_of_ne_nil hSome
  refine ⟨⟨rfl, ?_, ?_, ?_⟩, ?_⟩
  · simp only [List.length_mapIdx]
    omega
  · intro e he
    obtain ⟨r, hr, rfl⟩ := List.mem_map.mp he
    obtain ⟨i, hi, rfl⟩ := List.mem_mapIdx.mp hr
    show (f i routes[i]).name ∈ names
    rw [hName]
    exact hNames _ (List.getElem_mem hi)
  · rw [List.Nodup, List.pairwise_iff_getElem]
    intro i j hi hj hLess hEq
    simp only [entries, List.map_map, List.getElem_map, List.getElem_mapIdx, Function.comp] at hEq
    rw [hNumber, hNumber, Key.mk.injEq] at hEq
    omega
  · intro e he
    obtain ⟨r, hr, rfl⟩ := List.mem_map.mp he
    obtain ⟨i, hi, rfl⟩ := List.mem_mapIdx.mp hr
    show (f i routes[i]).key.nanoid < _
    rw [hNumber i hi]
    show nanoid + i < _
    omega

omit [DecidableEq I] in
/-- What a navigator makes of a `RESET` is a stack. -/
theorem reset_wellFormed (hRouteNames : s.routeNames = names) {nextState : ResetState N P}
    (hPlain : nextState.plain = true) (name : N) {ans : Answer N P S}
    (hAns : getStateForReset nanoid s nextState = some ans) :
    WellFormed names (ans.settled options nanoid names name) ∧
      Given (nanoid + (nextState.routes.length + 1)) (ans.settled options nanoid names name) := by
  unfold getStateForReset at hAns
  split at hAns
  · simp at hAns
  · rename_i hValid
    simp only [Bool.or_eq_true, List.isEmpty_iff, List.any_eq_true, not_or, not_exists,
      not_and, Bool.not_eq_true, Bool.not_eq_false', List.contains_iff_mem, hRouteNames] at hValid
    obtain ⟨hSome, hNames⟩ := hValid
    cases nextState with
    | partialState routes =>
        rw [Option.some.injEq] at hAns
        subst hAns
        simp only [ResetState.routes] at hSome hNames ⊢
        rw [Answer.settled, rehydrated_eq name hSome hNames]
        exact numbered_wellFormed (fun _ _ => rfl) (fun _ _ => rfl) hPlain hSome hNames nanoid
    | whole key index routeNames routes =>
        simp only [ResetState.plain, Bool.and_eq_true, decide_eq_true_eq] at hPlain
        obtain ⟨hKeyless, hIndex⟩ := hPlain
        obtain rfl : index = routes.length - 1 := by omega
        simp only [ResetState.routes] at hSome hNames hAns ⊢
        have hStack := numbered_wellFormed (f := keyedRoute (S := S) nanoid) (fun _ _ => rfl)
          (fun _ _ => rfl) hKeyless hSome hNames key
        split at hAns
        · simp at hAns
        · rw [Option.some.injEq] at hAns
          subst hAns
          rw [Answer.settled]
          split
          · rename_i hSame
            obtain rfl : routeNames = names := hSame
            exact hStack
          · rw [names_change_eq hSome hNames]
            exact hStack

omit [DecidableEq N] [DecidableEq I] in
/-- Params are no part of an entry. -/
theorem entries_modify (routes : List (NavigationRoute N P S)) (i : Nat)
    (params : Option P → Option P) :
    entries (routes.modify i fun r => { r with params := params r.params }) = entries routes := by
  refine List.ext_getElem? fun j => ?_
  rw [entries, entries, List.getElem?_map, List.getElem?_map, List.getElem?_modify]
  cases routes[j]? with
  | none => rfl
  | some r =>
      by_cases hAt : i = j
      · simp [hAt]
      · simp [hAt]

/-- **Every plain action leaves a stack.** -/
theorem WellFormed.step (h : WellFormed names s) (hGiven : Given nanoid s)
    {action : NavigationAction N P} (hPlain : action.payload.plain = true) (name : N)
    {ans : Answer N P S} (hAns : getStateForAction options nanoid s action = some ans) :
    WellFormed names (ans.settled options nanoid names name) ∧
      Given (nanoid + action.payload.keysUsed) (ans.settled options nanoid names name) := by
  -- every answer but that to `RESET` rearranges the state, and uses one number up at most
  have hWhole (hState : ∃ s', ans = .state s' ∧ s'.routeNames = s.routeNames ∧
      s'.index + 1 = s'.routes.length ∧
        Rearranged nanoid names (entries s.routes) (entries s'.routes)) :
      WellFormed names (ans.settled options nanoid names name) ∧
        Given (nanoid + 1) (ans.settled options nanoid names name) := by
    obtain ⟨s', rfl, hNames, hLast, hEntries⟩ := hState
    rw [Answer.settled, if_pos (hNames.trans h.routeNames)]
    exact h.rearranged hGiven hNames hLast hEntries
  unfold getStateForAction at hAns
  cases hPayload : action.payload with
  | REPLACE n key params =>
      simp only [hPayload] at hAns hPlain
      refine hWhole ?_
      cases hAt : actionIndex s action with
      | none => simp [hAt] at hAns
      | some i =>
          simp only [hAt] at hAns
          split at hAns
          · rename_i hName
            rw [Option.some.injEq] at hAns
            subst hAns
            obtain rfl : key = none := by simpa [Payload.plain] using hPlain
            refine ⟨_, rfl, rfl, ?_, replace_rearranged hGiven (actionIndex_lt h hAt)
              (by simpa [h.routeNames] using hName) _⟩
            rw [List.length_set]
            exact h.last
          · simp at hAns
  | PUSH n params =>
      simp only [hPayload] at hAns
      exact hWhole (push_rearranged h hGiven hAns)
  | POP count =>
      simp only [hPayload] at hAns hPlain
      exact hWhole (pop_rearranged h (of_decide_eq_true hPlain) hAns)
  | POP_TO_TOP =>
      simp only [hPayload] at hAns
      have hLast := h.last
      exact hWhole (pop_rearranged h (by omega) hAns)
  | NAVIGATE n key params merge =>
      simp only [hPayload] at hAns hPlain
      exact hWhole (navigate_rearranged h hGiven hPlain hAns)
  | GO_BACK =>
      simp only [hPayload] at hAns
      split at hAns
      · exact hWhole (pop_rearranged h Int.one_nonneg hAns)
      · simp at hAns
  | SET_PARAMS params =>
      simp only [hPayload] at hAns
      refine hWhole ?_
      rw [Option.map_eq_some_iff] at hAns
      obtain ⟨i, -, rfl⟩ := hAns
      refine ⟨_, rfl, rfl, ?_, .drop ?_⟩
      · rw [List.length_modify]
        exact h.last
      · have hSame := entries_modify s.routes i fun p => options.mergeSet p params
        rw [hSame]
  | RESET nextState =>
      simp only [hPayload] at hAns hPlain
      exact reset_wellFormed h.routeNames hPlain name hAns

/-- One action, with the numbers that are still to be given out: what no router handles
changes nothing. -/
def onAction (options : RouterConfigOptions N P I) (routeNames : List N) (initialRouteName : N)
    (t : Nat × NavigationState N P S) (action : NavigationAction N P) :
    Nat × NavigationState N P S :=
  (t.1 + action.payload.keysUsed,
    match getStateForAction options t.1 t.2 action with
    | none => t.2
    | some ans => ans.settled options t.1 routeNames initialRouteName)

/-- **A stack navigator stays a stack**, over any plain actions, from any sources and at any
targets. -/
theorem WellFormed.onAction_all (h : WellFormed names s) (hGiven : Given nanoid s) (name : N)
    {actions : List (NavigationAction N P)}
    (hPlain : ∀ action ∈ actions, action.payload.plain = true) :
    WellFormed names (actions.foldl (onAction options names name) (nanoid, s)).2 := by
  induction actions generalizing nanoid s with
  | nil => exact h
  | cons action actions ih =>
      have hRest := fun a ha => hPlain a (List.mem_cons_of_mem action ha)
      rw [List.foldl_cons, onAction]
      cases hAns : getStateForAction options nanoid s action with
      | none =>
          exact ih h (fun e he => Nat.lt_add_right _ (hGiven e he)) hRest
      | some ans =>
          obtain ⟨hNext, hNextGiven⟩ :=
            h.step hGiven (hPlain action List.mem_cons_self) name hAns
          exact ih hNext hNextGiven hRest

end

/-! ## Actions without a target -/

section

variable [DecidableEq N] [DecidableEq I] {options : RouterConfigOptions N P I} {nanoid : Nat}
  {s : NavigationState N P S} {rs : List (NavigationRoute N P S)} {r : NavigationRoute N P S}
  {source : Option (Key N)} {name : N} {params : Option P}

/-- `REPLACE` of the last route. -/
theorem replace_eq (hRoutes : s.routes = rs ++ [r]) (hIndex : s.index = rs.length)
    (hName : name ∈ s.routeNames) :
    getStateForAction options nanoid s { payload := .REPLACE name none params, source := source } =
      some (.state { s with routes := rs ++
        [{ key := ⟨name, nanoid⟩, name := name, params := options.initial name params }] }) := by
  simp [getStateForAction, actionIndex, hName, hRoutes, hIndex]

/-- `REPLACE` by a screen of another navigator is declined. -/
theorem replace_unregistered (hName : name ∉ s.routeNames) {key : Option (Key N)} :
    getStateForAction options nanoid s { payload := .REPLACE name key params, source := source } =
      none := by
  simp [getStateForAction, actionIndex, hName]

/-- `GO_BACK` from the first route is declined. -/
theorem goBack_first (hIndex : s.index = 0) :
    getStateForAction options nanoid s { payload := .GO_BACK, source := source } = none := by
  simp [getStateForAction, hIndex]

/-- `GO_BACK` drops the last route. -/
theorem goBack_eq (hRoutes : s.routes = rs ++ [r]) (hIndex : s.index = rs.length)
    (hMore : rs ≠ []) :
    getStateForAction options nanoid s { payload := .GO_BACK, source := source } =
      some (.state { s with index := rs.length - 1, routes := rs }) := by
  have hPos := List.length_pos_of_ne_nil hMore
  have hCount : (max (rs.length : Int) 1).toNat = rs.length := by omega
  simp [getStateForAction, getStateForPop, actionIndex, hRoutes, hIndex, hPos, hCount]

/-- `RESET` to a partial state answers with its routes. -/
theorem reset_eq {routes : List (PartialRoute N P)} (hSome : routes ≠ [])
    (hNames : ∀ q ∈ routes, q.name ∈ s.routeNames) :
    getStateForAction options nanoid s
        { payload := .RESET (.partialState routes), source := source } =
      some (.partialState routes) := by
  have hValid : (routes.isEmpty || routes.any fun q => !s.routeNames.contains q.name) = false := by
    simp only [Bool.or_eq_false_iff, List.isEmpty_eq_false_iff, List.any_eq_false]
    exact ⟨hSome, fun q hq => by simpa using hNames q hq⟩
  simp only [getStateForAction, getStateForReset, ResetState.routes, hValid, Bool.false_eq_true,
    if_false]

/-- `RESET` to a screen of another navigator is declined. -/
theorem reset_unregistered {nextState : ResetState N P} {q : PartialRoute N P}
    (hMem : q ∈ nextState.routes) (hName : q.name ∉ s.routeNames) :
    getStateForAction options nanoid s { payload := .RESET nextState, source := source } =
      none := by
  have hInvalid : (nextState.routes.isEmpty ||
      nextState.routes.any fun q => !s.routeNames.contains q.name) = true := by
    rw [Bool.or_eq_true, List.any_eq_true]
    exact Or.inr ⟨q, hMem, by simpa using hName⟩
  simp only [getStateForAction, getStateForReset, hInvalid, if_true]

/-- `NAVIGATE` to a screen of another navigator is declined. -/
theorem navigate_unregistered (hName : name ∉ s.routeNames) {key : Option (Key N)}
    {merge : Bool} :
    getStateForAction options nanoid s
      { payload := .NAVIGATE (some name) key params merge, source := source } = none := by
  simp [getStateForAction, getStateForNavigate, hName]

/-! ### `NAVIGATE` by name -/

/-- The search finds the last index that holds. -/
theorem searchBack_eq_some {p : Nat → Bool} {n i : Nat} (hBound : i < n) (hAt : p i = true)
    (hAfter : ∀ j, i < j → j < n → p j = false) : searchBack p n = some i := by
  induction n with
  | zero => omega
  | succ n ih =>
      rw [searchBack]
      by_cases hLast : i = n
      · rw [← hLast, if_pos hAt]
      · rw [hAfter n (by omega) (Nat.lt_succ_self n), if_neg Bool.false_ne_true]
        exact ih (by omega) fun j hj hBelow => hAfter j hj (by omega)

theorem searchBack_eq_none {p : Nat → Bool} {n : Nat} (hAll : ∀ j, j < n → p j = false) :
    searchBack p n = none := by
  induction n with
  | zero => rfl
  | succ n ih =>
      rw [searchBack, hAll n (Nat.lt_succ_self n), if_neg Bool.false_ne_true]
      exact ih fun j hj => hAll j (by omega)

theorem isAskedFor_name (q : NavigationRoute N P S) :
    isAskedFor (some name) none q = decide (q.name = name) := by
  simp [isAskedFor]

theorem navigateIndex_eq (hId : options.routeGetIdList name = none) :
    navigateIndex options s (some name) none params =
      if (s.routes[s.index]?).any fun q => q.name = name then some s.index
      else searchBack (fun i => (s.routes[i]?).any fun q => q.name = name) s.routes.length := by
  have hAsked : isAskedFor (some name) none =
      fun q : NavigationRoute N P S => decide (q.name = name) := funext isAskedFor_name
  simp only [navigateIndex, actionId, hId, Option.bind_none, hAsked]

/-- The focused route has the name: it stays. -/
theorem navigateIndex_same (hRoutes : s.routes = rs ++ [r]) (hIndex : s.index = rs.length)
    (hId : options.routeGetIdList name = none) (hSame : r.name = name) :
    navigateIndex options s (some name) none params = some rs.length := by
  rw [navigateIndex_eq hId, if_pos (by simp [hRoutes, hIndex, hSame]), hIndex]

/-- The last of the other routes that has the name gets the focus. -/
theorem navigateIndex_back {as bs : List (NavigationRoute N P S)} {q : NavigationRoute N P S}
    (hRoutes : s.routes = as ++ q :: bs) (hIndex : s.index = as.length + bs.length)
    (hId : options.routeGetIdList name = none) (hMore : bs ≠ []) (hName : q.name = name)
    (hAfter : ∀ x ∈ bs, x.name ≠ name) :
    navigateIndex options s (some name) none params = some as.length := by
  have hAt : ∀ j, as.length < j →
      (s.routes[j]?).any (fun x : NavigationRoute N P S => x.name = name) = false := by
    intro j hj
    rw [hRoutes, List.getElem?_append_right (by omega)]
    obtain ⟨k, hk⟩ : ∃ k, j - as.length = k + 1 := ⟨j - as.length - 1, by omega⟩
    rw [hk, List.getElem?_cons_succ]
    cases hGet : bs[k]? with
    | none => rfl
    | some x => simpa using hAfter x (List.mem_of_getElem? hGet)
  have hPos := List.length_pos_of_ne_nil hMore
  rw [navigateIndex_eq hId, hAt s.index (by omega), if_neg Bool.false_ne_true]
  refine searchBack_eq_some ?_ ?_ fun j hj _ => hAt j hj
  · rw [hRoutes, List.length_append, List.length_cons]
    omega
  · rw [hRoutes, List.getElem?_append_right (Nat.le_refl _), Nat.sub_self]
    simp [hName]

/-- No route has the name. -/
theorem navigateIndex_none (hId : options.routeGetIdList name = none)
    (hNone : ∀ x ∈ s.routes, x.name ≠ name) :
    navigateIndex options s (some name) none params = none := by
  have hAt : ∀ j : Nat,
      (s.routes[j]?).any (fun x : NavigationRoute N P S => x.name = name) = false := by
    intro j
    cases hGet : s.routes[j]? with
    | none => rfl
    | some x => simpa using hNone x (List.mem_of_getElem? hGet)
  rw [navigateIndex_eq hId, hAt, if_neg Bool.false_ne_true]
  exact searchBack_eq_none fun j _ => hAt j

/-- `NAVIGATE` goes to a route that is there. -/
theorem navigate_there {i : Nat} {q : NavigationRoute N P S} (hName : name ∈ s.routeNames)
    (hFound : navigateIndex options s (some name) none params = some i)
    (hAt : s.routes[i]? = some q) :
    getStateForAction options nanoid s
        { payload := .NAVIGATE (some name) none params false, source := source } =
      some (.state { s with
        index := i
        routes := s.routes.take i ++ [{ q with params := options.initial q.name params }] }) := by
  simp [getStateForAction, getStateForNavigate, hName, hFound, hAt, RouterConfigOptions.initial]

/-- `NAVIGATE` opens a screen that is not there. -/
theorem navigate_fresh (hName : name ∈ s.routeNames)
    (hFound : navigateIndex options s (some name) none params = none) {merge : Bool} :
    getStateForAction options nanoid s
        { payload := .NAVIGATE (some name) none params merge, source := source } =
      some (.state { s with
        index := s.routes.length
        routes := s.routes ++
          [{ key := ⟨name, nanoid⟩, name := name, params := options.initial name params }] }) := by
  simp [getStateForAction, getStateForNavigate, hName, hFound]

end

end TaskManager.Routes.StackRouter
