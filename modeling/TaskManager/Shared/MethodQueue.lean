import TaskManager.Shared.RNCAsyncStorage

/-!
# The queue of the store's methods

On iOS the methods of the store run on a serial queue, one after the other.  `MethodQueue` is
that queue with the directory it works on: between `call` and `save` a method has done its
part on the file of its key and not yet written the manifest.

`Follows` is what the calls are for: a map that performs those that are answered, and that
each call cut off leaves as it was but for the key of the call.

## Main results

* `Inv.exec` — as long as files can be read and the manifest can be written, the directory
  follows the calls; with writes that come off, what is answered is what is in it.
* `Inv.torn` — a small value that was about to take the place of a large one leaves nothing
  when it is cut off.
* `Inv.unsaved`, `Inv.unread` — what is lost when the manifest or a file fails once.
-/

namespace TaskManager.Shared

variable {K V : Type}

/-- The serial queue, and the call that has changed the manifest and not yet written it. -/
structure MethodQueue (K V : Type) where
  store : RNCAsyncStorage K V := {}
  atWork : Option (NativeCall K V) := none

namespace MethodQueue

/-- What happens on the queue: a call runs up to the manifest, the manifest is saved, the
cache gives up a value, or the process ends. -/
inductive Move (K V : Type) where
  | call (io : Io) (c : NativeCall K V)
  | save (ok : Bool)
  | evict (key : K)
  | kill

/-- What comes of a call: a callback, or the end of the process before it. -/
inductive Event (K V : Type) where
  | replied (c : NativeCall K V) (r : Reply V)
  | cut (c : NativeCall K V)
  deriving DecidableEq, Repr

variable [DecidableEq K]

/-- One move, with what comes of calls in it. -/
def step (isInline : V → Bool) (t : MethodQueue K V) :
    Move K V → Option (List (Event K V) × MethodQueue K V)
  | .call io c =>
      match t.atWork, t.store.call isInline io c with
      | some _, _ => none
      | none, (some r, s) => some ([.replied c r], { store := s })
      | none, (none, s) => some ([], { store := s, atWork := some c })
  | .save ok => t.atWork.map fun c =>
      if ok then ([.replied c .done], { store := t.store.writeManifest })
      else ([.replied c .failed], { store := t.store })
  | .evict key => some ([], { t with store := t.store.setCached key none })
  | .kill => some (t.atWork.toList.map .cut, { store := t.store.kill })

/-- A run, with what comes of its calls, the earliest first. -/
def exec (isInline : V → Bool) (t : MethodQueue K V) :
    List (Move K V) → Option (List (Event K V) × MethodQueue K V)
  | [] => some ([], t)
  | m :: ms => (step isInline t m).bind fun out =>
      (exec isInline out.2 ms).map fun rest => (out.1 ++ rest.1, rest.2)

/-- A call is replied to at once, or stays at work until the manifest is saved. -/
theorem step_call {isInline : V → Bool} {t t' : MethodQueue K V} {io : Io}
    {c : NativeCall K V} {es : List (Event K V)}
    (h : step isInline t (.call io c) = some (es, t')) :
    t.atWork = none ∧ ((∃ r, es = [.replied c r] ∧ t'.atWork = none) ∨
      es = [] ∧ t'.atWork = some c) := by
  cases hIdle : t.atWork with
  | some _ => simp [step, hIdle] at h
  | none =>
      refine ⟨rfl, ?_⟩
      rcases hCall : t.store.call isInline io c with ⟨_ | r, s⟩
      · simp only [step, hIdle, hCall, Option.some.injEq, Prod.mk.injEq] at h
        obtain ⟨rfl, rfl⟩ := h
        exact .inr ⟨rfl, rfl⟩
      · simp only [step, hIdle, hCall, Option.some.injEq, Prod.mk.injEq] at h
        obtain ⟨rfl, rfl⟩ := h
        exact .inl ⟨r, rfl, rfl⟩

/-- No file that is there fails to be read, the manifest is written, and perhaps every file. -/
def Move.Harmless (writes : Bool) : Move K V → Prop
  | .call io _ => io.read = true ∧ (writes = true → io.write = true)
  | .save ok => ok = true
  | _ => True

/-! ## What the calls are for -/

/-- What a call that ends so may have done to the store. -/
def Event.Allows (isInline : V → Bool) (writes : Bool) (d d' : K → Option V) :
    Event K V → Prop
  | .replied _ .failed => d' = d
  | .replied c r => d' = Function.update d c.key (c.result (d c.key)) ∧
      (writes = true → r = c.reply (d c.key))
  | .cut c => ∃ new, c.Cut isInline (d c.key) new ∧ d' = Function.update d c.key new

theorem Event.allows_replied {isInline : V → Bool} {writes : Bool} {d : K → Option V}
    {c : NativeCall K V} {r : Reply V} (hFailed : r ≠ .failed)
    (hReply : writes = true → r = c.reply (d c.key)) :
    (Event.replied c r).Allows isInline writes d
      (Function.update d c.key (c.result (d c.key))) := by
  cases r with
  | failed => exact absurd rfl hFailed
  | value _ => exact ⟨rfl, hReply⟩
  | done => exact ⟨rfl, hReply⟩

/-- A call that was replied to has been performed. -/
theorem Event.Allows.replied {isInline : V → Bool} {d d' : K → Option V} {c : NativeCall K V}
    {r : Reply V} (h : (Event.replied c r).Allows isInline true d d') (hFailed : r ≠ .failed) :
    d' = Function.update d c.key (c.result (d c.key)) ∧ r = c.reply (d c.key) := by
  cases r with
  | failed => exact absurd rfl hFailed
  | value _ => exact ⟨h.1, h.2 rfl⟩
  | done => exact ⟨h.1, h.2 rfl⟩

/-- The contents at the end, by what has come of the calls. -/
def Follows (isInline : V → Bool) (writes : Bool) (d d' : K → Option V) :
    List (Event K V) → Prop
  | [] => d' = d
  | e :: es => ∃ d₁, e.Allows isInline writes d d₁ ∧ Follows isInline writes d₁ d' es

/-- What comes of two stretches of a run. -/
theorem Follows.append {isInline : V → Bool} {writes : Bool} {d d₁ d' : K → Option V}
    {es es' : List (Event K V)} (h : Follows isInline writes d d₁ es)
    (h' : Follows isInline writes d₁ d' es') : Follows isInline writes d d' (es ++ es') := by
  induction es generalizing d with
  | nil =>
      obtain rfl : d₁ = d := h
      exact h'
  | cons e es ih =>
      obtain ⟨d₂, hAllows, hRest⟩ := h
      exact ⟨d₂, hAllows, ih hRest⟩

/-! ## The directory -/

/-- `d` is in the directory, but for what the call at work has done. -/
structure Inv (isInline : V → Bool) (writes : Bool) (d : K → Option V)
    (t : MethodQueue K V) : Prop where
  good : ∀ key, (t.store.cell key).Good isInline writes
  agrees : ∀ key, (∀ c ∈ t.atWork, key ≠ c.key) →
    (t.store.cell key).Agrees ∧ t.store.durable key = d key
  atWork : ∀ c ∈ t.atWork, (t.store.cell c.key).live = c.result (d c.key) ∧
    c.reply (d c.key) = .done ∧ c.Cut isInline (d c.key) (t.store.durable c.key)

variable {isInline : V → Bool} {writes : Bool} {d : K → Option V} {t t' : MethodQueue K V}

omit [DecidableEq K] in
/-- An empty directory. -/
theorem Inv.empty : Inv isInline writes (fun _ => none) ({} : MethodQueue K V) where
  good _ := {
    file := fun _ h => by cases h
    entry := fun _ h => by cases h
    saved := fun _ h => by cases h
    cached := fun _ _ h => by cases h }
  agrees _ _ := ⟨.inl rfl, rfl⟩
  atWork _ h := by simp at h

omit [DecidableEq K] in
/-- With no call at work, memory and directory agree on every key. -/
theorem Inv.idle (h : Inv isInline writes d t) (hIdle : t.atWork = none) (key : K) :
    (t.store.cell key).Agrees ∧ t.store.durable key = d key :=
  h.agrees key (by simp [hIdle])

omit [DecidableEq K] in
/-- Between two calls the directory has all there is. -/
theorem Inv.durable_eq (h : Inv isInline writes d t) (hIdle : t.atWork = none) :
    t.store.durable = d := by
  funext key
  exact (h.idle hIdle key).2

omit [DecidableEq K] in
/-- Where a small value is. -/
theorem Inv.small (h : Inv isInline writes d t) (hIdle : t.atWork = none) {key : K} {v : V}
    (hValue : d key = some v) (hSmall : isInline v = true) :
    (t.store.cell key).entry = some (.inlined v) ∧
      (t.store.cell key).saved = some (.inlined v) := by
  obtain ⟨hAgrees, hDurable⟩ := h.idle hIdle key
  have hLive : (t.store.cell key).live = some v := hAgrees.live_eq.trans (hDurable.trans hValue)
  have hEntry := (h.good key).entry_inlined hLive hSmall
  exact ⟨hEntry, hAgrees.saved_eq hEntry⟩

omit [DecidableEq K] in
/-- Where a large value is. -/
theorem Inv.large (h : Inv isInline writes d t) (hIdle : t.atWork = none) {key : K} {v : V}
    (hValue : d key = some v) (hLarge : isInline v = false) :
    (t.store.cell key).entry = some .filed ∧ (t.store.cell key).saved = some .filed ∧
      t.store.files key = some v := by
  obtain ⟨hAgrees, hDurable⟩ := h.idle hIdle key
  have hLive : (t.store.cell key).live = some v := hAgrees.live_eq.trans (hDurable.trans hValue)
  have hEntry := (h.good key).entry_filed hLive hLarge
  refine ⟨hEntry, hAgrees.saved_eq hEntry, ?_⟩
  rwa [RNCAsyncStorage.Cell.live, hEntry] at hLive

omit [DecidableEq K] in
/-- The next process finds a directory that is in order. -/
theorem Inv.kill (h : Inv isInline writes d t) :
    Inv isInline writes t.store.durable ({ store := t.store.kill } : MethodQueue K V) where
  good key := by
    rw [RNCAsyncStorage.cell_kill]
    exact {
      file := (h.good key).file
      entry := (h.good key).saved
      saved := (h.good key).saved
      cached := fun _ v hv => by cases hv }
  agrees key _ := ⟨.inl rfl, rfl⟩
  atWork _ h := by simp at h

/-- The cache holds nothing that is not elsewhere. -/
theorem Inv.evict (h : Inv isInline writes d t) (key : K) :
    Inv isInline writes d { t with store := t.store.setCached key none } := by
  have hCell : ∀ key', ∃ cached, (t.store.setCached key none).cell key' =
      { t.store.cell key' with cached := cached } ∧
      (cached = none ∨ cached = (t.store.cell key').cached) := by
    intro key'
    by_cases hKey : key' = key
    · subst hKey
      exact ⟨none, RNCAsyncStorage.cell_setCached none, .inl rfl⟩
    · exact ⟨_, RNCAsyncStorage.cell_setCached_ne hKey none, .inr rfl⟩
  refine { good := fun key' => ?_, agrees := fun key' hKey => ?_, atWork := fun c hc => ?_ }
  · obtain ⟨cached, hSame, hCached⟩ := hCell key'
    show ((t.store.setCached key none).cell key').Good isInline writes
    rw [hSame]
    refine { h.good key' with cached := fun hWrites v hv => ?_ }
    rcases hCached with rfl | rfl
    · cases hv
    · exact (h.good key').cached hWrites v hv
  · obtain ⟨cached, hSame, -⟩ := hCell key'
    show ((t.store.setCached key none).cell key').Agrees ∧
      ((t.store.setCached key none).cell key').durable = d key'
    rw [hSame]
    exact h.agrees key' hKey
  · obtain ⟨cached, hSame, -⟩ := hCell c.key
    show ((t.store.setCached key none).cell c.key).live = _ ∧ _ ∧
      c.Cut isInline _ ((t.store.setCached key none).cell c.key).durable
    rw [hSame]
    exact h.atWork c hc

/-- With the manifest, the call has done its work. -/
theorem Inv.save (h : Inv isInline writes d t) {c : NativeCall K V} (hWork : t.atWork = some c) :
    Inv isInline writes (Function.update d c.key (c.result (d c.key)))
      ({ store := t.store.writeManifest } : MethodQueue K V) where
  good key := by
    rw [RNCAsyncStorage.cell_writeManifest]
    exact { h.good key with saved := (h.good key).entry }
  agrees key _ := by
    have hLive : t.store.writeManifest.durable key = (t.store.cell key).live := by
      rw [RNCAsyncStorage.durable, RNCAsyncStorage.cell_writeManifest]
      rfl
    rw [RNCAsyncStorage.cell_writeManifest, hLive]
    refine ⟨.inl rfl, ?_⟩
    by_cases hKey : key = c.key
    · subst hKey
      rw [(h.atWork c hWork).1, Function.update_self]
    · obtain ⟨hAgrees, hDurable⟩ := h.agrees key fun c' hc' => by
        rw [hWork] at hc'
        exact Option.some.inj hc' ▸ hKey
      rw [Function.update_of_ne hKey, ← hDurable]
      exact hAgrees.live_eq
  atWork _ h := by simp at h

/-- A call changes the cell of its key, and the others stay. -/
theorem Inv.changed (h : Inv isInline writes d t) (hIdle : t.atWork = none) {key : K}
    {s : RNCAsyncStorage K V} {new : Option V}
    (hOther : ∀ key', key' ≠ key → s.cell key' = t.store.cell key')
    (hGood : (s.cell key).Good isInline writes) (hAgrees : (s.cell key).Agrees)
    (hDurable : s.durable key = new) :
    Inv isInline writes (Function.update d key new) ({ store := s } : MethodQueue K V) where
  good key' := by
    by_cases hKey : key' = key
    · exact hKey ▸ hGood
    · rw [hOther key' hKey]
      exact h.good key'
  agrees key' _ := by
    by_cases hKey : key' = key
    · subst hKey
      exact ⟨hAgrees, by rw [Function.update_self, hDurable]⟩
    · rw [Function.update_of_ne hKey, RNCAsyncStorage.durable, hOther key' hKey]
      exact h.idle hIdle key'
  atWork _ h := by simp at h

/-- The manifest is still to be written. -/
theorem Inv.begun (h : Inv isInline writes d t) (hIdle : t.atWork = none) {c : NativeCall K V}
    {s : RNCAsyncStorage K V} (hOther : ∀ key, key ≠ c.key → s.cell key = t.store.cell key)
    (hGood : (s.cell c.key).Good isInline writes)
    (hCut : (s.cell c.key).live = c.result (d c.key) ∧ c.reply (d c.key) = .done ∧
      c.Cut isInline (d c.key) (s.cell c.key).durable) :
    Inv isInline writes d { store := s, atWork := some c } where
  good key := by
    by_cases hKey : key = c.key
    · exact hKey ▸ hGood
    · rw [hOther key hKey]
      exact h.good key
  agrees key hKey := by
    have hNe : key ≠ c.key := hKey c rfl
    rw [RNCAsyncStorage.durable, hOther key hNe]
    exact h.idle hIdle key
  atWork c' hc' := by
    obtain rfl : c = c' := by simpa using hc'
    exact hCut

/-- The process ends, and with it the call at work. -/
theorem Inv.follows_kill (h : Inv isInline writes d t) :
    Follows isInline writes d t.store.durable (t.atWork.toList.map .cut) := by
  cases hWork : t.atWork with
  | none => exact h.durable_eq hWork
  | some c =>
      refine ⟨t.store.durable, ⟨_, (h.atWork c hWork).2.2, ?_⟩, rfl⟩
      funext key
      by_cases hKey : key = c.key
      · subst hKey
        rw [Function.update_self]
      · rw [Function.update_of_ne hKey]
        refine (h.agrees key fun c' hc' => ?_).2
        rw [hWork] at hc'
        exact Option.some.inj hc' ▸ hKey

/-- What a move makes of the contents. -/
theorem Inv.step (h : Inv isInline writes d t) {m : Move K V} (hHarmless : m.Harmless writes)
    {es : List (Event K V)} (hStep : step isInline t m = some (es, t')) :
    ∃ d', Follows isInline writes d d' es ∧ Inv isInline writes d' t' := by
  cases m with
  | call io c =>
      obtain ⟨hRead, hWrite⟩ := hHarmless
      cases hIdle : t.atWork with
      | some _ => simp [MethodQueue.step, hIdle] at hStep
      | none =>
          have hCalled := RNCAsyncStorage.called_call (h.good c.key)
            (h.idle hIdle c.key).1 hRead hWrite
          have hOther : ∀ key, key ≠ c.key →
              (t.store.call isInline io c).2.cell key = t.store.cell key :=
            fun key hKey => RNCAsyncStorage.cell_call_ne hKey
          have hOld : (t.store.cell c.key).durable = d c.key :=
            (h.idle hIdle c.key).2
          rcases hCall : t.store.call isInline io c with ⟨_ | r, s⟩
          · simp only [MethodQueue.step, hIdle, hCall, Option.some.injEq, Prod.mk.injEq] at hStep
            obtain ⟨rfl, rfl⟩ := hStep
            rw [hCall] at hCalled hOther
            exact ⟨d, rfl, h.begun hIdle hOther hCalled.good (hOld ▸ hCalled.cut rfl)⟩
          · simp only [MethodQueue.step, hIdle, hCall, Option.some.injEq, Prod.mk.injEq] at hStep
            obtain ⟨rfl, rfl⟩ := hStep
            rw [hCall] at hCalled hOther
            have hAgrees := hCalled.agrees (by simp)
            by_cases hFailed : r = .failed
            · subst hFailed
              refine ⟨d, ⟨d, rfl, rfl⟩, ?_⟩
              have hSame := h.changed hIdle hOther hCalled.good hAgrees
                ((hCalled.failed rfl).trans hOld)
              rwa [Function.update_eq_self] at hSame
            · obtain ⟨hDurable, hReply⟩ := hCalled.answered r rfl hFailed
              rw [hOld] at hDurable hReply
              refine ⟨_, ⟨_, Event.allows_replied hFailed hReply, rfl⟩, ?_⟩
              exact h.changed hIdle hOther hCalled.good hAgrees hDurable
  | save ok =>
      obtain rfl : ok = true := hHarmless
      simp only [MethodQueue.step, Option.map_eq_some_iff, if_true, Prod.mk.injEq] at hStep
      obtain ⟨c, hWork, rfl, rfl⟩ := hStep
      have hReply := (h.atWork c hWork).2.1
      exact ⟨_, ⟨_, Event.allows_replied (by simp) fun _ => hReply.symm, rfl⟩, h.save hWork⟩
  | evict key =>
      simp only [MethodQueue.step, Option.some.injEq, Prod.mk.injEq] at hStep
      obtain ⟨rfl, rfl⟩ := hStep
      exact ⟨d, rfl, h.evict key⟩
  | kill =>
      simp only [MethodQueue.step, Option.some.injEq, Prod.mk.injEq] at hStep
      obtain ⟨rfl, rfl⟩ := hStep
      exact ⟨t.store.durable, h.follows_kill, h.kill⟩

/-- **The directory follows the calls.** -/
theorem Inv.exec (h : Inv isInline writes d t) {ms : List (Move K V)}
    (hHarmless : ∀ m ∈ ms, m.Harmless writes) {es : List (Event K V)}
    (hRun : exec isInline t ms = some (es, t')) :
    ∃ d', Follows isInline writes d d' es ∧ Inv isInline writes d' t' := by
  induction ms generalizing d t es with
  | nil =>
      simp only [MethodQueue.exec, Option.some.injEq, Prod.mk.injEq] at hRun
      obtain ⟨rfl, rfl⟩ := hRun
      exact ⟨d, rfl, h⟩
  | cons m ms ih =>
      simp only [MethodQueue.exec, Option.bind_eq_some_iff, Option.map_eq_some_iff,
        Prod.mk.injEq] at hRun
      obtain ⟨⟨es₁, t₁⟩, hStep, ⟨es₂, t₂⟩, hRest, rfl, rfl⟩ := hRun
      obtain ⟨d₁, hFollows₁, hInv₁⟩ := h.step (hHarmless m List.mem_cons_self) hStep
      obtain ⟨d', hFollows₂, hInv'⟩ :=
        ih hInv₁ (fun m' hm' => hHarmless m' (List.mem_cons_of_mem m hm')) hRest
      exact ⟨d', hFollows₁.append hFollows₂, hInv'⟩

/-- **What a cut call can lose, it does lose.**  The process ends while a small value takes the
place of a large one. -/
theorem Inv.torn (h : Inv isInline writes d t) (hIdle : t.atWork = none) {c : NativeCall K V}
    (hShrinks : c.shrinks isInline (d c.key) = true) :
    ∃ t', MethodQueue.step isInline t (.call {} c) = some ([], t') ∧ t'.atWork = some c ∧
      t'.store.durable = Function.update d c.key none := by
  cases c with
  | multiGet key => cases hShrinks
  | multiRemove key => cases hShrinks
  | multiSet key new =>
      obtain ⟨hSmall, old, hOld, hLarge⟩ := NativeCall.shrinks_multiSet.mp hShrinks
      have hAt : d key = some old := hOld
      obtain ⟨hEntry, hSaved, -⟩ := h.large hIdle hAt hLarge
      let s := (t.store.ensureSetup.removeFile true key).putEntry key (some (.inlined new))
      have hCall : t.store.call isInline {} (.multiSet key new) = (none, s) :=
        RNCAsyncStorage.call_small_of_filed hEntry hSmall rfl
      refine ⟨{ store := s, atWork := some (.multiSet key new) }, ?_, rfl, ?_⟩
      · simp only [MethodQueue.step, hIdle, hCall]
      funext key'
      show (s.cell key').durable = _
      by_cases hKey : key' = key
      · subst hKey
        rw [NativeCall.key, Function.update_self, RNCAsyncStorage.cell_putEntry,
          RNCAsyncStorage.cell_removeFile, RNCAsyncStorage.cell_ensureSetup]
        simp only [RNCAsyncStorage.Cell.durable, hSaved]
        rfl
      · rw [NativeCall.key, Function.update_of_ne hKey, RNCAsyncStorage.cell_putEntry_ne hKey,
          RNCAsyncStorage.cell_removeFile_ne hKey]
        exact (h.idle hIdle key').2

/-! ## When the files do not work -/

/-- A large value is answered without the manifest that has its file: the write of it failed
the time before, and it is not tried again. -/
theorem Inv.unsaved (h : Inv isInline writes d t) (hIdle : t.atWork = none) {key : K}
    {old value value' : V} (hOld : d key = some old) (hSmall : isInline old = true)
    (hLarge : isInline value = false) (hLarge' : isInline value' = false) :
    ∃ t', MethodQueue.exec isInline t
        [.call {} (.multiSet key value), .save false, .call {} (.multiSet key value')] =
          some ([.replied (.multiSet key value) .failed, .replied (.multiSet key value') .done],
            t') ∧
      t'.store.durable = d := by
  obtain ⟨hEntry, hSaved⟩ := h.small hIdle hOld hSmall
  let s := (t.store.ensureSetup.writeFile true key value).putEntry key (some .filed)
  have hFirst : t.store.call isInline {} (.multiSet key value) = (none, s) :=
    RNCAsyncStorage.call_large_of_inlined hEntry hLarge
  have hFiled : (s.cell key).entry = some .filed := by
    simp only [s, RNCAsyncStorage.cell_putEntry]
  have hSecond := RNCAsyncStorage.call_large_of_filed hFiled hLarge'
  refine ⟨{ store := s.ensureSetup.writeFile true key value' }, ?_, ?_⟩
  · simp [MethodQueue.exec, MethodQueue.step, hIdle, hFirst, hSecond]
  · funext key'
    show ((s.ensureSetup.writeFile true key value').cell key').durable = d key'
    by_cases hKey : key' = key
    · subst hKey
      have hSaved' : (s.cell key').saved = some (.inlined old) := by
        simp only [s, RNCAsyncStorage.cell_putEntry, RNCAsyncStorage.cell_writeFile]
        exact hSaved
      rw [RNCAsyncStorage.cell_writeFile, RNCAsyncStorage.cell_ensureSetup]
      simp only [RNCAsyncStorage.Cell.durable, hSaved']
      exact hOld.symm
    · simp only [s, RNCAsyncStorage.cell_writeFile_ne hKey, RNCAsyncStorage.cell_ensureSetup,
        RNCAsyncStorage.cell_putEntry_ne hKey]
      exact (h.idle hIdle key').2

/-- A large value is forgotten for good: its file could not be read, and the manifest was written
for another key. -/
theorem Inv.unread (h : Inv isInline writes d t) (hIdle : t.atWork = none) {key key' : K}
    {old value : V} (hOld : d key = some old) (hLarge : isInline old = false)
    (hKey : key' ≠ key) (hSmall : isInline value = true) :
    ∃ t', MethodQueue.exec isInline t
        [.evict key, .call { read := false } (.multiGet key), .call {} (.multiSet key' value),
          .save true] =
          some ([.replied (.multiGet key) .failed, .replied (.multiSet key' value) .done], t') ∧
      t'.store.durable = Function.update (Function.update d key none) key' (some value) := by
  -- without the cached value the file has to be read
  let s₁ := t.store.setCached key none
  have h₁ : Inv isInline writes d { t with store := s₁ } := h.evict key
  obtain ⟨hEntry, -, hFile⟩ := h₁.large hIdle hOld hLarge
  let s₂ := s₁.ensureSetup.putEntry key none
  have hRead : s₁.call isInline { read := false } (.multiGet key) = (some .failed, s₂) :=
    RNCAsyncStorage.call_unread hEntry (by simp [s₁, RNCAsyncStorage.setCached]) hFile
  obtain ⟨s₃, hSet, hNew⟩ : ∃ s₃, s₂.call isInline {} (.multiSet key' value) = (none, s₃) ∧
      (s₃.cell key').live = some value := RNCAsyncStorage.call_small hSmall
  have hOther : ∀ k, k ≠ key' → s₃.cell k = s₂.cell k := by
    intro k hk
    have hSame : (s₂.call isInline {} (.multiSet key' value)).2.cell k = s₂.cell k :=
      RNCAsyncStorage.cell_call_ne hk
    rwa [hSet] at hSame
  refine ⟨{ store := s₃.writeManifest }, ?_, ?_⟩
  · simp [MethodQueue.exec, MethodQueue.step, hIdle, hRead, hSet, s₁]
  · funext k
    show (s₃.writeManifest.cell k).durable = _
    rw [RNCAsyncStorage.cell_writeManifest]
    show (s₃.cell k).live = _
    by_cases hk : k = key'
    · subst hk
      rw [Function.update_self, hNew]
    · rw [Function.update_of_ne hk, hOther k hk]
      by_cases hk' : k = key
      · subst hk'
        rw [Function.update_self]
        simp only [s₂, RNCAsyncStorage.cell_putEntry]
        rfl
      · obtain ⟨hAgrees', hDurable'⟩ := h₁.idle hIdle k
        rw [Function.update_of_ne hk', RNCAsyncStorage.cell_putEntry_ne hk']
        exact hAgrees'.live_eq.trans hDurable'

/-- When nothing fails, a call is answered at once or with the manifest. -/
theorem Inv.answer (h : Inv isInline true d t) (hIdle : t.atWork = none) (c : NativeCall K V) :
    ∃ t', t'.atWork = none ∧
      Inv isInline true (Function.update d c.key (c.result (d c.key))) t' ∧
      (MethodQueue.step isInline t (.call {} c) =
          some ([.replied c (c.reply (d c.key))], t') ∨
        ∃ t₁, MethodQueue.step isInline t (.call {} c) = some ([], t₁) ∧
          MethodQueue.step isInline t₁ (.save true) =
            some ([.replied c (c.reply (d c.key))], t')) := by
  have hFailed : (t.store.call isInline {} c).1 ≠ some .failed := RNCAsyncStorage.call_ne_failed
  rcases hCall : t.store.call isInline {} c with ⟨_ | r, s⟩
  · have hStep : MethodQueue.step isInline t (.call {} c) =
        some ([], { store := s, atWork := some c }) := by
      simp only [MethodQueue.step, hIdle, hCall]
    obtain ⟨d₁, hFollows, hInv⟩ := h.step (m := .call {} c) ⟨rfl, fun _ => rfl⟩ hStep
    obtain rfl : d₁ = d := hFollows
    refine ⟨_, rfl, hInv.save rfl, .inr ⟨_, hStep, ?_⟩⟩
    simp [MethodQueue.step, (hInv.atWork c rfl).2.1]
  · rw [hCall] at hFailed
    have hStep : MethodQueue.step isInline t (.call {} c) =
        some ([.replied c r], { store := s }) := by
      simp only [MethodQueue.step, hIdle, hCall]
    obtain ⟨d₁, ⟨_, hAllows, hEnd⟩, hInv⟩ :=
      h.step (m := .call {} c) ⟨rfl, fun _ => rfl⟩ hStep
    obtain ⟨rfl, rfl⟩ := hAllows.replied fun hr => hFailed (by rw [hr])
    obtain rfl := hEnd
    exact ⟨_, rfl, hInv, .inl hStep⟩

end MethodQueue

end TaskManager.Shared
