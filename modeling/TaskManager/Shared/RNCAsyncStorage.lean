import Mathlib.Logic.Function.Basic
import Mathlib.Data.Option.Basic

/-!
# `ios/RNCAsyncStorage.m`

The store of `AsyncStorage` on iOS.  The manifest has the small values themselves, and a null
for each larger one, which has a file of its own; the manifest is read once, kept in memory
and written after each change.  A method is at work on the directory twice, first on the file
of its key and then on `manifest.json`, and the process may end in between.

`call` is what comes before `_writeManifest`.  Any operation on a file may fail, the cache may
give up a value at any point, and `kill` leaves what is in the directory.

A file is named by the MD5 of its key: here it is named by the key, so that the names of the
files of different keys are taken as different.  An empty key, which the calls refuse, is no
key here.

A read that yields nothing takes its entry out of the manifest.  The source says there that
the file does not exist after all, but it may exist and not be readable.

## Main results

* `cell_call_ne` — a call is about its own key only.
* `called_call` — what a call does to what is read under its key, now and after the process
  has ended.
-/

namespace TaskManager.Shared

/-- What the manifest has under a key: an `NSString`, or the null that stands for a file. -/
inductive Entry (V : Type) where
  | inlined (v : V)
  | filed
  deriving DecidableEq, Repr

/-- `_manifest`: an entry under each key, or none. -/
abbrev Manifest (K V : Type) := K → Option (Entry V)

/-- The directory, and what this process has read of it. -/
structure RNCAsyncStorage (K V : Type) where
  /-- `manifest.json`, once there is one -/
  saved : Option (Manifest K V) := none
  files : K → Option V := fun _ => none
  /-- `_manifest`, once `_haveSetup` -/
  manifest : Option (Manifest K V) := none
  /-- the `NSCache` -/
  cache : K → Option V := fun _ => none

/-- Which operations on files come off during a call. -/
structure Io where
  setup : Bool := true
  read : Bool := true
  write : Bool := true
  remove : Bool := true
  deriving DecidableEq, Repr

/-- The exported methods, for one key. -/
inductive NativeCall (K V : Type) where
  | multiGet (key : K)
  | multiSet (key : K) (value : V)
  | multiRemove (key : K)
  deriving DecidableEq, Repr

/-- What the callback is invoked with. -/
inductive Reply (V : Type) where
  | value (v : Option V)
  | done
  | failed
  deriving DecidableEq, Repr

variable {K V : Type}

namespace NativeCall

/-- The key that the call is about. -/
def key : NativeCall K V → K
  | .multiGet key => key
  | .multiSet key _ => key
  | .multiRemove key => key

/-- What is under the key of the call afterwards. -/
def result (old : Option V) : NativeCall K V → Option V
  | .multiGet _ => old
  | .multiSet _ value => some value
  | .multiRemove _ => none

/-- What the callback says when nothing fails. -/
def reply (old : Option V) : NativeCall K V → Reply V
  | .multiGet _ => .value old
  | _ => .done

/-- A call that goes well does not say that it has failed. -/
theorem reply_ne_failed (c : NativeCall K V) (old : Option V) : c.reply old ≠ .failed := by
  cases c <;> simp [reply]

/-- A small value takes the place of a large one. -/
def shrinks (isInline : V → Bool) (old : Option V) : NativeCall K V → Bool
  | .multiSet _ value => isInline value && old.any fun v => !isInline v
  | _ => false

theorem shrinks_multiSet {isInline : V → Bool} {old : Option V} {key : K} {value : V} :
    (multiSet key value).shrinks isInline old = true ↔
      isInline value = true ∧ ∃ v, old = some v ∧ isInline v = false := by
  cases old <;> simp [shrinks]

/-- What is under the key of the call when it is cut off. -/
def Cut (isInline : V → Bool) (old new : Option V) (c : NativeCall K V) : Prop :=
  new = old ∨ new = c.result old ∨ new = none ∧ c.shrinks isInline old = true

end NativeCall

namespace RNCAsyncStorage

/-! ## The methods -/

/-- `== kCFNull` -/
def isFiled : Option (Entry V) → Bool
  | some .filed => true
  | _ => false

theorem isFiled_iff {entry : Option (Entry V)} :
    isFiled entry = true ↔ entry = some .filed := by
  rcases entry with _ | _ | _ <;> simp [isFiled]

/-- `_manifest`, or what `_ensureSetup` is going to make of it. -/
def memory (s : RNCAsyncStorage K V) : Manifest K V :=
  s.manifest.getD (s.saved.getD fun _ => none)

/-- `_ensureSetup`: the manifest is read once. -/
def ensureSetup (s : RNCAsyncStorage K V) : RNCAsyncStorage K V :=
  { s with manifest := some s.memory }

/-- `_writeManifest`, when it succeeds. -/
def writeManifest (s : RNCAsyncStorage K V) : RNCAsyncStorage K V :=
  { s with saved := some s.memory }

/-- The next process finds the directory. -/
def kill (s : RNCAsyncStorage K V) : RNCAsyncStorage K V :=
  { saved := s.saved, files := s.files }

section Methods

variable [DecidableEq K] (isInline : V → Bool)

/-- `_manifest[key] = entry` -/
def putEntry (s : RNCAsyncStorage K V) (key : K) (entry : Option (Entry V)) :
    RNCAsyncStorage K V :=
  { s with manifest := some (Function.update s.memory key entry) }

/-- The file of the key is written, or removed. -/
def setFile (s : RNCAsyncStorage K V) (key : K) (value : Option V) : RNCAsyncStorage K V :=
  { s with files := Function.update s.files key value }

/-- `[RCTGetCache() setObject:value forKey:key]`, or its removal. -/
def setCached (s : RNCAsyncStorage K V) (key : K) (value : Option V) : RNCAsyncStorage K V :=
  { s with cache := Function.update s.cache key value }

/-- The cached value goes with the file, even if that stays. -/
def removeFile (ok : Bool) (s : RNCAsyncStorage K V) (key : K) : RNCAsyncStorage K V :=
  (if ok then s.setFile key none else s).setCached key none

/-- The value is cached even if it could not be written. -/
def writeFile (ok : Bool) (s : RNCAsyncStorage K V) (key : K) (value : V) :
    RNCAsyncStorage K V :=
  (if ok then s.setFile key (some value) else s).setCached key (some value)

/-- `_getValueForKey` -/
def getValueForKey (io : Io) (s : RNCAsyncStorage K V) (key : K) :
    Reply V × RNCAsyncStorage K V :=
  match s.memory key with
  | none => (.value none, s)
  | some (.inlined v) => (.value (some v), s)
  | some .filed =>
      match s.cache key, s.files key with
      | some v, _ => (.value (some v), s)
      -- no such file after all
      | none, none => (.value none, s.putEntry key none)
      | none, some v =>
          if io.read then
            (.value (some v), s.setCached key (some v))
          -- the entry goes here as well
          else (.failed, s.putEntry key none)

/-- Without a reply when the manifest is still to be written. -/
def writeEntry (io : Io) (s : RNCAsyncStorage K V) (key : K) (value : V) :
    Option (Reply V) × RNCAsyncStorage K V :=
  if isInline value then
    let s' := if isFiled (s.memory key) then s.removeFile io.remove key else s
    (none, s'.putEntry key (some (.inlined value)))
  else
    let s' := s.writeFile io.write key value
    if io.write then
      if isFiled (s.memory key) then (some .done, s')
      else (none, s'.putEntry key (some .filed))
    else (some .failed, s')

/-- The loop of `multiRemove`. -/
def removeEntry (io : Io) (s : RNCAsyncStorage K V) (key : K) :
    Option (Reply V) × RNCAsyncStorage K V :=
  match s.memory key with
  | none => (some .done, s)
  | some (.inlined _) => (none, s.putEntry key none)
  | some .filed => (none, (s.removeFile io.remove key).putEntry key none)

/-- A method up to `_writeManifest`; a directory that cannot be set up fails it. -/
def call (io : Io) (s : RNCAsyncStorage K V) (c : NativeCall K V) :
    Option (Reply V) × RNCAsyncStorage K V :=
  if io.setup || s.manifest.isSome then
    match c with
    | .multiGet key =>
        let out := s.ensureSetup.getValueForKey io key
        (some out.1, out.2)
    | .multiSet key value => s.ensureSetup.writeEntry isInline io key value
    | .multiRemove key => s.ensureSetup.removeEntry io key
  else (some .failed, s)

end Methods

/-! ## One key -/

/-- All that there is about a key, in memory and in the directory. -/
structure Cell (V : Type) where
  entry : Option (Entry V)
  saved : Option (Entry V)
  file : Option V
  cached : Option V

/-- The part of the store that is about the key. -/
def cell (s : RNCAsyncStorage K V) (key : K) : Cell V where
  entry := s.memory key
  saved := s.kill.memory key
  file := s.files key
  cached := s.cache key

/-- What an entry of a manifest stands for. -/
def valueOf (file : Option V) : Option (Entry V) → Option V
  | none => none
  | some (.inlined v) => some v
  | some .filed => file

/-- What is under a key by the memory of this process. -/
def Cell.live (x : Cell V) : Option V := valueOf x.file x.entry

/-- What the next process finds there, if this one ends now. -/
def Cell.durable (x : Cell V) : Option V := valueOf x.file x.saved

/-- What the next process finds under the key. -/
def durable (s : RNCAsyncStorage K V) (key : K) : Option V := (s.cell key).durable

/-- Files are for large values and the manifest is for small ones; as long as no write of a
file has failed, what is cached is what is in the file. -/
structure Cell.Good (isInline : V → Bool) (writes : Bool) (x : Cell V) : Prop where
  file : ∀ v, x.file = some v → isInline v = false
  entry : ∀ v, x.entry = some (.inlined v) → isInline v = true
  saved : ∀ v, x.saved = some (.inlined v) → isInline v = true
  cached : writes = true → ∀ v, x.cached = some v → x.file = some v

/-- The manifest in memory is the one in the directory, but for a file that was missed. -/
def Cell.Agrees (x : Cell V) : Prop :=
  x.entry = x.saved ∨ x.entry = none ∧ x.saved = some .filed ∧ x.file = none

/-- Where memory and directory agree, both have the same value. -/
theorem Cell.Agrees.live_eq {x : Cell V} (h : x.Agrees) : x.live = x.durable := by
  rcases h with hSame | ⟨hEntry, hSaved, hFile⟩
  · rw [Cell.live, Cell.durable, hSame]
  · rw [Cell.live, Cell.durable, hEntry, hSaved]
    exact hFile.symm

/-- What the memory has, the directory has. -/
theorem Cell.Agrees.saved_eq {x : Cell V} {entry : Entry V} (h : x.Agrees)
    (hEntry : x.entry = some entry) : x.saved = some entry := by
  rcases h with hSame | ⟨hNone, -, -⟩
  · rw [← hSame, hEntry]
  · rw [hEntry] at hNone
    exact absurd hNone (by simp)

/-- A large value is in a file. -/
theorem Cell.Good.entry_filed {isInline : V → Bool} {writes : Bool} {x : Cell V} {v : V}
    (h : x.Good isInline writes) (hLive : x.live = some v) (hLarge : isInline v = false) :
    x.entry = some .filed := by
  cases hEntry : x.entry with
  | none =>
      rw [Cell.live, hEntry] at hLive
      cases hLive
  | some entry =>
      cases entry with
      | filed => rfl
      | inlined v' =>
          rw [Cell.live, hEntry] at hLive
          obtain rfl : v' = v := Option.some.inj hLive
          have hSmall := h.entry v' hEntry
          rw [hLarge] at hSmall
          cases hSmall

/-- A small value is in the manifest. -/
theorem Cell.Good.entry_inlined {isInline : V → Bool} {writes : Bool} {x : Cell V} {v : V}
    (h : x.Good isInline writes) (hLive : x.live = some v) (hSmall : isInline v = true) :
    x.entry = some (.inlined v) := by
  cases hEntry : x.entry with
  | none =>
      rw [Cell.live, hEntry] at hLive
      cases hLive
  | some entry =>
      rw [Cell.live, hEntry] at hLive
      cases entry with
      | inlined v' => exact congrArg _ (congrArg Entry.inlined (Option.some.inj hLive))
      | filed =>
          have hLarge := h.file v hLive
          rw [hSmall] at hLarge
          cases hLarge

section Cells

variable {s : RNCAsyncStorage K V} {key key' : K}

@[simp] theorem cell_ensureSetup : s.ensureSetup.cell key = s.cell key := rfl

@[simp] theorem cell_writeManifest :
    s.writeManifest.cell key = { s.cell key with saved := (s.cell key).entry } := by
  cases h : s.manifest <;> simp [cell, writeManifest, memory, kill, h]

@[simp] theorem cell_kill :
    s.kill.cell key = { s.cell key with entry := (s.cell key).saved, cached := none } := rfl

variable [DecidableEq K]

@[simp] theorem cell_putEntry (entry : Option (Entry V)) :
    (s.putEntry key entry).cell key = { s.cell key with entry := entry } := by
  simp [cell, putEntry, memory, kill]

@[simp] theorem cell_setFile (value : Option V) :
    (s.setFile key value).cell key = { s.cell key with file := value } := by
  simp [cell, setFile, memory, kill]

@[simp] theorem cell_setCached (value : Option V) :
    (s.setCached key value).cell key = { s.cell key with cached := value } := by
  simp [cell, setCached, memory, kill]

@[simp] theorem cell_removeFile (ok : Bool) : (s.removeFile ok key).cell key =
    { s.cell key with file := if ok then none else (s.cell key).file, cached := none } := by
  cases ok <;> simp [removeFile]

@[simp] theorem cell_writeFile (ok : Bool) (value : V) : (s.writeFile ok key value).cell key =
    { s.cell key with
      file := if ok then some value else (s.cell key).file, cached := some value } := by
  cases ok <;> simp [writeFile]

theorem cell_putEntry_ne (h : key' ≠ key) (entry : Option (Entry V)) :
    (s.putEntry key entry).cell key' = s.cell key' := by
  simp [cell, putEntry, memory, kill, Function.update_of_ne h]

theorem cell_setFile_ne (h : key' ≠ key) (value : Option V) :
    (s.setFile key value).cell key' = s.cell key' := by
  simp [cell, setFile, memory, kill, Function.update_of_ne h]

theorem cell_setCached_ne (h : key' ≠ key) (value : Option V) :
    (s.setCached key value).cell key' = s.cell key' := by
  simp [cell, setCached, memory, kill, Function.update_of_ne h]

theorem cell_removeFile_ne (h : key' ≠ key) (ok : Bool) :
    (s.removeFile ok key).cell key' = s.cell key' := by
  cases ok <;> simp [removeFile, cell_setFile_ne h, cell_setCached_ne h]

theorem cell_writeFile_ne (h : key' ≠ key) (ok : Bool) (value : V) :
    (s.writeFile ok key value).cell key' = s.cell key' := by
  cases ok <;> simp [writeFile, cell_setFile_ne h, cell_setCached_ne h]

end Cells

/-! ## What a call does -/

section Calls

variable [DecidableEq K] {isInline : V → Bool} {writes : Bool} {s : RNCAsyncStorage K V}

/-- A read is about its own key. -/
theorem cell_getValueForKey_ne {io : Io} {key key' : K} (h : key' ≠ key) :
    (s.getValueForKey io key).2.cell key' = s.cell key' := by
  unfold getValueForKey
  split
  · rfl
  · rfl
  · split
    · rfl
    · exact cell_putEntry_ne h none
    · split
      · exact cell_setCached_ne h _
      · exact cell_putEntry_ne h none

/-- A write is about its own key. -/
theorem cell_writeEntry_ne {io : Io} {key key' : K} {value : V} (h : key' ≠ key) :
    (s.writeEntry isInline io key value).2.cell key' = s.cell key' := by
  unfold writeEntry
  split
  · split <;> simp only [cell_putEntry_ne h, cell_removeFile_ne h]
  · split
    · split <;> simp only [cell_putEntry_ne h, cell_writeFile_ne h]
    · exact cell_writeFile_ne h _ value

/-- A removal is about its own key. -/
theorem cell_removeEntry_ne {io : Io} {key key' : K} (h : key' ≠ key) :
    (s.removeEntry io key).2.cell key' = s.cell key' := by
  unfold removeEntry
  split
  · rfl
  · exact cell_putEntry_ne h none
  · rw [cell_putEntry_ne h, cell_removeFile_ne h]

/-- A call is about its own key only. -/
theorem cell_call_ne {io : Io} {c : NativeCall K V} {key : K} (h : key ≠ c.key) :
    (s.call isInline io c).2.cell key = s.cell key := by
  unfold call
  split
  · cases c with
    | multiGet _ => exact cell_getValueForKey_ne h
    | multiSet _ _ => exact cell_writeEntry_ne h
    | multiRemove _ => exact cell_removeEntry_ne h
  · rfl

/-- What a call makes of the cell of its key. -/
structure Called (isInline : V → Bool) (writes : Bool) (c : NativeCall K V) (x : Cell V)
    (reply : Option (Reply V)) (x' : Cell V) : Prop where
  good : x'.Good isInline writes
  cut : reply = none → x'.live = c.result x.durable ∧ c.reply x.durable = .done ∧
    c.Cut isInline x.durable x'.durable
  agrees : reply ≠ none → x'.Agrees
  failed : reply = some .failed → x'.durable = x.durable
  answered : ∀ r, reply = some r → r ≠ .failed →
    x'.durable = c.result x.durable ∧ (writes = true → r = c.reply x.durable)

omit [DecidableEq K] in
/-- A value is read, and the cell stays what it is. -/
theorem Called.read {key : K} {x : Cell V} {v : Option V} (hGood : x.Good isInline writes)
    (hAgrees : x.Agrees) (hValue : writes = true → v = x.live) :
    Called isInline writes (.multiGet key) x (some (.value v)) x where
  good := hGood
  cut h := by simp at h
  agrees _ := hAgrees
  failed h := by simp at h
  answered r h _ := by
    obtain rfl : .value v = r := by simpa using h
    refine ⟨rfl, fun hWrites => congrArg Reply.value ?_⟩
    exact (hValue hWrites).trans hAgrees.live_eq

/-- What a read does. -/
theorem called_getValueForKey {io : Io} {key : K} (hGood : (s.cell key).Good isInline writes)
    (hAgrees : (s.cell key).Agrees) (hRead : io.read = true) :
    Called isInline writes (.multiGet key) (s.cell key) (some (s.getValueForKey io key).1)
      ((s.getValueForKey io key).2.cell key) := by
  cases hEntry : (s.cell key).entry with
  | none =>
      have hMemory : s.memory key = none := hEntry
      simp only [getValueForKey, hMemory]
      exact .read hGood hAgrees fun _ => by rw [Cell.live, hEntry]; rfl
  | some entry =>
      have hMemory : s.memory key = some entry := hEntry
      cases entry with
      | inlined v =>
          simp only [getValueForKey, hMemory]
          exact .read hGood hAgrees fun _ => by rw [Cell.live, hEntry]; rfl
      | filed =>
          have hLive : (s.cell key).live = s.files key := by rw [Cell.live, hEntry]; rfl
          cases hCache : s.cache key with
          | some v =>
              simp only [getValueForKey, hMemory, hCache]
              exact .read hGood hAgrees fun hWrites =>
                (hLive.trans (hGood.cached hWrites v hCache)).symm
          | none =>
              cases hFile : s.files key with
              | some v =>
                  simp only [getValueForKey, hMemory, hCache, hFile, hRead, if_true,
                    cell_setCached]
                  have hSame : Called isInline writes (.multiGet key) (s.cell key)
                      (some (.value (some v))) (s.cell key) :=
                    .read hGood hAgrees fun _ => by rw [hLive, hFile]
                  exact { hSame with
                    good := { hGood with
                      cached := fun _ v' h => hFile.trans h }
                    agrees := fun _ => hAgrees }
              | none =>
                  -- the file is missed
                  simp only [getValueForKey, hMemory, hCache, hFile, cell_putEntry]
                  have hSame : Called isInline writes (.multiGet key) (s.cell key)
                      (some (.value none)) (s.cell key) :=
                    .read hGood hAgrees fun _ => by rw [hLive, hFile]
                  exact { hSame with
                    good := { hGood with entry := fun _ h => by simp at h }
                    cut := fun h => by simp at h
                    agrees := fun _ => .inr ⟨rfl, hAgrees.saved_eq hEntry, hFile⟩ }

omit [DecidableEq K] in
/-- A small value goes into the manifest, after the file of a large one has gone. -/
theorem called_inlined (io : Io) {key : K} {value : V} {x x' : Cell V}
    (hGood : x.Good isInline writes) (hAgrees : x.Agrees) (hInline : isInline value = true)
    (hx' : x' = if isFiled x.entry then
        { x with
          entry := some (.inlined value)
          file := if io.remove then none else x.file
          cached := none }
      else { x with entry := some (.inlined value) }) :
    Called isInline writes (.multiSet key value) x none x' where
  good := by
    subst hx'
    split
    · exact {
        file := fun v h => by
          cases hRemove : io.remove with
          | true => simp [hRemove] at h
          | false => exact hGood.file v (by simpa [hRemove] using h)
        entry := fun v h => by simp at h; exact h ▸ hInline
        saved := hGood.saved
        cached := fun _ v h => by simp at h }
    · exact { hGood with entry := fun v h => by simp at h; exact h ▸ hInline }
  cut _ := by
    subst hx'
    split
    · rename_i hFiled
      refine ⟨rfl, rfl, ?_⟩
      have hSaved := hAgrees.saved_eq (isFiled_iff.mp hFiled)
      have hOld : x.durable = x.file := by rw [Cell.durable, hSaved]; rfl
      simp only [NativeCall.Cut, Cell.durable, hSaved, valueOf]
      cases hRemove : io.remove with
      | false => exact .inl (by simp)
      | true =>
          cases hFile : x.file with
          | none => exact .inl (by simp)
          | some v =>
              refine .inr (.inr ⟨by simp, NativeCall.shrinks_multiSet.mpr ?_⟩)
              exact ⟨hInline, v, rfl, hGood.file v hFile⟩
    · exact ⟨rfl, rfl, .inl rfl⟩
  agrees h := absurd rfl h
  failed h := by simp at h
  answered _ h := by simp at h

omit [DecidableEq K] in
/-- A large value goes into its file, before the manifest has it. -/
theorem called_filed {key : K} {value : V} {x x' : Cell V}
    (hGood : x.Good isInline writes) (hInline : isInline value = false)
    (hx' : x' =
      { x with entry := some .filed, file := some value, cached := some value }) :
    Called isInline writes (.multiSet key value) x none x' where
  good := by
    subst hx'
    exact {
      file := fun v h => by simp at h; exact h ▸ hInline
      entry := fun v h => by simp at h
      saved := hGood.saved
      cached := fun _ v h => h }
  cut _ := by
    subst hx'
    refine ⟨rfl, rfl, ?_⟩
    cases hSaved : x.saved with
    | none => exact .inl (by simp [Cell.durable, hSaved, valueOf])
    | some entry =>
        cases entry with
        | inlined v => exact .inl (by simp [Cell.durable, hSaved, valueOf])
        | filed => exact .inr (.inl (by simp only [Cell.durable, hSaved]; rfl))
  agrees h := absurd rfl h
  failed h := by simp at h
  answered _ h := by simp at h

omit [DecidableEq K] in
/-- A large value takes the place of another one. -/
theorem called_rewritten {key : K} {value : V} {x x' : Cell V}
    (hGood : x.Good isInline writes) (hAgrees : x.Agrees) (hInline : isInline value = false)
    (hEntry : x.entry = some .filed)
    (hx' : x' = { x with file := some value, cached := some value }) :
    Called isInline writes (.multiSet key value) x (some .done) x' where
  good := by
    subst hx'
    exact { hGood with
      file := fun v h => by simp at h; exact h ▸ hInline
      cached := fun _ v h => h }
  cut h := by simp at h
  agrees _ := by
    subst hx'
    exact .inl (hEntry.trans (hAgrees.saved_eq hEntry).symm)
  failed h := by simp at h
  answered r h _ := by
    obtain rfl : .done = r := by simpa using h
    subst hx'
    refine ⟨?_, fun _ => rfl⟩
    simp only [Cell.durable, hAgrees.saved_eq hEntry]
    rfl

omit [DecidableEq K] in
/-- Only the cache is told of a value that could not be written. -/
theorem called_unwritten {key : K} {value : V} {x x' : Cell V}
    (hGood : x.Good isInline writes) (hAgrees : x.Agrees) (hWrites : ¬ writes = true)
    (hx' : x' = { x with cached := some value }) :
    Called isInline writes (.multiSet key value) x (some .failed) x' where
  good := by
    subst hx'
    exact { hGood with cached := fun h => absurd h hWrites }
  cut h := by simp at h
  agrees _ := by
    subst hx'
    exact hAgrees
  failed _ := by
    subst hx'
    rfl
  answered r h hFailed := by
    obtain rfl : .failed = r := by simpa using h
    exact absurd rfl hFailed

/-- What a write does, of a small value and of a large one. -/
theorem called_writeEntry {io : Io} {key : K} {value : V}
    (hGood : (s.cell key).Good isInline writes) (hAgrees : (s.cell key).Agrees)
    (hWrite : writes = true → io.write = true) :
    Called isInline writes (.multiSet key value) (s.cell key)
      (s.writeEntry isInline io key value).1
      ((s.writeEntry isInline io key value).2.cell key) := by
  have hMemory : s.memory key = (s.cell key).entry := rfl
  cases hInline : isInline value with
  | true =>
      simp only [writeEntry, hInline, if_true, cell_putEntry]
      refine called_inlined io hGood hAgrees hInline ?_
      rw [hMemory]
      split <;> simp
  | false =>
      cases hOk : io.write with
      | true =>
          cases hFiled : isFiled (s.cell key).entry with
          | true =>
              simp only [writeEntry, hInline, hOk, hMemory, hFiled]
              refine called_rewritten hGood hAgrees hInline (isFiled_iff.mp hFiled) ?_
              simp
          | false =>
              simp only [writeEntry, hInline, hOk, hMemory, hFiled]
              refine called_filed hGood hInline ?_
              simp
      | false =>
          simp only [writeEntry, hInline, hOk]
          refine called_unwritten hGood hAgrees (fun hWrites => ?_) ?_
          · exact absurd (hWrite hWrites) (by simp [hOk])
          · simp

omit [DecidableEq K] in
/-- An entry goes, after its file if it has one. -/
theorem called_removed {key : K} {x x' : Cell V} (hGood : x.Good isInline writes)
    (hFile : x'.file = x.file ∨ x'.file = none ∧ x'.cached = none)
    (hEntry : x'.entry = none) (hSaved : x'.saved = x.saved)
    (hCached : x'.cached = x.cached ∨ x'.cached = none) :
    Called isInline writes (.multiRemove key) x none x' where
  good := {
    file := fun v h => by
      rcases hFile with hSame | ⟨hNone, -⟩
      · exact hGood.file v (hSame ▸ h)
      · exact absurd (hNone.symm.trans h) (by simp)
    entry := fun v h => absurd (hEntry.symm.trans h) (by simp)
    saved := fun v h => hGood.saved v (hSaved ▸ h)
    cached := fun hWrites v h => by
      rcases hFile with hSame | ⟨-, hNone⟩
      · rcases hCached with hCached | hNone
        · exact hSame.trans (hGood.cached hWrites v (hCached ▸ h))
        · exact absurd (hNone.symm.trans h) (by simp)
      · exact absurd (hNone.symm.trans h) (by simp) }
  cut _ := by
    refine ⟨by rw [Cell.live, hEntry]; rfl, rfl, ?_⟩
    rw [NativeCall.Cut, Cell.durable, Cell.durable, hSaved]
    rcases hFile with hSame | ⟨hNone, -⟩
    · exact .inl (by rw [hSame])
    · cases hWas : x.saved with
      | none => exact .inl rfl
      | some entry =>
          cases entry with
          | inlined v => exact .inl rfl
          | filed => exact .inr (.inl (by rw [hNone]; rfl))
  agrees h := absurd rfl h
  failed h := by simp at h
  answered _ h := by simp at h

/-- What a removal does. -/
theorem called_removeEntry {io : Io} {key : K} (hGood : (s.cell key).Good isInline writes)
    (hAgrees : (s.cell key).Agrees) :
    Called isInline writes (.multiRemove key) (s.cell key) (s.removeEntry io key).1
      ((s.removeEntry io key).2.cell key) := by
  cases hEntry : (s.cell key).entry with
  | none =>
      have hMemory : s.memory key = none := hEntry
      simp only [removeEntry, hMemory]
      exact {
        good := hGood
        cut := fun h => by simp at h
        agrees := fun _ => hAgrees
        failed := fun h => by simp at h
        answered := fun r h _ => by
          obtain rfl : .done = r := by simpa using h
          exact ⟨by rw [← hAgrees.live_eq, Cell.live, hEntry]; rfl, fun _ => rfl⟩ }
  | some entry =>
      have hMemory : s.memory key = some entry := hEntry
      cases entry with
      | inlined v =>
          simp only [removeEntry, hMemory, cell_putEntry]
          exact called_removed hGood (.inl rfl) rfl rfl (.inl rfl)
      | filed =>
          simp only [removeEntry, hMemory, cell_putEntry, cell_removeFile]
          refine called_removed hGood ?_ rfl rfl (.inr rfl)
          cases io.remove with
          | true => exact .inr ⟨rfl, rfl⟩
          | false => exact .inl rfl

/-- **What a call does**, as long as a file that is there can be read. -/
theorem called_call {io : Io} {c : NativeCall K V} (hGood : (s.cell c.key).Good isInline writes)
    (hAgrees : (s.cell c.key).Agrees) (hRead : io.read = true)
    (hWrite : writes = true → io.write = true) :
    Called isInline writes c (s.cell c.key) (s.call isInline io c).1
      ((s.call isInline io c).2.cell c.key) := by
  unfold call
  split
  · cases c with
    | multiGet key => exact called_getValueForKey (s := s.ensureSetup) hGood hAgrees hRead
    | multiSet key value => exact called_writeEntry (s := s.ensureSetup) hGood hAgrees hWrite
    | multiRemove key => exact called_removeEntry (s := s.ensureSetup) hGood hAgrees
  · exact {
      good := hGood
      cut := fun h => by simp at h
      agrees := fun _ => hAgrees
      failed := fun _ => rfl
      answered := fun r h hFailed => by
        obtain rfl : .failed = r := by simpa using h
        exact absurd rfl hFailed }

/-- Nothing fails by itself. -/
theorem call_ne_failed {c : NativeCall K V} :
    (s.call isInline {} c).1 ≠ some .failed := by
  cases c with
  | multiGet key =>
      simp only [call, getValueForKey, Bool.true_or, if_true]
      split
      · simp
      · simp
      · split <;> simp
  | multiSet key value =>
      simp only [call, writeEntry, Bool.true_or, if_true]
      split
      · simp
      · split <;> simp
  | multiRemove key =>
      simp only [call, removeEntry, Bool.true_or, if_true]
      split <;> simp

/-- A small value takes the place of a large one: the file goes before the manifest knows. -/
theorem call_small_of_filed {io : Io} {key : K} {value : V}
    (hEntry : (s.cell key).entry = some .filed) (hSmall : isInline value = true)
    (hSetup : io.setup = true) :
    s.call isInline io (.multiSet key value) =
      (none, (s.ensureSetup.removeFile io.remove key).putEntry key (some (.inlined value))) := by
  have hMemory : s.ensureSetup.memory key = some .filed := hEntry
  simp [call, writeEntry, hSetup, hSmall, hMemory, isFiled]

theorem call_small {key : K} {value : V} (hSmall : isInline value = true) :
    ∃ s', s.call isInline {} (.multiSet key value) = (none, s') ∧
      (s'.cell key).live = some value := by
  refine ⟨_, by simp [call, writeEntry, hSmall]; rfl, ?_⟩
  rw [cell_putEntry]
  rfl

/-- A large value in the place of a small one: the file comes before the manifest. -/
theorem call_large_of_inlined {key : K} {old value : V}
    (hEntry : (s.cell key).entry = some (.inlined old)) (hLarge : isInline value = false) :
    s.call isInline {} (.multiSet key value) =
      (none, (s.ensureSetup.writeFile true key value).putEntry key (some .filed)) := by
  have hMemory : s.ensureSetup.memory key = some (.inlined old) := hEntry
  simp [call, writeEntry, hLarge, hMemory, isFiled]

/-- A large value in the place of another needs no new manifest. -/
theorem call_large_of_filed {key : K} {value : V} (hEntry : (s.cell key).entry = some .filed)
    (hLarge : isInline value = false) :
    s.call isInline {} (.multiSet key value) =
      (some .done, s.ensureSetup.writeFile true key value) := by
  have hMemory : s.ensureSetup.memory key = some .filed := hEntry
  simp [call, writeEntry, hLarge, hMemory, isFiled]

/-- A file that cannot be read is forgotten. -/
theorem call_unread {key : K} {v : V} (hEntry : (s.cell key).entry = some .filed)
    (hCache : s.cache key = none) (hFile : s.files key = some v) :
    s.call isInline { read := false } (.multiGet key) =
      (some .failed, s.ensureSetup.putEntry key none) := by
  have hMemory : s.ensureSetup.memory key = some .filed := hEntry
  have hCache' : s.ensureSetup.cache key = none := hCache
  have hFile' : s.ensureSetup.files key = some v := hFile
  simp [call, getValueForKey, hMemory, hCache', hFile']

end Calls

end RNCAsyncStorage

end TaskManager.Shared
