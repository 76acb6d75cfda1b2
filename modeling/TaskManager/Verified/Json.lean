import Mathlib.Data.List.Basic
import TaskManager.Verified.JsText

/-!
# JSON texts

`stringify` writes a value as `JSON.stringify` does, without white space, and
`parse` reads a text as `JSON.parse` does, white space and all escapes included.
Both work on UTF-16 code units.  Numbers are left out: a text with a number in
it is not parsed.

The units with a meaning of their own are the quotation mark `0x22`, the
backslash `0x5C`, the comma `0x2C`, the colon `0x3A`, the brackets `0x5B` and
`0x5D`, and the braces `0x7B` and `0x7D`.

## Main results

* `stringTail_quoted` — every string is read back, lone surrogates and control
  characters included.
* `parse_stringify` — every value is read back.
-/

namespace TaskManager.Verified.Json

open TaskManager.Verified.JsText

/-- A JSON value.  The members of an object stand in the order of its text. -/
inductive Value where
  | null
  | bool (b : Bool)
  | string (s : JsString)
  | array (elems : List Value)
  | object (members : List (JsString × Value))

/-- `value[key]`: of several members with that key, the last one counts. -/
def Value.get? (key : JsString) : Value → Option Value
  | .object members => (members.reverse.find? fun m => m.1 = key).map Prod.snd
  | _ => none

/-! ## The text of a value -/

/-- The first half of a surrogate pair. -/
def isLead (u : UInt16) : Bool := 0xD800 ≤ u.toNat && u.toNat < 0xDC00

/-- The second half of a surrogate pair. -/
def isTrail (u : UInt16) : Bool := 0xDC00 ≤ u.toNat && u.toNat < 0xE000

/-- The units that are escaped by a letter, each with its letter. -/
def shortEscapes : List (UInt16 × UInt16) :=
  [(0x08, 0x62), (0x09, 0x74), (0x0A, 0x6E), (0x0C, 0x66), (0x0D, 0x72), (0x22, 0x22),
    (0x5C, 0x5C)]

/-- Lower case, as `JSON.stringify` writes it. -/
def hexDigit (n : Nat) : UInt16 := (if n < 10 then 48 + n else 87 + n).toUInt16

/-- `\uXXXX` -/
def unicodeEscape (u : UInt16) : JsString :=
  [0x5C, 0x75, hexDigit (u.toNat / 4096), hexDigit (u.toNat / 256 % 16),
    hexDigit (u.toNat / 16 % 16), hexDigit (u.toNat % 16)]

/-- A unit that is not part of a surrogate pair. -/
def escape (u : UInt16) : JsString :=
  match shortEscapes.find? fun e => e.1 = u with
  | some e => [0x5C, e.2]
  | none => if u.toNat < 0x20 || isLead u || isTrail u then unicodeEscape u else [u]

/-- The inside of a string, with what has to be escaped. -/
def quoted : JsString → JsString
  | [] => []
  | [u] => escape u
  | u :: v :: us =>
      if isLead u && isTrail v then u :: v :: quoted us
      else escape u ++ quoted (v :: us)

/-- A string between its quotation marks. -/
def quote (s : JsString) : JsString := 0x22 :: quoted s ++ [0x22]

/-- The texts with a comma between them. -/
def separated : List JsString → JsString
  | [] => []
  | [t] => t
  | t :: u :: ts => t ++ 0x2C :: separated (u :: ts)

mutual

/-- `JSON.stringify(value)` -/
def stringify : Value → JsString
  | .null => js "null"
  | .bool true => js "true"
  | .bool false => js "false"
  | .string s => quote s
  | .array vs => 0x5B :: separated (elemTexts vs) ++ [0x5D]
  | .object ms => 0x7B :: separated (memberTexts ms) ++ [0x7D]

/-- The texts of the elements. -/
def elemTexts : List Value → List JsString
  | [] => []
  | v :: vs => stringify v :: elemTexts vs

/-- The texts of the members, each with its key. -/
def memberTexts : List (JsString × Value) → List JsString
  | [] => []
  | (k, v) :: ms => (quote k ++ 0x3A :: stringify v) :: memberTexts ms

end

/-! ## The value of a text -/

/-- Space, tab, line feed and carriage return. -/
def isBlank (u : UInt16) : Bool := u = 0x20 || u = 0x09 || u = 0x0A || u = 0x0D

/-- White space between two tokens. -/
def skipBlanks (t : JsString) : JsString := t.dropWhile isBlank

/-- What follows the unit `u`, with white space before it. -/
def accept (u : UInt16) (t : JsString) : Option JsString :=
  match skipBlanks t with
  | [] => none
  | v :: rest => if v = u then some rest else none

/-- The unit that a letter after the backslash stands for.  The slash has an
escape that is never written. -/
def unescape? (u : UInt16) : Option UInt16 :=
  if u = 0x2F then some u
  else (shortEscapes.find? fun e => e.2 = u).map Prod.fst

/-- A string up to its closing quotation mark, and what follows. -/
def stringTail : JsString → Option (JsString × JsString)
  | [] => none
  | u :: us =>
      if u = 0x22 then some ([], us)
      else if u = 0x5C then
        match us with
        | [] => none
        | e :: us =>
            if e = 0x75 then
              match us with
              | a :: b :: c :: d :: us =>
                  (digits? 16 0 [a, b, c, d]).bind fun v =>
                    (stringTail us).map fun p => (v.toUInt16 :: p.1, p.2)
              | _ => none
            else
              (unescape? e).bind fun v => (stringTail us).map fun p => (v :: p.1, p.2)
      else if u.toNat < 0x20 then none
      else (stringTail us).map fun p => (u :: p.1, p.2)

/-- The three words of the grammar. -/
def literals : List (JsString × Value) :=
  [(js "null", .null), (js "true", .bool true), (js "false", .bool false)]

/-- One of the words at the start of the text. -/
def literal (t : JsString) : Option (Value × JsString) :=
  (literals.find? fun l => l.1.isPrefixOf t).map fun l => (l.2, t.drop l.1.length)

section

variable {α : Type} (item : JsString → Option (α × JsString)) (close : UInt16)

/-- Items up to the closing unit, with a comma between them. -/
def items : Nat → JsString → Option (List α × JsString)
  | 0, _ => none
  | n + 1, t =>
      (item t).bind fun p =>
        match accept 0x2C p.2 with
        | some rest => (items n rest).map fun q => (p.1 :: q.1, q.2)
        | none => (accept close p.2).map fun rest => ([p.1], rest)

/-- Items, or the closing unit at once. -/
def itemsOrNone (n : Nat) (t : JsString) : Option (List α × JsString) :=
  match accept close t with
  | some rest => some ([], rest)
  | none => items item close n t

end

/-- A key, a colon and a value. -/
def member (item : JsString → Option (Value × JsString)) (t : JsString) :
    Option ((JsString × Value) × JsString) :=
  (accept 0x22 t).bind fun rest =>
    (stringTail rest).bind fun k =>
      (accept 0x3A k.2).bind fun rest => (item rest).map fun v => ((k.1, v.1), v.2)

/-- A value at the start of the text, nested at most `n` deep, and what follows. -/
def value : Nat → JsString → Option (Value × JsString)
  | 0, _ => none
  | n + 1, t =>
      match skipBlanks t with
      | [] => none
      | u :: us =>
          if u = 0x22 then (stringTail us).map fun p => (.string p.1, p.2)
          else if u = 0x5B then
            (itemsOrNone (value n) 0x5D us.length us).map fun p => (.array p.1, p.2)
          else if u = 0x7B then
            (itemsOrNone (member (value n)) 0x7D us.length us).map fun p => (.object p.1, p.2)
          else literal (u :: us)

/-- `JSON.parse(text)`, where `none` is a `SyntaxError`. -/
def parse (t : JsString) : Option Value :=
  (value t.length t).bind fun p => if (skipBlanks p.2).isEmpty then some p.1 else none

example : (parse (js " \x7b\"a\" : [true, null], \"b\":\"\\u0041\\n\"\x7d ")).map stringify =
    some (js "\x7b\"a\":[true,null],\"b\":\"A\\n\"\x7d") := by
  decide +kernel

/-! ## Strings are read back -/

theorem digit?_hexDigit : ∀ n < 16, digit? 16 (hexDigit n) = some n := by decide

/-- Four digits give the unit back. -/
theorem digits?_unicode (u : UInt16) :
    digits? 16 0 [hexDigit (u.toNat / 4096), hexDigit (u.toNat / 256 % 16),
      hexDigit (u.toNat / 16 % 16), hexDigit (u.toNat % 16)] = some u.toNat := by
  have hBound := u.toNat_lt
  simp only [digits?]
  rw [digit?_hexDigit _ (by omega), digit?_hexDigit _ (by omega), digit?_hexDigit _ (by omega),
    digit?_hexDigit _ (by omega)]
  simp only [Option.bind_some]
  congr 1
  omega

/-- A unit that was written as four digits. -/
theorem stringTail_unicode (u : UInt16) (t : JsString) :
    stringTail (unicodeEscape u ++ t) = (stringTail t).map fun p => (u :: p.1, p.2) := by
  have hHead : unicodeEscape u ++ t = 0x5C :: 0x75 :: hexDigit (u.toNat / 4096) ::
      hexDigit (u.toNat / 256 % 16) :: hexDigit (u.toNat / 16 % 16) :: hexDigit (u.toNat % 16) ::
        t := rfl
  rw [hHead, stringTail, if_neg (by decide), if_pos rfl]
  simp only [if_pos]
  rw [digits?_unicode, Option.bind_some]
  simp

/-- A unit with a meaning of its own is escaped by a letter. -/
theorem stringTail_short {e : UInt16 × UInt16} (he : e ∈ shortEscapes) (t : JsString) :
    stringTail (0x5C :: e.2 :: t) = (stringTail t).map fun p => (e.1 :: p.1, p.2) := by
  have hLetter : ∀ e ∈ shortEscapes, e.2 ≠ 0x75 ∧ unescape? e.2 = some e.1 := by
    simp [shortEscapes, unescape?]
  obtain ⟨hNotU, hUnescape⟩ := hLetter e he
  rw [stringTail.eq_def]
  simp only [if_neg hNotU, hUnescape, Option.bind_some]
  rfl

/-- A unit that stands for itself. -/
theorem stringTail_raw {u : UInt16} (t : JsString) (hQuote : u ≠ 0x22) (hSlash : u ≠ 0x5C)
    (hControl : ¬ u.toNat < 0x20) :
    stringTail (u :: t) = (stringTail t).map fun p => (u :: p.1, p.2) := by
  rw [stringTail.eq_def]
  simp only [if_neg hQuote, if_neg hSlash, if_neg hControl]

/-- A unit that was escaped, or not. -/
theorem stringTail_escape (u : UInt16) (t : JsString) :
    stringTail (escape u ++ t) = (stringTail t).map fun p => (u :: p.1, p.2) := by
  unfold escape
  split
  · rename_i e hFound
    have hSame : e.1 = u := by simpa using List.find?_some hFound
    rw [← hSame]
    exact stringTail_short (List.mem_of_find?_eq_some hFound) t
  · rename_i hNone
    split
    · exact stringTail_unicode u t
    · rename_i hRaw
      have hNot := List.find?_eq_none.mp hNone
      refine stringTail_raw t ?_ ?_ ?_
      · rintro rfl
        exact hNot (0x22, 0x22) (by decide) (by decide)
      · rintro rfl
        exact hNot (0x5C, 0x5C) (by decide) (by decide)
      · intro hControl
        simp [hControl] at hRaw

theorem stringTail_surrogate {u : UInt16} (t : JsString) (h : isLead u ∨ isTrail u) :
    stringTail (u :: t) = (stringTail t).map fun p => (u :: p.1, p.2) := by
  have hLow : 0xD800 ≤ u.toNat := by
    simp only [isLead, isTrail, Bool.and_eq_true, decide_eq_true_eq] at h
    omega
  refine stringTail_raw t ?_ ?_ (by omega)
  · rintro rfl
    exact absurd hLow (by decide)
  · rintro rfl
    exact absurd hLow (by decide)

/-- The closing quotation mark. -/
theorem stringTail_end (t : JsString) : stringTail (0x22 :: t) = some ([], t) := by
  rw [stringTail.eq_def]
  rfl

/-- **Every string is read back.** -/
theorem stringTail_quoted (s t : JsString) : stringTail (quoted s ++ 0x22 :: t) = some (s, t) := by
  induction s using quoted.induct with
  | case1 => exact stringTail_end t
  | case2 u =>
      rw [quoted, stringTail_escape, stringTail_end]
      rfl
  | case3 u v us hPair ih =>
      rw [Bool.and_eq_true] at hPair
      rw [quoted, if_pos (by simp [hPair])]
      rw [List.cons_append, List.cons_append, stringTail_surrogate _ (.inl hPair.1),
        stringTail_surrogate _ (.inr hPair.2), ih]
      rfl
  | case4 u v us hPair ih =>
      rw [quoted, if_neg hPair, List.append_assoc, stringTail_escape, ih]
      rfl

/-! ## Values are read back -/

theorem skipBlanks_cons {u : UInt16} {t : JsString} (h : isBlank u = false) :
    skipBlanks (u :: t) = u :: t := by
  rw [skipBlanks, List.dropWhile_cons_of_neg (by simp [h])]

theorem accept_cons {u v : UInt16} {t : JsString} (h : isBlank v = false) :
    accept u (v :: t) = if v = u then some t else none := by
  rw [accept, skipBlanks_cons h]

theorem elemTexts_eq (vs : List Value) : elemTexts vs = vs.map stringify := by
  induction vs with
  | nil => rfl
  | cons v vs ih => rw [elemTexts, ih, List.map_cons]

/-- The text of a member. -/
def memberText (m : JsString × Value) : JsString := quote m.1 ++ 0x3A :: stringify m.2

theorem memberTexts_eq (ms : List (JsString × Value)) : memberTexts ms = ms.map memberText := by
  induction ms with
  | nil => rfl
  | cons m ms ih => rw [memberTexts, ih, List.map_cons]; rfl

theorem length_le_separated {t : JsString} {ts : List JsString} (h : t ∈ ts) :
    t.length ≤ (separated ts).length := by
  induction ts using separated.induct with
  | case1 => simp at h
  | case2 u =>
      rw [List.mem_singleton] at h
      simp [separated, h]
  | case3 u v ts ih =>
      simp only [separated, List.length_append, List.length_cons]
      rcases List.mem_cons.mp h with rfl | hRest
      · omega
      · have := ih hRest
        omega

/-- There are no more texts than units. -/
theorem length_le_length_separated (ts : List JsString) :
    ts.length ≤ (separated ts).length + 1 := by
  induction ts using separated.induct with
  | case1 => simp
  | case2 u => simp
  | case3 u v ts ih =>
      simp only [separated, List.length_append, List.length_cons] at ih ⊢
      omega

/-- A text that starts with neither white space nor a closing unit. -/
def Starts (t : JsString) : Prop :=
  ∃ u us, t = u :: us ∧ isBlank u = false ∧ u ≠ 0x5D ∧ u ≠ 0x7D

/-- The text of a value starts with a token. -/
theorem starts_stringify (v : Value) : Starts (stringify v) := by
  cases v with
  | null => exact ⟨_, _, rfl, by decide⟩
  | bool b => cases b <;> exact ⟨_, _, rfl, by decide⟩
  | string s => exact ⟨_, _, rfl, by decide⟩
  | array vs => exact ⟨_, _, rfl, by decide⟩
  | object ms => exact ⟨_, _, rfl, by decide⟩

theorem starts_memberText (m : JsString × Value) : Starts (memberText m) :=
  ⟨0x22, _, rfl, by decide⟩

theorem Starts.append {t : JsString} (h : Starts t) (t' : JsString) : Starts (t ++ t') := by
  obtain ⟨u, us, rfl, hUnit⟩ := h
  exact ⟨u, us ++ t', rfl, hUnit⟩

theorem Starts.accept {t : JsString} (h : Starts t) {close : UInt16}
    (hClose : close = 0x5D ∨ close = 0x7D) : accept close t = none := by
  obtain ⟨u, us, rfl, hSpace, hNot⟩ := h
  rw [accept_cons hSpace, if_neg]
  rcases hClose with rfl | rfl
  · exact hNot.1
  · exact hNot.2

theorem Starts.separated {α : Type} {text : α → JsString} (x : α) (xs : List α)
    (h : Starts (text x)) : Starts (separated ((x :: xs).map text)) := by
  cases xs with
  | nil => exact h
  | cons y ys => exact h.append _

section

variable {α : Type} {item : JsString → Option (α × JsString)} {close : UInt16}
  {text : α → JsString}

/-- A list whose items are read back one by one is read back. -/
theorem items_separated (hClose : isBlank close = false ∧ close ≠ 0x2C) {xs : List α}
    (hSome : xs ≠ []) (hItem : ∀ x ∈ xs, ∀ t, item (text x ++ t) = some (x, t)) {n : Nat}
    (hn : xs.length ≤ n) (t : JsString) :
    items item close n (separated (xs.map text) ++ close :: t) = some (xs, t) := by
  induction xs generalizing n with
  | nil => exact absurd rfl hSome
  | cons x xs ih =>
      obtain ⟨n, rfl⟩ : ∃ m, n = m + 1 := ⟨n - 1, by simp at hn; omega⟩
      have hHead := hItem x List.mem_cons_self
      cases xs with
      | nil =>
          rw [items, List.map_singleton, separated, hHead, Option.bind_some]
          simp only [accept_cons hClose.1, if_neg hClose.2, if_true, Option.map_some]
      | cons y ys =>
          have hRest := ih (by simp) (fun z hz => hItem z (List.mem_cons_of_mem x hz)) (n := n)
            (by simp at hn ⊢; omega)
          rw [List.map_cons] at hRest
          rw [items, List.map_cons, List.map_cons, separated, List.append_assoc, hHead,
            Option.bind_some]
          simp only [List.cons_append]
          rw [accept_cons (by decide), if_pos rfl]
          simp only [hRest, Option.map_some]

/-- Items that were written with commas are read back. -/
theorem itemsOrNone_separated (hClose : close = 0x5D ∨ close = 0x7D) {xs : List α}
    (hStarts : ∀ x ∈ xs, Starts (text x))
    (hItem : ∀ x ∈ xs, ∀ t, item (text x ++ t) = some (x, t)) {n : Nat} (hn : xs.length ≤ n)
    (t : JsString) :
    itemsOrNone item close n (separated (xs.map text) ++ close :: t) = some (xs, t) := by
  have hUnit : isBlank close = false ∧ close ≠ 0x2C := by
    rcases hClose with rfl | rfl <;> decide
  rw [itemsOrNone]
  cases xs with
  | nil => simp [separated, accept_cons hUnit.1]
  | cons x xs =>
      rw [((Starts.separated x xs (hStarts x List.mem_cons_self)).append _).accept hClose]
      exact items_separated hUnit (by simp) hItem hn t

end

/-- What holds of a value whenever it holds of its parts holds of every value. -/
theorem Value.induct {P : Value → Prop} (null : P .null) (bool : ∀ b, P (.bool b))
    (string : ∀ s, P (.string s)) (array : ∀ vs, (∀ v ∈ vs, P v) → P (.array vs))
    (object : ∀ ms, (∀ m ∈ ms, P m.2) → P (.object ms)) (v : Value) : P v := by
  refine @Value.rec P (fun vs => ∀ v ∈ vs, P v) (fun ms => ∀ m ∈ ms, P m.2) (fun m => P m.2)
    null bool string array object ?_ ?_ ?_ ?_ ?_ v
  · simp
  · intro v vs hv hvs
    exact List.forall_mem_cons.mpr ⟨hv, hvs⟩
  · simp
  · intro m ms hm hms
    exact List.forall_mem_cons.mpr ⟨hm, hms⟩
  · intro k v hv
    exact hv


theorem exists_succ_of_length_le {v : Value} {n : Nat} (h : (stringify v).length ≤ n) :
    ∃ m, n = m + 1 := by
  obtain ⟨u, us, hText, -⟩ := starts_stringify v
  rw [hText, List.length_cons] at h
  exact ⟨n - 1, by omega⟩

/-! ### One equation for each kind of value -/

/-- A string is read back. -/
theorem value_quote (s t : JsString) (n : Nat) :
    value (n + 1) (quote s ++ t) = some (.string s, t) := by
  rw [quote, List.cons_append, List.cons_append, List.append_assoc, value,
    skipBlanks_cons (by decide)]
  simp only [if_true, List.singleton_append, stringTail_quoted, Option.map_some]

theorem value_array (us : JsString) (n : Nat) :
    value (n + 1) (0x5B :: us) =
      (itemsOrNone (value n) 0x5D us.length us).map fun p => (.array p.1, p.2) := by
  rw [value, skipBlanks_cons (by decide)]
  rfl

theorem value_object (us : JsString) (n : Nat) :
    value (n + 1) (0x7B :: us) =
      (itemsOrNone (member (value n)) 0x7D us.length us).map fun p => (.object p.1, p.2) := by
  rw [value, skipBlanks_cons (by decide)]
  rfl

/-- A member is read back, if its value is. -/
theorem member_memberText {item : JsString → Option (Value × JsString)} {m : JsString × Value}
    (hItem : ∀ t, item (stringify m.2 ++ t) = some (m.2, t)) (t : JsString) :
    member item (memberText m ++ t) = some (m, t) := by
  rw [memberText, quote, member, List.append_assoc, List.cons_append, List.cons_append,
    accept_cons (by decide), if_pos rfl, Option.bind_some, List.append_assoc,
    List.singleton_append, stringTail_quoted, Option.bind_some, List.cons_append,
    accept_cons (by decide), if_pos rfl, Option.bind_some, hItem]
  rfl

/-- A value is read back, with what follows it. -/
theorem value_stringify (v : Value) (n : Nat) (hn : (stringify v).length ≤ n) (t : JsString) :
    value n (stringify v ++ t) = some (v, t) := by
  obtain ⟨n, rfl⟩ := exists_succ_of_length_le hn
  induction v using Value.induct generalizing n t with
  | null => rfl
  | bool b => cases b <;> rfl
  | string s => exact value_quote s t n
  | array vs ih =>
      rw [stringify, elemTexts_eq] at hn ⊢
      simp only [List.length_append, List.length_cons, List.length_nil] at hn
      have hItem : ∀ v ∈ vs, ∀ t, value n (stringify v ++ t) = some (v, t) := by
        intro v hv t
        have hLength := length_le_separated (List.mem_map_of_mem (f := stringify) hv)
        obtain ⟨m, rfl⟩ := exists_succ_of_length_le (v := v) (n := n) (by omega)
        exact ih v hv t m (by omega)
      have hFuel := length_le_length_separated (vs.map stringify)
      rw [List.length_map] at hFuel
      rw [List.cons_append, List.cons_append, List.append_assoc, value_array,
        List.singleton_append,
        itemsOrNone_separated (.inl rfl) (fun v _ => starts_stringify v) hItem
          (by simp only [List.length_append, List.length_cons]; omega)]
      rfl
  | object ms ih =>
      rw [stringify, memberTexts_eq] at hn ⊢
      simp only [List.length_append, List.length_cons, List.length_nil] at hn
      have hItem : ∀ m ∈ ms, ∀ t, member (value n) (memberText m ++ t) = some (m, t) := by
        intro m hm t
        have hLength := length_le_separated (List.mem_map_of_mem (f := memberText) hm)
        have hPart : (memberText m).length = (quote m.1).length + (stringify m.2).length + 1 := by
          rw [memberText, List.length_append, List.length_cons]
          omega
        refine member_memberText (fun t => ?_) t
        obtain ⟨k, rfl⟩ := exists_succ_of_length_le (v := m.2) (n := n) (by omega)
        exact ih m hm t k (by omega)
      have hFuel := length_le_length_separated (ms.map memberText)
      rw [List.length_map] at hFuel
      rw [List.cons_append, List.cons_append, List.append_assoc, value_object,
        List.singleton_append,
        itemsOrNone_separated (.inr rfl) (fun m _ => starts_memberText m) hItem
          (by simp only [List.length_append, List.length_cons]; omega)]
      rfl

/-- **Every value is read back.** -/
theorem parse_stringify (v : Value) : parse (stringify v) = some v := by
  have hText := value_stringify v (stringify v).length (Nat.le_refl _) []
  rw [List.append_nil] at hText
  rw [parse, hText]
  rfl

end TaskManager.Verified.Json
