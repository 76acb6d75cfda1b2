import Mathlib.Data.List.Induction
import TaskManager.Shared.Constants

/-!
# The addresses that `EMAIL_VALIDATION` accepts

`Address` is the grammar of the pattern, with the parts of an address in place
of the choices of the matcher.  `scan` recognizes it in one pass from left to
right: it counts the separators, keeps the parts between them, and is judged at
the end of the input.

## Main results

* `emailValid_iff` — the pattern matches the texts of addresses.
* `Address.text_injective` — a text is that of one address only.
* `scan_accepts_iff` — the scan accepts the texts of addresses.
-/

namespace TaskManager.Shared

open TaskManager.Verified.Pattern
open TaskManager.Verified.JsText

/-- `@` -/
def atSign : UInt16 := '@'.toNat.toUInt16

/-- `.` -/
def dot : UInt16 := '.'.toNat.toUInt16

/-- `[a-zA-Z_]` -/
def isHostChar (u : UInt16) : Bool := isLetter u || isChar '_' u

/-! ## Addresses -/

/-- What the pattern asks of the three parts. -/
@[ext] structure Address where
  user : JsString
  host : JsString
  domain : JsString
  user_ne : user ≠ []
  user_mem : ∀ u ∈ user, isWordChar u = true
  host_ne : host ≠ []
  host_mem : ∀ u ∈ host, isHostChar u = true
  domain_mem : ∀ u ∈ domain, isLetter u = true
  domain_length : domain.length = 2 ∨ domain.length = 3

/-- `user@host.domain` -/
def Address.text (a : Address) : JsString :=
  a.user ++ atSign :: (a.host ++ dot :: a.domain)

theorem isChar_at_iff (u : UInt16) : isChar '@' u = true ↔ u = atSign := by
  rw [isChar, decide_eq_true_eq, ← UInt16.toNat_inj]
  rfl

theorem isChar_dot_iff (u : UInt16) : isChar '.' u = true ↔ u = dot := by
  rw [isChar, decide_eq_true_eq, ← UInt16.toNat_inj]
  rfl

/-- No part of an address contains a separator. -/
theorem Address.separators (a : Address) :
    (atSign ∉ a.user ∧ dot ∉ a.user) ∧ (atSign ∉ a.host ∧ dot ∉ a.host) ∧
      (atSign ∉ a.domain ∧ dot ∉ a.domain) := by
  refine ⟨⟨fun h => ?_, fun h => ?_⟩, ⟨fun h => ?_, fun h => ?_⟩, fun h => ?_, fun h => ?_⟩
  · exact absurd (a.user_mem _ h) (by decide)
  · exact absurd (a.user_mem _ h) (by decide)
  · exact absurd (a.host_mem _ h) (by decide)
  · exact absurd (a.host_mem _ h) (by decide)
  · exact absurd (a.domain_mem _ h) (by decide)
  · exact absurd (a.domain_mem _ h) (by decide)

/-- The parts of an address can be read off its text. -/
theorem Address.text_injective : Function.Injective Address.text := by
  intro a b h
  obtain ⟨⟨haUser, -⟩, ⟨haHost, haHostDot⟩, ⟨haDomain, haDomainDot⟩⟩ := a.separators
  obtain ⟨⟨hbUser, -⟩, ⟨hbHost, hbHostDot⟩, ⟨hbDomain, hbDomainDot⟩⟩ := b.separators
  have hTail : atSign ∉ a.host ++ dot :: a.domain := by
    rw [List.mem_append, List.mem_cons]
    rintro (hIn | hIn | hIn)
    · exact haHost hIn
    · exact absurd hIn (by decide)
    · exact haDomain hIn
  obtain ⟨hUser, -, hRest⟩ := (List.append_cons_inj_of_notMem haUser hTail).mp h
  obtain ⟨hHost, -, hDomain⟩ := (List.append_cons_inj_of_notMem haHostDot haDomainDot).mp hRest
  exact Address.ext hUser hHost hDomain

/-! ## The pattern -/

/-- Every run of the pattern has its bounds in order. -/
theorem EMAIL_VALIDATION_ordered : ∀ n ∈ EMAIL_VALIDATION, n.Ordered := by
  simp [EMAIL_VALIDATION, Node.Ordered]

/-- The pattern accepts the addresses. -/
theorem emailValid_iff (s : JsString) : emailValid s = true ↔ ∃ a : Address, a.text = s := by
  have hOrd := EMAIL_VALIDATION_ordered
  rw [EMAIL_VALIDATION, List.forall_mem_cons] at hOrd
  rw [emailValid, EMAIL_VALIDATION, test_anchored hOrd.2]
  constructor
  · rintro ⟨user, _, rfl, hUser, at', _, rfl, hAt, host, _, rfl, hHost, dot', _, rfl, hDot,
      domain, _, rfl, hDomain, rfl, -⟩
    obtain rfl := (isChar_at_iff at').mp hAt
    obtain rfl := (isChar_dot_iff dot').mp hDot
    have hUserLen := hUser.min_le
    have hHostLen := hHost.min_le
    have hDomainMin := hDomain.min_le
    have hDomainMax := hDomain.le_max 3 rfl
    exact ⟨{
        user := user
        host := host
        domain := domain
        user_ne := List.ne_nil_of_length_pos hUserLen
        user_mem := hUser.mem
        host_ne := List.ne_nil_of_length_pos hHostLen
        host_mem := hHost.mem
        domain_mem := hDomain.mem
        domain_length := by omega }, by rw [Address.text, List.append_nil]⟩
  · rintro ⟨a, rfl⟩
    have hUserLen := List.length_pos_of_ne_nil a.user_ne
    have hHostLen := List.length_pos_of_ne_nil a.host_ne
    have hDomainLen := a.domain_length
    refine ⟨a.user, _, rfl, ⟨a.user_mem, hUserLen, by simp⟩, atSign, _, rfl, by decide,
      a.host, _, rfl, ⟨a.host_mem, hHostLen, by simp⟩, dot, _, rfl, by decide,
      a.domain, [], by rw [List.append_nil], ⟨a.domain_mem, by omega, ?_⟩, rfl, trivial⟩
    rintro m ⟨⟩
    omega

/-! ## The scan -/

/-- What a pass over the text has seen so far. -/
structure Scan where
  ats : Nat := 0
  dots : Nat := 0
  /-- a `.` has come before any `@` -/
  early : Bool := false
  user : JsString := []
  host : JsString := []
  domain : JsString := []
  deriving DecidableEq, Repr

/-- Append to the part the scan is in. -/
def Scan.put (sc : Scan) (part : JsString) : Scan :=
  if sc.ats = 0 then { sc with user := sc.user ++ part }
  else if sc.dots = 0 then { sc with host := sc.host ++ part }
  else { sc with domain := sc.domain ++ part }

/-- One more symbol. -/
def Scan.next (sc : Scan) (u : UInt16) : Scan :=
  if u = atSign then { sc with ats := sc.ats + 1 }
  else if u = dot then
    { sc with dots := sc.dots + 1, early := sc.early || sc.ats = 0 }
  else sc.put [u]

/-- The whole text, from the left. -/
def scan (s : JsString) : Scan := s.foldl Scan.next {}

/-- One `@` and one `.`, in this order, and parts of the right symbols and
lengths. -/
def Scan.accepts (sc : Scan) : Bool :=
  sc.ats = 1 && sc.dots = 1 && !sc.early
    && !sc.user.isEmpty && sc.user.all isWordChar
    && !sc.host.isEmpty && sc.host.all isHostChar
    && sc.domain.all isLetter && (sc.domain.length = 2 || sc.domain.length = 3)

@[simp] theorem Scan.put_nil (sc : Scan) : sc.put [] = sc := by
  unfold Scan.put
  split
  · rw [List.append_nil]
  · split <;> rw [List.append_nil]

theorem Scan.put_put (sc : Scan) (p q : JsString) : (sc.put p).put q = sc.put (p ++ q) := by
  by_cases hAts : sc.ats = 0
  · simp [Scan.put, hAts]
  · by_cases hDots : sc.dots = 0 <;> simp [Scan.put, hAts, hDots]

/-- A part without separators goes where the scan is. -/
theorem foldl_next_part (sc : Scan) {part : JsString} (hAt : atSign ∉ part)
    (hDot : dot ∉ part) : part.foldl Scan.next sc = sc.put part := by
  induction part generalizing sc with
  | nil => rw [List.foldl_nil, Scan.put_nil]
  | cons u part ih =>
      rw [List.mem_cons, not_or] at hAt hDot
      have hNext : sc.next u = sc.put [u] := by
        rw [Scan.next, if_neg (Ne.symm hAt.1), if_neg (Ne.symm hDot.1)]
      rw [List.foldl_cons, hNext, ih _ hAt.2 hDot.2, Scan.put_put]
      rfl

/-- The scan takes an address apart. -/
theorem scan_text (a : Address) :
    scan a.text =
      { ats := 1, dots := 1, user := a.user, host := a.host, domain := a.domain } := by
  obtain ⟨⟨hUser, hUserDot⟩, ⟨hHost, hHostDot⟩, ⟨hDomain, hDomainDot⟩⟩ := a.separators
  rw [scan, Address.text, List.foldl_append, foldl_next_part _ hUser hUserDot,
    List.foldl_cons, List.foldl_append, foldl_next_part _ hHost hHostDot, List.foldl_cons,
    foldl_next_part _ hDomain hDomainDot]
  simp [Scan.put, Scan.next, atSign, dot]

/-- The text behind what the scan has seen, as far as it can still be accepted. -/
structure Scan.Reads (sc : Scan) (s : JsString) : Prop where
  host : sc.ats = 0 → sc.host = []
  domain : sc.dots = 0 → sc.domain = []
  early : sc.ats = 0 → sc.dots ≠ 0 → sc.early = true
  before : sc.ats = 0 → sc.dots = 0 → s = sc.user
  between : sc.ats = 1 → sc.dots = 0 → s = sc.user ++ atSign :: sc.host
  after : sc.ats = 1 → sc.dots = 1 → sc.early = false →
    s = sc.user ++ atSign :: (sc.host ++ dot :: sc.domain)

/-- One more symbol has been read. -/
theorem Scan.Reads.next {sc : Scan} {s : JsString} (h : sc.Reads s) (u : UInt16) :
    (sc.next u).Reads (s ++ [u]) := by
  rw [Scan.next]
  by_cases hAt : u = atSign
  · rw [if_pos hAt]
    refine ⟨by simp, h.domain, by simp, by simp, fun hAts hDots => ?_, fun hAts hDots hEarly => ?_⟩
    · have hNone : sc.ats = 0 := by simpa using hAts
      rw [h.before hNone hDots, h.host hNone, hAt]
    · have hNone : sc.ats = 0 := by simpa using hAts
      have hOne : sc.dots = 1 := hDots
      rw [h.early hNone (by omega)] at hEarly
      simp at hEarly
  · rw [if_neg hAt]
    by_cases hDot : u = dot
    · rw [if_pos hDot]
      refine ⟨h.host, by simp, by simp +contextual, by simp, by simp, ?_⟩
      intro hAts hDots hEarly
      have hNone : sc.dots = 0 := by simpa using hDots
      rw [h.between hAts hNone, h.domain hNone, hDot, List.append_assoc, List.cons_append]
    · rw [if_neg hDot, Scan.put]
      by_cases hAts : sc.ats = 0
      · rw [if_pos hAts]
        refine ⟨h.host, h.domain, h.early, fun hNone hDots => ?_, by simp [hAts], by simp [hAts]⟩
        rw [h.before hNone hDots]
      · rw [if_neg hAts]
        by_cases hDots : sc.dots = 0
        · rw [if_pos hDots]
          refine ⟨by simp [hAts], h.domain, by simp [hAts], by simp [hAts], fun hOne hNone => ?_,
            by simp [hDots]⟩
          rw [h.between hOne hNone, List.append_assoc, List.cons_append]
        · rw [if_neg hDots]
          refine ⟨by simp [hAts], by simp [hDots], by simp [hAts], by simp [hAts],
            by simp [hDots], fun hOne hDot hEarly => ?_⟩
          rw [h.after hOne hDot hEarly]
          simp

/-- The scan has read the whole text. -/
theorem scan_reads (s : JsString) : (scan s).Reads s := by
  induction s using List.reverseRecOn with
  | nil => constructor <;> simp [scan]
  | append_singleton s u ih =>
      rw [scan, List.foldl_append]
      exact ih.next u

/-- The scan accepts the addresses. -/
theorem scan_accepts_iff (s : JsString) :
    (scan s).accepts = true ↔ ∃ a : Address, a.text = s := by
  constructor
  · intro h
    simp only [Scan.accepts, Bool.and_eq_true, Bool.or_eq_true, Bool.not_eq_true',
      decide_eq_true_eq, List.all_eq_true, List.isEmpty_eq_false_iff] at h
    obtain ⟨⟨⟨⟨⟨⟨⟨⟨hAts, hDots⟩, hEarly⟩, hUserNe⟩, hUser⟩, hHostNe⟩, hHost⟩, hDomain⟩,
      hLength⟩ := h
    exact ⟨{
        user := (scan s).user
        host := (scan s).host
        domain := (scan s).domain
        user_ne := hUserNe
        user_mem := hUser
        host_ne := hHostNe
        host_mem := hHost
        domain_mem := hDomain
        domain_length := hLength }, ((scan_reads s).after hAts hDots hEarly).symm⟩
  · rintro ⟨a, rfl⟩
    have hUser : a.user.all isWordChar = true := List.all_eq_true.mpr a.user_mem
    have hHost : a.host.all isHostChar = true := List.all_eq_true.mpr a.host_mem
    have hDomain : a.domain.all isLetter = true := List.all_eq_true.mpr a.domain_mem
    simp [scan_text, Scan.accepts, a.user_ne, a.host_ne, a.domain_length, hUser, hHost, hDomain]

end TaskManager.Shared
