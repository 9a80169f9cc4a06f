import Mathlib.Data.List.Basic
import Mathlib.Data.List.Induction
import Mathlib.Tactic.Common
import Mathlib.Tactic.IntervalCases

/-!
This module contains the text functions of `std` that addresses are taken apart with: splitting at
the last separator, and reading an unsigned decimal number below a bound.
-/

namespace Text

variable {α : Type u} [DecidableEq α]

def rsplitOnce (sep : α) : List α → Option (List α × List α)
  | [] => none
  | x :: xs =>
    match rsplitOnce sep xs with
    | some (pre, post) => some (x :: pre, post)
    | none => if x = sep then some ([], xs) else none

theorem rsplitOnce_eq_none_iff {sep : α} {xs : List α} : rsplitOnce sep xs = none ↔ sep ∉ xs := by
  induction xs with
  | nil => simp [rsplitOnce]
  | cons x xs ih =>
    unfold rsplitOnce
    cases h : rsplitOnce sep xs with
    | none =>
      rw [h] at ih
      simp at ih
      simp [ih, eq_comm]
    | some split =>
      rw [h] at ih
      simp at ih
      simp [ih]

theorem rsplitOnce_eq_some_iff {sep : α} {xs pre post : List α}
    : rsplitOnce sep xs = some (pre, post) ↔ xs = pre ++ sep :: post ∧ sep ∉ post := by
  induction xs generalizing pre with
  | nil => simp [rsplitOnce]
  | cons x xs ih =>
    unfold rsplitOnce
    cases h : rsplitOnce sep xs with
    | none =>
      have hmem := rsplitOnce_eq_none_iff.mp h
      cases pre with
      | nil =>
        by_cases hx : x = sep
        . simp only [hx, ↓reduceIte, Option.some.injEq, Prod.mk.injEq, true_and, List.nil_append,
            List.cons.injEq]
          grind
        . simp [hx]
      | cons y pre =>
        simp only [List.cons_append, List.cons.injEq]
        constructor
        . split <;> simp
        . rintro ⟨⟨_, hxs⟩, _⟩
          simp [hxs] at hmem
    | some split =>
      rw [h] at ih
      have hmem : sep ∈ xs := by
        by_contra hmem
        rw [rsplitOnce_eq_none_iff.mpr hmem] at h
        simp at h
      cases pre with
      | nil => grind
      | cons y pre =>
        have := @ih pre
        simp only [Option.some.injEq, Prod.mk.injEq, List.cons.injEq, List.cons_append] at this ⊢
        grind

/--
What `from_str_radix` does with one more digit: both its multiplication and its addition are checked.
-/
def pushDigit (bound : Nat) (n : Nat) (c : Char) : Option Nat :=
  if c.isDigit then
    if 10 * n < bound then
      if 10 * n + (c.toNat - '0'.toNat) < bound then
        some (10 * n + (c.toNat - '0'.toNat))
      else
        none
    else
      none
  else
    none

def readDigits (bound : Nat) (cs : List Char) : Option Nat :=
  cs.foldlM (pushDigit bound) 0

def readUnsigned (bound : Nat) : List Char → Option Nat
  | [] => none
  | ['+'] => none
  | ['-'] => none
  | '+' :: digits => readDigits bound digits
  | digits => readDigits bound digits

structure Denotes (digits : List Char) (n : Nat) : Prop where
  ne_nil : digits ≠ []
  isDigit : ∀ c ∈ digits, c.isDigit
  value : Nat.ofDigitChars 10 digits 0 = n

theorem le_ofDigitChars (n : Nat) (cs : List Char) : n ≤ Nat.ofDigitChars 10 cs n := by
  induction cs generalizing n with
  | nil => simp
  | cons c cs ih =>
    have := ih (10 * n + (c.toNat - '0'.toNat))
    rw [Nat.ofDigitChars_cons]
    omega

theorem pushDigit_eq_some_iff {bound n m : Nat} {c : Char}
    : pushDigit bound n c = some m
        ↔ c.isDigit ∧ 10 * n + (c.toNat - '0'.toNat) = m ∧ m < bound := by
  unfold pushDigit
  by_cases hdigit : c.isDigit
  . by_cases hlt : 10 * n + (c.toNat - '0'.toNat) < bound
    . have : 10 * n < bound := by omega
      simp only [hdigit, ↓reduceIte, this, hlt, Option.some.injEq, true_and]
      omega
    . simp only [hdigit, ↓reduceIte, hlt, ite_self, reduceCtorEq, true_and, false_iff]
      omega
  . simp [hdigit]

theorem foldlM_pushDigit_eq_some_iff {bound n m : Nat} {cs : List Char} (hn : n < bound)
    : cs.foldlM (pushDigit bound) n = some m
        ↔
      (∀ c ∈ cs, c.isDigit) ∧ Nat.ofDigitChars 10 cs n = m ∧ m < bound := by
  induction cs generalizing n with
  | nil =>
    simp only [List.foldlM_nil, Option.pure_def, Option.some.injEq, List.not_mem_nil, false_implies,
      implies_true, Nat.ofDigitChars_nil, true_and]
    omega
  | cons c cs ih =>
    rw [List.foldlM_cons, Option.bind_eq_bind, Option.bind_eq_some_iff, Nat.ofDigitChars_cons]
    constructor
    . rintro ⟨k, hpush, hrest⟩
      rcases pushDigit_eq_some_iff.mp hpush with ⟨hdigit, rfl, hk⟩
      rcases (ih hk).mp hrest with ⟨hdigits, hvalue, hm⟩
      exact ⟨by simpa using ⟨hdigit, hdigits⟩, hvalue, hm⟩
    . rintro ⟨hdigits, hvalue, hm⟩
      have hle := le_ofDigitChars (10 * n + (c.toNat - '0'.toNat)) cs
      have hk : 10 * n + (c.toNat - '0'.toNat) < bound := by omega
      refine ⟨_, pushDigit_eq_some_iff.mpr ⟨hdigits c (by simp), rfl, hk⟩, ?_⟩
      rw [ih hk]
      exact ⟨fun d hd => hdigits d (by simp [hd]), hvalue, hm⟩

theorem readDigits_eq_some_iff {bound n : Nat} {digits : List Char} (hbound : 0 < bound)
    (hdigits : digits ≠ [])
    : readDigits bound digits = some n ↔ Denotes digits n ∧ n < bound := by
  unfold readDigits
  rw [foldlM_pushDigit_eq_some_iff hbound]
  constructor
  . rintro ⟨hall, hvalue, hn⟩
    exact ⟨⟨hdigits, hall, hvalue⟩, hn⟩
  . rintro ⟨hdenotes, hn⟩
    exact ⟨hdenotes.isDigit, hdenotes.value, hn⟩

def unsigned : List Char → List Char
  | '+' :: digits => digits
  | digits => digits

theorem readUnsigned_eq_some_iff {bound n : Nat} {cs : List Char} (hbound : 0 < bound)
    : readUnsigned bound cs = some n ↔ Denotes (unsigned cs) n ∧ n < bound := by
  have hempty : ¬ Denotes [] n := fun h => h.ne_nil rfl
  unfold readUnsigned
  split
  . simp [unsigned, hempty]
  . simp [unsigned, hempty]
  . have hminus : ¬ Denotes ['-'] n := by
      intro h
      have := h.isDigit '-' (by simp)
      simp at this
    simp [unsigned, hminus]
  . next digits hdigits =>
    apply readDigits_eq_some_iff hbound
    rintro rfl
    exact hdigits rfl
  . next hnil _ _ hplus =>
    have hunsigned : unsigned cs = cs := by
      unfold unsigned
      split
      . exact absurd rfl (hplus _)
      . rfl
    rw [hunsigned]
    apply readDigits_eq_some_iff hbound hnil

def significant (cs : List Char) : List Char :=
  (unsigned cs).dropWhile (· = '0')

theorem digitChar_sub {c : Char} (h : c.isDigit) : Nat.digitChar (c.toNat - '0'.toNat) = c := by
  rw [Char.isDigit_iff_toNat] at h
  have hlow : 48 ≤ c.toNat := h.1
  have hhigh : c.toNat ≤ 57 := h.2
  rw [← Char.ofNat_toNat c]
  generalize c.toNat = k at hlow hhigh
  interval_cases k <;> rfl

theorem sub_lt_ten {c : Char} (h : c.isDigit) : c.toNat - '0'.toNat < 10 := by
  rw [Char.isDigit_iff_toNat] at h
  have hhigh : c.toNat ≤ 57 := h.2
  have hzero : '0'.toNat = 48 := rfl
  omega

theorem toDigits_ofDigitChars {digits : List Char} (hne : digits ≠ [])
    (hdigits : ∀ c ∈ digits, c.isDigit) (hhead : digits.head? ≠ some '0')
    : Nat.toDigits 10 (Nat.ofDigitChars 10 digits 0) = digits
        ∧ 0 < Nat.ofDigitChars 10 digits 0 := by
  induction digits using List.reverseRecOn with
  | nil => exact absurd rfl hne
  | append_singleton digits c ih =>
    have hc : c.isDigit := hdigits c (by simp)
    have hlt := sub_lt_ten hc
    have hchar := digitChar_sub hc
    rw [Nat.ofDigitChars_append, Nat.ofDigitChars_cons, Nat.ofDigitChars_nil]
    generalize c.toNat - '0'.toNat = d at hlt hchar
    by_cases hnil : digits = []
    . subst hnil
      have hd : d ≠ 0 := by
        rintro rfl
        apply hhead
        rw [← hchar]
        rfl
      rw [Nat.ofDigitChars_nil, Nat.mul_zero, Nat.zero_add, Nat.toDigits_of_lt_base hlt, hchar]
      exact ⟨rfl, by omega⟩
    . rw [List.head?_append_of_ne_nil _ hnil] at hhead
      have hrest : ∀ c ∈ digits, c.isDigit := fun e he => hdigits e (by simp [he])
      rcases ih hnil hrest hhead with ⟨htoDigits, hpos⟩
      generalize Nat.ofDigitChars 10 digits 0 = n at htoDigits hpos
      rw [Nat.toDigits_of_base_le (by omega) (by omega)]
      have hdiv : (10 * n + d) / 10 = n := by omega
      have hmod : (10 * n + d) % 10 = d := by omega
      rw [hdiv, hmod, htoDigits, hchar]
      exact ⟨rfl, by omega⟩

theorem ofDigitChars_dropWhile_zero (digits : List Char)
    : Nat.ofDigitChars 10 (digits.dropWhile (· = '0')) 0 = Nat.ofDigitChars 10 digits 0 := by
  induction digits with
  | nil => rfl
  | cons c digits ih =>
    by_cases hc : c = '0'
    . subst hc
      rw [Nat.ofDigitChars_cons]
      simpa using ih
    . simp [hc]

theorem Denotes.significant_eq {cs : List Char} {n : Nat} (h : Denotes (unsigned cs) n)
    : significant cs = if n = 0 then [] else Nat.toDigits 10 n := by
  have hvalue := ofDigitChars_dropWhile_zero (unsigned cs)
  rw [h.value] at hvalue
  unfold significant
  by_cases hnil : (unsigned cs).dropWhile (· = '0') = []
  . rw [hnil] at hvalue ⊢
    simp [← hvalue]
  . have hdigits : ∀ c ∈ (unsigned cs).dropWhile (· = '0'), c.isDigit := by
      intro c hc
      apply h.isDigit c ((List.dropWhile_suffix _).subset hc)
    have hhead : ((unsigned cs).dropWhile (· = '0')).head? ≠ some '0' := by
      intro hhead
      have := List.head?_dropWhile_not (fun c => decide (c = '0')) (unsigned cs)
      rw [hhead] at this
      simp at this
    rcases toDigits_ofDigitChars hnil hdigits hhead with ⟨htoDigits, hpos⟩
    rw [hvalue] at htoDigits hpos
    rw [if_neg (by omega), htoDigits]

theorem significant_eq_iff {cs cs' : List Char} {n n' : Nat} (h : Denotes (unsigned cs) n)
    (h' : Denotes (unsigned cs') n')
    : significant cs = significant cs' ↔ n = n' := by
  rw [h.significant_eq, h'.significant_eq]
  constructor
  . intro heq
    split at heq <;> split at heq
    . omega
    . simp at heq
    . simp at heq
    . have := congrArg (fun ds => Nat.ofDigitChars 10 ds 0) heq
      simpa using this
  . rintro rfl
    rfl

end Text
