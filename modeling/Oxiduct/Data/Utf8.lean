import Mathlib.Data.List.Basic
import Mathlib.Tactic.Common

/-!
This module contains UTF-8 as bytes that become characters one at a time: the encoding of a text and
`String::from_utf8_lossy`, a machine that a byte outside the sequence begun sends back to its start
with one replacement character for what it had of the sequence.
-/

namespace Utf8

def encode (cs : List Char) : List UInt8 :=
  cs.flatMap String.utf8EncodeChar

def replacement : Char := '\uFFFD'

-- what a sequence that has begun still owes
inductive Tail where
  | one
  | two
  | three
  | afterE0
  | afterED
  | afterF0
  | afterF4
  deriving DecidableEq, Repr

namespace Tail

def low : Tail → Nat
  | .afterE0 => 0xA0
  | .afterF0 => 0x90
  | _ => 0x80

def high : Tail → Nat
  | .afterED => 0x9F
  | .afterF4 => 0x8F
  | _ => 0xBF

def next : Tail → Option Tail
  | .one => none
  | .two => some .one
  | .three => some .two
  | .afterE0 => some .one
  | .afterED => some .one
  | .afterF0 => some .two
  | .afterF4 => some .two

/--
The values the bits read so far can have. They leave out the overlong sequences, the surrogates and
what is above `char::MAX`.
-/
def Holds : Tail → Nat → Prop
  | .one, value => 0x2 ≤ value ∧ value < 0x4400 ∧ ¬ (0x360 ≤ value ∧ value < 0x380)
  | .two, value => 0x1 ≤ value ∧ value < 0x110 ∧ value ≠ 0xD
  | .three, value => 0x1 ≤ value ∧ value < 0x4
  | .afterE0, value => value = 0
  | .afterED, value => value = 0xD
  | .afterF0, value => value = 0
  | .afterF4, value => value = 0x4

theorem holds_next {tail tail' : Tail} {value b : Nat} (hvalue : tail.Holds value)
    (hlow : tail.low ≤ b) (hhigh : b ≤ tail.high) (hnext : tail.next = some tail')
    : tail'.Holds (64 * value + (b - 0x80)) := by
  cases tail <;> simp only [next, Option.some.injEq, reduceCtorEq] at hnext
  all_goals
    subst hnext
    simp only [Holds, low, high] at hvalue hlow hhigh ⊢
    omega

theorem isValidChar_of_next {tail : Tail} {value b : Nat} (hvalue : tail.Holds value)
    (hlow : tail.low ≤ b) (hhigh : b ≤ tail.high) (hnext : tail.next = none)
    : (64 * value + (b - 0x80)).isValidChar ∧ 0x80 ≤ 64 * value + (b - 0x80) := by
  cases tail <;> simp only [next, reduceCtorEq] at hnext
  simp only [Holds, low, high] at hvalue hlow hhigh
  simp only [Nat.isValidChar]
  omega

end Tail

structure Partial where
  tail : Tail
  value : Nat
  holds : tail.Holds value

def lead (b : Nat) : Option Partial :=
  if htwo : 0xC2 ≤ b ∧ b ≤ 0xDF then
    some ⟨.one, b - 0xC0, by simp only [Tail.Holds]; omega⟩
  else if b = 0xE0 then
    some ⟨.afterE0, 0x0, by simp only [Tail.Holds]⟩
  else if b = 0xED then
    some ⟨.afterED, 0xD, by simp only [Tail.Holds]⟩
  else if hthree : 0xE1 ≤ b ∧ b ≤ 0xEF ∧ b ≠ 0xED then
    some ⟨.two, b - 0xE0, by simp only [Tail.Holds]; omega⟩
  else if b = 0xF0 then
    some ⟨.afterF0, 0x0, by simp only [Tail.Holds]⟩
  else if hfour : 0xF1 ≤ b ∧ b ≤ 0xF3 then
    some ⟨.three, b - 0xF0, by simp only [Tail.Holds]; omega⟩
  else if b = 0xF4 then
    some ⟨.afterF4, 0x4, by simp only [Tail.Holds]⟩
  else
    none

def start (b : UInt8) : List Char × Option Partial :=
  if b.toNat < 0x80 then
    ([Char.ofNat b.toNat], none)
  else
    match lead b.toNat with
    | some p => ([], some p)
    | none => ([replacement], none)

def Partial.push (p : Partial) (b : Nat) (hlow : p.tail.low ≤ b) (hhigh : b ≤ p.tail.high)
    : List Char × Option Partial :=
  match hnext : p.tail.next with
  | none => ([Char.ofNat (64 * p.value + (b - 0x80))], none)
  | some tail =>
    let value := 64 * p.value + (b - 0x80)
    ([], some ⟨tail, value, Tail.holds_next p.holds hlow hhigh hnext⟩)

def step : Option Partial → UInt8 → List Char × Option Partial
  | none, b => start b
  | some p, b =>
    if h : p.tail.low ≤ b.toNat ∧ b.toNat ≤ p.tail.high then
      p.push b.toNat h.1 h.2
    else
      -- what is missing may be the first byte of the next sequence
      (replacement :: (start b).1, (start b).2)

def finish : Option Partial → List Char
  | none => []
  | some _ => [replacement]

def decodeFrom (state : Option Partial) : List UInt8 → List Char
  | [] => finish state
  | b :: bs => (step state b).1 ++ decodeFrom (step state b).2 bs

def decodeLossy (bs : List UInt8) : List Char :=
  decodeFrom none bs

theorem Tail.le_low (tail : Tail) : 0x80 ≤ tail.low := by
  cases tail <;> decide

theorem start_of_lt {b : UInt8} (hb : b.toNat < 0x80)
    : start b = ([Char.ofNat b.toNat], none) := by
  unfold start
  rw [if_pos hb]

theorem step_of_lt (state : Option Partial) {b : UInt8} (hb : b.toNat < 0x80)
    : step state b = (finish state ++ [Char.ofNat b.toNat], none) := by
  cases state with
  | none => exact start_of_lt hb
  | some p =>
    have := p.tail.le_low
    simp only [step, finish]
    rw [dif_neg (by omega), start_of_lt hb]
    rfl

theorem decodeFrom_append_cons (state : Option Partial) (xs ys : List UInt8) {b : UInt8}
    (hb : b.toNat < 0x80)
    : decodeFrom state (xs ++ b :: ys)
        =
      decodeFrom state xs ++ Char.ofNat b.toNat :: decodeLossy ys := by
  induction xs generalizing state with
  | nil => simp [decodeFrom, step_of_lt state hb, decodeLossy]
  | cons x xs ih => simp [decodeFrom, ih]

theorem decodeLossy_append_cons (xs ys : List UInt8) {b : UInt8} (hb : b.toNat < 0x80)
    : decodeLossy (xs ++ b :: ys)
        =
      decodeLossy xs ++ Char.ofNat b.toNat :: decodeLossy ys :=
  decodeFrom_append_cons none xs ys hb

theorem toNat_ofNat {n : Nat} (h : n.isValidChar) : (Char.ofNat n).toNat = n := by
  rw [Char.ofNat, dif_pos h]
  rfl

theorem mem_start {b : UInt8} {c : Char} (hmem : c ∈ (start b).1) (hc : c.toNat < 0x80)
    : c.toNat = b.toNat := by
  unfold start at hmem
  split at hmem
  . next hb =>
    have hvalid : b.toNat.isValidChar := .inl (by omega)
    rw [List.mem_singleton] at hmem
    rw [hmem, toNat_ofNat hvalid]
  . split at hmem
    . simp at hmem
    . rw [List.mem_singleton] at hmem
      simp [hmem, replacement] at hc

theorem Partial.mem_push {p : Partial} {b : Nat} {hlow : p.tail.low ≤ b} {hhigh : b ≤ p.tail.high}
    {c : Char} (hmem : c ∈ (p.push b hlow hhigh).1)
    : 0x80 ≤ c.toNat := by
  unfold push at hmem
  split at hmem
  . next hnext =>
    have ⟨hvalid, hle⟩ := Tail.isValidChar_of_next p.holds hlow hhigh hnext
    rw [List.mem_singleton] at hmem
    rw [hmem, toNat_ofNat hvalid]
    exact hle
  . simp at hmem

theorem mem_step {state : Option Partial} {b : UInt8} {c : Char} (hmem : c ∈ (step state b).1)
    (hc : c.toNat < 0x80)
    : c.toNat = b.toNat := by
  cases state with
  | none => exact mem_start hmem hc
  | some p =>
    simp only [step] at hmem
    split at hmem
    . have := Partial.mem_push hmem
      omega
    . cases hmem with
      | head => simp [replacement] at hc
      | tail _ hmem => exact mem_start hmem hc

theorem mem_decodeFrom {state : Option Partial} {bs : List UInt8} {c : Char}
    (hmem : c ∈ decodeFrom state bs) (hc : c.toNat < 0x80)
    : ∃ b ∈ bs, b.toNat = c.toNat := by
  induction bs generalizing state with
  | nil =>
    cases state with
    | none => simp [decodeFrom, finish] at hmem
    | some p =>
      simp only [decodeFrom, finish, List.mem_singleton] at hmem
      simp [hmem, replacement] at hc
  | cons b bs ih =>
    simp only [decodeFrom, List.mem_append] at hmem
    cases hmem with
    | inl hmem => exact ⟨b, List.mem_cons_self, (mem_step hmem hc).symm⟩
    | inr hmem =>
      have ⟨b', hb', heq⟩ := ih hmem
      exact ⟨b', List.mem_cons_of_mem b hb', heq⟩

theorem not_mem_decodeLossy {bs : List UInt8} {b : UInt8} (hb : b.toNat < 0x80) (h : b ∉ bs)
    : Char.ofNat b.toNat ∉ decodeLossy bs := by
  intro hmem
  have hvalid : b.toNat.isValidChar := .inl (by omega)
  have hc := toNat_ofNat hvalid
  have ⟨b', hb', heq⟩ := mem_decodeFrom hmem (by omega)
  have : b' = b := UInt8.toNat.inj (by omega)
  rw [this] at hb'
  contradiction

theorem lead_of_two {b : Nat} (hlow : 0xC2 ≤ b) (hhigh : b ≤ 0xDF)
    : ∃ p, lead b = some p ∧ p.tail = .one ∧ p.value = b - 0xC0 := by
  unfold lead
  rw [dif_pos (by omega)]
  exact ⟨_, rfl, rfl, rfl⟩

theorem lead_of_three {b : Nat} (hlow : 0xE0 ≤ b) (hhigh : b ≤ 0xEF)
    : ∃ p, lead b = some p ∧ p.tail.next = some .one ∧ p.value = b - 0xE0
        ∧ p.tail.low = (if b = 0xE0 then 0xA0 else 0x80)
        ∧ p.tail.high = (if b = 0xED then 0x9F else 0xBF) := by
  unfold lead
  rw [dif_neg (by omega)]
  split
  . next h =>
    subst h
    exact ⟨_, rfl, rfl, rfl, rfl, rfl⟩
  . split
    . next h =>
      subst h
      exact ⟨_, rfl, rfl, rfl, rfl, rfl⟩
    . rw [dif_pos (by omega)]
      exact ⟨_, rfl, rfl, rfl, rfl, rfl⟩

theorem lead_of_four {b : Nat} (hlow : 0xF0 ≤ b) (hhigh : b ≤ 0xF4)
    : ∃ p, lead b = some p ∧ p.tail.next = some .two ∧ p.value = b - 0xF0
        ∧ p.tail.low = (if b = 0xF0 then 0x90 else 0x80)
        ∧ p.tail.high = (if b = 0xF4 then 0x8F else 0xBF) := by
  unfold lead
  rw [dif_neg (by omega), if_neg (by omega), if_neg (by omega), dif_neg (by omega)]
  split
  . next h =>
    subst h
    exact ⟨_, rfl, rfl, rfl, rfl, rfl⟩
  . split
    . rw [if_neg (by omega)]
      exact ⟨_, rfl, rfl, rfl, rfl, rfl⟩
    . have heq : b = 0xF4 := by omega
      subst heq
      exact ⟨_, rfl, rfl, rfl, rfl, rfl⟩

theorem decodeFrom_lead {p : Partial} {b : UInt8} (bs : List UInt8) (hb : 0x80 ≤ b.toNat)
    (hlead : lead b.toNat = some p)
    : decodeFrom none (b :: bs) = decodeFrom (some p) bs := by
  simp only [decodeFrom, step, start]
  rw [if_neg (by omega), hlead]
  rfl

theorem decodeFrom_next {p : Partial} {tail : Tail} {b : UInt8} (bs : List UInt8)
    (hlow : p.tail.low ≤ b.toNat) (hhigh : b.toNat ≤ p.tail.high) (hnext : p.tail.next = some tail)
    : ∃ q, decodeFrom (some p) (b :: bs) = decodeFrom (some q) bs
        ∧ q.tail = tail
        ∧ q.value = 64 * p.value + (b.toNat - 0x80) := by
  simp only [decodeFrom, step]
  rw [dif_pos ⟨hlow, hhigh⟩]
  unfold Partial.push
  split
  . next h => simp [h] at hnext
  . next tail' h =>
    rw [h, Option.some.injEq] at hnext
    exact ⟨_, rfl, hnext, rfl⟩

theorem decodeFrom_last {p : Partial} {b : UInt8} {c : Char} (bs : List UInt8)
    (htail : p.tail = .one) (hlow : 0x80 ≤ b.toNat) (hhigh : b.toNat ≤ 0xBF)
    (hvalue : 64 * p.value + (b.toNat - 0x80) = c.toNat)
    : decodeFrom (some p) (b :: bs) = c :: decodeFrom none bs := by
  have hrange : p.tail.low ≤ b.toNat ∧ b.toNat ≤ p.tail.high := by
    rw [htail]
    exact ⟨hlow, hhigh⟩
  simp only [decodeFrom, step]
  rw [dif_pos hrange]
  unfold Partial.push
  split
  . rw [hvalue, c.ofNat_toNat]
    rfl
  . next h => simp [htail, Tail.next] at h

theorem decodeFrom_of_two {b₁ b₂ : UInt8} {c : Char} (bs : List UInt8) (hlow : 0x80 ≤ c.toNat)
    (hhigh : c.toNat ≤ 0x7FF) (hb₁ : b₁.toNat = c.toNat / 64 % 32 + 0xC0)
    (hb₂ : b₂.toNat = c.toNat % 64 + 0x80)
    : decodeFrom none (b₁ :: b₂ :: bs) = c :: decodeFrom none bs := by
  have ⟨p, hlead, htail, hp⟩ : ∃ p, lead b₁.toNat = some p ∧ _ := lead_of_two (by omega) (by omega)
  rw [decodeFrom_lead _ (by omega) hlead]
  apply decodeFrom_last bs htail <;> omega

theorem decodeFrom_of_three {b₁ b₂ b₃ : UInt8} {c : Char} (bs : List UInt8)
    (hlow : 0x800 ≤ c.toNat) (hhigh : c.toNat ≤ 0xFFFF)
    (hb₁ : b₁.toNat = c.toNat / 4096 % 16 + 0xE0) (hb₂ : b₂.toNat = c.toNat / 64 % 64 + 0x80)
    (hb₃ : b₃.toNat = c.toNat % 64 + 0x80)
    : decodeFrom none (b₁ :: b₂ :: b₃ :: bs) = c :: decodeFrom none bs := by
  have hvalid : c.toNat.isValidChar := c.valid
  simp only [Nat.isValidChar] at hvalid
  have ⟨p, hlead, hnext, hp, hlow', hhigh'⟩ : ∃ p, lead b₁.toNat = some p ∧ _ :=
    lead_of_three (by omega) (by omega)
  -- the range of the second byte is what keeps overlong forms and surrogates out
  have hlow₂ : p.tail.low ≤ b₂.toNat := by split at hlow' <;> omega
  have hhigh₂ : b₂.toNat ≤ p.tail.high := by split at hhigh' <;> omega
  have ⟨q, hstep, htail, hq⟩ := decodeFrom_next (b₃ :: bs) hlow₂ hhigh₂ hnext
  rw [decodeFrom_lead _ (by omega) hlead, hstep]
  apply decodeFrom_last bs htail <;> omega

theorem decodeFrom_of_four {b₁ b₂ b₃ b₄ : UInt8} {c : Char} (bs : List UInt8)
    (hlow : 0x10000 ≤ c.toNat) (hb₁ : b₁.toNat = c.toNat / 262144 % 8 + 0xF0)
    (hb₂ : b₂.toNat = c.toNat / 4096 % 64 + 0x80) (hb₃ : b₃.toNat = c.toNat / 64 % 64 + 0x80)
    (hb₄ : b₄.toNat = c.toNat % 64 + 0x80)
    : decodeFrom none (b₁ :: b₂ :: b₃ :: b₄ :: bs) = c :: decodeFrom none bs := by
  have hvalid : c.toNat.isValidChar := c.valid
  simp only [Nat.isValidChar] at hvalid
  have ⟨p, hlead, hnext, hp, hlow', hhigh'⟩ : ∃ p, lead b₁.toNat = some p ∧ _ :=
    lead_of_four (by omega) (by omega)
  have hlow₂ : p.tail.low ≤ b₂.toNat := by split at hlow' <;> omega
  have hhigh₂ : b₂.toNat ≤ p.tail.high := by split at hhigh' <;> omega
  have ⟨q, hstep, htail, hq⟩ := decodeFrom_next (b₃ :: b₄ :: bs) hlow₂ hhigh₂ hnext
  have hlow₃ : q.tail.low ≤ b₃.toNat := by
    rw [htail]
    simp only [Tail.low]
    omega
  have hhigh₃ : b₃.toNat ≤ q.tail.high := by
    rw [htail]
    simp only [Tail.high]
    omega
  have hnext₃ : q.tail.next = some .one := by
    rw [htail]
    rfl
  have ⟨r, hstep', htail', hr⟩ := decodeFrom_next (b₄ :: bs) hlow₃ hhigh₃ hnext₃
  rw [decodeFrom_lead _ (by omega) hlead, hstep, hstep']
  apply decodeFrom_last bs htail' <;> omega

theorem decodeFrom_utf8EncodeChar (c : Char) (bs : List UInt8)
    : decodeFrom none (String.utf8EncodeChar c ++ bs) = c :: decodeFrom none bs := by
  have hbyte (n : Nat) (h : n < 256) : (UInt8.ofNat n).toNat = n := UInt8.toNat_ofNat_of_lt h
  fun_cases String.utf8EncodeChar c with
  | case1 value hone =>
    have hvalue : value = c.toNat := rfl
    have hb := hbyte value (by omega)
    rw [List.singleton_append, decodeFrom, step, start_of_lt (by omega), hb, hvalue, c.ofNat_toNat]
    rfl
  | case2 value hone htwo =>
    have hvalue : value = c.toNat := rfl
    apply decodeFrom_of_two bs (by omega) htwo
    all_goals apply hbyte; omega
  | case3 value hone htwo hthree =>
    have hvalue : value = c.toNat := rfl
    apply decodeFrom_of_three bs (by omega) hthree
    all_goals apply hbyte; omega
  | case4 value hone htwo hthree =>
    have hvalue : value = c.toNat := rfl
    apply decodeFrom_of_four bs (by omega)
    all_goals apply hbyte; omega

theorem decodeLossy_encode_append (cs : List Char) (bs : List UInt8)
    : decodeLossy (encode cs ++ bs) = cs ++ decodeLossy bs := by
  unfold decodeLossy
  induction cs with
  | nil => rfl
  | cons c cs ih =>
    rw [encode, List.flatMap_cons, List.append_assoc, decodeFrom_utf8EncodeChar, ← encode, ih]
    rfl

theorem decodeLossy_encode (cs : List Char) : decodeLossy (encode cs) = cs := by
  have := decodeLossy_encode_append cs []
  simpa [decodeLossy, decodeFrom, finish] using this

example
    : decodeLossy [0x47, 0xF0, 0x9F, 0xC0, 0xED, 0xA0, 0xE2, 0x82, 0x0A, 0xC3]
        =
      ['G'] ++ List.replicate 5 replacement ++ ['\n', replacement] := by
  decide

end Utf8
