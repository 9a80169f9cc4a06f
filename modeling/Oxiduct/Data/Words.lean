import Mathlib.Data.List.Basic
import Mathlib.Tactic.Common

/-!
This module contains the text functions of `std` that a text is taken apart with: `lines` over
`split_inclusive`, and `split_whitespace` over the Unicode property `White_Space`.
-/

namespace Text

variable {α : Type u} [DecidableEq α]

def splitInclusive (sep : α) : List α → List (List α)
  | [] => []
  | x :: xs =>
    if x = sep then
      [x] :: splitInclusive sep xs
    else
      match splitInclusive sep xs with
      | [] => [[x]]
      | piece :: pieces => (x :: piece) :: pieces

def stripSuffix (suffix : α) (xs : List α) : Option (List α) :=
  if xs.getLast? = some suffix then
    some xs.dropLast
  else
    none

def stripLineEnd (piece : List Char) : List Char :=
  match stripSuffix '\n' piece with
  | none => piece
  | some line =>
    -- a carriage return belongs to a line end only in front of its newline
    match stripSuffix '\r' line with
    | none => line
    | some line => line

def lines (s : List Char) : List (List Char) :=
  (splitInclusive '\n' s).map stripLineEnd

def isWhitespace (c : Char) : Bool :=
  0x9 ≤ c.toNat && c.toNat ≤ 0xD
    || c.toNat == 0x20
    || c.toNat == 0x85
    || c.toNat == 0xA0
    || c.toNat == 0x1680
    || 0x2000 ≤ c.toNat && c.toNat ≤ 0x200A
    || c.toNat == 0x2028
    || c.toNat == 0x2029
    || c.toNat == 0x202F
    || c.toNat == 0x205F
    || c.toNat == 0x3000

def splitWhitespace (s : List Char) : List (List Char) :=
  (s.splitOnP isWhitespace).filter (· ≠ [])

theorem splitInclusive_of_not_mem {sep : α} {xs : List α} (hsep : sep ∉ xs) (hne : xs ≠ [])
    : splitInclusive sep xs = [xs] := by
  induction xs with
  | nil => contradiction
  | cons x xs ih =>
    simp only [List.mem_cons, not_or] at hsep
    cases xs with
    | nil => simp [splitInclusive, Ne.symm hsep.1]
    | cons y xs =>
      have := ih hsep.2 (List.cons_ne_nil y xs)
      rw [splitInclusive, if_neg (Ne.symm hsep.1), this]

theorem splitInclusive_append_cons {sep : α} {xs : List α} (ys : List α) (hsep : sep ∉ xs)
    : splitInclusive sep (xs ++ sep :: ys) = (xs ++ [sep]) :: splitInclusive sep ys := by
  induction xs with
  | nil => simp [splitInclusive]
  | cons x xs ih =>
    simp only [List.mem_cons, not_or] at hsep
    simp only [List.cons_append, splitInclusive, if_neg (Ne.symm hsep.1), ih hsep.2]

theorem stripSuffix_append_singleton (suffix : α) (xs : List α)
    : stripSuffix suffix (xs ++ [suffix]) = some xs := by
  simp [stripSuffix]

theorem eq_of_stripSuffix_eq_some {suffix : α} {xs ys : List α}
    (h : stripSuffix suffix xs = some ys)
    : xs = ys ++ [suffix] := by
  unfold stripSuffix at h
  split at h
  . next hlast =>
    rw [Option.some.injEq] at h
    rw [← h]
    exact (List.dropLast_append_getLast? suffix hlast).symm
  . simp at h

theorem stripSuffix_of_not_mem {suffix : α} {xs : List α} (h : suffix ∉ xs)
    : stripSuffix suffix xs = none := by
  unfold stripSuffix
  split
  . next hlast =>
    have := List.mem_of_getLast? hlast
    contradiction
  . rfl

theorem splitWhitespace_append_singleton {c : Char} (xs : List Char) (hc : isWhitespace c)
    : splitWhitespace (xs ++ [c]) = splitWhitespace xs := by
  unfold splitWhitespace
  rw [List.splitOnP_append_cons xs [] hc]
  simp

theorem lines_of_not_mem {xs : List Char} (h : '\n' ∉ xs) (hne : xs ≠ []) : lines xs = [xs] := by
  simp [lines, splitInclusive_of_not_mem h hne, stripLineEnd, stripSuffix_of_not_mem h]

theorem splitWhitespace_stripLineEnd (xs : List Char)
    : splitWhitespace (stripLineEnd (xs ++ ['\n'])) = splitWhitespace xs := by
  unfold stripLineEnd
  rw [stripSuffix_append_singleton]
  cases h : stripSuffix '\r' xs with
  | none => simp [h]
  | some line =>
    simp only [h]
    rw [eq_of_stripSuffix_eq_some h, splitWhitespace_append_singleton line (by decide)]

example : lines "one two\r\n\r\nthree\r".toList = ["one two".toList, [], "three\r".toList] := by
  decide

end Text
