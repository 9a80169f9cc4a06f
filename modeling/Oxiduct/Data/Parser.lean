import Mathlib.Tactic.Common

/-!
This module contains parsers on streams of tokens and the notion that some tokens parse to a value
whatever follows them on the stream, together with its rules for each parser.
-/

abbrev Parser (τ α : Type) := StateT (List τ) Option α

namespace Parser

variable {τ α β : Type}

def vector (n : Nat) : Parser τ (Vector τ n) := fun input =>
  if h : n ≤ input.length then
    some (⟨(input.take n).toArray, by simp [h]⟩, input.drop n)
  else
    none

def token : Parser τ τ := do
  let v ← vector 1
  pure v[0]

def tag [DecidableEq τ] (xs : List τ) : Parser τ Unit := do
  let v ← vector xs.length
  guard (v.toList = xs)

def be16 : Parser UInt8 UInt16 := do
  let v ← vector 2
  pure (UInt16.ofNat (v[0].toNat * 256 + v[1].toNat))

def delimited (n : Nat) (p : Parser τ α) : Parser τ α := fun input =>
  if n ≤ input.length then
    (p.run (input.take n)).map fun ret => (ret.1, input.drop n)
  else
    none

def Parses (p : Parser τ α) (xs : List τ) (a : α) : Prop :=
  ∀ rest, p.run (xs ++ rest) = some (a, rest)

namespace Parses

theorem pure (a : α) : Parses (Pure.pure a : Parser τ α) [] a := by
  intro rest
  rfl

theorem bind {p : Parser τ α} {f : α → Parser τ β} {xs ys : List τ} {a : α} {b : β}
    (hp : Parses p xs a) (hf : Parses (f a) ys b)
    : Parses (p >>= f) (xs ++ ys) b := by
  intro rest
  rw [List.append_assoc, StateT.run_bind, hp]
  exact hf rest

theorem map {p : Parser τ α} (f : α → β) {xs : List τ} {a : α} (hp : Parses p xs a)
    : Parses (p >>= fun a => Pure.pure (f a)) xs (f a) := by
  have h := hp.bind (f := fun a => Pure.pure (f a)) (Parses.pure (f a))
  rwa [List.append_nil] at h

theorem vector {n : Nat} (v : Vector τ n) : Parses (Parser.vector n) v.toList v := by
  intro rest
  have hlength : n ≤ (v.toList ++ rest).length := by simp
  have htake : (v.toList ++ rest).take n = v.toList := by simp
  have hdrop : (v.toList ++ rest).drop n = rest := by simp
  simp only [StateT.run, Parser.vector, hlength, htake, hdrop, dif_pos]
  rfl

theorem token (x : τ) : Parses Parser.token [x] x :=
  (Parses.vector #v[x]).map (fun v => v[0])

theorem tag [DecidableEq τ] (xs : List τ) : Parses (Parser.tag xs) xs () := by
  have hread := Parses.vector (⟨xs.toArray, rfl⟩ : Vector τ xs.length)
  have hguard : Parses (guard ((⟨xs.toArray, rfl⟩ : Vector τ xs.length).toList = xs) : Parser τ Unit)
      [] () := by
    intro rest
    simp [Vector.toList, guard]
  have h := hread.bind (f := fun v => guard (v.toList = xs)) hguard
  rwa [List.append_nil] at h

theorem be16 (x : UInt16) : Parses Parser.be16 [(x >>> 8).toUInt8, x.toUInt8] x := by
  have hvalue : UInt16.ofNat ((x >>> 8).toUInt8.toNat * 256 + x.toUInt8.toNat) = x := by
    apply UInt16.toNat_inj.mp
    have := x.toNat_lt
    have hshift : (x >>> 8).toNat = x.toNat / 256 := by
      simp [UInt16.toNat_shiftRight, Nat.shiftRight_eq_div_pow]
    simp only [UInt16.toNat_ofNat', UInt16.toNat_toUInt8, hshift]
    omega
  have h := (Parses.vector #v[(x >>> 8).toUInt8, x.toUInt8]).map
    (fun v => UInt16.ofNat (v[0].toNat * 256 + v[1].toNat))
  change Parses Parser.be16 _ (UInt16.ofNat ((x >>> 8).toUInt8.toNat * 256 + x.toUInt8.toNat)) at h
  rwa [hvalue] at h

theorem delimited {p : Parser τ α} {xs : List τ} {a : α} (hp : Parses p xs a) (extra : List τ)
    : Parses (Parser.delimited (xs ++ extra).length p) (xs ++ extra) a := by
  intro rest
  have hlength : (xs ++ extra).length ≤ (xs ++ extra ++ rest).length := by simp
  have htake : (xs ++ extra ++ rest).take (xs ++ extra).length = xs ++ extra :=
    List.take_left
  have hdrop : (xs ++ extra ++ rest).drop (xs ++ extra).length = rest := List.drop_left
  unfold Parser.delimited
  simp only [StateT.run, if_pos hlength, htake, hdrop]
  have := hp extra
  simp only [StateT.run] at this
  rw [this]
  rfl

end Parses

def IsLocal (p : Parser τ α) : Prop :=
  ∀ xs a rest more, p.run xs = some (a, rest) → p.run (xs ++ more) = some (a, rest ++ more)

namespace IsLocal

theorem pure (a : α) : IsLocal (Pure.pure a : Parser τ α) := by
  intro xs b rest more h
  have h : some (a, xs) = some (b, rest) := h
  cases h
  rfl

theorem failure : IsLocal (failure : Parser τ α) := by
  intro xs a rest more h
  cases h

theorem bind {p : Parser τ α} {f : α → Parser τ β} (hp : IsLocal p) (hf : ∀ a, IsLocal (f a))
    : IsLocal (p >>= f) := by
  intro xs b rest more h
  rw [StateT.run_bind] at h ⊢
  cases hread : p.run xs with
  | none =>
    rw [hread] at h
    cases h
  | some ret =>
    rw [hread] at h
    rw [hp xs ret.1 ret.2 more hread]
    exact hf ret.1 ret.2 b rest more h

theorem vector (n : Nat) : IsLocal (Parser.vector n : Parser τ (Vector τ n)) := by
  intro xs v rest more h
  simp only [StateT.run, Parser.vector] at h ⊢
  split at h
  . next hle =>
    have hlonger : n ≤ (xs ++ more).length := by
      rw [List.length_append]
      omega
    rw [Option.some.injEq, Prod.mk.injEq] at h
    rw [dif_pos hlonger, ← h.1, ← h.2]
    simp only [List.take_append_of_le_length hle, List.drop_append_of_le_length hle]
  . cases h

theorem token : IsLocal (Parser.token : Parser τ τ) :=
  (vector 1).bind fun v => pure v[0]

theorem tag [DecidableEq τ] (xs : List τ) : IsLocal (Parser.tag xs) := by
  apply (vector xs.length).bind
  intro v
  unfold guard
  split
  . apply pure
  . apply failure

theorem be16 : IsLocal Parser.be16 :=
  (vector 2).bind fun _ => pure _

theorem delimited (n : Nat) (p : Parser τ α) : IsLocal (Parser.delimited n p) := by
  intro xs a rest more h
  simp only [StateT.run, Parser.delimited] at h ⊢
  split at h
  . next hle =>
    have hlonger : n ≤ (xs ++ more).length := by
      rw [List.length_append]
      omega
    rcases Option.map_eq_some_iff.mp h with ⟨ret, hread, hret⟩
    rw [Prod.mk.injEq] at hret
    rw [if_pos hlonger, List.take_append_of_le_length hle, hread, ← hret.1, ← hret.2,
      List.drop_append_of_le_length hle]
    rfl
  . cases h

theorem run_eq_none {p : Parser τ α} {xs ys : List τ} {a : α} (hp : IsLocal p) (h : Parses p xs a)
    (hbegins : ys <+: xs) (hne : ys ≠ xs)
    : p.run ys = none := by
  rcases hbegins with ⟨more, rfl⟩
  cases hread : p.run ys with
  | none => rfl
  | some ret =>
    have hwhole := hp ys ret.1 ret.2 more hread
    have hparses := h []
    rw [List.append_nil, hwhole, Option.some.injEq, Prod.mk.injEq] at hparses
    have hmore : more = [] := (List.append_eq_nil_iff.mp hparses.2).2
    rw [hmore, List.append_nil] at hne
    exact absurd rfl hne

end IsLocal
end Parser
