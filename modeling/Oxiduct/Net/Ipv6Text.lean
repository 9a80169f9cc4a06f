import Oxiduct.Data.Text

/-!
This module contains the text form of IPv6 addresses, as `Ipv6Addr::from_str` of `std` reads it.
-/

namespace Ipv6Text

def isGroup (g : List Char) : Bool :=
  1 ≤ g.length && g.length ≤ 4 && g.all Char.isHexDigit

def isOctet (o : List Char) : Bool :=
  1 ≤ o.length && o.length ≤ 3 && o.all Char.isDigit && (o.length = 1 || o.head? ≠ some '0')
    && Nat.ofDigitChars 10 o 0 ≤ 255

def isIpv4 (cs : List Char) : Bool :=
  (cs.splitOn '.').length = 4 && (cs.splitOn '.').all isOctet

/--
The number of groups that the parts of a text stand for. An IPv4 address in last place stands for two.
-/
def groupCount : List (List Char) → Option Nat
  | [] => some 0
  | [g] => if isGroup g then some 1 else if isIpv4 g then some 2 else none
  | g :: gs => if isGroup g then (groupCount gs).map (· + 1) else none

def groups (cs : List Char) : Option Nat :=
  if cs = [] then some 0 else groupCount (cs.splitOn ':')

def headGroups (cs : List Char) : Option Nat :=
  if cs = [] then
    some 0
  else if (cs.splitOn ':').all isGroup then
    some (cs.splitOn ':').length
  else
    none

def isCompressedAt (cs : List Char) (i : Nat) : Bool :=
  cs[i]? = some ':' && cs[i + 1]? = some ':' &&
    match headGroups (cs.take i), groups (cs.drop (i + 2)) with
    | some h, some t => h + t ≤ 7
    | _, _ => false

def isIpv6 (cs : List Char) : Bool :=
  groups cs = some 8 || (List.range cs.length).any (isCompressedAt cs)

theorem mem_of_mem_intercalate {α : Type u} {sep c : α} {parts : List (List α)}
    (h : c ∈ [sep].intercalate parts)
    : c = sep ∨ ∃ part ∈ parts, c ∈ part := by
  induction parts with
  | nil => simp at h
  | cons part parts ih =>
    cases parts with
    | nil => simp_all
    | cons part' parts =>
      rw [List.intercalate_cons_cons] at h
      grind

theorem mem_of_mem_splitOn {α : Type u} [BEq α] [LawfulBEq α] (sep : α) {c : α} {cs : List α}
    (h : c ∈ cs)
    : c = sep ∨ ∃ part ∈ cs.splitOn sep, c ∈ part := by
  apply mem_of_mem_intercalate
  rwa [List.intercalate_splitOn]

theorem length_splitOn {α : Type u} [BEq α] [LawfulBEq α] (sep : α) (cs : List α)
    : (cs.splitOn sep).length = cs.count sep + 1 := by
  induction cs with
  | nil => simp
  | cons c cs ih =>
    rw [List.splitOn_cons_eq_if_modifyHead, List.count_cons]
    split <;> simp [ih]

theorem groupCount_le {parts : List (List Char)} {n : Nat} (h : groupCount parts = some n)
    : n ≤ parts.length + 1 := by
  induction parts generalizing n with
  | nil =>
    simp [groupCount] at h
    omega
  | cons g gs ih =>
    unfold groupCount at h
    split at h
    . next hparts => simp at hparts
    . grind
    . next hparts =>
      cases hparts
      split at h
      . rcases Option.map_eq_some_iff.mp h with ⟨m, hm, rfl⟩
        have := ih hm
        simp
        omega
      . simp at h

theorem isGroup_or_isIpv4_of_groupCount {parts : List (List Char)} {n : Nat}
    (h : groupCount parts = some n)
    : ∀ part ∈ parts, isGroup part ∨ isIpv4 part := by
  induction parts generalizing n with
  | nil => simp
  | cons g gs ih =>
    unfold groupCount at h
    split at h
    . next hparts => simp at hparts
    . grind
    . next hparts =>
      cases hparts
      split at h
      . next hg =>
        rcases Option.map_eq_some_iff.mp h with ⟨m, hm, rfl⟩
        have := ih hm
        simp only [List.mem_cons, forall_eq_or_imp]
        exact ⟨.inl hg, this⟩
      . simp at h

def isAddressChar (c : Char) : Bool :=
  c.isHexDigit || c = '.' || c = ':'

theorem isAddressChar_of_isGroup {g : List Char} (h : isGroup g) : ∀ c ∈ g, isAddressChar c := by
  intro c hc
  simp only [isGroup, Bool.and_eq_true, List.all_eq_true] at h
  simp [isAddressChar, h.2 c hc]

theorem isAddressChar_of_isIpv4 {cs : List Char} (h : isIpv4 cs) : ∀ c ∈ cs, isAddressChar c := by
  intro c hc
  simp only [isIpv4, Bool.and_eq_true, List.all_eq_true] at h
  rcases mem_of_mem_splitOn '.' hc with rfl | ⟨octet, hoctet, hc⟩
  . rfl
  . have := h.2 octet hoctet
    simp only [isOctet, Bool.and_eq_true, List.all_eq_true] at this
    have hdigit := this.1.1.2 c hc
    simp [isAddressChar, Char.isHexDigit, hdigit]

theorem isAddressChar_of_parts {cs : List Char}
    (h : ∀ part ∈ cs.splitOn ':', isGroup part ∨ isIpv4 part)
    : ∀ c ∈ cs, isAddressChar c := by
  intro c hc
  rcases mem_of_mem_splitOn ':' hc with rfl | ⟨part, hpart, hc⟩
  . rfl
  . rcases h part hpart with hgroup | hipv4
    . apply isAddressChar_of_isGroup hgroup c hc
    . apply isAddressChar_of_isIpv4 hipv4 c hc

theorem isAddressChar_of_groups {cs : List Char} {n : Nat} (h : groups cs = some n)
    : ∀ c ∈ cs, isAddressChar c := by
  unfold groups at h
  split at h
  . simp [*]
  . apply isAddressChar_of_parts
    apply isGroup_or_isIpv4_of_groupCount h

theorem isAddressChar_of_headGroups {cs : List Char} {n : Nat} (h : headGroups cs = some n)
    : ∀ c ∈ cs, isAddressChar c := by
  unfold headGroups at h
  split at h
  . simp [*]
  . split at h
    . next hall =>
      apply isAddressChar_of_parts
      intro part hpart
      exact .inl (List.all_eq_true.mp hall part hpart)
    . simp at h

theorem split_of_isCompressedAt {cs : List Char} {i : Nat} (h : isCompressedAt cs i)
    : cs = cs.take i ++ ':' :: ':' :: cs.drop (i + 2)
        ∧ ∃ h t, headGroups (cs.take i) = some h ∧ groups (cs.drop (i + 2)) = some t := by
  simp only [isCompressedAt, Bool.and_eq_true, decide_eq_true_eq] at h
  rcases h with ⟨⟨hfst, hsnd⟩, hgroups⟩
  constructor
  . rcases List.getElem?_eq_some_iff.mp hfst with ⟨hi, hfst⟩
    rcases List.getElem?_eq_some_iff.mp hsnd with ⟨hi', hsnd⟩
    conv_lhs => rw [← List.take_append_drop i cs]
    rw [List.drop_eq_getElem_cons hi, List.drop_eq_getElem_cons hi', hfst, hsnd]
  . split at hgroups
    . next h t hhead htail => exact ⟨h, t, hhead, htail⟩
    . simp at hgroups

theorem isAddressChar_of_isIpv6 {cs : List Char} (h : isIpv6 cs) : ∀ c ∈ cs, isAddressChar c := by
  simp only [isIpv6, Bool.or_eq_true, decide_eq_true_eq, List.any_eq_true] at h
  rcases h with hgroups | ⟨i, _, hcompressed⟩
  . apply isAddressChar_of_groups hgroups
  . rcases split_of_isCompressedAt hcompressed with ⟨hsplit, n, m, hhead, htail⟩
    have hpre := isAddressChar_of_headGroups hhead
    have hpost := isAddressChar_of_groups htail
    rw [hsplit]
    simp only [List.mem_append, List.mem_cons]
    rintro c (hc | rfl | rfl | hc)
    . exact hpre c hc
    . rfl
    . rfl
    . exact hpost c hc

theorem two_le_count_of_isIpv6 {cs : List Char} (h : isIpv6 cs) : 2 ≤ cs.count ':' := by
  simp only [isIpv6, Bool.or_eq_true, decide_eq_true_eq, List.any_eq_true] at h
  rcases h with hgroups | ⟨i, _, hcompressed⟩
  . unfold groups at hgroups
    split at hgroups
    . simp at hgroups
    . have := groupCount_le hgroups
      rw [length_splitOn] at this
      omega
  . rw [(split_of_isCompressedAt hcompressed).1]
    simp
    omega

example : isIpv6 "::ffff:192.0.2.1".toList := by decide

example : ¬ isIpv6 "1:2:3:4:5:6:7::8".toList := by decide

end Ipv6Text
