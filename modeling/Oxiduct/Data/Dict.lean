import Mathlib.Data.List.AList
import Mathlib.Data.Multiset.AddSub
import Mathlib.Data.Multiset.Filter

/-!
This module contains finite maps with a non-dependent value type, together with the multiset of
their values. Everything that inserts into, erases from or filters such a map is described by what
it does to the lookups and to that multiset.
-/

abbrev Dict (α : Type u) (β : Type v) := AList fun _ : α => β

namespace Dict

variable {α : Type u} {β : Type v} {γ : Type w}

def values (d : Dict α β) : Multiset β :=
  (d.entries.map Sigma.snd : List β)

def size (d : Dict α β) : Nat :=
  d.entries.length

def retain (p : β → Bool) (d : Dict α β) : Dict α β where
  entries := d.entries.filter fun e => p e.2
  nodupKeys := d.nodupKeys.sublist List.filter_sublist

@[simp]
theorem values_empty : values (∅ : Dict α β) = 0 := rfl

@[simp]
theorem card_values (d : Dict α β) : d.values.card = d.size := by
  simp [values, size]

theorem size_eq_zero {d : Dict α β} : d.size = 0 ↔ d = ∅ := by
  constructor
  . intro h
    apply AList.ext
    simpa [size] using h
  . rintro rfl
    rfl

instance (d : Dict α β) : Decidable (d = ∅) :=
  decidable_of_iff _ size_eq_zero

@[simp]
theorem values_retain (p : β → Bool) (d : Dict α β)
    : (d.retain p).values = d.values.filter (p · = true) := by
  simp [values, retain, List.filter_map, Function.comp_def]

variable [DecidableEq α]

theorem mem_values {d : Dict α β} {b : β} : b ∈ d.values ↔ ∃ a, d.lookup a = some b := by
  simp only [values, Multiset.mem_coe, List.mem_map]
  constructor
  . rintro ⟨⟨a, b'⟩, hmem, rfl⟩
    exact ⟨a, AList.mem_lookup_iff.mpr hmem⟩
  . rintro ⟨a, hlookup⟩
    exact ⟨⟨a, b⟩, AList.mem_lookup_iff.mp hlookup, rfl⟩

theorem mem_of_lookup {d : Dict α β} {a : α} {b : β} (h : d.lookup a = some b) : a ∈ d := by
  rw [← AList.lookup_isSome, h]
  rfl

omit [DecidableEq α] in
theorem eq_empty_iff {d : Dict α β} : d = ∅ ↔ ∀ a, a ∉ d := by
  constructor
  . rintro rfl a
    apply AList.notMem_empty a
  . intro h
    apply AList.ext
    rw [AList.empty_entries, List.eq_nil_iff_forall_not_mem]
    intro e hmem
    exact h e.1 (List.mem_map.mpr ⟨e, hmem, rfl⟩)

theorem entries_erase (d : Dict α β) (a : α) : (d.erase a).entries = d.entries.kerase a := rfl

theorem values_erase {d : Dict α β} {a : α} {b : β} (h : d.lookup a = some b)
    : d.values = b ::ₘ values (d.erase a) := by
  rcases List.exists_of_kerase (AList.mem_keys.mp (mem_of_lookup h)) with
    ⟨b', l₁, l₂, _, hentries, herase⟩
  have hb : b' = b := by
    have : (⟨a, b'⟩ : Sigma fun _ : α => β) ∈ d.entries := by simp [hentries]
    have := AList.mem_lookup_iff.mpr this
    rw [h] at this
    simpa using this.symm
  subst hb
  simp only [values, entries_erase, herase]
  rw [hentries]
  simp

theorem values_insert (d : Dict α β) (a : α) (b : β)
    : values (d.insert a b) = b ::ₘ values (d.erase a) := by
  simp [values, AList.entries_insert, entries_erase]

theorem erase_of_notMem {d : Dict α β} {a : α} (h : a ∉ d) : d.erase a = d := by
  apply AList.ext
  apply List.kerase_of_notMem_keys h

theorem size_insert_pos (d : Dict α β) (a : α) (b : β) : 0 < size (d.insert a b) := by
  rw [← card_values, values_insert]
  simp

theorem lookup_retain (p : β → Bool) (d : Dict α β) (a : α)
    : (d.retain p).lookup a = (d.lookup a).filter p := by
  apply Option.ext
  intro b
  rw [← Option.mem_def, AList.mem_lookup_iff, Option.filter_eq_some_iff, ← Option.mem_def,
    AList.mem_lookup_iff]
  simp [retain]

theorem mem_of_mem_retain {p : β → Bool} {d : Dict α β} {a : α} (h : a ∈ d.retain p) : a ∈ d := by
  rw [← AList.lookup_isSome, lookup_retain] at h
  rw [← AList.lookup_isSome]
  cases hlookup : d.lookup a with
  | none => simp [hlookup] at h
  | some => rfl

variable {ι : Type w} [DecidableEq ι]

theorem lookup_update_insert (d : ι → Dict α β) (i j : ι) (a a' : α) (b : β)
    : AList.lookup a' (Function.update d i ((d i).insert a b) j)
        = if i = j ∧ a = a' then some b else (d j).lookup a' := by
  by_cases hi : i = j
  . subst hi
    rw [Function.update_self]
    by_cases ha : a = a'
    . subst ha
      simp
    . rw [AList.lookup_insert_ne (Ne.symm ha), if_neg (by simp [ha])]
  . rw [Function.update_of_ne (Ne.symm hi), if_neg (by simp [hi])]

theorem mem_update_insert {d : ι → Dict α β} {i j : ι} {a a' : α} {b : β}
    (h : a' ∈ Function.update d i ((d i).insert a b) j)
    : (j = i ∧ a' = a) ∨ a' ∈ d j := by
  by_cases hi : j = i
  . subst hi
    rw [Function.update_self, AList.mem_insert] at h
    exact h.imp_left (And.intro rfl)
  . rw [Function.update_of_ne hi] at h
    exact .inr h

end Dict
