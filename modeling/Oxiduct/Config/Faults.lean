import Mathlib.Data.List.Nodup
import Oxiduct.Config.Load

/-!
This module contains which config files `load` refuses, and with what: its error is about the first
entry that cannot stand beside the entries in front of it.
-/

namespace Config

variable {seen ps : List ProxyConfig} {p : ProxyConfig} {chain : ErrorChain}

def bindKey (p : ProxyConfig) : Protocol × String :=
  (p.protocol, p.listen)

inductive Fault (seen : List ProxyConfig) (p : ProxyConfig) : ErrorChain → Prop where
  -- an entry that is invalid is not compared with those before it
  | invalid {chain : ErrorChain} (herror : p.validate = .error chain) : Fault seen p chain
  | name (hvalid : p.validate = .ok ()) (hname : ∃ q ∈ seen, q.name = p.name)
    : Fault seen p ["duplicate proxy name \"" ++ p.name ++ "\""]
  | listen (hvalid : p.validate = .ok ()) (hname : ∀ q ∈ seen, q.name ≠ p.name)
    (hlisten : ∃ q ∈ seen, bindKey q = bindKey p)
    : Fault seen p ["duplicate listen address \"" ++ p.listen ++ "\""]

structure Fits (seen : List ProxyConfig) (p : ProxyConfig) : Prop where
  valid : p.validate = .ok ()
  name : ∀ q ∈ seen, q.name ≠ p.name
  listen : ∀ q ∈ seen, bindKey q ≠ bindKey p

def Clean : List ProxyConfig → Prop
  | [] => True
  | p :: seen => Fits seen p ∧ Clean seen

theorem Clean.of_append {before : List ProxyConfig} (h : Clean (before ++ seen)) : Clean seen := by
  induction before with
  | nil => exact h
  | cons p before ih => exact ih h.2

theorem clean_iff
    : Clean ps
        ↔
      (∀ p ∈ ps, p.validate = .ok ()) ∧ (ps.map ProxyConfig.name).Nodup ∧ (ps.map bindKey).Nodup := by
  induction ps with
  | nil => simp [Clean]
  | cons p ps ih =>
    simp only [Clean, ih, List.forall_mem_cons, List.map_cons, List.nodup_cons, List.mem_map,
      not_exists, not_and]
    constructor
    . rintro ⟨⟨hvalid, hname, hlisten⟩, hrest, hnames, hlistens⟩
      exact ⟨⟨hvalid, hrest⟩, ⟨hname, hnames⟩, hlisten, hlistens⟩
    . rintro ⟨⟨hvalid, hrest⟩, ⟨hname, hnames⟩, hlisten, hlistens⟩
      exact ⟨⟨hvalid, hname, hlisten⟩, hrest, hnames, hlistens⟩

theorem checkProxies_cons_eq_error_iff
    : checkProxies (seen.map ProxyConfig.name) (seen.map bindKey) (p :: ps) = .error chain
        ↔
      Fault seen p chain
        ∨ (Fits seen p
          ∧ checkProxies ((p :: seen).map ProxyConfig.name) ((p :: seen).map bindKey) ps
            = .error chain) := by
  rw [checkProxies]
  simp only [bind_eq_error_iff, bailIf_eq_error_iff, bailIf_eq_ok_iff, Unique.exists_iff,
    PUnit.default_eq_unit, List.mem_map, not_exists, not_and]
  constructor
  . rintro (herror | ⟨hvalid, ⟨hname, rfl⟩ | ⟨hname, ⟨hlisten, rfl⟩ | ⟨hlisten, hrest⟩⟩⟩)
    . exact .inl (.invalid herror)
    . exact .inl (.name hvalid hname)
    . exact .inl (.listen hvalid hname hlisten)
    . exact .inr ⟨⟨hvalid, hname, hlisten⟩, hrest⟩
  . rintro ((herror | ⟨hvalid, hname⟩ | ⟨hvalid, hname, hlisten⟩) | ⟨⟨hvalid, hname, hlisten⟩, hrest⟩)
    . exact .inl herror
    . exact .inr ⟨hvalid, .inl ⟨hname, rfl⟩⟩
    . exact .inr ⟨hvalid, .inr ⟨hname, .inl ⟨hlisten, rfl⟩⟩⟩
    . exact .inr ⟨hvalid, .inr ⟨hname, .inr ⟨hlisten, hrest⟩⟩⟩

theorem checkProxies_eq_error_iff (hseen : Clean seen)
    : checkProxies (seen.map ProxyConfig.name) (seen.map bindKey) ps = .error chain
        ↔
      ∃ before p after, ps = before ++ p :: after ∧ Clean (before.reverse ++ seen)
        ∧ Fault (before.reverse ++ seen) p chain := by
  induction ps generalizing seen with
  | nil => simp [checkProxies]
  | cons p ps ih =>
    rw [checkProxies_cons_eq_error_iff]
    constructor
    . rintro (hfault | ⟨hfits, hrest⟩)
      . exact ⟨[], p, ps, rfl, hseen, hfault⟩
      . have hfirst : Clean (p :: seen) := ⟨hfits, hseen⟩
        rcases (ih hfirst).mp hrest with ⟨before, q, after, rfl, hclean, hfault⟩
        refine ⟨p :: before, q, after, rfl, ?_, ?_⟩
        . rwa [List.reverse_cons, List.append_assoc]
        . rwa [List.reverse_cons, List.append_assoc]
    . rintro ⟨before, q, after, hps, hclean, hfault⟩
      cases before with
      | nil =>
        rw [List.nil_append, List.cons.injEq] at hps
        rw [hps.1]
        exact .inl hfault
      | cons p' before =>
        rw [List.cons_append, List.cons.injEq] at hps
        rw [← hps.1, List.reverse_cons, List.append_assoc] at hclean hfault
        have hfirst : Clean (p :: seen) := Clean.of_append hclean
        exact .inr ⟨hfirst.1, (ih hfirst).mpr ⟨before, q, after, hps.2, hclean, hfault⟩⟩

theorem load_first_fault (file : TomlFile)
    : (load file = .ok ⟨file.resolve, file.metricsListen, file.shutdownGrace⟩
          ↔ file.proxies ≠ [] ∧ Clean file.resolve.reverse)
        ∧ ∀ chain, load file = .error chain
          ↔ (file.proxies = [] ∧ chain = ["config file defines no [[proxy]] entries"])
            ∨ ∃ before p after, file.resolve = before ++ p :: after ∧ Clean before.reverse
              ∧ Fault before.reverse p chain := by
  constructor
  . unfold load
    simp only [bind_eq_ok_iff, bailIf_eq_ok_iff, Unique.exists_iff, PUnit.default_eq_unit,
      checkProxies_eq_ok_iff, and_true, clean_iff, List.mem_reverse, List.map_reverse,
      List.nodup_reverse, List.not_mem_nil, not_false_eq_true, implies_true, true_and, ne_eq]
    rfl
  . intro chain
    have hcheck := @checkProxies_eq_error_iff [] file.resolve chain trivial
    simp only [List.map_nil, List.append_nil] at hcheck
    have hne : (∃ before p after, file.resolve = before ++ p :: after ∧ Clean before.reverse
        ∧ Fault before.reverse p chain) → file.proxies ≠ [] := by
      rintro ⟨before, p, after, hresolve, _⟩ hnil
      simp [TomlFile.resolve, hnil] at hresolve
    unfold load
    simp only [bind_eq_error_iff, bailIf_eq_error_iff, bailIf_eq_ok_iff, Unique.exists_iff,
      PUnit.default_eq_unit, reduceCtorEq, and_false, or_false, hcheck]
    constructor
    . rintro (hempty | ⟨_, hfault⟩)
      . exact .inl hempty
      . exact .inr hfault
    . rintro (hempty | hfault)
      . exact .inl hempty
      . exact .inr ⟨hne hfault, hfault⟩

end Config
