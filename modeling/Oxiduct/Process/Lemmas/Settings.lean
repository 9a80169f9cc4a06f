import Oxiduct.Process.Impl

/-!
This module contains what `main` may rely on when it spawns its tasks: the settings it resolves name at
least one proxy, and no two of one name.
-/

namespace Process

variable {args : Cli} {settings : Settings}

theorem Config.proxies_of_load {file : TomlFile} {loaded : LoadedConfig}
    (h : Config.load file = .ok loaded)
    : loaded.proxies = file.resolve ∧ file.proxies ≠ [] := by
  unfold Config.load at h
  simp only [bind_eq_ok_iff, Unique.exists_iff, PUnit.default_eq_unit, bailIf_eq_ok_iff] at h
  rcases h with ⟨hne, _, hloaded⟩
  rw [Except.ok.injEq] at hloaded
  rw [← hloaded]
  exact ⟨rfl, hne⟩

theorem resolve_cases (h : resolve args = .ok settings)
    : (∃ cfg, ProxyConfig.fromCli args.toArgs = .ok cfg ∧ settings.proxies = [cfg])
        ∨ ∃ file loaded, Config.load file = .ok loaded ∧ settings.proxies = loaded.proxies := by
  unfold resolve at h
  cases hconfig : args.config with
  | none =>
    simp only [hconfig, bind_eq_ok_iff] at h
    rcases h with ⟨cfg, hcfg, hsettings⟩
    rw [Except.ok.injEq] at hsettings
    exact .inl ⟨cfg, hcfg, by rw [← hsettings]⟩
  | some file =>
    simp only [hconfig, bind_eq_ok_iff] at h
    rcases h with ⟨loaded, hload, hsettings⟩
    rw [Except.ok.injEq] at hsettings
    exact .inr ⟨file, loaded, hload, by rw [← hsettings]⟩

theorem proxies_ne_nil (h : resolve args = .ok settings) : settings.proxies ≠ [] := by
  rcases resolve_cases h with ⟨cfg, _, hproxies⟩ | ⟨file, loaded, hload, hproxies⟩
  . simp [hproxies]
  . have hloaded := Config.proxies_of_load hload
    simp [hproxies, hloaded, TomlFile.resolve]

theorem names_nodup (h : resolve args = .ok settings)
    : (settings.proxies.map ProxyConfig.name).Nodup := by
  rcases resolve_cases h with ⟨cfg, _, hproxies⟩ | ⟨file, loaded, hload, hproxies⟩
  . simp [hproxies]
  . rw [hproxies]
    exact (Config.load_eq_ok hload).2.1

theorem resolve_webArgs : resolve webArgs = .ok webSettings := rfl

end Process
