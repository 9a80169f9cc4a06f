import Oxiduct.Process.Impl

/-!
This module contains the services in the process: each one is in a run of its own machine, and its
environment is the process's clock and tokens, however late its socket was bound.
-/

namespace Process

def Spec.Serves : Spec → Service → Prop
  | .exporter _, .exporter _ => True
  | .proxy cfg, .tcp cfg' _ => cfg' = cfg ∧ cfg.protocol = .tcp
  | .proxy cfg, .udp cfg' _ => cfg' = cfg ∧ cfg.protocol = .udp
  | _, _ => False

theorem Spec.serves_start (spec : Spec) (w : World) : spec.Serves (spec.start w) := by
  cases spec with
  | exporter addr => trivial
  | proxy cfg =>
    simp only [start]
    cases hprotocol : cfg.protocol with
    | tcp => exact ⟨rfl, hprotocol⟩
    | udp => exact ⟨rfl, hprotocol⟩

theorem Spec.Serves.effect {spec : Spec} {service : Service} (h : spec.Serves service)
    (l : ServiceLabel)
    : spec.Serves (service.effect l) := by
  cases service <;> cases l <;> cases spec <;> exact h

theorem Spec.Serves.notify {spec : Spec} {service : Service} (h : spec.Serves service)
    (event : Event)
    : spec.Serves (service.notify event) := by
  cases service <;> cases event <;> cases spec <;> exact h

def Service.Sees (w : World) : Service → Prop
  | .tcp _ s =>
    s.now = w.now ∧ s.stopAccepting = w.stopAccepting ∧ s.forceShutdown = w.forceShutdown
  | .udp _ s =>
    s.now = w.now ∧ s.stopAccepting = w.stopAccepting ∧ s.forceShutdown = w.forceShutdown
  | .exporter s => s.now = w.now ∧ s.shutdown = w.stopAccepting

namespace Service

variable {w : World} {service : Service}

theorem sees_start (spec : Spec) (w : World) : (spec.start w).Sees w := by
  cases spec with
  | exporter addr => exact ⟨rfl, rfl⟩
  | proxy cfg =>
    simp only [Spec.start]
    split <;> exact ⟨rfl, rfl, rfl⟩

theorem Sees.effect (h : service.Sees w) {l : ServiceLabel} (hl : l.isEnv = false)
    : (service.effect l).Sees w := by
  cases service with
  | tcp cfg s =>
    cases l with
    | tcp l =>
      cases l with
      | env act => cases hl
      | listener act => cases act <;> exact h
      | task i l =>
        simp only [Service.effect, Tcp.serveGraceful, Tcp.Server.effect]
        split <;> exact h
    | _ => exact h
  | udp cfg s =>
    cases l with
    | udp l =>
      cases l with
      | env act =>
        cases act with
        | teardown => exact h
        | _ => cases hl
      | listener act => cases act <;> exact h
      | setup i task act => cases act <;> exact h
      | relay id side act => exact h
      | cleanup act =>
        exact ⟨(act.now_effect cfg s).trans h.1, (act.stopAccepting_effect cfg s).trans h.2.1,
          (act.forceShutdown_effect cfg s).trans h.2.2⟩
    | _ => exact h
  | exporter s =>
    cases l with
    | exporter l =>
      cases l with
      | env act => cases hl
      | listener act => cases act <;> exact h
      | handler i l rendered =>
        simp only [Service.effect, Metrics.serve, Metrics.Exporter.effect]
        split <;> exact h
    | _ => exact h

theorem Sees.notify (h : service.Sees w) (event : Event)
    : (service.notify event).Sees (event.effect w) := by
  cases service with
  | tcp cfg s =>
    cases event with
    | stop => exact ⟨h.1, rfl, h.2.2⟩
    | force => exact ⟨h.1, h.2.1, rfl⟩
    | advance now => exact ⟨rfl, h.2.1, h.2.2⟩
  | udp cfg s =>
    cases event with
    | stop => exact ⟨h.1, rfl, h.2.2⟩
    | force => exact ⟨h.1, h.2.1, rfl⟩
    | advance now => exact ⟨rfl, h.2.1, h.2.2⟩
  | exporter s =>
    cases event with
    | stop => exact ⟨h.1, rfl⟩
    | force => exact h
    | advance now => exact ⟨rfl, h.2⟩

def Reached (ok : Service → Prop) : Service → Prop
  | .tcp cfg s =>
    (Tcp.serveGraceful cfg).Reach (fun s _ => ok (.tcp cfg s)) (Tcp.listening cfg) s
  | .udp cfg s => (Udp.serveGraceful cfg).Reach (fun s _ => ok (.udp cfg s)) (Udp.start cfg) s
  | .exporter s => Metrics.serve.Reach (fun s _ => ok (.exporter s)) Metrics.listening s

variable {ok : Service → Prop}

theorem Reached.effect (h : service.Reached ok) {l : ServiceLabel} (hguard : service.guard l)
    (hok : ok service)
    : (service.effect l).Reached ok := by
  cases service with
  | tcp cfg s =>
    cases l with
    | tcp l => exact .step l h hguard hok
    | _ => exact hguard.elim
  | udp cfg s =>
    cases l with
    | udp l => exact .step l h hguard hok
    | _ => exact hguard.elim
  | exporter s =>
    cases l with
    | exporter l => exact .step l h hguard hok
    | _ => exact hguard.elim

end Service

def Event.guard (w : World) : Event → Prop
  | .advance now => w.now ≤ now ∧ now < u64Max
  | _ => True

namespace Service

variable {w : World} {service : Service} {ok : Service → Prop} {event : Event}

theorem guard_notice (hsees : service.Sees w) (hevent : event.guard w)
    : ∀ l ∈ service.notice event, service.guard l := by
  intro l hl
  have hadvance : ∀ {now t : Nat}, event = .advance now → t = w.now → t ≤ now ∧ now < u64Max := by
    rintro now t rfl rfl
    exact hevent
  cases service with
  | tcp cfg s =>
    cases event <;> rw [List.mem_singleton.mp hl]
    . trivial
    . trivial
    . exact hadvance rfl hsees.1
  | udp cfg s =>
    cases event <;> rw [List.mem_singleton.mp hl]
    . trivial
    . trivial
    . exact hadvance rfl hsees.1
  | exporter s =>
    cases event with
    | stop =>
      rw [List.mem_singleton.mp hl]
      trivial
    | force => cases hl
    | advance now =>
      rw [List.mem_singleton.mp hl]
      exact hadvance rfl hsees.1

theorem notify_eq (service : Service) (event : Event)
    : service.notify event = service
        ∨ ∃ l ∈ service.notice event, service.notify event = service.effect l := by
  cases service <;> cases event <;> simp [notify, notice]

theorem Reached.notify (h : service.Reached ok) (hsees : service.Sees w) (hevent : event.guard w)
    (hok : ok service)
    : (service.notify event).Reached ok := by
  rcases service.notify_eq event with heq | ⟨l, hmem, heq⟩
  . rw [heq]
    exact h
  . rw [heq]
    exact h.effect (guard_notice hsees hevent l hmem) hok

theorem notify_start (spec : Spec) (w : World) (event : Event)
    : (spec.start w).notify event = spec.start (event.effect w) := by
  cases spec with
  | exporter addr => cases event <;> rfl
  | proxy cfg =>
    simp only [Spec.start]
    split <;> cases event <;> rfl

theorem reached_start (hstart : ∀ spec w, ok (Spec.start w spec)) (spec : Spec) {w : World}
    (hnow : w.now < u64Max)
    : (spec.start w).Reached ok := by
  have hstep : ∀ (w : World) (event : Event), event.guard w → (spec.start w).Reached ok →
      (spec.start (event.effect w)).Reached ok := by
    intro w event hevent h
    rw [← notify_start]
    exact h.notify (sees_start spec w) hevent (hstart spec w)
  have hinit : (spec.start ⟨0, false, false⟩).Reached ok := by
    cases spec with
    | exporter addr => exact .refl
    | proxy cfg =>
      simp only [Spec.start]
      split <;> exact .refl
  rcases w with ⟨now, stop, force⟩
  have hclock := hstep ⟨0, false, false⟩ (.advance now) ⟨Nat.zero_le _, hnow⟩ hinit
  have hstop : (spec.start ⟨now, stop, false⟩).Reached ok := by
    cases stop with
    | false => exact hclock
    | true => exact hstep ⟨now, false, false⟩ .stop trivial hclock
  cases force with
  | false => exact hstop
  | true => exact hstep ⟨now, stop, false⟩ .force trivial hstop

end Service
end Process
