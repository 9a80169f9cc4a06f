import Oxiduct.Data.ListSum
import Oxiduct.Machine.Progress
import Oxiduct.Metrics.Lemmas
import Oxiduct.Metrics.Server

/-!
This module contains the results about runs of `metrics::serve`: its permits, what its handlers
answer, and how it gets its permits back.
-/

namespace Metrics

open Machine

theorem effect_of_ne_parse {l : Label} (hl : l ≠ .parse) (rendered rendered' : Bytes) (s : State)
    : effect rendered s l = effect rendered' s l := by
  cases l with
  | parse => exact absurd rfl hl
  | _ => rfl

theorem response_effect_of_ne_parse {l : Label} (hl : l ≠ .parse) (rendered : Bytes) (s : State)
    : (effect rendered s l).response = s.response := by
  cases l with
  | parse => exact absurd rfl hl
  | read data =>
    simp only [effect]
    split <;> rfl
  | wrote =>
    simp only [effect]
    split <;> rfl
  | _ => rfl

theorem ended_eq_false {s : State} {l : Label} (hguard : guard s l) : s.pc.ended = false := by
  have hpc : ∀ {pc}, s.pc = pc → pc.ended = false → s.pc.ended = false := by
    rintro pc rfl h
    exact h
  cases l with
  | read data => exact hpc hguard.1 rfl
  | readErr => exact hpc hguard rfl
  | parse => exact hpc hguard rfl
  | accept k => cases hguard.1 with
    | inl h => exact hpc h rfl
    | inr h => exact hpc h rfl
  | wrote => cases hguard.1 with
    | inl h => exact hpc h rfl
    | inr h => exact hpc h rfl
  | writeErr =>
    rcases hguard with ⟨h | h, _⟩ | h <;> exact hpc h rfl
  | flushed => exact hpc hguard rfl
  | shutdown => exact hpc hguard rfl
  | drain data => exact hpc hguard.1 rfl
  | drainErr => exact hpc hguard rfl
  | drainTimeout => exact hpc hguard rfl
  | timeout => exact hguard

structure HandlerInv (now : Nat) (h : Handler) : Prop where
  since : h.since ≤ now
  snapshot : h.snapshot ≠ none ↔ h.state.response ≠ none
  answer : ∀ rendered, Inv (h.snapshot.getD rendered) h.sent h.state

theorem HandlerInv.advance {now now' : Nat} {h : Handler} (hinv : HandlerInv now h)
    (hle : now ≤ now')
    : HandlerInv now' h :=
  { hinv with
    since := Nat.le_trans hinv.since hle
  }

theorem HandlerInv.effect {now : Nat} {h : Handler} {l : Label} (hinv : HandlerInv now h)
    (hguard : h.guard now l) (rendered : Bytes)
    : HandlerInv now (h.effect rendered now l) := by
  by_cases hl : l = .parse
  . subst hl
    have hpc : h.state.pc = .parsing := hguard.1
    have hnone : h.snapshot = none := by
      by_contra hsome
      have hwire := (hinv.answer rendered).wire
      simp only [Wire, hpc] at hwire
      exact hinv.snapshot.mp hsome hwire.1
    have hanswer := hinv.answer rendered
    rw [hnone] at hanswer
    constructor
    . exact hinv.since
    . simp only [Handler.effect, Metrics.effect]
      rw [if_pos hanswer.n_le]
      simp
    . intro rendered'
      exact inv_step hanswer hguard.1
  . constructor
    . exact hinv.since
    . simp only [Handler.effect, if_neg hl, response_effect_of_ne_parse hl]
      exact hinv.snapshot
    . intro rendered'
      simp only [Handler.effect, if_neg hl]
      rw [effect_of_ne_parse hl rendered (h.snapshot.getD rendered')]
      exact inv_step (hinv.answer rendered') hguard.1

def Exporter.inflight (s : Exporter) : Nat :=
  s.handlers.countP fun h => !h.ended

structure ExporterInv (s : Exporter) : Prop where
  permits : s.permits + s.inflight = maxInflight
  handlers : ∀ h ∈ s.handlers, HandlerInv s.now h

variable {s : Exporter} {l : ExporterLabel}

theorem exporterInv_listening : ExporterInv listening where
  permits := rfl
  handlers := by simp [listening]

theorem ExporterInv.moveHandler {h : Handler} {i : Nat} (hinv : ExporterInv s)
    (hi : s.handlers[i]? = some h) (hended : h.ended = false) {h' : Handler}
    (hh' : HandlerInv s.now h')
    : ExporterInv (s.moveHandler i h h') where
  permits := by
    rcases List.getElem?_eq_some_iff.mp hi with ⟨hlt, hget⟩
    have hpos : 0 < s.inflight :=
      List.countP_pos_iff.mpr ⟨h, List.mem_of_getElem? hi, by simp [hended]⟩
    have hset : (s.handlers.set i h').countP (fun h => !h.ended)
        = s.inflight - 1 + if !h'.ended then 1 else 0 := by
      rw [List.countP_set hlt, hget, hended]
      rfl
    have hpermits := hinv.permits
    simp only [Exporter.inflight, Exporter.moveHandler, hset, hended] at hpermits hpos ⊢
    cases h'.ended <;> simp <;> omega
  handlers := by
    intro h'' hmem
    rcases List.mem_or_eq_of_mem_set hmem with hmem | rfl
    . exact hinv.handlers h'' hmem
    . exact hh'

theorem ExporterInv.effect (hinv : ExporterInv s) (hguard : s.guard l)
    : ExporterInv (s.effect l) := by
  cases l with
  | env act =>
    cases act with
    | shutdown => exact ⟨hinv.permits, hinv.handlers⟩
    | advance now => exact ⟨hinv.permits, fun h hmem => (hinv.handlers h hmem).advance hguard.1⟩
  | listener act =>
    cases act with
    | accept sent =>
      constructor
      . have hpos := hguard.2
        have hpermits := hinv.permits
        simp only [Exporter.inflight, Exporter.effect, ListenerAct.effect, List.countP_append,
          List.countP_singleton] at hpermits ⊢
        have hended : Handler.ended ⟨sent, accepted sent, s.now, s.now, none⟩ = false := rfl
        rw [hended]
        simp only [Bool.not_false, if_true]
        omega
      . intro h hmem
        rcases List.mem_append.mp hmem with hmem | hmem
        . exact hinv.handlers h hmem
        . rw [List.mem_singleton.mp hmem]
          exact ⟨Nat.le_refl _, by simp [accepted], fun _ => inv_accepted⟩
    | _ => exact ⟨hinv.permits, hinv.handlers⟩
  | handler i l rendered =>
    rcases hguard with ⟨h, hi, hguard⟩
    simp only [Exporter.effect, hi]
    apply hinv.moveHandler hi (ended_eq_false hguard.1)
    exact (hinv.handlers h (List.mem_of_getElem? hi)).effect hguard rendered

theorem exporterInv_of_reach (hreach : serve.Reachable listening s) : ExporterInv s :=
  hreach.invariant exporterInv_listening fun _ _ h hguard _ => h.effect hguard

/--
What a step of which the handler takes part as `own` does to it. Only an accept brings a handler into
being.
-/
inductive Handler.Change (own : Label → Bytes → Prop) : Option Handler → Option Handler → Prop where
  | kept (h : Option Handler) : Change own h h
  | accepted (sent : Bytes) (now : Nat)
    : Change own none (some ⟨sent, accepted sent, now, now, none⟩)
  | moved {h : Handler} {l : Label} {rendered : Bytes} (now : Nat) (hown : own l rendered)
    (hguard : h.guard now l)
    : Change own (some h) (some (h.effect rendered now l))

theorem Handler.Change.mono {own own' : Label → Bytes → Prop} {h h' : Option Handler}
    (hchange : Change own h h') (himp : ∀ l rendered, own l rendered → own' l rendered)
    : Change own' h h' := by
  cases hchange with
  | kept => exact .kept h
  | accepted sent now => exact .accepted sent now
  | moved now hown hguard => exact .moved now (himp _ _ hown) hguard

theorem handler_effect (hguard : s.guard l) (i : Nat)
    : Handler.Change (fun l' rendered => l = .handler i l' rendered) s.handlers[i]?
        (s.effect l).handlers[i]? := by
  cases l with
  | env act => cases act <;> exact .kept _
  | listener act =>
    cases act with
    | accept sent =>
      simp only [Exporter.effect, ListenerAct.effect, List.getElem?_append]
      split
      . exact .kept _
      . next hlt =>
        rw [List.getElem?_eq_none (by omega)]
        cases i - s.handlers.length with
        | zero => exact .accepted sent s.now
        | succ n => exact .kept none
    | _ => exact .kept _
  | handler j l rendered =>
    rcases hguard with ⟨h, hj, hguard⟩
    simp only [Exporter.effect, hj, Exporter.moveHandler]
    by_cases heq : j = i
    . subst heq
      rw [List.getElem?_set_self (List.getElem?_eq_some_iff.mp hj).1, hj]
      exact .moved s.now rfl hguard
    . rw [List.getElem?_set_ne heq]
      exact .kept _

theorem answers_of_reach (hreach : serve.Reachable listening s)
    : s.permits + s.inflight = maxInflight
        ∧ (s.guard (.listener .refuse) → s.inflight = maxInflight)
        ∧ ∀ h ∈ s.handlers, ∀ rendered,
          let r := responseTo (h.snapshot.getD rendered) h.sent
          h.state.pc ≠ .panicked
            ∧ h.state.written <+: r.header ++ r.body
            ∧ (h.state.pc = .returned .done → h.state.written = r.header ++ r.body) := by
  have hinv := exporterInv_of_reach hreach
  refine ⟨hinv.permits, ?_, ?_⟩
  . rintro ⟨_, hnone⟩
    have hpermits := hinv.permits
    omega
  . intro h hmem rendered r
    have hwire : Wire r h.state := ((hinv.handlers h hmem).answer rendered).wire
    refine ⟨hwire.ne_panicked, ?_, ?_⟩
    . cases hwire.answered with
      | inl hnone => simp [hnone.2]
      | inr hsome => exact hsome.2
    . intro hpc
      simp only [Wire, hpc] at hwire
      exact hwire.2

def ExporterLabel.scrape (line rendered : Bytes) : List ExporterLabel :=
  [.listener .pollNone, .listener (.accept line), .listener .pollNone, .listener (.accept []),
    .handler 0 (.read line) [], .handler 0 .parse rendered, .handler 0 (.accept 9) []]

set_option maxRecDepth 2000 in
theorem answers_of_reach_scrape
    : let line := Utf8.encode "GET /metrics\n".toList
      let s := serve.exec listening (ExporterLabel.scrape line [35])
      s.permits + s.inflight = maxInflight
        ∧ ∃ h ∈ s.handlers, h.snapshot = some [35]
          ∧ h.state.written = Utf8.encode "HTTP/1.1 ".toList
          ∧ h.state.written <+: (responseTo [35] line).header ++ (responseTo [35] line).body := by
  intro line s
  have hruns : serve.Runs listening (ExporterLabel.scrape line [35]) := by decide
  have hanswers := answers_of_reach hruns.reachable
  have hmem : s.handlers.get ⟨0, by decide⟩ ∈ s.handlers := List.get_mem ..
  exact ⟨hanswers.1, _, hmem, by decide, by decide, (hanswers.2.2 _ hmem [35]).2.1⟩

theorem shutdown_of_returned {ok : Exporter → ExporterLabel → Prop}
    (hreach : serve.Reach ok listening s)
    : s.listener = .returned → s.shutdown = true := by
  refine hreach.invariant (p := fun s => s.listener = .returned → s.shutdown = true)
    (by simp [listening]) ?_
  intro s l h hguard _ hreturned
  cases l with
  | env act =>
    cases act with
    | shutdown => rfl
    | advance now => exact h hreturned
  | listener act =>
    cases act with
    | pollShutdown => exact hguard.2
    | _ => cases hreturned
  | handler i l rendered =>
    rcases hguard with ⟨_, hi, _⟩
    simp only [serve, Exporter.effect, hi] at hreturned ⊢
    exact h hreturned

def ExporterLabel.admits : ExporterLabel → Bool
  | .listener (.accept _) => true
  | _ => false

def ListenerPc.pass : ListenerPc → Nat
  | .polled => 1
  | _ => 0

theorem ListenerPc.pass_le_one (pc : ListenerPc) : pc.pass ≤ 1 := by
  cases pc <;> decide

theorem pass_effect (hguard : s.guard l) (hshutdown : s.shutdown = true)
    : l.admits.toNat + (s.effect l).listener.pass ≤ s.listener.pass := by
  cases l with
  | env act => cases act <;> exact Nat.le_of_eq (Nat.zero_add _)
  | listener act =>
    cases act with
    | pollNone =>
      have hunset := hguard.2
      rw [hshutdown] at hunset
      cases hunset
    | accept sent =>
      rw [show s.listener = .polled from hguard.1]
      exact Nat.le_refl 1
    | _ => exact Nat.zero_le _
  | handler i l rendered =>
    simp only [Exporter.effect]
    split <;> exact Nat.le_of_eq (Nat.zero_add _)

def ExporterLabel.isTimer : ExporterLabel → Bool
  | .env (.advance _) => true
  | .handler _ .timeout _ => true
  | _ => false

structure Overdue (now : Nat) (s : Exporter) : Prop where
  inv : ExporterInv s
  clock : s.now = now
  due : ∀ h ∈ s.handlers, h.since + requestTimeoutMs ≤ now

theorem Overdue.exists_timeout {now : Nat} (h : Overdue now s) (hinflight : s.inflight ≠ 0)
    : ∃ l, s.guard l ∧ l.isTimer = true ∧ Overdue now (s.effect l)
        ∧ (s.effect l).inflight < s.inflight := by
  rcases List.countP_pos_iff.mp (Nat.pos_of_ne_zero hinflight) with ⟨handler, hmem, hlive⟩
  have hended : handler.ended = false := by simpa using hlive
  rcases List.getElem?_of_mem hmem with ⟨i, hi⟩
  have hguard : s.guard (.handler i .timeout []) := by
    refine ⟨handler, hi, hended, fun _ => ?_, by simp⟩
    rw [h.clock]
    exact h.due handler hmem
  have heffect : s.effect (.handler i .timeout [])
      = s.moveHandler i handler (handler.effect [] s.now .timeout) := by
    simp only [Exporter.effect, hi]
  have hstopped : (handler.effect [] s.now .timeout).ended = true := rfl
  refine ⟨_, hguard, rfl, ⟨h.inv.effect hguard, ?_, ?_⟩, ?_⟩
  . rw [heffect]
    exact h.clock
  . intro handler' hmem'
    rw [heffect] at hmem'
    rcases List.mem_or_eq_of_mem_set hmem' with hmem' | rfl
    . exact h.due handler' hmem'
    . exact h.due handler hmem
  . rw [heffect]
    exact List.countP_set_lt hi (by simp [hended]) (by simp [hstopped])

theorem permits_come_back (hreach : serve.Reachable listening s)
    (hnow : s.now + requestTimeoutMs < u64Max)
    : serve.CanReach ExporterLabel.isTimer s fun t =>
        t.now = s.now + requestTimeoutMs ∧ t.permits = maxInflight := by
  have hinv := exporterInv_of_reach hreach
  have hguard : serve.guard s (.env (.advance (s.now + requestTimeoutMs))) :=
    ⟨Nat.le_add_right _ _, hnow⟩
  have hoverdue : Overdue (s.now + requestTimeoutMs)
      (s.effect (.env (.advance (s.now + requestTimeoutMs)))) := by
    refine ⟨hinv.effect hguard, rfl, ?_⟩
    intro h hmem
    exact Nat.add_le_add_right (hinv.handlers h hmem).since _
  have hreturn : serve.CanReach ExporterLabel.isTimer
      (s.effect (.env (.advance (s.now + requestTimeoutMs))))
      fun t => Overdue (s.now + requestTimeoutMs) t ∧ t.inflight = 0 :=
    CanReach.of_measure _ Exporter.inflight (fun _ ht => ht.exists_timeout) hoverdue
  apply CanReach.step hguard rfl
  apply hreturn.mono fun _ => id
  rintro t ⟨ht, hinflight⟩
  have hpermits := ht.inv.permits
  exact ⟨ht.clock, by omega⟩

theorem permits_come_back_silent
    : serve.CanReach ExporterLabel.isTimer
        (serve.exec listening [.listener .pollNone, .listener (.accept [])]) fun t =>
          t.now = requestTimeoutMs ∧ t.permits = maxInflight := by
  have hruns : serve.Runs listening [.listener .pollNone, .listener (.accept [])] := by decide
  have hback := permits_come_back hruns.reachable (by decide)
  rwa [show (serve.exec listening _).now + requestTimeoutMs = requestTimeoutMs from rfl] at hback

end Metrics
