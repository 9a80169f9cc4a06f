import Oxiduct.Metrics.Text
import Oxiduct.Process.Lemmas.Registry

/-!
This module contains what a client of the exporter reads. `gather` takes the registry one series after
the other while the proxies go on, so the text need not show the registry of any one moment; each
series in it is still what its own proxy had counted at some moment between the client's request and
its answer.
-/

namespace Process

open Metrics (Registry Bytes Exporter Handler)

variable {settings : Settings} {s : State} {l : Label}

def Service.handlers : Service → List Handler
  | .exporter t => t.handlers
  | _ => []

def Phase.handlers : Phase → List Handler
  | .serving service => service.handlers
  | _ => []

def State.handler? (s : State) (i j : Nat) : Option Handler :=
  s.tasks[i]?.bind fun task => task.phase.handlers[j]?

def Label.handler (i j : Nat) (l : Metrics.Label) (text : Bytes) : Label :=
  .task i (.step (.exporter (.handler j l text)))

theorem Service.handlers_start (spec : Spec) (w : World) : (spec.start w).handlers = [] := by
  cases spec with
  | exporter addr => rfl
  | proxy cfg =>
    simp only [Spec.start]
    split <;> rfl

theorem Phase.handlers_notify (phase : Phase) (event : Event)
    : (phase.notify event).handlers = phase.handlers := by
  cases phase with
  | serving service => cases service <;> cases event <;> rfl
  | _ => rfl

theorem Service.handler_effect {service : Service} {l : ServiceLabel} (hguard : service.guard l)
    (j : Nat)
    : Handler.Change (fun l' text => l = .exporter (.handler j l' text)) service.handlers[j]?
        (service.effect l).handlers[j]? := by
  cases service with
  | exporter t =>
    cases l with
    | exporter l =>
      apply (Metrics.handler_effect hguard j).mono
      rintro l' text rfl
      rfl
    | _ => exact hguard.elim
  | _ => cases l <;> exact .kept _

theorem TaskAct.handler_next {task : Task} {act : TaskAct} (hguard : act.guard task) (w : World)
    (j : Nat)
    : Handler.Change (fun l text => act = .step (.exporter (.handler j l text)))
        task.phase.handlers[j]? (act.next w task).phase.handlers[j]? := by
  rcases task with ⟨spec, phase, result, joined⟩
  cases act with
  | step l =>
    rcases hguard with ⟨service, hphase, hguard, _⟩
    rw [Phase.service?_eq_some] at hphase
    subst hphase
    apply (Service.handler_effect hguard j).mono
    rintro l' text rfl
    rfl
  | publish =>
    cases phase with
    | spawned => exact .kept _
    | _ => simp [guard] at hguard
  | bindOk =>
    cases phase with
    | binding =>
      simp only [next, Phase.handlers, Service.handlers_start]
      exact .kept _
    | _ => simp [guard] at hguard
  | bindErr =>
    cases phase with
    | binding => exact .kept _
    | _ => simp [guard] at hguard
  | finish => exact .kept _
  | panic => exact .kept _

theorem handler_effect (settings : Settings) (hguard : guard s l) (i j : Nat)
    : Handler.Change (fun l' text => l = .handler i j l' text) (s.handler? i j)
        ((effect settings s l).handler? i j) := by
  have hset : ∀ {t : State} {k : Nat} {task task' : Task}, s.tasks[k]? = some task →
      t.tasks = s.tasks.set k task' →
      (k = i → Handler.Change (fun l' text => l = .handler i j l' text) task.phase.handlers[j]?
        task'.phase.handlers[j]?) →
      Handler.Change (fun l' text => l = .handler i j l' text) (s.handler? i j)
        (t.handler? i j) := by
    intro t k task task' hk htasks hchange
    unfold State.handler?
    rw [htasks]
    by_cases heq : k = i
    . subst heq
      rw [List.getElem?_set_self (List.getElem?_eq_some_iff.mp hk).1, hk]
      exact hchange rfl
    . rw [List.getElem?_set_ne heq]
      exact .kept _
  cases change_effect settings hguard with
  | quiet _ htasks _ =>
    unfold State.handler?
    rw [htasks]
    exact .kept _
  | notified event _ _ htasks _ =>
    unfold State.handler?
    rw [htasks, List.getElem?_map, Option.bind_map]
    simp only [Function.comp_def, Task.notify, Phase.handlers_notify]
    exact .kept _
  | joined k task hk _ _ htasks _ => exact hset hk htasks fun _ => .kept _
  | acted k task act hl hk hact _ htasks _ =>
    subst hl
    apply hset hk htasks
    rintro rfl
    apply (act.handler_next hact s.world j).mono
    rintro l' text rfl
    rfl

/--
The request has been read and not been answered.
-/
def State.Asked (s : State) (i j : Nat) : Prop :=
  ∃ h, s.handler? i j = some h ∧ h.state.pc = .parsing

theorem asked_of_effect {i j : Nat} (hguard : guard s l)
    (hl : ∀ l' text, l ≠ .handler i j l' text) (h : (effect settings s l).Asked i j)
    : s.Asked i j := by
  rcases h with ⟨h, hh, hpc⟩
  have hchange := handler_effect settings hguard i j
  rw [hh] at hchange
  generalize hs : s.handler? i j = before at hchange
  cases hchange with
  | kept => exact ⟨h, hs, hpc⟩
  | accepted sent now => cases hpc
  | moved now hown _ => exact absurd hown (hl _ _)

theorem asked_of_exec {i j : Nat} {ls : List Label} (hruns : (main settings).Runs s ls)
    (hls : ∀ l ∈ ls, ∀ l' text, l ≠ .handler i j l' text)
    (h : ((main settings).exec s ls).Asked i j)
    : s.Asked i j := by
  induction ls generalizing s with
  | nil => exact h
  | cons l ls ih =>
    have hnext := ih hruns.2 (fun l' hmem => hls l' (List.mem_cons_of_mem l hmem)) h
    exact asked_of_effect hruns.1 (hls l (List.mem_cons_self ..)) hnext

theorem handler?_launch (settings : Settings) (i j : Nat)
    : (launch settings).handler? i j = none := by
  unfold State.handler?
  cases hi : (launch settings).tasks[i]? with
  | none => rfl
  | some task =>
    rcases exists_spec_of_launch (List.mem_of_getElem? hi) with ⟨spec, rfl⟩
    cases spec <;> rfl

theorem exists_parse {ls : List Label} (hruns : (main settings).Runs (launch settings) ls)
    {i j : Nat} {h : Handler} (hh : ((main settings).exec (launch settings) ls).handler? i j = some h)
    {text : Bytes} (htext : h.snapshot = some text)
    : ∃ before after old, ls = before ++ .handler i j .parse text :: after
        ∧ ((main settings).exec (launch settings) before).handler? i j = some old
        ∧ old.state.pc = .parsing ∧ old.sent = h.sent := by
  induction ls using List.reverseRecOn generalizing h with
  | nil =>
    rw [Machine.exec_nil, handler?_launch] at hh
    cases hh
  | append_singleton ls l ih =>
    rcases (Machine.runs_append ..).mp hruns with ⟨hbefore, hguard, _⟩
    rw [Machine.exec_append] at hh
    have hchange := handler_effect settings hguard i j
    rw [show effect settings _ l = (main settings).exec _ [l] from rfl, hh] at hchange
    have hlater : ∀ {h : Handler},
        ((main settings).exec (launch settings) ls).handler? i j = some h →
        h.snapshot = some text →
        ∃ before after old, ls ++ [l] = before ++ .handler i j .parse text :: after
          ∧ ((main settings).exec (launch settings) before).handler? i j = some old
          ∧ old.state.pc = .parsing ∧ old.sent = h.sent := by
      intro h hh htext
      rcases ih hbefore hh htext with ⟨before, after, old, hls, hold⟩
      exact ⟨before, after ++ [l], old, by simp [hls], hold⟩
    generalize hs : ((main settings).exec (launch settings) ls).handler? i j = old at hchange
    cases hchange with
    | kept => exact hlater hs htext
    | accepted sent now => cases htext
    | @moved old l' text' now hown hact =>
      by_cases hparse : l' = .parse
      . subst hparse
        simp only [Handler.effect, if_true, Option.some.injEq] at htext
        subst htext
        exact ⟨ls, [], old, by rw [hown], hs, hact.1, rfl⟩
      . simp only [Handler.effect, if_neg hparse] at htext
        exact hlater (h := old) hs htext

/--
A call of `gather` that began after `call` and has ended after `before` has read each series at some
moment between the two.
-/
structure Gathered (settings : Settings) (call before : List Label) (r : Registry) : Prop where
  counter : ∀ family labels, ∃ ls, call <+: ls ∧ ls <+: before ∧
    r.counter family labels
      = ((main settings).exec (launch settings) ls).registry.counter family labels
  gauge : ∀ family labels, ∃ ls, call <+: ls ∧ ls <+: before ∧
    r.gauge family labels
      = ((main settings).exec (launch settings) ls).registry.gauge family labels

def Asks (h : Handler) : Prop :=
  Metrics.isMetrics (Utf8.decodeLossy (Metrics.requestPrefix h.sent)) = true

instance (h : Handler) : Decidable (Asks h) :=
  inferInstanceAs (Decidable (_ = true))

/--
The contract of `gather` and of the text encoder: a text is made of what one call of `gather` has
read. The call is made by the handler, which takes no other step before it returns.
-/
def Rendered (render : Registry → Bytes) (settings : Settings) (ls : List Label) : Prop :=
  ∀ before i j text after h, ls = before ++ .handler i j .parse text :: after →
    ((main settings).exec (launch settings) before).handler? i j = some h → Asks h →
    ∃ call during r, before = call ++ during
      ∧ (∀ l ∈ during, ∀ l' text, l ≠ .handler i j l' text)
      ∧ Gathered settings call before r ∧ text = render r

/--
The series of the proxy `cfg` in `r`, each at some moment of the run `ls` at which the request had
been read and not been answered.
-/
structure Shown (settings : Settings) (ls : List Label) (i j : Nat) (r : Registry)
    (cfg : ProxyConfig) : Prop where
  counter : ∀ family rest, ∃ ls', ls' <+: ls ∧
    let s := (main settings).exec (launch settings) ls'
    s.Asked i j ∧ ∃ task ∈ s.tasks, task.spec = .proxy cfg
      ∧ r.counter family (cfg.name :: rest)
        = task.phase.counts.counter cfg.protocol.label family rest
  gauge : ∀ family, ∃ ls', ls' <+: ls ∧
    let s := (main settings).exec (launch settings) ls'
    s.Asked i j ∧ ∃ task ∈ s.tasks, task.spec = .proxy cfg
      ∧ r.gauge family [cfg.name] = task.phase.level cfg family

theorem Gathered.shown {args : Cli} (hsettings : resolve args = .ok settings)
    {call during after : List Label} {r : Registry}
    (h : Gathered settings call (call ++ during) r)
    (hruns : (main settings).Runs (launch settings) (call ++ during)) {i j : Nat}
    (hduring : ∀ l ∈ during, ∀ l' text, l ≠ .handler i j l' text)
    (hasked : ((main settings).exec (launch settings) (call ++ during)).Asked i j)
    {cfg : ProxyConfig} (hcfg : cfg ∈ settings.proxies)
    : Shown settings (call ++ during ++ after) i j r cfg := by
  have hshown : ∀ ls, call <+: ls → ls <+: call ++ during →
      ls <+: call ++ during ++ after
        ∧ let s := (main settings).exec (launch settings) ls
          s.Asked i j ∧ ∃ task ∈ s.tasks, task.spec = .proxy cfg
            ∧ Recorded s.registry cfg task.phase := by
    rintro _ ⟨read, rfl⟩ ⟨left, hleft⟩
    rw [List.append_assoc, List.append_cancel_left_eq] at hleft
    subst hleft
    rw [← List.append_assoc, Machine.exec_append] at hasked
    rw [← List.append_assoc, Machine.runs_append] at hruns
    refine ⟨by simp, ?_, ?_⟩
    . apply asked_of_exec hruns.2 _ hasked
      exact fun l hmem => hduring l (List.mem_append_right read hmem)
    . have hreach := hruns.1.reachable
      rcases exists_task_of_reachable hreach hcfg with ⟨task, hmem, hspec⟩
      have hregistry := registryInv_of_reachable hsettings hreach
      exact ⟨task, hmem, hspec, hregistry.recorded task hmem cfg hspec⟩
  constructor
  . intro family rest
    rcases h.counter family (cfg.name :: rest) with ⟨ls, hcall, hbefore, hcounter⟩
    rcases hshown ls hcall hbefore with ⟨hbegins, hasked, task, hmem, hspec, hrecorded⟩
    exact ⟨ls, hbegins, hasked, task, hmem, hspec, hcounter.trans (hrecorded.counter family rest)⟩
  . intro family
    rcases h.gauge family [cfg.name] with ⟨ls, hcall, hbefore, hgauge⟩
    rcases hshown ls hcall hbefore with ⟨hbegins, hasked, task, hmem, hspec, hrecorded⟩
    exact ⟨ls, hbegins, hasked, task, hmem, hspec, hgauge.trans (hrecorded.gauge family)⟩

theorem handlerInv_of_reachable (hreach : (main settings).Reachable (launch settings) s) {i j : Nat}
    {h : Handler} (hh : s.handler? i j = some h)
    : ∃ now, Metrics.HandlerInv now h := by
  rcases Option.bind_eq_some_iff.mp hh with ⟨task, hi, hj⟩
  cases hphase : task.phase with
  | serving service =>
    have hservice :=
      ((inv_of_reachable hreach).tasks task (List.mem_of_getElem? hi)).service service hphase
    rw [hphase] at hj
    cases service with
    | exporter t =>
      have hinv := Metrics.exporterInv_of_reach (hservice.reached.mono fun _ _ _ => trivial)
      exact ⟨_, hinv.handlers h (List.mem_of_getElem? hj)⟩
    | _ => cases hj
  | _ =>
    rw [hphase] at hj
    cases hj

theorem scrape_shows_books {args : Cli} (hsettings : resolve args = .ok settings)
    {render : Registry → Bytes} {ls : List Label}
    (hruns : (main settings).Runs (launch settings) ls) (hrendered : Rendered render settings ls)
    : ∀ i j h, ((main settings).exec (launch settings) ls).handler? i j = some h → Asks h →
        h.state.written ≠ [] →
          ∃ r : Registry,
            let response := Metrics.respond (render r) true
            h.state.written <+: response.header ++ response.body
              ∧ ∀ cfg ∈ settings.proxies, Shown settings ls i j r cfg := by
  intro i j h hh hasks hwritten
  rcases handlerInv_of_reachable hruns.reachable hh with ⟨now, hinv⟩
  have hwire := (hinv.answer []).wire.answered
  have hsome : h.snapshot ≠ none := by
    rw [hinv.snapshot]
    cases hwire with
    | inl hnone => exact absurd hnone.2 hwritten
    | inr hsome => simp [hsome.1]
  rcases Option.ne_none_iff_exists'.mp hsome with ⟨text, htext⟩
  rcases exists_parse hruns hh htext with ⟨before, after, old, rfl, hold, hpc, hsent⟩
  have hasksOld : Asks old := by rwa [Asks, hsent]
  rcases hrendered before i j text after old rfl hold hasksOld with
    ⟨call, during, r, rfl, hduring, hgathered, rfl⟩
  have hbefore := ((Machine.runs_append ..).mp hruns).1
  refine ⟨r, ?_, fun cfg hcfg => hgathered.shown hsettings hbefore hduring ⟨old, hold, hpc⟩ hcfg⟩
  rw [htext, Option.getD_some] at hwire
  cases hwire with
  | inl hnone => exact absurd hnone.2 hwritten
  | inr hsome =>
    rw [Metrics.responseTo, hasks] at hsome
    exact hsome.2

def Label.isParse : Label → Bool
  | .task _ (.step (.exporter (.handler _ .parse _))) => true
  | _ => false

theorem rendered_at_once (render : Registry → Bytes) {before after : List Label} (i j : Nat)
    (hbefore : ∀ l ∈ before, l.isParse = false) (hafter : ∀ l ∈ after, l.isParse = false)
    : let r := ((main settings).exec (launch settings) before).registry
      Rendered render settings (before ++ .handler i j .parse (render r) :: after) := by
  intro r before' i' j' text after' h heq _ _
  have hnotMem : ∀ {ls : List Label}, (∀ l ∈ ls, l.isParse = false) →
      Label.handler i' j' .parse text ∉ ls := by
    intro ls hls hmem
    cases hls _ hmem
  rcases (List.append_cons_inj_of_notMem (hnotMem hbefore) (hnotMem hafter)).mp heq with
    ⟨rfl, hparse, _⟩
  cases hparse
  exact ⟨before, [], r, (List.append_nil _).symm, by simp,
    ⟨fun _ _ => ⟨before, List.prefix_rfl, List.prefix_rfl, rfl⟩,
      fun _ _ => ⟨before, List.prefix_rfl, List.prefix_rfl, rfl⟩⟩, rfl⟩

def scrapeLine : Bytes :=
  Utf8.encode "GET /metrics\n".toList

def Label.requested : List Label :=
  -- a request is read while the proxy relays a connection
  Label.relaying
    ++ ([.listener .pollNone, .listener (.accept scrapeLine), .handler 0 (.read scrapeLine) []] :
      List Metrics.ExporterLabel).map fun l => .task 0 (.step (.exporter l))

def scraped : State :=
  (main webSettings).exec (launch webSettings) Label.requested

def Label.answered : List Label :=
  -- the socket takes the first part of the answer
  [.handler 0 0 .parse scraped.registry.exposition, .handler 0 0 (.accept 9) []]

set_option maxRecDepth 8000 in
theorem scrape_shows_books_relaying
    : let ls := Label.requested ++ Label.answered
      ∃ h, ((main webSettings).exec (launch webSettings) ls).handler? 0 0 = some h
        ∧ h.state.written = Utf8.encode "HTTP/1.1 ".toList
        ∧ ∃ r : Registry,
          let response := Metrics.respond r.exposition true
          h.state.written <+: response.header ++ response.body
            ∧ Shown webSettings ls 0 0 r webProxy := by
  intro ls
  have hruns : (main webSettings).Runs (launch webSettings) ls := by decide
  have hrendered : Rendered Registry.exposition webSettings ls :=
    rendered_at_once Registry.exposition 0 0 (by decide) (by decide)
  refine ⟨_, rfl, by decide, ?_⟩
  rcases scrape_shows_books resolve_webArgs hruns hrendered 0 0 _ rfl (by decide) (by decide) with
    ⟨r, hwritten, hshown⟩
  exact ⟨r, hwritten, hshown webProxy (List.mem_singleton.mpr rfl)⟩

end Process
