import Oxiduct.Udp.Lemmas.Basic

/-!
This module contains the life of a session's two relay tasks: each stops the other when it ends, and
once nobody owns the session both run down.
-/

namespace Udp

open Limits

variable {cfg : ProxyConfig} {s : State} {l : Label} {id : Nat}

def isRelayOf (id : Nat) : Label → Bool
  | .relay id' _ _ => id' = id
  | _ => false

namespace State

variable {α : Type} (proj : Cell → α)

theorem proj_dropSessions (htx : ∀ c, proj { c with tx := false } = proj c) (s : State)
    (xs : List Session) (id : Nat)
    : proj ((s.dropSessions xs).cells id) = proj (s.cells id) := by
  simp only [dropSessions]
  split
  . exact htx _
  . rfl

theorem proj_cancelAll (hcancel : ∀ c, proj { c with cancel := true } = proj c) (s : State)
    (ids : List Nat) (id : Nat)
    : proj ((s.cancelAll ids).cells id) = proj (s.cells id) := by
  simp only [cancelAll]
  split
  . exact hcancel _
  . rfl

end State

theorem proj_effect {α : Type} (proj : Cell → α) (cfg : ProxyConfig) (hguard : guard s l)
    (hlt : id < s.nextId) (hl : isRelayOf id l = false)
    (htx : ∀ c, proj { c with tx := false } = proj c)
    (hcancel : ∀ c, proj { c with cancel := true } = proj c)
    (hsend : id ∈ s.ids → ∀ c now data, proj ({ c with lastActivity := now }.trySend data) = proj c)
    : proj ((effect cfg s l).cells id) = proj (s.cells id) := by
  cases l with
  | env act =>
    cases act with
    | teardown => exact s.proj_dropSessions proj htx _ _
    | _ => rfl
  | listener act =>
    cases act with
    | hit src data session =>
      simp only [effect, ListenerAct.effect, State.cells_updCell]
      split
      . next heq =>
        subst heq
        apply hsend
        exact mem_ids_of_mem_sessionList (State.mem_sessionList.mpr ⟨src, hguard.2.1⟩)
      . rfl
    | evict src data session => exact s.proj_dropSessions proj htx _ _
    | shutdown => exact s.proj_cancelAll proj hcancel _ _
    | _ => rfl
  | setup i task act =>
    cases act with
    | openOk slot id' =>
      have : id' = s.nextId := hguard.2
      simp only [effect, SetupAct.effect, State.cells_updCell]
      rw [if_neg (by omega)]
    | abort session => exact s.proj_cancelAll proj hcancel _ _
    | trySend session =>
      simp only [effect, SetupAct.effect, State.cells_updCell]
      split
      . next heq =>
        subst heq
        apply hsend
        exact mem_ids_of_task hguard.1 (by simp [SetupAct.pre, SetupPc.sessions])
      . rfl
    | dropSession session => exact s.proj_dropSessions proj htx _ _
    | insert session => exact s.proj_dropSessions proj htx _ _
    | _ => rfl
  | relay id' side act =>
    simp only [effect, RelayAct.effect, State.cells_updCell]
    rw [if_neg]
    rintro rfl
    simp [isRelayOf] at hl
  | cleanup act =>
    cases act with
    | retain now =>
      refine ((s.cancelAll _).proj_dropSessions proj htx _ _).trans ?_
      exact s.proj_cancelAll proj hcancel _ _
    | _ => rfl

theorem pc_effect (cfg : ProxyConfig) (hguard : guard s l) (hlt : id < s.nextId)
    (hl : isRelayOf id l = false) (side : Side)
    : ((effect cfg s l).cells id).pc side = (s.cells id).pc side := by
  apply proj_effect (fun c => c.pc side) cfg hguard hlt hl
  . intro c
    cases side <;> rfl
  . intro c
    cases side <;> rfl
  . intro _ c now data
    unfold Cell.trySend
    cases side <;> split <;> rfl

theorem Cell.pc_apply (c : Cell) (now : Nat) {side side' : Side} (act : RelayAct)
    (hside : side' ≠ side)
    : (act.apply now side c).pc side' = c.pc side' := by
  cases act <;> cases side <;> cases side' <;> first | rfl | exact absurd rfl hside

def DoneCancels (s : State) : Prop :=
  ∀ id < s.nextId, ∀ side, (s.cells id).pc side = .done → (s.cells id).cancel = true

theorem Cell.cancel_of_done_apply {c : Cell} {now : Nat} {side : Side} {act : RelayAct}
    (h : (act.apply now side c).pc side = .done)
    : (act.apply now side c).cancel = true := by
  cases act <;> cases side <;> first | rfl | cases h

theorem DoneCancels.effect (hdone : DoneCancels s) (hguard : guard s l)
    : DoneCancels (effect cfg s l) := by
  intro id hid side hpc
  by_cases hl : isRelayOf id l
  . cases l with
    | relay id' side' act =>
      have : id' = id := by simpa [isRelayOf] using hl
      subst this
      simp only [Udp.effect, RelayAct.effect, State.cells_updCell, ↓reduceIte] at hpc ⊢
      by_cases hside : side = side'
      . subst hside
        apply Cell.cancel_of_done_apply hpc
      . rw [Cell.pc_apply _ _ _ hside] at hpc
        apply Cell.cancel_apply _ _ _ (hdone _ hguard.1 side hpc)
    | _ => simp [isRelayOf] at hl
  . have hl : isRelayOf id l = false := by simpa using hl
    rw [nextId_effect] at hid
    by_cases hlt : id < s.nextId
    . rw [pc_effect cfg hguard hlt hl] at hpc
      exact cancel_effect cfg hguard hlt (hdone id hlt side hpc)
    . -- a session made in this step: its tasks have just been spawned
      unfold made at hid
      split at hid
      . next i task slot id' _ =>
        have : id' = s.nextId := hguard.2
        simp only [List.length_cons, List.length_nil] at hid
        have : id = id' := by omega
        subst this
        simp only [Udp.effect, SetupAct.effect, State.cells_updCell, ↓reduceIte] at hpc
        cases side <;> cases hpc
      . simp at hid
        omega

theorem relayInv_of_reachable (h : (serveGraceful cfg).Reachable (start cfg) s)
    : Inv s ∧ DoneCancels s := by
  refine h.invariant (p := fun s => Inv s ∧ DoneCancels s) ⟨inv_start cfg, ?_⟩ ?_
  . intro id hid
    exact absurd hid (Nat.not_lt_zero id)
  . rintro s l ⟨hinv, hdone⟩ hguard _
    exact ⟨hinv.effect hguard, hdone.effect hguard⟩

def RelayPc.steps : RelayPc → Nat
  | .send _ => 4
  | .select => 3
  | .polled => 2
  | .exit => 1
  | .done => 0

def Cell.steps (c : Cell) : Nat :=
  3 * c.queue.length + c.up.steps + c.down.steps

theorem RelayPc.steps_le (pc : RelayPc) : pc.steps ≤ 4 := by
  cases pc <;> simp [RelayPc.steps]

def silent (id : Nat) : Label → Bool
  | .relay id' .down (.take _) => id' ≠ id
  | _ => true

def RelayAct.isUnaided (side : Side) : RelayAct → Bool
  | .take _ => side = .up
  | .ended => side = .up
  | .sendErr _ => false
  | _ => true

theorem Cell.steps_apply {s : State} {side : Side} {act : RelayAct} (hguard : act.guard s id side)
    (hsilent : ∀ data, side = .down → act ≠ .take data)
    : (act.apply s.now side (s.cells id)).steps < (s.cells id).steps := by
  cases side with
  | up =>
    have hpc : (s.cells id).pc .up = (s.cells id).up := rfl
    cases act <;> simp [RelayAct.guard, hpc] at hguard <;>
      simp [RelayAct.apply, Cell.setPc, Cell.steps, RelayPc.steps, hguard]
    case take data =>
      cases hqueue : (s.cells id).queue <;> simp_all
      omega
    case stop =>
      rcases hguard.1 with h | h <;> simp [h]
  | down =>
    have hpc : (s.cells id).pc .down = (s.cells id).down := rfl
    cases act <;> simp [RelayAct.guard, hpc] at hguard <;>
      simp [RelayAct.apply, Cell.setPc, Cell.steps, RelayPc.steps, hguard]
    case take data => exact absurd rfl (hsilent data rfl)
    case stop =>
      rcases hguard.1 with h | h <;> simp [h]

theorem silent_of_take {side : Side} {act : RelayAct} (h : silent id (.relay id side act))
    : ∀ data, side = .down → act ≠ .take data := by
  rintro data rfl rfl
  simp [silent] at h

theorem notMem_ids_effect (cfg : ProxyConfig) (hinv : Inv s) (hguard : guard s l)
    (hlt : id < s.nextId) (hids : id ∉ s.ids)
    : id ∉ (effect cfg s l).ids := by
  rw [mem_ids_effect cfg hinv.owned hguard]
  rintro ⟨_, hmade | h⟩
  . rcases List.mem_map.mp hmade with ⟨session, hmem, rfl⟩
    rw [id_of_mem_made hguard hmem] at hlt
    exact Nat.lt_irrefl _ hlt
  . exact hids h

theorem steps_effect_of_relay (cfg : ProxyConfig) (hguard : guard s l) (hl : isRelayOf id l)
    (hsilent : silent id l)
    : ((effect cfg s l).cells id).steps < (s.cells id).steps := by
  cases l with
  | relay id' side act =>
    have : id' = id := by simpa [isRelayOf] using hl
    subst this
    simp only [effect, RelayAct.effect, State.cells_updCell, ↓reduceIte]
    apply Cell.steps_apply hguard.2 (silent_of_take hsilent)
  | _ => simp [isRelayOf] at hl

theorem steps_effect_of_others (cfg : ProxyConfig) (hguard : guard s l) (hlt : id < s.nextId)
    (hids : id ∉ s.ids) (hl : isRelayOf id l = false)
    : ((effect cfg s l).cells id).steps = (s.cells id).steps := by
  apply proj_effect Cell.steps cfg hguard hlt hl
  . intro c
    rfl
  . intro c
    rfl
  . intro h
    exact absurd h hids

structure Unowned (id : Nat) (s : State) : Prop where
  inv : Inv s
  done : DoneCancels s
  lt : id < s.nextId
  ids : id ∉ s.ids

theorem Unowned.effect (hunowned : Unowned id s) (hguard : guard s l)
    : Unowned id (effect cfg s l) := by
  refine ⟨hunowned.inv.effect hguard, hunowned.done.effect hguard, ?_,
    notMem_ids_effect cfg hunowned.inv hguard hunowned.lt hunowned.ids⟩
  rw [nextId_effect]
  apply Nat.lt_add_right _ hunowned.lt

theorem Unowned.tx (hunowned : Unowned id s) : (s.cells id).tx = false := by
  have := (hunowned.inv.owned.tx id hunowned.lt).not.mpr hunowned.ids
  simpa using this

theorem Unowned.exec {ls : List Label} (hunowned : Unowned id s)
    (hruns : (serveGraceful cfg).Runs s ls)
    : Unowned id ((serveGraceful cfg).exec s ls) :=
  hruns.reachable.invariant hunowned (fun _ _ h hguard _ => h.effect hguard)

theorem Unowned.countP_relay_le {ls : List Label} (hunowned : Unowned id s)
    (hruns : (serveGraceful cfg).Runs s ls)
    (hsilent : (serveGraceful cfg).Steps (fun _ l => silent id l) s ls)
    : ls.countP (isRelayOf id) ≤ (s.cells id).steps := by
  have hbound := Machine.countP_add_measure_le (m := serveGraceful cfg) (Unowned id) (isRelayOf id)
    (fun s => (s.cells id).steps) ?_ ?_ ?_ hunowned hruns hsilent
  . omega
  . intro s l hunowned hguard _
    exact hunowned.effect hguard
  . intro s l _ hguard hsilent hl
    exact steps_effect_of_relay cfg hguard hl hsilent
  . intro s l hunowned hguard _ hl
    exact (steps_effect_of_others cfg hguard hunowned.lt hunowned.ids (by simpa using hl)).le

theorem exists_unaided_up (htx : (s.cells id).tx = false) (hup : (s.cells id).up ≠ .done)
    : ∃ act, RelayAct.isUnaided .up act ∧ act.guard s id .up := by
  have hpc : (s.cells id).pc .up = (s.cells id).up := rfl
  by_cases hstop : s.forceShutdown = true ∨ (s.cells id).cancel = true
  . cases h : (s.cells id).up with
    | select => exact ⟨.stop, rfl, .inl (hpc.trans h), hstop⟩
    | polled => exact ⟨.stop, rfl, .inr (hpc.trans h), hstop⟩
    | send data => exact ⟨.sent data, rfl, hpc.trans h⟩
    | exit => exact ⟨.cancel, rfl, hpc.trans h⟩
    | done => exact absurd h hup
  . simp only [not_or, Bool.not_eq_true] at hstop
    cases h : (s.cells id).up with
    | select => exact ⟨.poll, rfl, hpc.trans h, hstop⟩
    | polled =>
      cases hqueue : (s.cells id).queue with
      | nil => exact ⟨.ended, rfl, hpc.trans h, fun _ => ⟨hqueue, htx⟩⟩
      | cons data rest => exact ⟨.take data, rfl, hpc.trans h, fun _ => by rw [hqueue]; rfl⟩
    | send data => exact ⟨.sent data, rfl, hpc.trans h⟩
    | exit => exact ⟨.cancel, rfl, hpc.trans h⟩
    | done => exact absurd h hup

theorem exists_unaided_down (hcancel : (s.cells id).cancel = true)
    (hdown : (s.cells id).down ≠ .done)
    : ∃ act, RelayAct.isUnaided .down act ∧ act.guard s id .down := by
  have hpc : (s.cells id).pc .down = (s.cells id).down := rfl
  cases h : (s.cells id).down with
  | select => exact ⟨.stop, rfl, .inl (hpc.trans h), .inr hcancel⟩
  | polled => exact ⟨.stop, rfl, .inr (hpc.trans h), .inr hcancel⟩
  | send data => exact ⟨.sent data, rfl, hpc.trans h⟩
  | exit => exact ⟨.cancel, rfl, hpc.trans h⟩
  | done => exact absurd h hdown

theorem Unowned.exists_unaided (hunowned : Unowned id s)
    (hend : ¬ ((s.cells id).up = .done ∧ (s.cells id).down = .done))
    : ∃ side act, RelayAct.isUnaided side act ∧ guard s (.relay id side act) := by
  by_cases hup : (s.cells id).up = .done
  . have hcancel := hunowned.done id hunowned.lt .up hup
    rcases exists_unaided_down hcancel (fun hdown => hend ⟨hup, hdown⟩) with ⟨act, hact, hguard⟩
    exact ⟨.down, act, hact, hunowned.lt, hguard⟩
  . rcases exists_unaided_up hunowned.tx hup with ⟨act, hact, hguard⟩
    exact ⟨.up, act, hact, hunowned.lt, hguard⟩

theorem no_ghost_sessions (h : (serveGraceful cfg).Reachable (start cfg) s)
    : (∀ id < s.nextId, ∀ side, (s.cells id).pc side = .done → (s.cells id).cancel = true)
        ∧ ∀ id < s.nextId, id ∉ s.ids →
            ((s.cells id).cancel = true ∨ s.forceShutdown = true ∨ (s.cells id).tx = false)
              ∧ ∀ ls, (serveGraceful cfg).Runs s ls →
                  (serveGraceful cfg).Steps (fun _ l => silent id l) s ls →
                    let t := (serveGraceful cfg).exec s ls
                    ls.countP (isRelayOf id) ≤ 3 * (s.cells id).queue.length + 8
                      ∧ (((t.cells id).up = .done ∧ (t.cells id).down = .done)
                        ∨ ∃ side act, RelayAct.isUnaided side act
                            ∧ (serveGraceful cfg).guard t (.relay id side act)) := by
  have hrelay := relayInv_of_reachable h
  refine ⟨hrelay.2, ?_⟩
  intro id hlt hids
  have hunowned : Unowned id s := ⟨hrelay.1, hrelay.2, hlt, hids⟩
  refine ⟨.inr (.inr hunowned.tx), ?_⟩
  intro ls hruns hsilent t
  constructor
  . have hcount := hunowned.countP_relay_le hruns hsilent
    have hup := (s.cells id).up.steps_le
    have hdown := (s.cells id).down.steps_le
    rw [Cell.steps] at hcount
    omega
  . rw [or_iff_not_imp_left]
    exact (hunowned.exec hruns).exists_unaided

theorem no_ghost_sessions_aborted
    : let run := Label.arrival dnsClient [1] ++ Label.admission dnsClient [1]
        ++ [.setup 0 dnsQuery (.openOk ⟨dnsClient.ip⟩ 0), .env .forceShutdown,
          .setup 0 dnsQuery (.abort (dnsSession 0)), .setup 0 dnsQuery (.dropSession (dnsSession 0))]
      let s := (serveGraceful dnsProxy).exec (start dnsProxy) run
      (s.cells 0).cancel = true ∨ s.forceShutdown = true ∨ (s.cells 0).tx = false := by
  intro run s
  have hreach : (serveGraceful dnsProxy).Reachable (start dnsProxy) s :=
    (show (serveGraceful dnsProxy).Runs _ run by decide).reachable
  exact ((no_ghost_sessions hreach).2 0 (by decide) (by decide)).1

end Udp
