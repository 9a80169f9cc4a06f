import Oxiduct.Limits.Lemmas
import Oxiduct.Udp.Lemmas.Basic

/-!
This module contains the books of the limiter as the UDP proxy uses it: a slot is held by the
listener, by a setup task or by a session, the limiter tallies exactly those slots, and the caps bound
them.
-/

namespace Udp

open Limits

variable {cfg : ProxyConfig} {s : State} {l : Label}

def granted : Label → List Guard
  | .listener (.acquire _ _ slot) => [slot]
  | _ => []

def freed (cfg : ProxyConfig) (s : State) : Label → List Guard
  | .setup _ _ (.openErr slot) => [slot]
  | l => (dropped cfg s l).map Session.slot

def consumed : Label → List Guard
  | .setup _ _ (.openOk slot _) => [slot]
  | .setup _ _ (.openErr slot) => [slot]
  | _ => []

theorem openSlots_effect (cfg : ProxyConfig) (hguard : guard s l)
    : ((granted l).map Guard.srcIp : Multiset IpAddr) + (s.listener.slots + s.taskOpenSlots)
        = ((consumed l).map Guard.srcIp : Multiset IpAddr)
          + ((effect cfg s l).listener.slots + (effect cfg s l).taskOpenSlots) := by
  cases l with
  | env act => cases act <;> rfl
  | listener act =>
    have heffect := ListenerAct.slots_effect hguard
    cases act with
    | acquire src data slot =>
      dsimp only at heffect
      simp only [granted, consumed, effect, heffect.1, heffect.2]
      simp [ListenerAct.effect, State.taskOpenSlots]
    | spawn src data slot =>
      dsimp only at heffect
      simp only [granted, consumed, effect, heffect.1, heffect.2]
      simp [ListenerAct.effect, State.taskOpenSlots, SetupPc.openSlots, add_comm]
    | _ => exact congrArg (0 + (· + s.taskOpenSlots)) heffect.symm
  | setup i task act =>
    rcases List.exists_sum_map_set (fun task => task.2.openSlots) hguard.1 with
      ⟨rest, hbefore, hafter⟩
    have hbefore : s.taskOpenSlots = act.pre.openSlots + rest := hbefore
    have hafter : (effect cfg s (.setup i task act)).taskOpenSlots = act.post.openSlots + rest := by
      simp only [effect, State.taskOpenSlots]
      rw [← hafter (task, act.post)]
    rw [listener_effect (by simp), hbefore, hafter]
    cases act <;>
      simp [granted, consumed, SetupAct.pre, SetupAct.post, SetupPc.openSlots]
  | relay id side act => rfl
  | cleanup act => simp [granted, consumed, effect, State.taskOpenSlots]

theorem made_add_freed (cfg : ProxyConfig) (s : State) (l : Label)
    : ((made l).map Session.slot : Multiset Guard) + freed cfg s l
        = ((dropped cfg s l).map Session.slot : Multiset Guard) + consumed l := by
  cases l with
  | setup i task act => cases act <;> simp [made, freed, dropped, evicted, consumed]
  | _ => simp [made, freed, consumed]

theorem slots_effect (cfg : ProxyConfig) (hguard : guard s l)
    : ((granted l).map Guard.srcIp : Multiset IpAddr) + s.slots
        = ((freed cfg s l).map Guard.srcIp : Multiset IpAddr) + (effect cfg s l).slots := by
  have hheld := congrArg (Multiset.map fun session => session.slot.srcIp) (held_effect cfg hguard)
  have hopen := openSlots_effect cfg hguard
  have hfreed := congrArg (Multiset.map Guard.srcIp) (made_add_freed cfg s l)
  simp only [Multiset.map_add, Multiset.map_coe, List.map_map, Function.comp_def] at hheld hfreed
  rw [State.slots_eq, State.slots_eq]
  apply add_left_cancel (a := ((made l).map fun session => session.slot.srcIp : Multiset IpAddr))
  -- the sessions made use up what the sessions' slots and the freed ones have in common
  calc _
    _ = (((made l).map fun session => session.slot.srcIp : Multiset IpAddr)
            + s.held.map fun session => session.slot.srcIp)
          + (((granted l).map Guard.srcIp : Multiset IpAddr)
            + (s.listener.slots + s.taskOpenSlots)) := by
      ac_rfl
    _ = (((dropped cfg s l).map fun session => session.slot.srcIp : Multiset IpAddr)
            + (effect cfg s l).held.map fun session => session.slot.srcIp)
          + (((consumed l).map Guard.srcIp : Multiset IpAddr)
            + ((effect cfg s l).listener.slots + (effect cfg s l).taskOpenSlots)) := by
      rw [hheld, hopen]
    _ = (((dropped cfg s l).map fun session => session.slot.srcIp : Multiset IpAddr)
            + ((consumed l).map Guard.srcIp : Multiset IpAddr))
          + (((effect cfg s l).held.map fun session => session.slot.srcIp)
            + ((effect cfg s l).listener.slots + (effect cfg s l).taskOpenSlots)) := by
      ac_rfl
    _ = _ := by
      rw [← hfreed, add_assoc]

theorem limits_effect (cfg : ProxyConfig) (s : State) (l : Label)
    : (effect cfg s l).limits
        =
      match l with
      | .listener (.acquire src _ _) => (s.limits.tryAcquire src.ip).limits
      | .listener (.reject src _ _) => (s.limits.tryAcquire src.ip).limits
      | l => (freed cfg s l).foldl ConnLimits.release s.limits := by
  have hdrop : ∀ (t : State) (xs : List Session), t.limits = s.limits →
      (t.dropSessions xs).limits = (xs.map Session.slot).foldl ConnLimits.release s.limits := by
    intro t xs h
    rw [List.foldl_map, State.dropSessions, h]
  cases l with
  | env act =>
    cases act with
    | teardown => exact hdrop s _ rfl
    | _ => rfl
  | listener act =>
    cases act with
    | evict => exact hdrop s _ rfl
    | _ => rfl
  | setup i task act =>
    cases act with
    | dropSession => exact hdrop s _ rfl
    | insert => exact hdrop s _ rfl
    | _ => rfl
  | relay id side act => rfl
  | cleanup act =>
    cases act with
    | retain now => exact hdrop (s.cancelAll _) _ rfl
    | _ => rfl

/--
The limiter's `u32` counters do not wrap: they are capped, or fewer than 2^32 slots are held at once.
-/
def roomy (cfg : ProxyConfig) (s : State) (l : Label) : Prop :=
  0 < cfg.maxConnections ∨ (effect cfg s l).slots.card < 2 ^ 32

def ProxyConfig.caps (cfg : ProxyConfig) : Caps :=
  ⟨cfg.maxConnections.toNat, cfg.maxPerIp.toNat⟩

structure SlotInv (cfg : ProxyConfig) (s : State) : Prop where
  caps : s.limits.caps = ProxyConfig.caps cfg
  tallies : s.limits.Tallies s.slots
  within : (ProxyConfig.caps cfg).Within s.slots

theorem slotInv_start (cfg : ProxyConfig) : SlotInv cfg (start cfg) where
  caps := rfl
  tallies := ConnLimits.tallies_new cfg.maxConnections cfg.maxPerIp
  within := Caps.within_zero _

theorem SlotInv.acquire (hslots : SlotInv cfg s) {src : SocketAddr} {data : Packet} {slot : Guard}
    (hguard : guard s (.listener (.acquire src data slot)))
    (hok : roomy cfg s (.listener (.acquire src data slot)))
    : SlotInv cfg (effect cfg s (.listener (.acquire src data slot))) := by
  have hip := ConnLimits.srcIp_of_ok hguard.2
  have hnew : (effect cfg s (.listener (.acquire src data slot))).slots = src.ip ::ₘ s.slots := by
    have := slots_effect cfg hguard
    simpa [granted, freed, dropped, evicted, hip] using this.symm
  have hroom : 0 < s.limits.caps.total ∨ s.slots.card + 1 < 2 ^ 32 := by
    rw [hslots.caps]
    refine hok.imp UInt32.lt_iff_toNat_lt.mp ?_
    rw [hnew, Multiset.card_cons]
    exact id
  have hwithin := hslots.within
  rw [← hslots.caps] at hwithin
  have hacquire := hslots.tallies.acquire hwithin hguard.2 hroom
  constructor
  . simp only [effect, ListenerAct.effect, ConnLimits.caps_tryAcquire]
    exact hslots.caps
  . rw [hnew]
    exact hacquire.1
  . rw [hnew, ← hslots.caps]
    exact hacquire.2

theorem SlotInv.effect (hslots : SlotInv cfg s) (hguard : guard s l) (hok : roomy cfg s l)
    : SlotInv cfg (effect cfg s l) := by
  by_cases hacquire : ∃ src data slot, l = .listener (.acquire src data slot)
  . rcases hacquire with ⟨src, data, slot, rfl⟩
    exact hslots.acquire hguard hok
  . have hslotsEq := slots_effect cfg hguard
    have hgranted : granted l = [] := by
      unfold granted
      split
      . exact absurd ⟨_, _, _, rfl⟩ hacquire
      . rfl
    simp only [hgranted, List.map_nil, Multiset.coe_nil, zero_add] at hslotsEq
    have hlimits : (Udp.effect cfg s l).limits
        = (freed cfg s l).foldl ConnLimits.release s.limits := by
      rw [limits_effect]
      split
      . exact absurd ⟨_, _, _, rfl⟩ hacquire
      . apply ConnLimits.limits_of_error hguard.2
      . rfl
    constructor
    . rw [hlimits, ConnLimits.caps_foldl_release]
      exact hslots.caps
    . rw [hlimits]
      apply ConnLimits.Tallies.foldl_release
      rw [← hslotsEq]
      exact hslots.tallies
    . apply hslots.within.mono
      rw [hslotsEq]
      apply Multiset.le_add_left

structure Keyed (s : State) : Prop where
  listener : ∀ src data slot, s.listener = .admitted src data slot → slot.srcIp = src.ip
  tasks : ∀ task ∈ s.tasks, ∀ ip ∈ task.2.slots, ip = task.1.src.ip
  sessions : ∀ src session, s.sessions.lookup src = some session → session.slot.srcIp = src.ip

theorem keyed_start (cfg : ProxyConfig) : Keyed (start cfg) := by
  constructor <;> simp [start]

theorem SetupAct.slots_post {act : SetupAct} {ip : IpAddr} (h : ip ∈ act.post.slots)
    : ip ∈ act.pre.slots := by
  cases act <;> simp_all [SetupAct.pre, SetupAct.post, SetupPc.slots, SetupPc.openSlots,
    SetupPc.sessions]

theorem Keyed.tasks_effect (hkeyed : Keyed s) (hguard : guard s l)
    : ∀ task ∈ (effect cfg s l).tasks, ∀ ip ∈ task.2.slots, ip = task.1.src.ip := by
  intro task hmem ip hip
  cases l with
  | env act => cases act <;> exact hkeyed.tasks task hmem ip hip
  | listener act =>
    cases act with
    | spawn src data slot =>
      rcases List.mem_append.mp hmem with hmem | hmem
      . exact hkeyed.tasks task hmem ip hip
      . rw [List.mem_singleton] at hmem
        subst hmem
        have : ip = slot.srcIp := by
          simpa [SetupPc.slots, SetupPc.openSlots, SetupPc.sessions] using hip
        rw [this]
        exact hkeyed.listener src data slot hguard
    | _ => exact hkeyed.tasks task hmem ip hip
  | setup i task' act =>
    rcases List.mem_or_eq_of_mem_set hmem with hmem | rfl
    . exact hkeyed.tasks task hmem ip hip
    . exact hkeyed.tasks _ (List.mem_of_getElem? hguard.1) ip (SetupAct.slots_post hip)
  | relay id side act => exact hkeyed.tasks task hmem ip hip
  | cleanup act =>
    rw [effect, CleanupAct.tasks_effect] at hmem
    exact hkeyed.tasks task hmem ip hip

theorem Keyed.sessions_effect (hkeyed : Keyed s) (hguard : guard s l) {src : SocketAddr}
    {session : Session} (hlookup : (effect cfg s l).sessions.lookup src = some session)
    : session.slot.srcIp = src.ip := by
  cases l with
  | env act =>
    cases act with
    | teardown => simp [effect, EnvAct.effect] at hlookup
    | _ => exact hkeyed.sessions src session hlookup
  | listener act =>
    cases act with
    | evict src' data session' =>
      simp only [effect, ListenerAct.effect] at hlookup
      by_cases h : src = src'
      . subst h
        rw [AList.lookup_erase] at hlookup
        simp at hlookup
      . rw [AList.lookup_erase_ne h] at hlookup
        exact hkeyed.sessions src session hlookup
    | _ => exact hkeyed.sessions src session hlookup
  | setup i task act =>
    cases act with
    | insert session' =>
      simp only [effect, SetupAct.effect] at hlookup
      by_cases h : src = task.src
      . subst h
        rw [AList.lookup_insert, Option.some.injEq] at hlookup
        subst hlookup
        apply hkeyed.tasks _ (List.mem_of_getElem? hguard.1)
        simp [SetupAct.pre, SetupPc.slots, SetupPc.openSlots, SetupPc.sessions]
      . rw [AList.lookup_insert_ne h] at hlookup
        exact hkeyed.sessions src session hlookup
    | _ => exact hkeyed.sessions src session hlookup
  | relay id side act => exact hkeyed.sessions src session hlookup
  | cleanup act =>
    cases act with
    | retain now =>
      have hlookup : (s.sessions.retain _).lookup src = some session := hlookup
      rw [Dict.lookup_retain, Option.filter_eq_some_iff] at hlookup
      exact hkeyed.sessions src session hlookup.1
    | _ => exact hkeyed.sessions src session hlookup

theorem Keyed.effect (hkeyed : Keyed s) (hguard : guard s l) : Keyed (effect cfg s l) := by
  constructor
  . intro src data slot hlistener
    by_cases hl : ∃ act, l = .listener act
    . rcases hl with ⟨act, rfl⟩
      cases act <;> simp [Udp.effect, ListenerAct.effect] at hlistener
      case acquire src' data' slot' =>
        rcases hlistener with ⟨rfl, rfl, rfl⟩
        apply ConnLimits.srcIp_of_ok hguard.2
    . rw [listener_effect fun act h => hl ⟨act, h⟩] at hlistener
      exact hkeyed.listener src data slot hlistener
  . exact hkeyed.tasks_effect hguard
  . intro src session
    exact hkeyed.sessions_effect hguard

theorem Keyed.sessionSlots (hkeyed : Keyed s)
    : s.sessionSlots = (s.sessions.keys.map SocketAddr.ip : Multiset IpAddr) := by
  simp only [State.sessionSlots, Dict.values, Multiset.map_coe, List.map_map, AList.keys, List.keys]
  congr 1
  apply List.map_congr_left
  intro e hmem
  exact hkeyed.sessions e.1 e.2 (AList.mem_lookup_iff.mpr hmem)

/--
`serve_graceful` is still in its loop, or has left it without force_shutdown and not yet returned.
-/
def ListenerPc.isRunning : ListenerPc → Bool
  | .left (.forced _) => false
  | .returned _ => false
  | _ => true

def State.Running (s : State) : Prop :=
  s.listener.isRunning = true

instance (s : State) : Decidable s.Running :=
  inferInstanceAs (Decidable (_ = _))

theorem running_of_leave (h : s.listener.leave? = none) : s.Running := by
  unfold State.Running
  cases hlistener : s.listener <;> simp_all [ListenerPc.leave?, ListenerPc.isRunning]

theorem running_of_running_effect (hguard : guard s l) (hrunning : (effect cfg s l).Running)
    : s.Running := by
  cases l with
  | listener act =>
    apply running_of_leave
    apply leave_of_listener hguard
    rintro how rfl
    exact Bool.false_ne_true hrunning
  | _ =>
    rw [State.Running, listener_effect (by simp)] at hrunning
    exact hrunning

def GaugeInv (s : State) : Prop :=
  s.Running → s.active = s.sessions.size

theorem gaugeInv_start (cfg : ProxyConfig) : GaugeInv (start cfg) :=
  fun _ => rfl

theorem GaugeInv.effect (hgauge : GaugeInv s) (hguard : guard s l) : GaugeInv (effect cfg s l) := by
  intro hrunning
  have hbefore := hgauge (running_of_running_effect hguard hrunning)
  cases l with
  | env act =>
    cases act with
    | teardown =>
      have hreturned := hguard.1
      have hrunning : s.listener.isRunning = true := hrunning
      cases h : s.listener <;> simp_all [ListenerPc.isReturned, ListenerPc.isRunning]
    | _ => exact hbefore
  | listener act =>
    cases act with
    | shutdown => exact absurd hrunning Bool.false_ne_true
    | evict => rfl
    | _ => exact hbefore
  | setup i task act =>
    cases act with
    | insert => rfl
    | _ => exact hbefore
  | relay id side act => exact hbefore
  | cleanup act =>
    cases act with
    | retain now => rfl
    | _ => exact hbefore

def State.setupSlots (s : State) : Multiset IpAddr :=
  s.listener.slots + s.taskSlots

structure LimiterBooks (cfg : ProxyConfig) (s : State) : Prop where
  total : s.limits.state.total.toNat = s.sessions.size + s.setupSlots.card
  perIp : ∀ ip, (s.limits.currentIp ip).toNat
    = s.sessions.keys.countP (fun src => src.ip = ip) + s.setupSlots.count ip
  capPerIp : 0 < cfg.maxPerIp → ∀ ip,
    s.sessions.keys.countP (fun src => src.ip = ip) + s.setupSlots.count ip ≤ cfg.maxPerIp.toNat

theorem State.mem_taskMarks_iff {s : State} {src : SocketAddr}
    : src ∈ s.taskMarks
        ↔ ∃ (i : Nat) (task : Task) (pc : SetupPc),
            s.tasks[i]? = some (task, pc) ∧ pc ≠ .done ∧ task.src = src := by
  constructor
  . intro h
    rcases List.mem_sum_map.mp h with ⟨⟨task, pc⟩, hmem, hmark⟩
    rcases List.getElem?_of_mem hmem with ⟨i, hi⟩
    have hpc : pc ≠ .done := by
      rintro rfl
      exact Multiset.notMem_zero src hmark
    rw [SetupPc.marks_of_ne_done hpc, Multiset.mem_singleton] at hmark
    exact ⟨i, task, pc, hi, hpc, hmark.symm⟩
  . rintro ⟨i, task, pc, hi, hpc, rfl⟩
    apply State.mem_taskMarks hi hpc

theorem Keyed.count_slots (hkeyed : Keyed s) (ip : IpAddr)
    : s.slots.count ip
        = s.sessions.keys.countP (fun src => src.ip = ip) + s.setupSlots.count ip := by
  rw [State.slots, hkeyed.sessionSlots, Multiset.count_add]
  congr 1
  rw [Multiset.coe_count, List.count, List.countP_map]
  rfl

theorem State.card_slots (s : State) : s.slots.card = s.sessions.size + s.setupSlots.card := by
  rw [State.slots, Multiset.card_add, State.sessionSlots, Multiset.card_map, Dict.card_values]
  rfl

theorem slotInv_of_reach (h : (serveGraceful cfg).Reach (roomy cfg) (start cfg) s)
    : SlotInv cfg s := by
  apply h.invariant (slotInv_start cfg)
  exact fun _ _ hslots hguard hok => hslots.effect hguard hok

structure ResourceInv (s : State) : Prop where
  inv : Inv s
  keyed : Keyed s
  gauge : GaugeInv s

theorem resourceInv_of_reach {ok : State → Label → Prop}
    (h : (serveGraceful cfg).Reach ok (start cfg) s)
    : ResourceInv s := by
  apply h.invariant
  . exact ⟨inv_start cfg, keyed_start cfg, gaugeInv_start cfg⟩
  . intro s l hinv hguard _
    exact ⟨hinv.inv.effect hguard, hinv.keyed.effect hguard, hinv.gauge.effect hguard⟩

def uncappedProxy : ProxyConfig :=
  { dnsProxy with maxConnections := 0, maxPerIp := 0 }

def floodSource (n : Nat) : SocketAddr :=
  .v6 ⟨#v[0x20, 0x01, 0x0d, 0xb8, 0, 0, 0, 0, 0, 0, 0, 0, .ofNat (n / 2 ^ 24), .ofNat (n / 2 ^ 16),
    .ofNat (n / 2 ^ 8), .ofNat n]⟩ 4000 0 0

theorem floodSource_injective {n m : Nat} (hn : n < 2 ^ 32) (hm : m < 2 ^ 32)
    (h : floodSource n = floodSource m)
    : n = m := by
  simp only [floodSource, SocketAddr.v6.injEq, Ipv6Addr.mk.injEq, Vector.mk.injEq, Array.mk.injEq,
    List.cons.injEq, true_and, and_true] at h
  have hbyte : ∀ a b : Nat, UInt8.ofNat a = UInt8.ofNat b → a % 256 = b % 256 := by
    intro a b h
    simpa using congrArg UInt8.toNat h
  have := hbyte _ _ h.1
  have := hbyte _ _ h.2.1
  have := hbyte _ _ h.2.2.1
  have := hbyte _ _ h.2.2.2
  omega

structure Flood (n : Nat) (s : State) : Prop where
  listener : s.listener = .select
  force : s.forceShutdown = false
  stop : s.stopAccepting = false
  draining : s.draining = false
  sessions : s.sessions = ∅
  pending : ∀ src ∈ s.pending, ∃ k < n, src = floodSource k
  maxTotal : s.limits.maxTotal = 0
  maxPerIp : s.limits.maxPerIp = 0
  total : s.limits.state.total = UInt32.ofNat n
  slots : s.slots.card = n

def floodStep (src : SocketAddr) (s : State) : State :=
  { s with
    received := s.received ++ [(src, [])]
    pending := insert src s.pending
    limits := (s.limits.tryAcquire src.ip).limits
    tasks := s.tasks ++ [(⟨src, [], (s.received ++ [(src, [])]).length - 1⟩, .opening ⟨src.ip⟩)]
    listener := .select
  }

theorem Flood.tryAcquire {n : Nat} (hflood : Flood n s) (ip : IpAddr)
    : s.limits.tryAcquire ip = s.limits.grant ip := by
  simp [ConnLimits.tryAcquire, hflood.maxTotal, hflood.maxPerIp]

theorem Flood.notMem_pending {n : Nat} (hflood : Flood n s) (hn : n < 2 ^ 32)
    : floodSource n ∉ s.pending := by
  intro hmem
  rcases hflood.pending _ hmem with ⟨k, hk, heq⟩
  have := floodSource_injective hn (by omega) heq
  omega

theorem Flood.runs {n : Nat} (hflood : Flood n s) (hn : n < 2 ^ 32)
    : (serveGraceful uncappedProxy).Runs s
        (Label.arrival (floodSource n) [] ++ Label.admission (floodSource n) []) := by
  simp [Label.arrival, Label.admission, serveGraceful, guard, effect, ListenerAct.guard,
    ListenerAct.effect, hflood.listener, hflood.force, hflood.stop, hflood.draining,
    hflood.sessions, hflood.notMem_pending hn, hflood.tryAcquire, ConnLimits.grant]

theorem Flood.step {n : Nat} (hflood : Flood n s)
    : Flood (n + 1) (floodStep (floodSource n) s) := by
  have hslots := hflood.slots
  simp only [State.slots, State.sessionSlots, State.taskSlots, hflood.listener,
    ListenerPc.slots] at hslots
  constructor
  . rfl
  . exact hflood.force
  . exact hflood.stop
  . exact hflood.draining
  . exact hflood.sessions
  . intro src hmem
    rcases Finset.mem_insert.mp hmem with rfl | hmem
    . exact ⟨n, Nat.lt_succ_self n, rfl⟩
    . rcases hflood.pending src hmem with ⟨k, hk, heq⟩
      exact ⟨k, Nat.lt_succ_of_lt hk, heq⟩
  . simp only [floodStep, hflood.tryAcquire]
    exact hflood.maxTotal
  . simp only [floodStep, hflood.tryAcquire]
    exact hflood.maxPerIp
  . simp [floodStep, hflood.tryAcquire, ConnLimits.grant, hflood.total, UInt32.ofNat_add]
  . simp [floodStep, State.slots, State.sessionSlots, State.taskSlots, ListenerPc.slots,
      SetupPc.slots, SetupPc.openSlots, SetupPc.sessions] at hslots ⊢
    omega

end Udp
