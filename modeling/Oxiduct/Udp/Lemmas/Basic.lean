import Oxiduct.Udp.Resources

/-!
This module contains the invariants of ownership that hold on every run of the UDP proxy: the pending
set is what the guards hold, no session has two owners, and the sender of a session lives exactly as
long as somebody owns it.
-/

namespace Udp

open Limits

variable {cfg : ProxyConfig} {s : State} {l : Label}

@[simp]
theorem Cell.tx_trySend (c : Cell) (data : Packet) : (c.trySend data).tx = c.tx := by
  unfold Cell.trySend
  split <;> rfl

@[simp]
theorem Cell.cancel_trySend (c : Cell) (data : Packet) : (c.trySend data).cancel = c.cancel := by
  unfold Cell.trySend
  split <;> rfl

@[simp]
theorem Cell.tx_apply (c : Cell) (now : Nat) (side : Side) (act : RelayAct)
    : (act.apply now side c).tx = c.tx := by
  cases act <;> cases side <;> rfl

namespace State

@[simp]
theorem tx_dropSessions (s : State) (xs : List Session) (id : Nat)
    : ((s.dropSessions xs).cells id).tx
        = if id ∈ xs.map Session.id then false else (s.cells id).tx := by
  simp only [dropSessions]
  split <;> rfl

@[simp]
theorem cancel_dropSessions (s : State) (xs : List Session) (id : Nat)
    : ((s.dropSessions xs).cells id).cancel = (s.cells id).cancel := by
  simp only [dropSessions]
  split <;> rfl

@[simp]
theorem tx_cancelAll (s : State) (ids : List Nat) (id : Nat)
    : ((s.cancelAll ids).cells id).tx = (s.cells id).tx := by
  simp only [cancelAll]
  split <;> rfl

@[simp]
theorem cancel_cancelAll (s : State) (ids : List Nat) (id : Nat)
    : ((s.cancelAll ids).cells id).cancel = (decide (id ∈ ids) || (s.cells id).cancel) := by
  simp only [cancelAll]
  split <;> simp [*]

theorem cells_updCell (s : State) (id id' : Nat) (f : Cell → Cell)
    : (s.updCell id f).cells id' = if id' = id then f (s.cells id) else s.cells id' := by
  simp only [updCell, Function.update_apply]

theorem proj_updCell {α : Type} (s : State) (proj : Cell → α) (id id' : Nat) (f : Cell → Cell)
    (hproj : ∀ c, proj (f c) = proj c)
    : proj ((s.updCell id f).cells id') = proj (s.cells id') := by
  rw [cells_updCell]
  split
  . next h => rw [hproj, h]
  . rfl

end State

theorem Cell.cancel_apply {c : Cell} (now : Nat) (side : Side) (act : RelayAct)
    (h : c.cancel = true)
    : (act.apply now side c).cancel = true := by
  cases act <;> cases side <;> simp [RelayAct.apply, Cell.setPc, h]

theorem cancel_effect (cfg : ProxyConfig) {id : Nat} (hguard : guard s l) (hlt : id < s.nextId)
    (h : (s.cells id).cancel = true)
    : ((effect cfg s l).cells id).cancel = true := by
  cases l with
  | env act =>
    cases act with
    | teardown => simpa [effect, EnvAct.effect] using h
    | _ => exact h
  | listener act =>
    cases act with
    | hit src data session =>
      exact (s.proj_updCell Cell.cancel session.id id
        (fun c => { c with lastActivity := s.now }.trySend data)
        (fun _ => Cell.cancel_trySend _ _)).trans h
    | evict src data session => simpa [effect, ListenerAct.effect] using h
    | shutdown => simp [effect, ListenerAct.effect, h]
    | _ => exact h
  | setup i task act =>
    cases act with
    | openOk slot id' =>
      have : id' = s.nextId := hguard.2
      simp only [effect, SetupAct.effect, State.cells_updCell]
      rw [if_neg (by omega)]
      exact h
    | abort session => simp [effect, SetupAct.effect, h]
    | trySend session =>
      exact (s.proj_updCell Cell.cancel session.id id
        (fun c => c.trySend task.data) (fun _ => Cell.cancel_trySend _ _)).trans h
    | dropSession session => simpa [effect, SetupAct.effect] using h
    | insert session => simpa [effect, SetupAct.effect] using h
    | _ => exact h
  | relay id' side act =>
    simp only [effect, RelayAct.effect, State.cells_updCell]
    split
    . next heq =>
      rw [heq] at h
      apply Cell.cancel_apply _ _ _ h
    . exact h
  | cleanup act =>
    cases act with
    | retain now => simp [effect, CleanupAct.effect, retainPass, h]
    | _ => exact h

theorem listener_effect (hl : ∀ act, l ≠ .listener act)
    : (effect cfg s l).listener = s.listener := by
  cases l with
  | env act => cases act <;> rfl
  | listener act => exact absurd rfl (hl act)
  | setup i task act => cases act <;> rfl
  | relay id side act => rfl
  | cleanup act => apply CleanupAct.listener_effect

def ListenerPc.leave? : ListenerPc → Option Leave
  | .left how => some how
  | .returned how => some how
  | _ => none

theorem leave_of_listener {act : ListenerAct} (hguard : guard s (.listener act))
    (hact : ∀ how, act ≠ .leave how)
    : s.listener.leave? = none := by
  cases act with
  | pollForce => rcases hguard.1 with h | h <;> rw [h] <;> rfl
  | pollStop => rcases hguard.1 with h | h <;> rw [h] <;> rfl
  | readMap => rw [hguard]; rfl
  | shutdown => rw [hguard]; rfl
  | recv => rw [hguard]; rfl
  | recvErr => rw [hguard]; rfl
  | unmark => rw [hguard]; rfl
  | spawn => rw [hguard]; rfl
  | leave how => exact absurd rfl (hact how)
  | _ => rw [hguard.1]; rfl

theorem marks_start (cfg : ProxyConfig) : (start cfg).pending.val = (start cfg).marks := rfl

theorem marks_effect (hmarks : s.pending.val = s.marks) (hguard : guard s l)
    : (effect cfg s l).pending.val = (effect cfg s l).marks := by
  cases l with
  | env act => cases act <;> exact hmarks
  | listener act =>
    have heffect := ListenerAct.marks_effect hguard
    cases act with
    | mark src data =>
      dsimp only at heffect
      simp only [effect, State.marks, heffect.2]
      simp only [State.marks, heffect.1, zero_add] at hmarks
      simp only [ListenerAct.effect, State.taskMarks] at hmarks ⊢
      rw [Finset.insert_val_of_notMem hguard.2.2, hmarks, Multiset.singleton_add]
    | unmark src =>
      dsimp only at heffect
      simp only [effect, State.marks, heffect.2]
      simp only [State.marks, heffect.1] at hmarks
      simp only [ListenerAct.effect, State.taskMarks] at hmarks ⊢
      rw [Finset.erase_val, hmarks, Multiset.singleton_add, Multiset.erase_cons_head, zero_add]
    | spawn src data slot =>
      dsimp only at heffect
      simp only [effect, State.marks, heffect.2]
      simp only [State.marks, heffect.1] at hmarks
      simp only [ListenerAct.effect, State.taskMarks] at hmarks ⊢
      rw [hmarks]
      simp [SetupPc.marks, add_comm]
    | _ => exact hmarks.trans (congrArg (· + s.taskMarks) heffect.symm)
  | setup i task act =>
    rcases List.exists_sum_map_set (fun task => task.2.marks task.1.src) hguard.1 with
      ⟨rest, hbefore, hafter⟩
    rw [SetupAct.marks_pre] at hbefore
    change s.taskMarks = {task.src} + rest at hbefore
    have hafter : (effect cfg s (.setup i task act)).taskMarks
        = act.post.marks task.src + rest := hafter (task, act.post)
    simp only [State.marks, hbefore] at hmarks
    rw [State.marks, hafter]
    cases act with
    | dropGuard outcome =>
      simp only [effect, SetupAct.effect, SetupAct.post, SetupPc.marks, zero_add, Finset.erase_val]
      rw [hmarks, add_left_comm, Multiset.singleton_add, Multiset.erase_cons_head]
    | _ => exact hmarks
  | relay id side act => exact hmarks
  | cleanup act => simpa [effect, State.marks, State.taskMarks] using hmarks

theorem ids_effect (cfg : ProxyConfig) (hguard : guard s l)
    : ((made l).map Session.id : Multiset Nat) + s.ids
        = ((dropped cfg s l).map Session.id : Multiset Nat) + (effect cfg s l).ids := by
  have := congrArg (Multiset.map Session.id) (held_effect cfg hguard)
  simpa only [Multiset.map_add, Multiset.map_coe, State.ids] using this

theorem mem_ids_of_mem_sessionList {session : Session} (h : session ∈ s.sessionList)
    : session.id ∈ s.ids := by
  apply Multiset.mem_map_of_mem
  rw [State.held, Multiset.mem_add, ← State.coe_sessionList]
  exact .inl h

theorem mem_ids_of_task {i : Nat} {task : Task} {pc : SetupPc} {session : Session}
    (htask : s.tasks[i]? = some (task, pc)) (hmem : session ∈ pc.sessions)
    : session.id ∈ s.ids := by
  apply Multiset.mem_map_of_mem
  rw [State.held, Multiset.mem_add]
  exact .inr (State.mem_taskSessions htask hmem)

theorem nextId_effect (cfg : ProxyConfig) (s : State) (l : Label)
    : (effect cfg s l).nextId = s.nextId + (made l).length := by
  cases l with
  | env act => cases act <;> rfl
  | listener act => cases act <;> rfl
  | setup i task act => cases act <;> rfl
  | relay id side act => rfl
  | cleanup act => apply CleanupAct.nextId_effect

theorem id_of_mem_made (hguard : guard s l) {session : Session} (hmem : session ∈ made l)
    : session.id = s.nextId := by
  cases l with
  | setup i task act =>
    cases act with
    | openOk slot id =>
      rw [made, List.mem_singleton] at hmem
      rw [hmem]
      exact hguard.2
    | _ => simp [made] at hmem
  | _ => simp [made] at hmem

theorem made_length_le_one (l : Label) : (made l).length ≤ 1 := by
  unfold made
  split <;> simp

theorem tx_effect (cfg : ProxyConfig) (s : State) (l : Label) (id : Nat)
    : ((effect cfg s l).cells id).tx
        =
      if id ∈ (dropped cfg s l).map Session.id then
        false
      else if id ∈ (made l).map Session.id then
        true
      else
        (s.cells id).tx := by
  cases l with
  | env act =>
    cases act with
    | teardown => exact s.tx_dropSessions s.sessionList id
    | _ => rfl
  | listener act =>
    cases act with
    | evict src data session => exact s.tx_dropSessions [session] id
    | hit src data session =>
      exact s.proj_updCell Cell.tx session.id id
        (fun c => { c with lastActivity := s.now }.trySend data) (fun _ => Cell.tx_trySend _ _)
    | shutdown => exact s.tx_cancelAll _ id
    | _ => rfl
  | setup i task act =>
    cases act with
    | openOk slot id' =>
      simp only [effect, SetupAct.effect, State.cells_updCell, dropped, evicted, made]
      split <;> simp [*, Cell.opened]
    | abort session => exact s.tx_cancelAll _ id
    | trySend session =>
      exact s.proj_updCell Cell.tx session.id id
        (fun c => c.trySend task.data) (fun _ => Cell.tx_trySend _ _)
    | dropSession session => exact s.tx_dropSessions [session] id
    | insert session => exact s.tx_dropSessions _ id
    | _ => rfl
  | relay id' side act =>
    exact s.proj_updCell Cell.tx id' id
      (fun c => act.apply s.now side c) (fun _ => Cell.tx_apply _ _ _ _)
  | cleanup act =>
    cases act with
    | retain now =>
      simp only [effect, CleanupAct.effect, retainPass, State.tx_dropSessions, State.tx_cancelAll]
      rfl
    | _ => rfl

/--
What holds of the sessions on every run: each one has a single owner, its name has been given out,
and its sender is alive iff it has an owner.
-/
structure Owned (s : State) : Prop where
  nodup : s.ids.Nodup
  lt : ∀ id ∈ s.ids, id < s.nextId
  tx : ∀ id < s.nextId, (s.cells id).tx = true ↔ id ∈ s.ids

theorem owned_start (cfg : ProxyConfig) : Owned (start cfg) where
  nodup := Multiset.nodup_zero
  lt := by intro id h; exact absurd h (Multiset.notMem_zero id)
  tx := by intro id h; exact absurd h (Nat.not_lt_zero id)

theorem nodup_made_add_ids (howned : Owned s) (hguard : guard s l)
    : (((made l).map Session.id : Multiset Nat) + s.ids).Nodup := by
  rw [Multiset.nodup_add]
  refine ⟨?_, howned.nodup, ?_⟩
  . unfold made
    split <;> simp
  . rw [Multiset.disjoint_left]
    intro id hmade hid
    rcases List.mem_map.mp (Multiset.mem_coe.mp hmade) with ⟨session, hmem, rfl⟩
    have := howned.lt _ hid
    rw [id_of_mem_made hguard hmem] at this
    exact Nat.lt_irrefl _ this

theorem mem_ids_effect (cfg : ProxyConfig) (howned : Owned s) (hguard : guard s l) (id : Nat)
    : id ∈ (effect cfg s l).ids
        ↔
      id ∉ (dropped cfg s l).map Session.id ∧ (id ∈ (made l).map Session.id ∨ id ∈ s.ids) := by
  have hnodup := nodup_made_add_ids howned hguard
  have hmem : id ∈ ((made l).map Session.id : Multiset Nat) + s.ids
      ↔ id ∈ ((dropped cfg s l).map Session.id : Multiset Nat) + (effect cfg s l).ids := by
    rw [ids_effect cfg hguard]
  rw [ids_effect cfg hguard, Multiset.nodup_add] at hnodup
  have hdisjoint : id ∈ ((dropped cfg s l).map Session.id : Multiset Nat)
      → id ∉ (Udp.effect cfg s l).ids :=
    fun h => Multiset.disjoint_left.mp hnodup.2.2 h
  simp only [Multiset.mem_add, Multiset.mem_coe] at hmem hdisjoint
  constructor
  . intro hid
    exact ⟨fun hdropped => hdisjoint hdropped hid, hmem.mpr (.inr hid)⟩
  . intro h
    exact (hmem.mp h.2).resolve_left h.1

theorem Owned.effect (howned : Owned s) (hguard : guard s l) : Owned (effect cfg s l) := by
  have hmem := mem_ids_effect cfg howned hguard
  have hnodup := nodup_made_add_ids howned hguard
  have hmade : ∀ id ∈ (made l).map Session.id, id = s.nextId := by
    intro id hid
    rcases List.mem_map.mp hid with ⟨session, hsession, rfl⟩
    exact id_of_mem_made hguard hsession
  constructor
  . rw [ids_effect cfg hguard, Multiset.nodup_add] at hnodup
    exact hnodup.2.1
  . intro id hid
    rw [nextId_effect]
    rcases ((hmem id).mp hid).2 with h | h
    . have hpos : 0 < (made l).length := by
        simpa using List.length_pos_of_mem h
      rw [hmade id h]
      omega
    . have := howned.lt id h
      omega
  . intro id hid
    rw [nextId_effect] at hid
    rw [tx_effect, hmem id]
    by_cases hdropped : id ∈ (dropped cfg s l).map Session.id
    . simp [hdropped]
    . by_cases hnew : id ∈ (made l).map Session.id
      . simp [hdropped, hnew]
      . have hlt : id < s.nextId := by
          cases hl : made l with
          | nil => simpa [hl] using hid
          | cons session rest =>
            have hsession : session ∈ made l := by simp [hl]
            have := made_length_le_one l
            have : id ≠ s.nextId := by
              rintro rfl
              exact hnew (List.mem_map.mpr ⟨session, hsession, id_of_mem_made hguard hsession⟩)
            omega
        simp [hdropped, hnew, howned.tx id hlt]

structure Inv (s : State) : Prop where
  marks : s.pending.val = s.marks
  owned : Owned s

theorem inv_start (cfg : ProxyConfig) : Inv (start cfg) :=
  ⟨marks_start cfg, owned_start cfg⟩

theorem Inv.effect (hinv : Inv s) (hguard : guard s l) : Inv (effect cfg s l) :=
  ⟨marks_effect hinv.marks hguard, hinv.owned.effect hguard⟩

namespace Inv

variable (hinv : Inv s)

include hinv

theorem marks_nodup : s.marks.Nodup := by
  rw [← hinv.marks]
  exact s.pending.nodup

theorem mem_pending_iff (src : SocketAddr) : src ∈ s.pending ↔ src ∈ s.marks := by
  rw [← hinv.marks]
  rfl

theorem mem_pending_of_task {i : Nat} {task : Task} {pc : SetupPc}
    (htask : s.tasks[i]? = some (task, pc)) (hpc : pc ≠ .done)
    : task.src ∈ s.pending := by
  rw [hinv.mem_pending_iff, State.marks, Multiset.mem_add]
  exact .inr (State.mem_taskMarks htask hpc)

end Inv

end Udp
