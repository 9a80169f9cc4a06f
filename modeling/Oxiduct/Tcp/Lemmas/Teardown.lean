import Oxiduct.Tcp.Lemmas.Server

/-!
This module contains the end of a relay: how the steps that neither a peer nor the clock has to allow
take both copies to their ends once the watchdog has returned, or once one direction has failed.
-/

namespace Tcp

variable {conn : Conn} {s : State} {l : Label}

/--
The branches of `copy_dir` that wait for nothing but the token: the `cancelled()` branch of either
`select!`, the end of a write that has handed over the whole chunk, the shutdown of the write half
and the completion.
-/
def CopyAct.unaided : CopyAct → Bool
  | .stop => true
  | .shut => true
  | .stopWrite => true
  | .wrote => true
  | .report _ => true
  | _ => false

def Label.unaided : Label → Bool
  | .handle (.join ..) => true
  | .watch (.timer _) => false
  | .watch _ => true
  | .copy _ act => act.unaided
  | _ => false

def isCopy (dir : Dir) : Label → Bool
  | .copy dir' _ => dir' = dir
  | _ => false

def isReport (dir : Dir) : Label → Bool
  | .copy dir' (.report _) => dir' = dir
  | _ => false

def isTeardown (dir : Dir) : Label → Bool
  | .watch _ => true
  | .copy dir' _ => dir' = dir
  | _ => false

def Copy.failed (c : Copy) : Prop :=
  c.exit = some .readErr ∨ c.exit = some .writeErr

theorem HandleAct.pc_effect {act : HandleAct} (hact : act ≠ .start) (dir : Dir)
    : ((act.effect conn s).copy dir).pc = (s.copy dir).pc := by
  cases act with
  | connected =>
    simp only [effect]
    split <;> cases dir <;> rfl
  | start => exact absurd rfl hact
  | _ => cases dir <;> rfl

theorem HandleAct.eq_join {act : HandleAct} (hguard : act.guard s)
    (hspawned : s.handle.isSpawned = true)
    : ∃ reason checked, act = .join reason checked := by
  cases act with
  | join reason checked => exact ⟨reason, checked, rfl⟩
  | abortConnect => rcases hguard.1 with hpc | hpc <;> simp [hpc, HandlePc.isSpawned] at hspawned
  | abortHeader =>
    rcases hguard.1 with hpc | hpc
    . simp [hpc, HandlePc.isSpawned] at hspawned
    . simp [hpc.1, HandlePc.isSpawned] at hspawned
  | _ =>
    simp only [guard] at hguard
    simp_all [HandlePc.isSpawned]

theorem StreamInv.pc_ne_ended (h : StreamInv conn s) (hidle : s.handle.isSpawned = false) (dir : Dir)
    : (s.copy dir).pc ≠ .ended := by
  rw [h.copy_of_idle hidle]
  simp [Copy.new]

theorem ended_effect (hstream : StreamInv conn s) (hguard : guard conn s l) {dir : Dir}
    (hended : (s.copy dir).pc = .ended)
    : ((effect conn s l).copy dir).pc = .ended := by
  cases l with
  | env act => cases act <;> cases dir <;> exact hended
  | handle act =>
    by_cases hact : act = .start
    . subst hact
      exact absurd hended (hstream.pc_ne_ended (by rw [hguard]; rfl) dir)
    . exact (HandleAct.pc_effect hact dir).trans hended
  | watch act =>
    simp only [effect, WatchAct.copy_effect]
    exact hended
  | copy dir' act =>
    simp only [effect, CopyAct.copy_effect]
    split
    . next heq =>
      subst heq
      exact absurd hended (act.pc_of_guard hguard).2
    . exact hended

structure JoinedInv (conn : Conn) (s : State) : Prop where
  stream : StreamInv conn s
  ended : s.finished = true → s.handle.isSpawned = true → ∀ dir, (s.copy dir).pc = .ended

theorem joinedInv_accepted (conn : Conn) : JoinedInv conn accepted :=
  ⟨streamInv_accepted conn, fun h => by cases h⟩

theorem JoinedInv.effect (h : JoinedInv conn s) (hguard : guard conn s l)
    : JoinedInv conn (effect conn s l) := by
  refine ⟨h.stream.effect hguard, fun hfinished hspawned dir => ?_⟩
  cases l with
  | env act =>
    apply ended_effect h.stream hguard
    cases act <;> exact h.ended hfinished hspawned dir
  | handle act =>
    cases act with
    | join reason checked => cases dir <;> simp [Tcp.effect, HandleAct.effect, State.copy, hguard.2]
    | connected =>
      simp only [Tcp.effect, HandleAct.effect] at hspawned
      split at hspawned <;> cases hspawned
    | acceptHeader k =>
      have hpc : s.handle = .writingHeader := hguard.1
      simp only [Tcp.effect, HandleAct.effect, hpc] at hspawned
      cases hspawned
    | _ => simp [Tcp.effect, HandleAct.effect, State.finished, HandlePc.isReturned,
        HandlePc.isSpawned] at hfinished hspawned
  | watch act =>
    cases act with
    | recv wake dir' end_ =>
      cases end_ <;> cases dir' <;> cases hfinished
    | _ => cases hfinished
  | copy dir' act =>
    apply ended_effect h.stream hguard
    simp only [State.finished, Tcp.effect, CopyAct.handle_effect] at hfinished hspawned
    exact h.ended hfinished hspawned dir

theorem joinedInv_of_reach {ok : State → Label → Prop} (h : (connection conn).Reach ok accepted s)
    : JoinedInv conn s :=
  h.invariant (joinedInv_accepted conn) fun _ _ hinv hguard _ => hinv.effect hguard

theorem JoinedInv.pc_of_finished (h : JoinedInv conn s) (hfinished : s.finished = true) (dir : Dir)
    : (s.copy dir).pc = if s.handle.isSpawned then .ended else .unspawned := by
  cases hspawned : s.handle.isSpawned with
  | true => exact h.ended hfinished hspawned dir
  | false =>
    rw [h.stream.copy_of_idle hspawned dir]
    rfl

theorem isReport_iff {dir : Dir}
    : isReport dir l = true ↔ ∃ end_, l = .copy dir (.report end_) := by
  cases l with
  | copy dir' act => cases act <;> simp [isReport]
  | _ => simp [isReport]

def Copy.unreported (c : Copy) : Nat :=
  if c.pc = .ended then 0 else 1

theorem Copy.unreported_le (c : Copy) : c.unreported ≤ 1 := by
  unfold unreported
  split <;> omega

theorem countP_isReport_le {ls : List Label} (hstream : StreamInv conn s)
    (hruns : (connection conn).Runs s ls) (dir : Dir)
    : ls.countP (isReport dir) ≤ 1 := by
  have hle := Machine.countP_add_measure_le (StreamInv conn) (isReport dir)
    (fun s => (s.copy dir).unreported)
    (fun _ _ hinv hguard _ => hinv.effect hguard) ?_ ?_ hstream hruns (Machine.steps_true s ls)
  . have hone := (s.copy dir).unreported_le
    omega
  . intro s l hinv hguard _ hreport
    rcases isReport_iff.mp hreport with ⟨end_, rfl⟩
    have hpc : (s.copy dir).pc = .report := hguard.1
    simp [connection, effect, CopyAct.apply, Copy.unreported, hpc]
  . intro s l hinv hguard _ _
    unfold Copy.unreported
    split
    . omega
    . next hne =>
      have : (s.copy dir).pc ≠ .ended := fun hended => hne (ended_effect hinv hguard hended)
      rw [if_neg this]

structure ReportInv (s : State) : Prop where
  nodup : (s.done.map Prod.fst).Nodup
  done : ∀ dir end_, (dir, end_) ∈ s.done → (s.copy dir).pc = .ended
  dirDone : ∀ dir, s.dirDone dir = true → (s.copy dir).pc = .ended
  stopped : s.handle.verdict? ≠ none → s.cancel = true ∨ ∀ dir, (s.copy dir).pc = .ended

theorem reportInv_accepted : ReportInv accepted := by
  constructor
  . simp [accepted]
  . simp [accepted]
  . intro dir
    cases dir <;> simp [accepted, State.dirDone]
  . simp [accepted, HandlePc.verdict?]

namespace ReportInv

theorem of_ended (h : ReportInv s) {t : State}
    (hended : ∀ dir, (s.copy dir).pc = .ended → (t.copy dir).pc = .ended)
    (hdone : t.done.Sublist s.done)
    (hdirDone : ∀ dir, t.dirDone dir = true →
      s.dirDone dir = true ∨ ∃ end_, (dir, end_) ∈ s.done)
    (hstopped : t.handle.verdict? ≠ none →
      s.handle.verdict? ≠ none ∧ t.cancel = s.cancel
        ∨ t.cancel = true ∨ ∀ dir, s.dirDone dir = true)
    : ReportInv t := by
  constructor
  . exact h.nodup.sublist (hdone.map Prod.fst)
  . intro dir end_ hmem
    exact hended dir (h.done dir end_ (hdone.subset hmem))
  . intro dir hdir
    apply hended
    rcases hdirDone dir hdir with hdir | ⟨end_, hmem⟩
    . exact h.dirDone dir hdir
    . exact h.done dir end_ hmem
  . intro hverdict
    rcases hstopped hverdict with ⟨hbefore, hcancel⟩ | hcancel | hboth
    . rw [hcancel]
      exact (h.stopped hbefore).imp_right fun hall dir => hended dir (hall dir)
    . exact .inl hcancel
    . exact .inr fun dir => hended dir (h.dirDone dir (hboth dir))

theorem watch_effect {act : WatchAct} (h : ReportInv s) (hguard : act.guard conn s)
    : ReportInv (act.effect conn s) := by
  have hended : ∀ dir, (s.copy dir).pc = .ended → ((act.effect conn s).copy dir).pc = .ended := by
    intro dir
    rw [WatchAct.copy_effect]
    exact id
  cases act with
  | eof =>
    refine h.of_ended hended (List.Sublist.refl _) (fun _ hdir => .inl hdir) fun _ => ?_
    refine .inr (.inr ?_)
    rintro (_ | _)
    . exact hguard.2.1
    . exact hguard.2.2
  | recv wake dir end_ =>
    have htail : ((WatchAct.effect conn s (.recv wake dir end_)).done).Sublist s.done := by
      cases end_ <;> cases dir <;> exact List.tail_sublist _
    refine h.of_ended hended htail ?_ ?_
    . intro dir' hdir
      by_cases heq : dir' = dir
      . rw [heq]
        exact .inr ⟨end_, List.mem_of_mem_head? hguard.2.2⟩
      . left
        cases end_ <;> cases dir <;> cases dir' <;>
          first | exact hdir | exact absurd rfl heq
    . intro hverdict
      cases end_ with
      | err => exact .inr (.inl rfl)
      | eof => cases dir <;> simp [WatchAct.effect, HandlePc.verdict?] at hverdict
  | readClock =>
    refine h.of_ended hended (List.Sublist.refl _) (fun _ hdir => .inl hdir) ?_
    simp [WatchAct.effect, HandlePc.verdict?]
  | sleep now last =>
    refine h.of_ended hended (List.Sublist.refl _) (fun _ hdir => .inl hdir) ?_
    simp [WatchAct.effect, HandlePc.verdict?]
  | closed wake =>
    refine h.of_ended hended (List.Sublist.refl _) (fun _ hdir => .inl hdir) ?_
    simp [WatchAct.effect, HandlePc.verdict?]
  | timer wake =>
    refine h.of_ended hended (List.Sublist.refl _) (fun _ hdir => .inl hdir) ?_
    simp [WatchAct.effect, HandlePc.verdict?]
  | _ =>
    exact h.of_ended hended (List.Sublist.refl _) (fun _ hdir => .inl hdir)
      fun _ => .inr (.inl rfl)

theorem nodup_report {dir : Dir} {end_ : End} (h : ReportInv s)
    (hguard : CopyAct.guard conn s dir (.report end_))
    : ((CopyAct.effect s dir (.report end_)).done.map Prod.fst).Nodup := by
  simp only [CopyAct.done_effect]
  split
  . rw [List.map_append, List.nodup_append]
    refine ⟨h.nodup, List.nodup_singleton dir, ?_⟩
    intro dir₁ hmem₁ dir₂ hmem₂ heq
    rw [List.map_singleton, List.mem_singleton] at hmem₂
    rw [heq, hmem₂, List.mem_map] at hmem₁
    rcases hmem₁ with ⟨⟨dir', end_'⟩, hmem, rfl⟩
    have hpc := h.done dir' end_' hmem
    rw [hguard.1] at hpc
    cases hpc
  . exact h.nodup

theorem copy_effect {dir : Dir} {act : CopyAct} (h : ReportInv s) (hguard : act.guard conn s dir)
    : ReportInv (act.effect s dir) := by
  have hended : ∀ dir', (s.copy dir').pc = .ended → ((act.effect s dir).copy dir').pc = .ended := by
    intro dir' hpc
    rw [CopyAct.copy_effect]
    split
    . next heq =>
      subst heq
      exact absurd hpc (act.pc_of_guard hguard).2
    . exact hpc
  cases act with
  | report end_ =>
    constructor
    . exact h.nodup_report hguard
    . intro dir' end_' hmem
      rcases CopyAct.mem_done_effect hmem with hmem | ⟨rfl, _⟩
      . exact hended dir' (h.done dir' end_' hmem)
      . rw [CopyAct.copy_effect, if_pos rfl]
        rfl
    . intro dir' hdir
      rw [CopyAct.dirDone_effect] at hdir
      exact hended dir' (h.dirDone dir' hdir)
    . rw [CopyAct.handle_effect, CopyAct.cancel_effect]
      exact fun hverdict => (h.stopped hverdict).imp_right fun hall dir' => hended dir' (hall dir')
  | _ =>
    refine h.of_ended hended ?_ ?_ ?_
    . rw [CopyAct.done_effect]
    . intro dir' hdir
      rw [CopyAct.dirDone_effect] at hdir
      exact .inl hdir
    . rw [CopyAct.handle_effect, CopyAct.cancel_effect]
      exact fun hverdict => .inl ⟨hverdict, rfl⟩

protected theorem effect (hstream : StreamInv conn s) (h : ReportInv s) (hguard : guard conn s l)
    : ReportInv (effect conn s l) := by
  cases l with
  | env act => cases act <;> exact ⟨h.nodup, h.done, h.dirDone, h.stopped⟩
  | handle act =>
    rcases HandleAct.effect_frame conn s act with ⟨_, _, hcancel, hdone, hdirDone⟩
    refine h.of_ended (fun dir => ended_effect (l := .handle act) hstream hguard) ?_ ?_ ?_
    . simp only [Tcp.effect, hdone]
      apply List.Sublist.refl
    . intro dir hdir
      rw [Tcp.effect, hdirDone] at hdir
      exact .inl hdir
    . intro hverdict
      rw [Tcp.effect, HandleAct.verdict?_effect hguard] at hverdict
      exact .inl ⟨hverdict, hcancel⟩
  | watch act => exact h.watch_effect hguard
  | copy dir act => exact h.copy_effect hguard

theorem length_le_of_nodup {dirs : List Dir} (hnodup : dirs.Nodup)
    : dirs.length ≤ doneCapacity := by
  have hsubset : dirs ⊆ [.up, .down] := by
    intro dir _
    cases dir <;> simp
  exact (List.subperm_of_subset hnodup hsubset).length_le

theorem length_le (h : ReportInv s) : s.done.length ≤ doneCapacity := by
  have hlength := length_le_of_nodup h.nodup
  rwa [List.length_map] at hlength

theorem length_lt (h : ReportInv s) {dir : Dir} (hpc : (s.copy dir).pc ≠ .ended)
    : s.done.length < doneCapacity := by
  have hnew : dir ∉ s.done.map Prod.fst := by
    intro hmem
    rcases List.mem_map.mp hmem with ⟨⟨dir', end_⟩, hdone, rfl⟩
    exact hpc (h.done dir' end_ hdone)
  have hlength := length_le_of_nodup (h.nodup.cons hnew)
  rw [List.length_cons, List.length_map] at hlength
  exact hlength

end ReportInv

structure TeardownInv (conn : Conn) (s : State) : Prop where
  relay : RelayInv conn s
  report : ReportInv s

protected theorem TeardownInv.effect (h : TeardownInv conn s) (hguard : guard conn s l)
    : TeardownInv conn (effect conn s l) :=
  ⟨h.relay.effect hguard, h.report.effect h.relay.stream hguard⟩

theorem teardownInv_of_reach {ok : State → Label → Prop}
    (h : (connection conn).Reach ok accepted s)
    : TeardownInv conn s :=
  h.invariant ⟨relayInv_accepted conn, reportInv_accepted⟩
    (fun _ _ hinv hguard _ => hinv.effect hguard)

def Copy.rank (c : Copy) : Nat :=
  match c.pc with
  | .unspawned => 0
  | .select => 2
  | .polled => 3
  | .chunk => 2
  | .writing => 3 + c.buf.length
  | .shutdown => 2
  | .report => 1
  | .ended => 0

def State.stopping (s : State) (dir : Dir) : Prop :=
  s.cancel = true ∨ (s.copy dir).exit ≠ none

theorem CopyInv.rank_le {dir : Dir} {c : Copy} (h : CopyInv conn dir c) : c.rank ≤ bufSize + 3 := by
  have hbuf := h.buf
  have hchunk := h.chunk
  unfold Copy.rank
  cases c.pc <;> simp only <;> omega

theorem StreamInv.rank_le (h : StreamInv conn s) (dir : Dir) : (s.copy dir).rank ≤ bufSize + 3 := by
  cases hspawned : s.handle.isSpawned with
  | true => exact (h.spawned hspawned dir).rank_le
  | false =>
    rw [h.copy_of_idle hspawned dir]
    simp [Copy.rank, Copy.new]

theorem State.stopping.cancel_eq_true {dir : Dir} (h : s.stopping dir)
    (hcopy : CopyInv conn dir (s.copy dir))
    (hpc : (s.copy dir).pc ≠ .shutdown ∧ (s.copy dir).pc ≠ .report ∧ (s.copy dir).pc ≠ .ended)
    : s.cancel = true :=
  h.resolve_right (fun hne => hne (hcopy.exit_eq_none hpc))

theorem CopyAct.rank_apply {dir : Dir} {act : CopyAct} (hcopy : CopyInv conn dir (s.copy dir))
    (hstop : s.stopping dir) (hguard : act.guard conn s dir)
    : (act.apply s.now (s.copy dir)).rank < (s.copy dir).rank := by
  cases act with
  | poll =>
    -- the token is set, its branch comes first
    have hcancel := hstop.cancel_eq_true hcopy (by simp [hguard.1])
    rw [hguard.2] at hcancel
    cases hcancel
  | pollWrite =>
    have hcancel := hstop.cancel_eq_true hcopy (by simp [hguard.1])
    rw [hguard.2] at hcancel
    cases hcancel
  | stop => rcases hguard.1 with hpc | hpc <;> simp [apply, Copy.rank, hpc]
  | stopWrite =>
    rcases hguard.1 with hpc | hpc
    . simp [apply, Copy.rank, hpc]
    . simp only [apply, Copy.rank, hpc.1]
      omega
  | accept k =>
    have hk := hguard.2
    simp only [apply, Copy.rank, hguard.1, List.length_drop]
    omega
  | wrote =>
    simp only [apply, Copy.rank, hguard.1]
    omega
  | writeErr =>
    simp only [apply, Copy.rank, hguard.1]
    omega
  | readEof =>
    have hpc : (s.copy dir).pc = .polled := hguard
    simp [apply, Copy.rank, hpc]
  | readErr =>
    have hpc : (s.copy dir).pc = .polled := hguard
    simp [apply, Copy.rank, hpc]
  | shut =>
    have hpc : (s.copy dir).pc = .shutdown := hguard
    simp [apply, Copy.rank, hpc]
  | _ => simp [apply, Copy.rank, hguard.1]

theorem TeardownInv.exists_report (h : TeardownInv conn s) {dir : Dir}
    (hcopy : CopyInv conn dir (s.copy dir)) (hpc : (s.copy dir).pc = .report)
    : ∃ end_, CopyAct.guard conn s dir (.report end_) := by
  have hne : (s.copy dir).pc ≠ .ended := by simp [hpc]
  rcases Option.ne_none_iff_exists'.mp (hcopy.exit.mpr (.inr (.inl hpc))) with ⟨exit, hexit⟩
  exact ⟨exit.reported, hpc, by rw [hexit]; rfl, fun _ => h.report.length_lt hne⟩

theorem TeardownInv.exists_unaided (h : TeardownInv conn s) {dir : Dir}
    (hcopy : CopyInv conn dir (s.copy dir)) (hstop : s.stopping dir)
    (hne : (s.copy dir).pc ≠ .ended)
    : ∃ act, act.unaided = true ∧ CopyAct.guard conn s dir act := by
  cases hpc : (s.copy dir).pc with
  | unspawned => exact absurd hpc hcopy.spawned
  | select =>
    have hcancel := hstop.cancel_eq_true hcopy (by simp [hpc])
    exact ⟨.stop, rfl, .inl hpc, hcancel⟩
  | polled =>
    have hcancel := hstop.cancel_eq_true hcopy (by simp [hpc])
    exact ⟨.stop, rfl, .inr hpc, hcancel⟩
  | chunk =>
    have hcancel := hstop.cancel_eq_true hcopy (by simp [hpc])
    exact ⟨.stopWrite, rfl, .inl hpc, hcancel⟩
  | writing =>
    by_cases hbuf : (s.copy dir).buf = []
    . exact ⟨.wrote, rfl, hpc, hbuf⟩
    . have hcancel := hstop.cancel_eq_true hcopy (by simp [hpc])
      exact ⟨.stopWrite, rfl, .inr ⟨hpc, hbuf⟩, hcancel⟩
  | shutdown => exact ⟨.shut, rfl, hpc⟩
  | report =>
    rcases h.exists_report hcopy hpc with ⟨end_, hguard⟩
    exact ⟨.report end_, rfl, hguard⟩
  | ended => exact absurd hpc hne

theorem HandlePc.isSpawned_of_verdict? {pc : HandlePc} (h : pc.verdict? ≠ none)
    : pc.isSpawned = true := by
  cases pc with
  | joining reason checked => rfl
  | returned outcome checked =>
    cases outcome with
    | relayed reason => rfl
    | _ => exact absurd rfl h
  | _ => exact absurd rfl h

theorem verdict?_effect (hguard : guard conn s l) (hverdict : s.handle.verdict? ≠ none)
    : (effect conn s l).handle.verdict? = s.handle.verdict? := by
  cases l with
  | env act => cases act <;> rfl
  | handle act => exact act.verdict?_effect hguard
  | watch act =>
    refine absurd ?_ hverdict
    cases act <;> rw [hguard.1] <;> rfl
  | copy dir act => rw [effect, CopyAct.handle_effect]

namespace TeardownInv

theorem copy (h : TeardownInv conn s) (hspawned : s.handle.isSpawned = true) (dir : Dir)
    : CopyInv conn dir (s.copy dir) :=
  h.relay.stream.spawned hspawned dir

theorem stopping (h : TeardownInv conn s) (hverdict : s.handle.verdict? ≠ none) (dir : Dir)
    : s.stopping dir := by
  have hcopy := h.copy (HandlePc.isSpawned_of_verdict? hverdict) dir
  refine (h.report.stopped hverdict).imp_right ?_
  intro hended
  exact hcopy.exit.mpr (.inr (.inr (hended dir)))

end TeardownInv

theorem rank_effect_eq (hguard : guard conn s l) (hspawned : s.handle.isSpawned = true) {dir : Dir}
    (hother : isCopy dir l = false)
    : ((effect conn s l).copy dir).rank = (s.copy dir).rank := by
  cases l with
  | env act => cases act <;> cases dir <;> rfl
  | handle act =>
    rcases HandleAct.eq_join hguard hspawned with ⟨reason, checked, rfl⟩
    cases dir <;> rfl
  | watch act => rw [effect, WatchAct.copy_effect]
  | copy dir' act =>
    have hne : dir ≠ dir' := by
      rintro rfl
      simp [isCopy] at hother
    rw [effect, CopyAct.copy_effect, if_neg hne]

theorem rank_effect_lt (h : TeardownInv conn s) (hguard : guard conn s l) {dir : Dir}
    (hstop : s.stopping dir) (hown : isCopy dir l = true)
    : ((effect conn s l).copy dir).rank < (s.copy dir).rank := by
  cases l with
  | copy dir' act =>
    have heq : dir' = dir := by simpa [isCopy] using hown
    subst heq
    rw [effect, CopyAct.copy_effect, if_pos rfl]
    exact act.rank_apply (h.copy (h.relay.stream.isSpawned_of_copy hguard) dir') hstop hguard
  | _ => cases hown

theorem TeardownInv.countP_isCopy_le (h : TeardownInv conn s) (hverdict : s.handle.verdict? ≠ none)
    (dir : Dir) {ls : List Label} (hruns : (connection conn).Runs s ls)
    : ls.countP (isCopy dir) ≤ bufSize + 3 := by
  have hle := Machine.countP_add_measure_le
    (fun s => TeardownInv conn s ∧ s.handle.verdict? ≠ none) (isCopy dir)
    (fun s => (s.copy dir).rank) ?_ ?_ ?_ ⟨h, hverdict⟩ hruns (Machine.steps_true s ls)
  . have hrank := h.relay.stream.rank_le dir
    omega
  . rintro s l ⟨hinv, hverdict⟩ hguard _
    refine ⟨hinv.effect hguard, ?_⟩
    exact (verdict?_effect hguard hverdict).trans_ne hverdict
  . rintro s l ⟨hinv, hverdict⟩ hguard _ hown
    exact rank_effect_lt hinv hguard (hinv.stopping hverdict dir) hown
  . rintro s l ⟨hinv, hverdict⟩ hguard _ hother
    have hspawned := HandlePc.isSpawned_of_verdict? hverdict
    exact (rank_effect_eq hguard hspawned (by simpa using hother)).le

def Dir.other : Dir → Dir
  | .up => .down
  | .down => .up

theorem CopyAct.unreported_effect {dir : Dir} {act : CopyAct} (hguard : act.guard conn s dir)
    : (act.effect s dir).watchRank + 3 * ((act.effect s dir).copy dir).unreported
        ≤ s.watchRank + 3 * (s.copy dir).unreported := by
  have hbefore : (s.copy dir).unreported = 1 := if_neg (act.pc_of_guard hguard).2
  have hafter := (act.apply s.now (s.copy dir)).unreported_le
  rw [hbefore]
  simp only [State.watchRank, CopyAct.handle_effect, CopyAct.copy_effect, ↓reduceIte]
  cases act with
  | report end_ =>
    simp only [CopyAct.done_effect, CopyAct.apply, Copy.unreported, ↓reduceIte]
    split
    . rw [List.length_append, List.length_singleton]
      omega
    . omega
  | _ =>
    simp only [CopyAct.done_effect]
    omega

/--
What the watchdog and the copy of `dir` still do before the watchdog returns, once that copy has
failed. The other copy may add its completion.
-/
def State.resetRank (s : State) (dir : Dir) : Nat :=
  4 * (s.copy dir).rank + 3 * (s.copy dir.other).unreported + s.watchRank

theorem isSpawned_effect (hguard : guard conn s l) (hspawned : s.handle.isSpawned = true)
    : (effect conn s l).handle.isSpawned = true := by
  cases l with
  | env act => cases act <;> exact hspawned
  | handle act =>
    rcases HandleAct.eq_join hguard hspawned with ⟨reason, checked, rfl⟩
    rfl
  | watch act => exact (StreamInv.watch_isSpawned hguard).2
  | copy dir act =>
    rw [effect, CopyAct.handle_effect]
    exact hspawned

structure Failing (conn : Conn) (dir : Dir) (s : State) : Prop where
  teardown : TeardownInv conn s
  spawned : s.handle.isSpawned = true
  failed : (s.copy dir).failed

namespace Failing

variable {dir : Dir}

theorem stopping (h : Failing conn dir s) : s.stopping dir := by
  refine .inr ?_
  rcases h.failed with hexit | hexit <;> simp [hexit]

theorem effect (h : Failing conn dir s) (hguard : guard conn s l)
    : Failing conn dir (effect conn s l) where
  teardown := h.teardown.effect hguard
  spawned := isSpawned_effect hguard h.spawned
  failed := h.failed.imp (exit_effect h.teardown.relay.stream hguard)
    (exit_effect h.teardown.relay.stream hguard)

theorem resetRank_le (h : Failing conn dir s) : s.resetRank dir ≤ 20 := by
  have hcopy := h.teardown.copy h.spawned dir
  have hexit : (s.copy dir).exit ≠ none := by
    rcases h.failed with hexit | hexit <;> simp [hexit]
  have hrank : (s.copy dir).rank ≤ 2 := by
    rcases hcopy.exit.mp hexit with hpc | hpc | hpc <;> simp [Copy.rank, hpc]
  have hother := (s.copy dir.other).unreported_le
  have hdone := h.teardown.report.length_le
  have hwatch : s.handle.rank ≤ 3 := by
    cases s.handle with
    | watch pc => cases pc <;> simp [HandlePc.rank, WatchPc.rank]
    | _ => simp [HandlePc.rank]
  unfold doneCapacity at hdone
  unfold State.resetRank State.watchRank
  omega

theorem resetRank_effect_lt (h : Failing conn dir s) (hguard : guard conn s l)
    (hown : isTeardown dir l = true) (htimer : ∀ wake, l ≠ .watch (.timer wake))
    : (Tcp.effect conn s l).resetRank dir < s.resetRank dir := by
  cases l with
  | watch act =>
    have hwatch := act.rank_effect h.teardown.relay.channel hguard
      (fun wake heq => htimer wake (by rw [heq]))
    simp only [State.resetRank, Tcp.effect, WatchAct.copy_effect]
    omega
  | copy dir' act =>
    have heq : dir' = dir := by simpa [isTeardown] using hown
    subst heq
    have hrank := rank_effect_lt h.teardown hguard h.stopping (by simp [isCopy])
    have hreport := act.unreported_effect hguard
    have hbefore := (s.copy dir').unreported_le
    have hother : dir'.other ≠ dir' := by cases dir' <;> simp [Dir.other]
    simp only [State.resetRank, Tcp.effect, CopyAct.copy_effect _ _ _ dir'.other, if_neg hother]
      at hrank ⊢
    omega
  | _ => cases hown

theorem resetRank_effect_le (h : Failing conn dir s) (hguard : guard conn s l)
    (hother : isTeardown dir l = false)
    : (Tcp.effect conn s l).resetRank dir ≤ s.resetRank dir := by
  cases l with
  | env act => cases act <;> cases dir <;> apply Nat.le_refl
  | handle act =>
    rcases HandleAct.eq_join hguard h.spawned with ⟨reason, checked, rfl⟩
    cases dir <;> simp [State.resetRank, State.watchRank, Tcp.effect, HandleAct.effect, State.copy,
      Dir.other, HandlePc.rank]
  | watch act => cases hother
  | copy dir' act =>
    have hne : dir ≠ dir' := by
      rintro rfl
      simp [isTeardown] at hother
    have heq : dir' = dir.other := by cases dir <;> cases dir' <;> simp_all [Dir.other]
    have hreport := act.unreported_effect hguard
    subst heq
    simp only [State.resetRank, Tcp.effect, CopyAct.copy_effect _ _ _ dir, if_neg hne]
    omega

theorem countP_isTeardown_le (h : Failing conn dir s) {ls : List Label}
    (hruns : (connection conn).Runs s ls)
    (htimer : (connection conn).Steps (fun _ l => ∀ wake, l ≠ .watch (.timer wake)) s ls)
    : ls.countP (isTeardown dir) ≤ 20 := by
  have hle := Machine.countP_add_measure_le (Failing conn dir) (isTeardown dir)
    (fun s => s.resetRank dir) (fun _ _ hinv hguard _ => hinv.effect hguard) ?_ ?_ h hruns htimer
  . have hrank := h.resetRank_le
    omega
  . intro s l hinv hguard htimer hown
    exact hinv.resetRank_effect_lt hguard hown htimer
  . intro s l hinv hguard _ hother
    exact hinv.resetRank_effect_le hguard (by simpa using hother)

theorem exists_unaided (h : Failing conn dir s) {pc : WatchPc} (hpc : s.handle = .watch pc)
    : ∃ l, isTeardown dir l = true ∧ l.unaided = true ∧ (connection conn).guard s l := by
  by_cases hended : (s.copy dir).pc = .ended
  . have hnot : s.dirDone dir ≠ true := by
      intro hdir
      have hexit := h.teardown.relay.watch.dirDone dir hdir
      rcases h.failed with hfailed | hfailed <;> simp [hfailed] at hexit
    have halive : s.receiverAlive = true := by rw [State.receiverAlive, hpc]
    rcases (h.teardown.relay.channel.ended halive dir hended).resolve_left hnot with ⟨end_, hmem⟩
    rcases h.teardown.relay.channel.exists_watch conn hpc (fun _ _ => List.ne_nil_of_mem hmem) with
      ⟨act, hguard, htimer⟩
    refine ⟨.watch act, rfl, ?_, hguard⟩
    cases act with
    | timer wake => exact absurd rfl (htimer wake)
    | _ => rfl
  . rcases h.teardown.exists_unaided (h.teardown.copy h.spawned dir) h.stopping hended with
      ⟨act, hunaided, hguard⟩
    exact ⟨.copy dir act, by simp [isTeardown], hunaided, hguard⟩

theorem handle_effect (h : Failing conn dir s) (hguard : guard conn s l) {pc : WatchPc}
    (hpc : s.handle = .watch pc)
    : (∃ pc', (Tcp.effect conn s l).handle = .watch pc') ∨ (Tcp.effect conn s l).joining := by
  cases l with
  | env act => cases act <;> exact .inl ⟨pc, hpc⟩
  | handle act =>
    rcases HandleAct.eq_join hguard h.spawned with ⟨reason, checked, rfl⟩
    rw [hguard.1] at hpc
    cases hpc
  | watch act => exact act.handle_effect conn s
  | copy dir' act => exact .inl ⟨pc, (act.handle_effect s dir').trans hpc⟩

theorem exists_joining (h : Failing conn dir s) {pc : WatchPc} (hpc : s.handle = .watch pc)
    : ∃ ls, (connection conn).Runs s ls ∧ ls.all Label.unaided = true
        ∧ TeardownInv conn ((connection conn).exec s ls)
        ∧ ((connection conn).exec s ls).joining := by
  have hstep : ∀ t, (Failing conn dir t ∧ ((∃ pc, t.handle = .watch pc) ∨ t.joining)) →
      ¬ t.joining → ∃ l, (connection conn).guard t l ∧ l.unaided = true
        ∧ (Failing conn dir ((connection conn).effect t l)
          ∧ ((∃ pc, ((connection conn).effect t l).handle = .watch pc)
            ∨ ((connection conn).effect t l).joining))
        ∧ ((connection conn).effect t l).resetRank dir < t.resetRank dir := by
    rintro t ⟨ht, hhandle⟩ hgoal
    rcases hhandle.resolve_right hgoal with ⟨pc, hpc⟩
    rcases ht.exists_unaided hpc with ⟨l, hown, hunaided, hguard⟩
    refine ⟨l, hguard, hunaided, ⟨ht.effect hguard, ht.handle_effect hguard hpc⟩, ?_⟩
    refine ht.resetRank_effect_lt hguard hown ?_
    rintro wake rfl
    cases hunaided
  rcases Machine.exists_run_of_measure _ State.joining Label.unaided (fun t => t.resetRank dir)
    hstep ⟨h, .inl ⟨pc, hpc⟩⟩ with ⟨ls, hruns, hall, hlast, hjoining⟩
  exact ⟨ls, hruns, hall, hlast.1.teardown, hjoining⟩

end Failing

theorem HandlePc.eq_of_verdict? {pc : HandlePc} {reason : Reason} {checked : Option (Nat × Nat)}
    (h : pc.verdict? = some (reason, checked))
    : pc = .joining reason checked ∨ pc = .returned (.relayed reason) checked := by
  cases pc with
  | joining reason' checked' =>
    cases h
    exact .inl rfl
  | returned outcome checked' =>
    cases outcome with
    | relayed reason' =>
      cases h
      exact .inr rfl
    | _ => cases h
  | _ => cases h

def State.joinRank (s : State) : Nat :=
  s.up.rank + s.down.rank + if s.finished then 0 else 1

theorem TeardownInv.exists_join_step (h : TeardownInv conn s) {reason : Reason}
    {checked : Option (Nat × Nat)} (hpc : s.handle = .joining reason checked)
    : ∃ l, (connection conn).guard s l ∧ l.unaided = true
        ∧ ((connection conn).effect s l).joinRank < s.joinRank := by
  have hverdict : s.handle.verdict? ≠ none := by simp [hpc, HandlePc.verdict?]
  have hspawned := HandlePc.isSpawned_of_verdict? hverdict
  by_cases hended : ∀ dir, (s.copy dir).pc = .ended
  . refine ⟨.handle (.join reason checked), ⟨hpc, hended .up, hended .down⟩, rfl, ?_⟩
    simp [State.joinRank, connection, effect, HandleAct.effect, State.finished, HandlePc.isReturned,
      hpc]
  . rcases not_forall.mp hended with ⟨dir, hne⟩
    rcases h.exists_unaided (h.copy hspawned dir) (h.stopping hverdict dir) hne with
      ⟨act, hunaided, hguard⟩
    refine ⟨.copy dir act, hguard, hunaided, ?_⟩
    have hrank := rank_effect_lt (l := .copy dir act) h hguard (h.stopping hverdict dir)
      (by simp [isCopy])
    have hother : ((effect conn s (.copy dir act)).copy dir.other).rank
        = (s.copy dir.other).rank := by
      apply rank_effect_eq (l := .copy dir act) hguard hspawned
      cases dir <;> simp [isCopy, Dir.other]
    have hfinished : (effect conn s (.copy dir act)).finished = s.finished := by
      rw [State.finished, effect, CopyAct.handle_effect]
      rfl
    simp only [State.joinRank, connection, hfinished]
    cases dir with
    | up =>
      simp only [State.copy, Dir.other] at hrank hother
      omega
    | down =>
      simp only [State.copy, Dir.other] at hrank hother
      omega

theorem TeardownInv.exists_returned (h : TeardownInv conn s) {reason : Reason}
    {checked : Option (Nat × Nat)} (hpc : s.handle = .joining reason checked)
    : ∃ ls, (connection conn).Runs s ls ∧ ls.all Label.unaided = true
        ∧ ((connection conn).exec s ls).handle = .returned (.relayed reason) checked := by
  have hstep : ∀ t, (TeardownInv conn t ∧ t.handle.verdict? = some (reason, checked)) →
      t.handle ≠ .returned (.relayed reason) checked →
      ∃ l, (connection conn).guard t l ∧ l.unaided = true
        ∧ (TeardownInv conn ((connection conn).effect t l)
          ∧ ((connection conn).effect t l).handle.verdict? = some (reason, checked))
        ∧ ((connection conn).effect t l).joinRank < t.joinRank := by
    rintro t ⟨ht, hverdict⟩ hgoal
    have hpc := (HandlePc.eq_of_verdict? hverdict).resolve_right hgoal
    rcases ht.exists_join_step hpc with ⟨l, hguard, hunaided, hrank⟩
    refine ⟨l, hguard, hunaided, ⟨ht.effect hguard, ?_⟩, hrank⟩
    exact (verdict?_effect hguard (by simp [hverdict])).trans hverdict
  rcases Machine.exists_run_of_measure _ _ Label.unaided State.joinRank hstep
    ⟨h, by simp [hpc, HandlePc.verdict?]⟩ with ⟨ls, hruns, hall, _, hreturned⟩
  exact ⟨ls, hruns, hall, hreturned⟩

def State.ending (s : State) : Prop :=
  s.handle.verdict? ≠ none ∨ ∃ pc dir, s.handle = .watch pc ∧ (s.copy dir).failed

theorem ending_effect (h : TeardownInv conn s) (hguard : guard conn s l) (hending : s.ending)
    : (effect conn s l).ending := by
  rcases hending with hverdict | ⟨pc, dir, hpc, hfailed⟩
  . exact .inl ((verdict?_effect hguard hverdict).trans_ne hverdict)
  . have hfailing : Failing conn dir s := ⟨h, by rw [hpc]; rfl, hfailed⟩
    rcases hfailing.handle_effect hguard hpc with ⟨pc', hpc'⟩ | ⟨reason, checked, hjoining⟩
    . exact .inr ⟨pc', dir, hpc', (hfailing.effect hguard).failed⟩
    . exact .inl (by simp [hjoining, HandlePc.verdict?])

theorem TeardownInv.exists_returned_of_ending (h : TeardownInv conn s) (hending : s.ending)
    : ∃ ls reason checked, (connection conn).Runs s ls ∧ ls.all Label.unaided = true
        ∧ ((connection conn).exec s ls).handle = .returned (.relayed reason) checked := by
  rcases hending with hverdict | ⟨pc, dir, hpc, hfailed⟩
  . rcases Option.ne_none_iff_exists'.mp hverdict with ⟨⟨reason, checked⟩, hverdict⟩
    rcases HandlePc.eq_of_verdict? hverdict with hpc | hpc
    . rcases h.exists_returned hpc with ⟨ls, hreturned⟩
      exact ⟨ls, reason, checked, hreturned⟩
    . exact ⟨[], reason, checked, trivial, rfl, hpc⟩
  . have hfailing : Failing conn dir s := ⟨h, by rw [hpc]; rfl, hfailed⟩
    rcases hfailing.exists_joining hpc with ⟨ls, hruns, hall, hinv, reason, checked, hjoining⟩
    rcases hinv.exists_returned hjoining with ⟨ls', hruns', hall', hreturned⟩
    refine ⟨ls ++ ls', reason, checked, ?_, ?_, ?_⟩
    . rw [Machine.runs_append]
      exact ⟨hruns, hruns'⟩
    . rw [List.all_append, hall, hall']
      rfl
    . rw [Machine.exec_append]
      exact hreturned

theorem TeardownInv.exists_returned_after (h : TeardownInv conn s) (hending : s.ending)
    {ls : List Label} (hruns : (connection conn).Runs s ls)
    : ∃ ls' reason checked, (connection conn).Runs s (ls ++ ls') ∧ ls'.all Label.unaided = true
        ∧ ((connection conn).exec s (ls ++ ls')).handle = .returned (.relayed reason) checked := by
  have hlast : TeardownInv conn ((connection conn).exec s ls)
      ∧ ((connection conn).exec s ls).ending :=
    hruns.reachable.invariant (p := fun t => TeardownInv conn t ∧ t.ending) ⟨h, hending⟩
      fun _ _ hinv hguard _ => ⟨hinv.1.effect hguard, ending_effect hinv.1 hguard hinv.2⟩
  rcases hlast.1.exists_returned_of_ending hlast.2 with
    ⟨ls', reason, checked, hruns', hall, hreturned⟩
  refine ⟨ls', reason, checked, ?_, hall, ?_⟩
  . rw [Machine.runs_append]
    exact ⟨hruns, hruns'⟩
  . rw [Machine.exec_append]
    exact hreturned

/--
How a relay comes to its end from `s`. `unaided` steps are enabled whatever the peers and the timers
do.
-/
structure TearsDown (conn : Conn) (s : State) : Prop where
  report : ∀ dir, (s.copy dir).pc = .report →
    s.done.length < doneCapacity ∧ ∃ end_, CopyAct.guard conn s dir (.report end_)
  copies : s.handle.verdict? ≠ none → ∀ dir,
    (∀ ls, (connection conn).Runs s ls → ls.countP (isCopy dir) ≤ bufSize + 3)
      ∧ ((s.copy dir).pc ≠ .ended →
          ∃ act, act.unaided = true ∧ (connection conn).guard s (.copy dir act))
  reset : ∀ dir pc, s.handle = .watch pc → (s.copy dir).failed →
    (∃ l, isTeardown dir l = true ∧ l.unaided = true ∧ (connection conn).guard s l)
      ∧ ∀ ls, (connection conn).Runs s ls →
          (connection conn).Steps (fun _ l => ∀ wake, l ≠ .watch (.timer wake)) s ls →
          ls.countP (isTeardown dir) ≤ 20
  returns : s.ending → ∀ ls, (connection conn).Runs s ls →
    ∃ ls' reason checked, (connection conn).Runs s (ls ++ ls') ∧ ls'.all Label.unaided = true
      ∧ ((connection conn).exec s (ls ++ ls')).handle = .returned (.relayed reason) checked

theorem TeardownInv.tearsDown (h : TeardownInv conn s) : TearsDown conn s where
  report dir hpc := by
    have hspawned : s.handle.isSpawned = true := by
      by_contra hidle
      rw [h.relay.stream.copy_of_idle (by simpa using hidle)] at hpc
      cases hpc
    have hne : (s.copy dir).pc ≠ .ended := by simp [hpc]
    exact ⟨h.report.length_lt hne, h.exists_report (h.copy hspawned dir) hpc⟩
  copies hverdict dir := by
    refine ⟨fun ls hruns => h.countP_isCopy_le hverdict dir hruns, ?_⟩
    have hspawned := HandlePc.isSpawned_of_verdict? hverdict
    exact h.exists_unaided (h.copy hspawned dir) (h.stopping hverdict dir)
  reset dir pc hpc hfailed := by
    have hfailing : Failing conn dir s := ⟨h, by rw [hpc]; rfl, hfailed⟩
    exact ⟨hfailing.exists_unaided hpc, fun ls hruns => hfailing.countP_isTeardown_le hruns⟩
  returns hending ls hruns := h.exists_returned_after hending hruns

theorem Label.isEnv_of_unaided (hunaided : l.unaided = true) : l.isEnv = false := by
  cases l with
  | env act => cases hunaided
  | _ => rfl

theorem exists_release {cfg : ProxyConfig} {server : Server} (hinv : TasksInv server) {i : Nat}
    {task : Task} (hi : server.tasks[i]? = some task) (hending : task.state.ending)
    (hrunning : task.state.finished = false)
    : ∃ ls : List Label, ls.all Label.unaided = true
        ∧ (serveGraceful cfg).Runs server (ls.map (.task i))
        ∧ (∃ task', ((serveGraceful cfg).exec server (ls.map (.task i))).tasks[i]? = some task'
            ∧ task'.state.finished = true)
        ∧ ((serveGraceful cfg).exec server (ls.map (.task i))).limits
            = server.limits.release task.slot := by
  have hteardown := teardownInv_of_reach (hinv.tasks task (List.mem_of_getElem? hi)).reach
  rcases hteardown.exists_returned_of_ending hending with
    ⟨ls, reason, checked, hruns, hall, hreturned⟩
  have henv : ∀ l ∈ ls, l.isEnv = false := by
    intro l hl
    exact Label.isEnv_of_unaided (List.all_eq_true.mp hall l hl)
  have hfinished : ((connection task.conn).exec task.state ls).finished = true := by
    rw [State.finished, hreturned]
    rfl
  rcases exec_task cfg hi hruns henv with ⟨hserver, htask, hlimits⟩
  refine ⟨ls, hall, hserver, ⟨_, htask, hfinished⟩, hlimits.trans ?_⟩
  simp [hfinished, hrunning]

theorem relay_tears_down (conn : Conn)
    : (∀ ls, (connection conn).Runs accepted ls → ∀ dir, ls.countP (isReport dir) ≤ 1)
        ∧ (∀ s, (connection conn).Reachable accepted s → TearsDown conn s)
        ∧ ∀ cfg server (i : Nat) task, (serveGraceful cfg).Reachable (listening cfg) server →
            server.tasks[i]? = some task → task.state.ending → task.state.finished = false →
            ∃ ls : List Label, ls.all Label.unaided = true
              ∧ (serveGraceful cfg).Runs server (ls.map (.task i))
              ∧ (∃ task', ((serveGraceful cfg).exec server (ls.map (.task i))).tasks[i]?
                    = some task' ∧ task'.state.finished = true)
              ∧ ((serveGraceful cfg).exec server (ls.map (.task i))).limits
                  = server.limits.release task.slot := by
  refine ⟨?_, ?_, ?_⟩
  . intro ls hruns dir
    exact countP_isReport_le (streamInv_accepted conn) hruns dir
  . intro s hreach
    exact (teardownInv_of_reach hreach).tearsDown
  . intro cfg server i task hreach hi hending hrunning
    have hinv : TasksInv server :=
      hreach.invariant (tasksInv_listening cfg) (fun _ _ hinv hguard _ => hinv.effect hguard)
    exact exists_release hinv hi hending hrunning

def Label.reset : List Label :=
  Label.connect ++ [.copy .up .poll, .copy .up .readErr]

def Label.resetSeen : List Label :=
  [.copy .up .shut, .copy .up (.report .err), .watch .readClock, .watch (.sleep 0 0),
    .watch (.recv 5000 .up .err)]

def ServerLabel.reset : List ServerLabel :=
  [.listener .pollNone, .listener (.accept webConn ⟨webConn.peer.ip⟩)]
    ++ Label.reset.map (.task 0)

theorem relay_tears_down_reset
    : let s := (connection webConn).exec accepted Label.reset
      let t := (connection webConn).exec s Label.resetSeen
      let server := (serveGraceful webProxy).exec (listening webProxy) ServerLabel.reset
      (Label.reset ++ Label.resetSeen).countP (isReport .up) ≤ 1
        ∧ (∃ l, isTeardown .up l = true ∧ l.unaided = true ∧ (connection webConn).guard s l)
        ∧ (∃ act, act.unaided = true ∧ (connection webConn).guard t (.copy .down act))
        ∧ ∃ ls : List Label, ls.all Label.unaided = true
            ∧ ((serveGraceful webProxy).exec server (ls.map (.task 0))).limits
                = server.limits.release ⟨webConn.peer.ip⟩ := by
  intro s t server
  have hruns : (connection webConn).Runs accepted Label.reset := by decide
  have hseen : (connection webConn).Runs accepted (Label.reset ++ Label.resetSeen) := by decide
  have hserver : (serveGraceful webProxy).Runs (listening webProxy) ServerLabel.reset := by decide
  have ht : t = (connection webConn).exec accepted (Label.reset ++ Label.resetSeen) := rfl
  rcases relay_tears_down webConn with ⟨hreport, htears, hrelease⟩
  refine ⟨hreport _ hseen .up, ?_, ?_, ?_⟩
  . exact ((htears s hruns.reachable).reset .up .top (by decide) (.inl (by decide))).1
  . refine ((htears t ?_).copies (by decide) .down).2 (by decide)
    rw [ht]
    exact hseen.reachable
  . rcases hrelease webProxy server 0 _ hserver.reachable rfl
      (.inr ⟨.top, .up, by decide, .inl (by decide)⟩) (by decide) with ⟨ls, hall, _, _, hlimits⟩
    exact ⟨ls, hall, hlimits⟩

end Tcp
