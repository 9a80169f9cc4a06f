import Oxiduct.Tcp.Lemmas.Integrity

/-!
This module contains the soundness of the reason that the watchdog returns. As long as it runs nobody
has set the token, so that every completion it consumes is a genuine one.
-/

namespace Tcp

variable {conn : Conn} {s : State} {l : Label}

namespace HandlePc

def verdict? : HandlePc → Option (Reason × Option (Nat × Nat))
  | .joining reason checked => some (reason, checked)
  | .returned (.relayed reason) checked => some (reason, checked)
  | _ => none

end HandlePc

namespace HandleAct

theorem verdict?_effect {act : HandleAct} (hguard : act.guard s)
    : (act.effect conn s).handle.verdict? = s.handle.verdict? := by
  cases act with
  | abortConnect => rcases hguard.1 with hpc | hpc <;> rw [hpc] <;> rfl
  | connected =>
    simp only [effect]
    split <;> rw [hguard] <;> rfl
  | abortHeader =>
    rcases hguard.1 with hpc | hpc
    . rw [hpc]; rfl
    . rw [hpc.1]; rfl
  | acceptHeader k => rfl
  | connectErr => rw [hguard]; rfl
  | connectTimeout => rw [hguard]; rfl
  | start => rw [hguard]; rfl
  | _ => rw [hguard.1]; rfl

variable (conn : Conn) (s : State) (act : HandleAct)

theorem effect_frame
    : (act.effect conn s).now = s.now
        ∧ (act.effect conn s).shutdown = s.shutdown
        ∧ (act.effect conn s).cancel = s.cancel
        ∧ (act.effect conn s).done = s.done
        ∧ ∀ dir, (act.effect conn s).dirDone dir = s.dirDone dir := by
  cases act with
  | connected =>
    simp only [effect]
    split <;> exact ⟨rfl, rfl, rfl, rfl, fun _ => rfl⟩
  | _ => exact ⟨rfl, rfl, rfl, rfl, fun _ => rfl⟩

end HandleAct

theorem StreamInv.exit_eq_none (h : StreamInv conn s) {dir : Dir} {act : CopyAct}
    (hguard : act.guard conn s dir) (hact : act ≠ .shut ∧ ∀ end_, act ≠ .report end_)
    : (s.copy dir).exit = none := by
  apply (h.spawned (h.isSpawned_of_copy hguard) dir).exit_eq_none
  cases act <;> simp only [CopyAct.guard] at hguard
  case stop => rcases hguard.1 with h | h <;> simp [h]
  case stopWrite => rcases hguard.1 with h | h <;> simp [h]
  case readEof => simp [hguard]
  case readErr => simp [hguard]
  case shut => exact absurd rfl hact.1
  case report end_ => exact absurd rfl (hact.2 end_)
  all_goals simp [hguard.1]

theorem HandleAct.exit_effect (conn : Conn) (s : State) (act : HandleAct) (dir : Dir)
    : ((act.effect conn s).copy dir).exit = (s.copy dir).exit := by
  rcases act.exists_copy_effect conn s dir with ⟨pc, written, heq⟩
  rw [heq]

theorem exit_effect (hstream : StreamInv conn s) (hguard : guard conn s l) {dir : Dir} {exit : Exit}
    (hexit : (s.copy dir).exit = some exit)
    : ((effect conn s l).copy dir).exit = some exit := by
  cases l with
  | env act => cases act <;> cases dir <;> exact hexit
  | handle act => exact (HandleAct.exit_effect conn s act dir).trans hexit
  | watch act =>
    simp only [effect, WatchAct.copy_effect]
    exact hexit
  | copy dir' act =>
    simp only [effect, CopyAct.copy_effect]
    split
    . next heq =>
      subst heq
      by_cases hact : act ≠ .shut ∧ ∀ end_, act ≠ .report end_
      . rw [hstream.exit_eq_none hguard hact] at hexit
        simp at hexit
      . cases act <;> first | exact hexit | simp at hact
    . exact hexit

def Justified (conn : Conn) (s : State) (checked : Option (Nat × Nat)) : Reason → Prop
  | .eof => ∀ dir, (s.copy dir).exit = some .eof
  | .reset => ∃ dir, (s.copy dir).exit = some .readErr ∨ (s.copy dir).exit = some .writeErr
  | .idleTimeout =>
    ∃ now last, checked = some (now, last) ∧ 0 < conn.cfg.idleTimeoutSecs
      ∧ 1000 * conn.cfg.idleTimeoutSecs.toNat ≤ now - last
  | .halfCloseTimeout =>
    0 < conn.cfg.halfCloseTimeoutSecs ∧ ∃ dir, (s.copy dir).exit = some .eof
  | .shutdown => s.shutdown = true

structure WatchInv (conn : Conn) (s : State) : Prop where
  cancel : s.cancel = true → s.handle.verdict? ≠ none
  cancelled : ∀ dir, (s.copy dir).exit = some .cancelled → s.cancel = true
  done : ∀ dir end_, (dir, end_) ∈ s.done → (s.copy dir).exit.map Exit.reported = some end_
  dirDone : ∀ dir, s.dirDone dir = true → (s.copy dir).exit = some .eof
  verdict : ∀ reason checked, s.handle.verdict? = some (reason, checked) →
    Justified conn s checked reason

theorem watchInv_accepted (conn : Conn) : WatchInv conn accepted := by
  constructor
  . simp [accepted]
  . intro dir
    cases dir <;> simp [accepted, State.copy, Copy.new]
  . simp [accepted]
  . intro dir
    cases dir <;> simp [accepted, State.dirDone]
  . simp [accepted, HandlePc.verdict?]

theorem Justified.mono {t : State} {checked : Option (Nat × Nat)} {reason : Reason}
    (h : Justified conn s checked reason)
    (hexit : ∀ dir exit, (s.copy dir).exit = some exit → (t.copy dir).exit = some exit)
    (hshutdown : s.shutdown = true → t.shutdown = true)
    : Justified conn t checked reason := by
  cases reason with
  | eof => exact fun dir => hexit dir _ (h dir)
  | reset =>
    rcases h with ⟨dir, h | h⟩
    . exact ⟨dir, .inl (hexit dir _ h)⟩
    . exact ⟨dir, .inr (hexit dir _ h)⟩
  | idleTimeout => exact h
  | halfCloseTimeout =>
    rcases h with ⟨hpos, dir, h⟩
    exact ⟨hpos, dir, hexit dir _ h⟩
  | shutdown => exact hshutdown h

namespace WatchInv

theorem of_frame (h : WatchInv conn s) {t : State}
    (hexit : ∀ dir, (t.copy dir).exit = (s.copy dir).exit)
    (hcancel : t.cancel = s.cancel) (hdone : t.done = s.done)
    (hdirDone : ∀ dir, t.dirDone dir = s.dirDone dir)
    (hverdict : t.handle.verdict? = s.handle.verdict?)
    (hshutdown : s.shutdown = true → t.shutdown = true)
    : WatchInv conn t := by
  constructor
  . rw [hcancel, hverdict]
    exact h.cancel
  . intro dir
    rw [hexit, hcancel]
    exact h.cancelled dir
  . intro dir end_
    rw [hexit, hdone]
    exact h.done dir end_
  . intro dir
    rw [hexit, hdirDone]
    exact h.dirDone dir
  . intro reason checked hreason
    rw [hverdict] at hreason
    exact (h.verdict reason checked hreason).mono (fun dir _ => by rw [hexit]; exact id) hshutdown

theorem cancel_eq_false (h : WatchInv conn s) (hverdict : s.handle.verdict? = none)
    : s.cancel = false := by
  by_contra hne
  exact h.cancel (by simpa using hne) hverdict

theorem exit_of_mem_done (h : WatchInv conn s) (hverdict : s.handle.verdict? = none) {dir : Dir}
    {end_ : End} (hmem : (dir, end_) ∈ s.done)
    : match end_ with
      | .eof => (s.copy dir).exit = some .eof
      | .err => (s.copy dir).exit = some .readErr ∨ (s.copy dir).exit = some .writeErr := by
  have hdone := h.done dir end_ hmem
  cases hexit : (s.copy dir).exit with
  | none => simp [hexit] at hdone
  | some exit =>
    cases exit with
    | cancelled =>
      have := h.cancelled dir hexit
      rw [h.cancel_eq_false hverdict] at this
      simp at this
    | _ =>
      rw [hexit] at hdone
      cases end_ <;> simp_all [Exit.reported]

theorem handle_effect {act : HandleAct} (h : WatchInv conn s) (hguard : act.guard s)
    : WatchInv conn (act.effect conn s) := by
  rcases HandleAct.effect_frame conn s act with ⟨_, hshutdown, hcancel, hdone, hdirDone⟩
  apply h.of_frame (HandleAct.exit_effect conn s act) hcancel hdone hdirDone
  . apply HandleAct.verdict?_effect hguard
  . rw [hshutdown]
    exact id

theorem of_verdict (h : WatchInv conn s) (hrunning : s.handle.verdict? = none) {t : State}
    (reason : Reason) {checked : Option (Nat × Nat)} (hjust : Justified conn s checked reason)
    (hhandle : t.handle = .joining reason checked) (hcopy : ∀ dir, t.copy dir = s.copy dir)
    (hdone : t.done ⊆ s.done) (hdirDone : ∀ dir, t.dirDone dir = s.dirDone dir)
    (hshutdown : t.shutdown = s.shutdown)
    : WatchInv conn t := by
  constructor
  . intro _
    simp [hhandle, HandlePc.verdict?]
  . intro dir hexit
    rw [hcopy] at hexit
    have := h.cancelled dir hexit
    rw [h.cancel_eq_false hrunning] at this
    simp at this
  . intro dir end_ hmem
    rw [hcopy]
    exact h.done dir end_ (hdone hmem)
  . intro dir
    rw [hcopy, hdirDone]
    exact h.dirDone dir
  . intro reason' checked' hverdict
    rw [hhandle] at hverdict
    cases hverdict
    exact hjust.mono (fun dir _ => by rw [hcopy]; exact id) (fun h => by rw [hshutdown, h])

theorem recv_effect (h : WatchInv conn s) {wake : Nat} {dir : Dir} {end_ : End}
    (hguard : WatchAct.guard conn s (.recv wake dir end_))
    : WatchInv conn (WatchAct.effect conn s (.recv wake dir end_)) := by
  have hrunning : s.handle.verdict? = none := by rw [hguard.1]; rfl
  have hmem := List.mem_of_mem_head? hguard.2.2
  have hexit := h.exit_of_mem_done hrunning hmem
  have hcopy := WatchAct.copy_effect conn s (.recv wake dir end_)
  cases end_ with
  | err =>
    refine h.of_verdict hrunning .reset ⟨dir, hexit⟩ rfl hcopy ?_ ?_ rfl
    . apply List.tail_subset
    . intro dir'
      cases dir' <;> rfl
  | eof =>
    constructor
    . intro hcancel
      have hcancel : s.cancel = true := by cases dir <;> exact hcancel
      rw [h.cancel_eq_false hrunning] at hcancel
      simp at hcancel
    . intro dir' hcancelled
      rw [hcopy] at hcancelled
      have := h.cancelled dir' hcancelled
      cases dir <;> exact this
    . intro dir' end_' hmem'
      rw [hcopy]
      apply h.done dir' end_'
      cases dir <;> exact List.mem_of_mem_tail hmem'
    . intro dir' hdone
      rw [hcopy]
      by_cases heq : dir' = dir
      . rw [heq]
        exact hexit
      . apply h.dirDone
        cases dir <;> cases dir' <;> first | exact hdone | exact absurd rfl heq
    . intro reason checked hverdict
      cases dir <;> simp [WatchAct.effect, HandlePc.verdict?] at hverdict

theorem watch_effect {act : WatchAct} (hclock : ClockInv s) (h : WatchInv conn s)
    (hguard : act.guard conn s)
    : WatchInv conn (act.effect conn s) := by
  have hcopy := WatchAct.copy_effect conn s act
  have hexit : ∀ dir, ((act.effect conn s).copy dir).exit = (s.copy dir).exit := by
    intro dir
    rw [hcopy]
  have hrunning : s.handle.verdict? = none := by
    cases act <;> rw [hguard.1] <;> rfl
  cases act with
  | eof =>
    refine h.of_verdict hrunning .eof ?_ rfl hcopy (List.Subset.refl _) (fun _ => rfl) rfl
    intro dir
    apply h.dirDone
    cases dir
    . exact hguard.2.1
    . exact hguard.2.2
  | readClock => exact h.of_frame hexit rfl rfl (fun _ => rfl) hrunning.symm id
  | idle now last =>
    have hnow : now < u64Max := (hclock.clock now hguard.1).trans_lt hclock.now
    have hidle := (idleLeft_eq_zero_iff hnow).mp hguard.2.2
    refine h.of_verdict hrunning .idleTimeout ?_ rfl hcopy (List.Subset.refl _)
      (fun _ => rfl) rfl
    exact ⟨now, last, rfl, hidle.1, by omega⟩
  | halfClose now last =>
    have hnow : now < u64Max := (hclock.clock now hguard.1).trans_lt hclock.now
    have harmed := ((halfCloseLeft_eq_zero_iff hnow).mp hguard.2.2.2).1
    rcases halfCloseArmed_iff.mp harmed with ⟨hpos, dir, hdone⟩
    exact h.of_verdict hrunning .halfCloseTimeout ⟨hpos, dir, h.dirDone dir hdone⟩ rfl
      hcopy (List.Subset.refl _) (fun _ => rfl) rfl
  | sleep now last => exact h.of_frame hexit rfl rfl (fun _ => rfl) hrunning.symm id
  | shutdown wake =>
    exact h.of_verdict hrunning .shutdown hguard.2 rfl hcopy (List.Subset.refl _)
      (fun _ => rfl) rfl
  | recv wake dir end_ => exact h.recv_effect hguard
  | closed wake => exact h.of_frame hexit rfl rfl (fun _ => rfl) hrunning.symm id
  | timer wake => exact h.of_frame hexit rfl rfl (fun _ => rfl) hrunning.symm id

theorem copy_effect {dir : Dir} {act : CopyAct} (hstream : StreamInv conn s) (h : WatchInv conn s)
    (hguard : act.guard conn s dir)
    : WatchInv conn (act.effect s dir) := by
  have hexit : ∀ dir' exit, (s.copy dir').exit = some exit →
      ((act.effect s dir).copy dir').exit = some exit := by
    intro dir' exit hexit
    apply Tcp.exit_effect (l := .copy dir act) hstream hguard hexit
  constructor
  . simpa using h.cancel
  . intro dir' hcancelled
    rw [CopyAct.cancel_effect]
    rw [CopyAct.copy_effect] at hcancelled
    split at hcancelled
    . cases act <;> simp only [CopyAct.guard] at hguard
      case stop => exact hguard.2
      case stopWrite => exact hguard.2
      all_goals first | exact h.cancelled dir hcancelled | simp [CopyAct.apply] at hcancelled
    . exact h.cancelled dir' hcancelled
  . intro dir' end_ hmem
    have hreported : (s.copy dir').exit.map Exit.reported = some end_ := by
      rcases CopyAct.mem_done_effect hmem with hmem | ⟨rfl, rfl⟩
      . exact h.done dir' end_ hmem
      . exact hguard.2.1
    rcases Option.map_eq_some_iff.mp hreported with ⟨exit, hexit', hend⟩
    rw [hexit dir' exit hexit', Option.map_some, hend]
  . intro dir' hdone
    rw [CopyAct.dirDone_effect] at hdone
    exact hexit dir' _ (h.dirDone dir' hdone)
  . intro reason checked hverdict
    rw [CopyAct.handle_effect] at hverdict
    exact (h.verdict reason checked hverdict).mono hexit (by simp)

protected theorem effect (hstream : StreamInv conn s) (hclock : ClockInv s) (h : WatchInv conn s)
    (hguard : guard conn s l)
    : WatchInv conn (effect conn s l) := by
  cases l with
  | env act =>
    cases act with
    | shutdown =>
      refine h.of_frame ?_ rfl rfl (fun dir => ?_) rfl (fun _ => rfl) <;> intros <;> rfl
    | advance now =>
      refine h.of_frame ?_ rfl rfl (fun dir => ?_) rfl id <;> intros <;> rfl
  | handle act => exact h.handle_effect hguard
  | watch act => exact h.watch_effect hclock hguard
  | copy dir act => exact h.copy_effect hstream hguard

end WatchInv

def HandlePc.closed : HandlePc → List Reason
  | .returned (.relayed reason) _ => [reason]
  | _ => []

def CountInv (s : State) : Prop :=
  s.closed = s.handle.closed

theorem CountInv.effect (h : CountInv s) (hguard : guard conn s l)
    : CountInv (effect conn s l) := by
  cases l with
  | env act => cases act <;> exact h
  | handle act =>
    cases act with
    | abortConnect =>
      refine h.trans ?_
      rcases hguard.1 with hpc | hpc <;> rw [hpc] <;> rfl
    | connected =>
      simp only [Tcp.effect, HandleAct.effect]
      split <;> exact h.trans (by rw [hguard]; rfl)
    | abortHeader =>
      refine h.trans ?_
      rcases hguard.1 with hpc | hpc
      . rw [hpc]; rfl
      . rw [hpc.1]; rfl
    | acceptHeader k => exact h
    | connectErr => exact h.trans (by rw [hguard]; rfl)
    | connectTimeout => exact h.trans (by rw [hguard]; rfl)
    | start => exact h.trans (by rw [hguard]; rfl)
    | join reason checked =>
      have hempty : s.closed = [] := h.trans (by rw [hguard.1]; rfl)
      simp [CountInv, Tcp.effect, HandleAct.effect, hempty, HandlePc.closed]
    | _ => exact h.trans (by rw [hguard.1]; rfl)
  | watch act =>
    refine (WatchAct.closed_effect conn s act).trans (h.trans ?_)
    cases act with
    | recv wake dir end_ =>
      rw [hguard.1]
      cases end_ <;> cases dir <;> rfl
    | _ => rw [hguard.1]; rfl
  | copy dir act => simpa [CountInv, Tcp.effect] using h

/--
While the watchdog runs, a direction that has ended is known to it or waits in the channel.
-/
structure ChannelInv (s : State) : Prop where
  ended : s.receiverAlive = true → ∀ dir, (s.copy dir).pc = .ended →
    s.dirDone dir = true ∨ ∃ end_, (dir, end_) ∈ s.done
  clock : ∀ now, s.handle = .watch (.clock now) → ∃ dir, s.dirDone dir = false
  select : ∀ wake, s.handle = .watch (.select wake) → ∃ dir, s.dirDone dir = false
  channelOpen : s.channelOpen = true

theorem channelInv_accepted : ChannelInv accepted := by
  constructor <;> simp [accepted, State.receiverAlive]

namespace ChannelInv

theorem of_idle {t : State} (hidle : t.receiverAlive = false) (hopen : t.channelOpen = true)
    : ChannelInv t := by
  constructor
  . simp [hidle]
  . intro now h
    simp [State.receiverAlive, h] at hidle
  . intro wake h
    simp [State.receiverAlive, h] at hidle
  . exact hopen

theorem handle_effect {act : HandleAct} (h : ChannelInv s) (hguard : act.guard s)
    : ChannelInv (act.effect conn s) := by
  cases act with
  | connected =>
    simp only [HandleAct.effect]
    split <;> exact of_idle rfl h.channelOpen
  | acceptHeader k =>
    refine of_idle ?_ h.channelOpen
    simp [HandleAct.effect, State.receiverAlive, hguard.1]
  | start =>
    constructor
    . intro _ dir hended
      cases dir <;> simp [HandleAct.effect, State.copy] at hended
    . simp [HandleAct.effect]
    . simp [HandleAct.effect]
    . exact h.channelOpen
  | _ => exact of_idle rfl h.channelOpen

theorem exists_dirDone (hnot : ¬ (s.upDone = true ∧ s.downDone = true))
    : ∃ dir, s.dirDone dir = false := by
  by_cases hup : s.upDone = true
  . exact ⟨.down, by simpa [hup, State.dirDone] using hnot⟩
  . exact ⟨.up, by simpa [State.dirDone] using hup⟩

theorem exists_mem_done (h : ChannelInv s) {wake : Nat} (hpc : s.handle = .watch (.select wake))
    (hended : ∀ dir, (s.copy dir).pc = .ended)
    : ∃ dir end_, (dir, end_) ∈ s.done := by
  rcases h.select wake hpc with ⟨dir, hdir⟩
  have hmem := h.ended (by rw [State.receiverAlive, hpc]) dir (hended dir)
  rw [hdir] at hmem
  exact ⟨dir, hmem.resolve_left (by simp)⟩

theorem not_closed (h : ChannelInv s) (wake : Nat) : ¬ WatchAct.guard conn s (.closed wake) := by
  -- both senders are gone and the channel is empty: both completions were consumed
  intro hguard
  have hgone := hguard.2.2.2
  simp only [State.senderAlive, ne_eq, Bool.or_eq_false_iff, decide_eq_false_iff_not,
    not_not] at hgone
  have hended : ∀ dir, (s.copy dir).pc = .ended := by
    rintro (_ | _)
    . exact hgone.1
    . exact hgone.2
  rcases h.exists_mem_done hguard.1 hended with ⟨dir, end_, hmem⟩
  rw [hguard.2.2.1] at hmem
  exact List.not_mem_nil hmem

theorem recv_effect (h : ChannelInv s) {wake : Nat} {dir : Dir}
    (hguard : WatchAct.guard conn s (.recv wake dir .eof))
    : ChannelInv (WatchAct.effect conn s (.recv wake dir .eof)) := by
  have hcopy := WatchAct.copy_effect conn s (.recv wake dir .eof)
  have halive : s.receiverAlive = true := by rw [State.receiverAlive, hguard.1]
  constructor
  . intro _ dir' hended
    rw [hcopy] at hended
    by_cases heq : dir' = dir
    . left
      subst heq
      cases dir' <;> rfl
    . refine (h.ended halive dir' hended).imp ?_ ?_
      . intro hdone
        cases dir <;> cases dir' <;> first | exact hdone | exact absurd rfl heq
      . rintro ⟨end_, hmem⟩
        rcases List.exists_cons_of_ne_nil (List.ne_nil_of_mem hmem) with ⟨head, tail, hqueue⟩
        have hhead := hguard.2.2
        rw [hqueue, List.head?_cons, Option.some.injEq] at hhead
        rw [hqueue, hhead, List.mem_cons, Prod.mk.injEq] at hmem
        have htail : (dir', end_) ∈ tail := hmem.resolve_left (fun h => heq h.1)
        refine ⟨end_, ?_⟩
        cases dir <;> simpa [WatchAct.effect, hqueue] using htail
  . cases dir <;> simp [WatchAct.effect]
  . cases dir <;> simp [WatchAct.effect]
  . cases dir <;> exact h.channelOpen

theorem watch_effect {act : WatchAct} (h : ChannelInv s) (hguard : act.guard conn s)
    : ChannelInv (act.effect conn s) := by
  have halive : s.receiverAlive = true := by
    cases act <;> rw [State.receiverAlive, hguard.1]
  have hended : ∀ dir, (s.copy dir).pc = .ended →
      s.dirDone dir = true ∨ ∃ end_, (dir, end_) ∈ s.done := h.ended halive
  cases act with
  | readClock =>
    have hpending := exists_dirDone hguard.2
    exact ⟨fun _ => hended, fun _ _ => hpending, by simp [WatchAct.effect], h.channelOpen⟩
  | sleep now last =>
    have hpending := h.clock now hguard.1
    exact ⟨fun _ => hended, by simp [WatchAct.effect], fun _ _ => hpending, h.channelOpen⟩
  | recv wake dir end_ =>
    cases end_ with
    | err => exact of_idle rfl h.channelOpen
    | eof => exact h.recv_effect hguard
  | closed wake =>
    exact absurd hguard (h.not_closed wake)
  | timer wake =>
    exact ⟨fun _ => hended, by simp [WatchAct.effect], by simp [WatchAct.effect], h.channelOpen⟩
  | _ => exact of_idle rfl h.channelOpen

theorem copy_effect {dir : Dir} {act : CopyAct} (h : ChannelInv s) (hguard : act.guard conn s dir)
    : ChannelInv (act.effect s dir) := by
  have hdone : ∀ dir' end_, (dir', end_) ∈ s.done → (dir', end_) ∈ (act.effect s dir).done := by
    intro dir' end_ hmem
    cases act with
    | report end_' =>
      simp only [CopyAct.done_effect]
      split
      . exact List.mem_append_left _ hmem
      . exact hmem
    | _ =>
      rw [CopyAct.done_effect]
      exact hmem
  constructor
  . intro halive dir' hended
    have hbefore : s.receiverAlive = true := by
      simpa only [State.receiverAlive, CopyAct.handle_effect] using halive
    rw [CopyAct.dirDone_effect]
    rw [CopyAct.copy_effect] at hended
    split at hended
    . next heq =>
      subst heq
      -- only the report ends a task
      cases act <;> simp only [CopyAct.guard] at hguard
      case report end_ =>
        refine .inr ⟨end_, ?_⟩
        simp [CopyAct.done_effect, hbefore]
      all_goals simp [CopyAct.apply, hguard] at hended
    . refine (h.ended hbefore dir' hended).imp_right ?_
      rintro ⟨end_, hmem⟩
      exact ⟨end_, hdone _ _ hmem⟩
  . simpa using h.clock
  . simpa using h.select
  . rw [CopyAct.effect_eq]
    cases dir <;> exact h.channelOpen

protected theorem effect (h : ChannelInv s) (hguard : guard conn s l)
    : ChannelInv (effect conn s l) := by
  cases l with
  | env act =>
    cases act <;> exact ⟨h.ended, h.clock, h.select, h.channelOpen⟩
  | handle act => exact h.handle_effect hguard
  | watch act => exact h.watch_effect hguard
  | copy dir act => exact h.copy_effect hguard

end ChannelInv

structure RelayInv (conn : Conn) (s : State) : Prop where
  stream : StreamInv conn s
  clock : ClockInv s
  watch : WatchInv conn s
  count : CountInv s
  channel : ChannelInv s

theorem relayInv_accepted (conn : Conn) : RelayInv conn accepted :=
  ⟨streamInv_accepted conn, clockInv_accepted, watchInv_accepted conn, rfl, channelInv_accepted⟩

theorem RelayInv.effect (h : RelayInv conn s) (hguard : guard conn s l)
    : RelayInv conn (effect conn s l) :=
  ⟨h.stream.effect hguard, h.clock.effect hguard, h.watch.effect h.stream h.clock hguard,
    h.count.effect hguard, h.channel.effect hguard⟩

theorem relayInv_of_reach {ok : State → Label → Prop} (h : (connection conn).Reach ok accepted s)
    : RelayInv conn s :=
  h.invariant (relayInv_accepted conn) (fun _ _ hinv hguard _ => hinv.effect hguard)

def WatchPc.rank : WatchPc → Nat
  | .top => 3
  | .clock _ => 2
  | .select _ => 1

def HandlePc.rank : HandlePc → Nat
  | .watch pc => pc.rank
  | _ => 0

def State.watchRank (s : State) : Nat :=
  3 * s.done.length + s.handle.rank

def State.joining (s : State) : Prop :=
  ∃ reason checked, s.handle = .joining reason checked

def isWatch : Label → Bool
  | .watch _ => true
  | _ => false

theorem WatchAct.handle_effect (conn : Conn) (s : State) (act : WatchAct)
    : (∃ pc, (act.effect conn s).handle = .watch pc)
      ∨ (act.effect conn s).joining := by
  cases act with
  | readClock => exact .inl ⟨_, rfl⟩
  | sleep now last => exact .inl ⟨_, rfl⟩
  | recv wake dir end_ =>
    cases end_ with
    | eof => cases dir <;> exact .inl ⟨_, rfl⟩
    | err => exact .inr ⟨_, _, rfl⟩
  | closed wake => exact .inl ⟨_, rfl⟩
  | timer wake => exact .inl ⟨_, rfl⟩
  | _ => exact .inr ⟨_, _, rfl⟩

theorem WatchAct.rank_effect {act : WatchAct} (h : ChannelInv s) (hguard : act.guard conn s)
    (htimer : ∀ wake, act ≠ .timer wake)
    : (act.effect conn s).watchRank < s.watchRank := by
  unfold State.watchRank
  cases act with
  | recv wake dir end_ =>
    rcases List.exists_cons_of_ne_nil (List.ne_nil_of_mem (List.mem_of_mem_head? hguard.2.2)) with
      ⟨head, tail, hdone⟩
    rw [hguard.1]
    cases end_ <;> cases dir <;> simp [effect, HandlePc.rank, WatchPc.rank, hdone] <;> omega
  | closed wake => exact absurd hguard (h.not_closed wake)
  | timer wake => exact absurd rfl (htimer wake)
  | _ =>
    rw [hguard.1]
    simp [effect, HandlePc.rank, WatchPc.rank]

theorem ChannelInv.exists_watch (h : ChannelInv s) (conn : Conn) {pc : WatchPc}
    (hpc : s.handle = .watch pc) (hdone : ∀ wake, pc = .select wake → s.done ≠ [])
    : ∃ act, WatchAct.guard conn s act ∧ ∀ wake, act ≠ .timer wake := by
  cases pc with
  | top =>
    by_cases hboth : s.upDone = true ∧ s.downDone = true
    . exact ⟨.eof, ⟨hpc, hboth⟩, by simp⟩
    . exact ⟨.readClock, ⟨hpc, hboth⟩, by simp⟩
  | clock now =>
    by_cases hidle : idleLeft conn now s.lastActivity = some 0
    . exact ⟨.idle now s.lastActivity, ⟨hpc, rfl, hidle⟩, by simp⟩
    . by_cases hhalf : halfCloseLeft conn s now s.lastActivity = some 0
      . exact ⟨.halfClose now s.lastActivity, ⟨hpc, rfl, hidle, hhalf⟩, by simp⟩
      . exact ⟨.sleep now s.lastActivity, ⟨hpc, rfl, hidle, hhalf⟩, by simp⟩
  | select wake =>
    rcases List.exists_cons_of_ne_nil (hdone wake rfl) with ⟨⟨dir, end_⟩, tail, hqueue⟩
    refine ⟨.recv wake dir end_, ⟨hpc, h.channelOpen, ?_⟩, by simp⟩
    rw [hqueue, List.head?_cons]

structure WatchedSince (conn : Conn) (s t : State) : Prop where
  relay : RelayInv conn t
  copy : ∀ dir, t.copy dir = s.copy dir
  shutdown : t.shutdown = s.shutdown
  handle : (∃ pc, t.handle = .watch pc) ∨ t.joining

theorem WatchedSince.effect {t : State} (h : WatchedSince conn s t) {act : WatchAct}
    (hguard : act.guard conn t)
    : WatchedSince conn s (act.effect conn t) where
  relay := h.relay.effect (l := .watch act) hguard
  copy := fun dir => (act.copy_effect conn t dir).trans (h.copy dir)
  shutdown := (act.shutdown_effect conn t).trans h.shutdown
  handle := act.handle_effect conn t

theorem RelayInv.exists_verdict (h : RelayInv conn s) (hended : ∀ dir, (s.copy dir).pc = .ended)
    {pc : WatchPc} (hpc : s.handle = .watch pc)
    : ∃ ls, (connection conn).Runs s ls ∧ WatchedSince conn s ((connection conn).exec s ls)
        ∧ ((connection conn).exec s ls).joining := by
  have hstep : ∀ t, WatchedSince conn s t → ¬ t.joining →
      ∃ l, (connection conn).guard t l ∧ isWatch l = true
        ∧ WatchedSince conn s ((connection conn).effect t l)
        ∧ ((connection conn).effect t l).watchRank < t.watchRank := by
    intro t ht hgoal
    rcases ht.handle.resolve_right hgoal with ⟨pc, hpc⟩
    have hchannel := ht.relay.channel
    have hdone : ∀ wake, pc = .select wake → t.done ≠ [] := by
      rintro wake rfl
      have hall : ∀ dir, (t.copy dir).pc = .ended := fun dir => by rw [ht.copy, hended]
      rcases hchannel.exists_mem_done hpc hall with ⟨dir, end_, hmem⟩
      exact List.ne_nil_of_mem hmem
    rcases hchannel.exists_watch conn hpc hdone with ⟨act, hguard, htimer⟩
    exact ⟨.watch act, hguard, rfl, ht.effect hguard, act.rank_effect hchannel hguard htimer⟩
  have hinit : WatchedSince conn s s := ⟨h, fun _ => rfl, rfl, .inl ⟨pc, hpc⟩⟩
  rcases Machine.exists_run_of_measure (WatchedSince conn s) State.joining isWatch State.watchRank
    hstep hinit with ⟨ls, hruns, _, hsince, hjoining⟩
  exact ⟨ls, hruns, hsince, hjoining⟩

theorem RelayInv.reason_eof_iff (h : RelayInv conn s) (hidle : conn.cfg.idleTimeoutSecs = 0)
    (hhalf : conn.cfg.halfCloseTimeoutSecs = 0) (hshutdown : s.shutdown = false) {reason : Reason}
    {checked : Option (Nat × Nat)} (hverdict : s.handle.verdict? = some (reason, checked))
    : reason = .eof ↔ ∀ dir, (s.copy dir).exit.map Exit.reported ≠ some .err := by
  have hjust := h.watch.verdict reason checked hverdict
  constructor
  . rintro rfl dir
    rw [hjust dir]
    simp [Exit.reported]
  . intro hnone
    cases reason with
    | eof => rfl
    | reset =>
      rcases hjust with ⟨dir, hexit | hexit⟩ <;>
        exact absurd (by rw [hexit]; rfl) (hnone dir)
    | idleTimeout =>
      rcases hjust with ⟨_, _, _, hpos, _⟩
      simp [hidle] at hpos
    | halfCloseTimeout =>
      have hpos := hjust.1
      simp [hhalf] at hpos
    | shutdown =>
      rw [show s.shutdown = true from hjust] at hshutdown
      simp at hshutdown

theorem RelayInv.exists_returned (h : RelayInv conn s) (hidle : conn.cfg.idleTimeoutSecs = 0)
    (hhalf : conn.cfg.halfCloseTimeoutSecs = 0) (hshutdown : s.shutdown = false)
    (hended : ∀ dir, (s.copy dir).pc = .ended) (hrelay : s.receiverAlive = true)
    : ∃ ls reason checked, (connection conn).Runs s ls
        ∧ ((connection conn).exec s ls).handle = .returned (.relayed reason) checked
        ∧ (reason = .eof ↔ ∀ dir, (s.copy dir).exit.map Exit.reported ≠ some .err) := by
  have hpc : ∃ pc, s.handle = .watch pc := by
    cases hhandle : s.handle <;> simp_all [State.receiverAlive]
  rcases hpc with ⟨pc, hpc⟩
  rcases h.exists_verdict hended hpc with
    ⟨ls, hruns, hsince, reason, checked, hjoining⟩
  have hiff := hsince.relay.reason_eof_iff hidle hhalf (hsince.shutdown.trans hshutdown)
    (by rw [hjoining]; rfl : _ = some (reason, checked))
  refine ⟨ls ++ [.handle (.join reason checked)], reason, checked, ?_, ?_, ?_⟩
  . rw [Machine.runs_append]
    refine ⟨hruns, ⟨hjoining, ?_, ?_⟩, trivial⟩
    . exact (congrArg Copy.pc (hsince.copy .up)).trans (hended .up)
    . exact (congrArg Copy.pc (hsince.copy .down)).trans (hended .down)
  . rw [Machine.exec_append]
    rfl
  . simpa only [hsince.copy] using hiff

theorem close_reason_sound (h : (connection conn).Reachable accepted s)
    : (∀ reason checked, s.handle.verdict? = some (reason, checked) →
          Justified conn s checked reason
            ∧ (reason = .eof → ∀ dir,
                (s.copy dir).written = conn.preamble dir ++ (s.copy dir).read))
        ∧ s.closed = s.handle.closed
        ∧ (∀ wake dir, (connection conn).guard s (.watch (.recv wake dir .eof)) →
            (s.copy dir).exit = some .eof)
        ∧ (conn.cfg.idleTimeoutSecs = 0 → conn.cfg.halfCloseTimeoutSecs = 0 → s.shutdown = false →
            (∀ reason checked, s.handle = .returned (.relayed reason) checked →
                (reason = .eof ↔ ∀ dir, (s.copy dir).exit.map Exit.reported ≠ some .err))
              ∧ ((∀ dir, (s.copy dir).pc = .ended) → s.receiverAlive = true →
                  ∃ ls reason checked, (connection conn).Runs s ls
                    ∧ ((connection conn).exec s ls).handle = .returned (.relayed reason) checked
                    ∧ (reason = .eof ↔
                        ∀ dir, (s.copy dir).exit.map Exit.reported ≠ some .err))) := by
  have hinv := relayInv_of_reach h
  refine ⟨?_, hinv.count, ?_, ?_⟩
  . intro reason checked hverdict
    have hjust := hinv.watch.verdict reason checked hverdict
    refine ⟨hjust, ?_⟩
    rintro rfl dir
    exact (hinv.stream.dirOk dir).eof (hjust dir)
  . intro wake dir hguard
    exact hinv.watch.exit_of_mem_done (by rw [hguard.1]; rfl) (List.mem_of_mem_head? hguard.2.2)
  . intro hidle hhalf hshutdown
    constructor
    . intro reason checked hreturned
      exact hinv.reason_eof_iff hidle hhalf hshutdown (by rw [hreturned]; rfl)
    . intro hended hrelay
      exact hinv.exists_returned hidle hhalf hshutdown hended hrelay

theorem close_reason_sound_eof
    : let close dir := [.copy dir .poll, .copy dir .readEof, .copy dir .shut,
        .copy dir (.report .eof)]
      let run := Label.connect ++ close .up ++ close .down
        ++ [.watch .readClock, .watch (.sleep 0 0), .watch (.recv 5000 .up .eof), .watch .readClock,
          .watch (.sleep 0 0), .watch (.recv 5000 .down .eof), .watch .eof]
      Justified webConn ((connection webConn).exec accepted run) none .eof := by
  intro close run
  have hruns : (connection webConn).Runs accepted run := by decide
  exact ((close_reason_sound hruns.reachable).1 .eof none (by decide)).1

end Tcp
