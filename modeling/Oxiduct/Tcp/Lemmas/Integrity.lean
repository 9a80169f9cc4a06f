import Oxiduct.Tcp.Lemmas.Basic

/-!
This module contains the integrity of the relayed byte streams: what either writer has accepted at any
moment of a connection, and how that compares with what was read and with what was counted.
-/

namespace Tcp

variable {conn : Conn} {s : State} {l : Label}

def HandlePc.isSpawned : HandlePc → Bool
  | .watch _ => true
  | .joining .. => true
  | .returned (.relayed _) _ => true
  | _ => false

def HeaderAt (conn : Conn) (s : State) : HandlePc → Prop
  | .connect => s.up.written = []
  | .connecting => s.up.written = []
  | .header => s.up.written ++ s.headerLeft = conn.header
  | .writingHeader => s.up.written ++ s.headerLeft = conn.header
  | .start => s.up.written = conn.header
  | _ => s.up.written <+: conn.header

structure StreamInv (conn : Conn) (s : State) : Prop where
  spawned : s.handle.isSpawned = true → ∀ dir, CopyInv conn dir (s.copy dir)
  up : s.handle.isSpawned = false → s.up = { Copy.new with written := s.up.written }
  down : s.handle.isSpawned = false → s.down = .new
  header : s.handle.isSpawned = false → HeaderAt conn s s.handle

theorem streamInv_accepted (conn : Conn) : StreamInv conn accepted := by
  constructor <;> simp [accepted, HandlePc.isSpawned, HeaderAt, Copy.new]

theorem CopyAct.pc_of_guard {dir : Dir} {act : CopyAct} (hguard : act.guard conn s dir)
    : (s.copy dir).pc ≠ .unspawned ∧ (s.copy dir).pc ≠ .ended := by
  cases act <;> simp only [CopyAct.guard] at hguard
  case stop => rcases hguard.1 with h | h <;> simp [h]
  case stopWrite => rcases hguard.1 with h | h <;> simp [h]
  case readEof => simp [hguard]
  case readErr => simp [hguard]
  case shut => simp [hguard]
  all_goals simp [hguard.1]

namespace StreamInv

theorem isSpawned_of_copy (h : StreamInv conn s) {dir : Dir} {act : CopyAct}
    (hguard : act.guard conn s dir)
    : s.handle.isSpawned = true := by
  by_contra hne
  have hne : s.handle.isSpawned = false := by simpa using hne
  apply (act.pc_of_guard hguard).1
  cases dir with
  | up => rw [State.copy, h.up hne]; rfl
  | down => rw [State.copy, h.down hne]; rfl

theorem headerAt (h : StreamInv conn s) {pc : HandlePc} (hpc : s.handle = pc)
    (hidle : pc.isSpawned = false)
    : HeaderAt conn s pc := by
  subst hpc
  exact h.header hidle

theorem of_handle (h : StreamInv conn s) {pc : HandlePc} (hpc : s.handle = pc)
    (hidle : pc.isSpawned = false) {t : State} (hup : t.up = { s.up with written := t.up.written })
    (hdown : t.down = s.down) (hidle' : t.handle.isSpawned = false)
    (hheader : HeaderAt conn t t.handle)
    : StreamInv conn t := by
  subst hpc
  constructor
  . intro hne
    simp [hidle'] at hne
  . intro _
    rw [hup, h.up hidle]
  . intro _
    rw [hdown, h.down hidle]
  . intro _
    exact hheader

theorem of_empty (h : StreamInv conn s) {pc : HandlePc} (hpc : s.handle = pc)
    (hidle : pc.isSpawned = false) (hempty : s.up.written = []) {t : State} (hup : t.up = s.up)
    (hdown : t.down = s.down) {outcome : Outcome} {checked : Option (Nat × Nat)}
    (hreturned : t.handle = .returned outcome checked)
    (houtcome : ∀ reason, outcome ≠ .relayed reason)
    : StreamInv conn t := by
  refine h.of_handle hpc hidle (by rw [hup]) hdown ?_ ?_
  . rw [hreturned]
    cases outcome with
    | relayed reason => exact absurd rfl (houtcome reason)
    | _ => rfl
  . rw [hreturned, HeaderAt, hup, hempty]
    . apply List.nil_prefix
    all_goals simp

theorem start_effect (h : StreamInv conn s) (hguard : s.handle = .start)
    : StreamInv conn (HandleAct.effect conn s .start) := by
  have hheader : s.up.written = conn.header := h.headerAt hguard rfl
  have hidle : s.handle.isSpawned = false := by rw [hguard]; rfl
  constructor
  . intro _ dir
    cases dir with
    | up =>
      have hup := h.up hidle
      rw [hheader] at hup
      apply CopyInv.start hup
    | down => exact CopyInv.start (h.down hidle)
  all_goals
    intro hne
    simp [HandleAct.effect, HandlePc.isSpawned] at hne

theorem handle_effect {act : HandleAct} (h : StreamInv conn s) (hguard : act.guard s)
    : StreamInv conn (act.effect conn s) := by
  cases act with
  | pollConnect => exact h.of_handle hguard.1 rfl rfl rfl rfl (h.headerAt hguard.1 rfl)
  | abortConnect =>
    rcases hguard.1 with hpc | hpc
    . exact h.of_empty hpc rfl (h.headerAt hpc rfl) rfl rfl rfl (by simp)
    . exact h.of_empty hpc rfl (h.headerAt hpc rfl) rfl rfl rfl (by simp)
  | connected =>
    have hempty : s.up.written = [] := h.headerAt hguard rfl
    simp only [HandleAct.effect]
    split
    . refine h.of_handle hguard rfl rfl rfl rfl ?_
      simp [HeaderAt, hempty]
    . next hproxy =>
      refine h.of_handle hguard rfl rfl rfl rfl ?_
      simp [HeaderAt, hempty, Conn.header, hproxy]
  | connectErr => exact h.of_empty hguard rfl (h.headerAt hguard rfl) rfl rfl rfl (by simp)
  | connectTimeout => exact h.of_empty hguard rfl (h.headerAt hguard rfl) rfl rfl rfl (by simp)
  | pollHeader => exact h.of_handle hguard.1 rfl rfl rfl rfl (h.headerAt hguard.1 rfl)
  | abortHeader =>
    rcases hguard.1 with hpc | hpc
    . exact h.of_handle hpc rfl rfl rfl rfl ⟨s.headerLeft, h.headerAt hpc rfl⟩
    . exact h.of_handle hpc.1 rfl rfl rfl rfl ⟨s.headerLeft, h.headerAt hpc.1 rfl⟩
  | acceptHeader k =>
    have hheader : s.up.written ++ s.headerLeft = conn.header := h.headerAt hguard.1 rfl
    refine h.of_handle hguard.1 rfl rfl rfl ?_ ?_
    . simp only [HandleAct.effect, hguard.1]
      rfl
    . simp only [HandleAct.effect, hguard.1, HeaderAt]
      rw [List.append_assoc, List.take_append_drop]
      exact hheader
  | headerWritten =>
    have hheader : s.up.written ++ s.headerLeft = conn.header := h.headerAt hguard.1 rfl
    rw [hguard.2, List.append_nil] at hheader
    exact h.of_handle hguard.1 rfl rfl rfl rfl hheader
  | headerErr => exact h.of_handle hguard.1 rfl rfl rfl rfl ⟨s.headerLeft, h.headerAt hguard.1 rfl⟩
  | start => exact h.start_effect hguard
  | join reason checked =>
    have hspawned : s.handle.isSpawned = true := by rw [hguard.1]; rfl
    constructor
    . intro _ dir
      exact h.spawned hspawned dir
    all_goals
      intro hne
      simp [HandleAct.effect, HandlePc.isSpawned] at hne

theorem watch_isSpawned {act : WatchAct} (hguard : act.guard conn s)
    : s.handle.isSpawned = true ∧ (act.effect conn s).handle.isSpawned = true := by
  cases act with
  | recv wake dir end_ =>
    rw [hguard.1]
    refine ⟨rfl, ?_⟩
    cases end_ <;> cases dir <;> rfl
  | _ =>
    rw [hguard.1]
    exact ⟨rfl, rfl⟩

protected theorem effect (h : StreamInv conn s) (hguard : guard conn s l)
    : StreamInv conn (effect conn s l) := by
  cases l with
  | env act => cases act <;> exact ⟨h.spawned, h.up, h.down, h.header⟩
  | handle act => exact h.handle_effect hguard
  | watch act =>
    rcases watch_isSpawned hguard with ⟨hbefore, hafter⟩
    constructor
    . intro _ dir
      simp only [Tcp.effect, WatchAct.copy_effect]
      exact h.spawned hbefore dir
    all_goals
      intro hne
      simp [Tcp.effect, hafter] at hne
  | copy dir act =>
    have hspawned := h.isSpawned_of_copy hguard
    constructor
    . intro _ dir'
      simp only [Tcp.effect, CopyAct.copy_effect]
      split
      . next heq =>
        subst heq
        exact (h.spawned hspawned _).apply hguard
      . exact h.spawned hspawned dir'
    all_goals
      intro hne
      simp [Tcp.effect, hspawned] at hne

end StreamInv

theorem streamInv_of_reach {ok : State → Label → Prop}
    (h : (connection conn).Reach ok accepted s)
    : StreamInv conn s :=
  h.invariant (streamInv_accepted conn) (fun _ _ hinv hguard _ => hinv.effect hguard)

def payload (conn : Conn) (s : State) (dir : Dir) : Bytes :=
  (s.copy dir).written.drop (conn.preamble dir).length

namespace CopyInv

variable {dir : Dir} {c : Copy}

theorem preamble_prefix (h : CopyInv conn dir c) : conn.preamble dir <+: c.written := by
  have hlen := congrArg List.length h.stream
  have hbuf := h.buf
  have hread := h.read
  simp only [List.length_append] at hlen
  apply List.prefix_of_prefix_length_le (List.prefix_append _ c.read)
  . rw [← h.stream]
    apply List.prefix_append
  . omega

theorem written_prefix (h : CopyInv conn dir c)
    : c.written <+: conn.preamble dir ++ conn.sent dir := by
  apply (List.prefix_append c.written c.buf).trans
  rw [h.stream]
  exact (List.prefix_append_right_inj _).mpr h.sent

theorem written_eq (h : CopyInv conn dir c) (hn : c.n = 0)
    : c.written = conn.preamble dir ++ c.read := by
  have hstream := h.stream
  rwa [h.buf_eq_nil hn, List.append_nil] at hstream

theorem length_payload (h : CopyInv conn dir c)
    : (c.written.drop (conn.preamble dir).length).length + c.buf.length = c.read.length := by
  have hlen := congrArg List.length h.stream
  have hpre := h.preamble_prefix.length_le
  simp only [List.length_append, List.length_drop] at hlen ⊢
  omega

theorem total_le (h : CopyInv conn dir c) : c.total.toNat ≤ c.read.length - c.n := by
  rw [h.total, UInt64.toNat_ofNat']
  apply Nat.mod_le

end CopyInv

theorem StreamInv.copy_of_idle (h : StreamInv conn s) (hidle : s.handle.isSpawned = false)
    (dir : Dir)
    : s.copy dir = { Copy.new with written := (s.copy dir).written } := by
  cases dir with
  | up => exact h.up hidle
  | down =>
    have hdown : s.copy .down = .new := h.down hidle
    rw [hdown]

theorem StreamInv.written_of_idle (h : StreamInv conn s) (hidle : s.handle.isSpawned = false)
    (dir : Dir)
    : (s.copy dir).written <+: conn.preamble dir := by
  cases dir with
  | up =>
    have hheader := h.header hidle
    show s.up.written <+: conn.header
    cases hpc : s.handle with
    | connect =>
      rw [hpc] at hheader
      rw [show s.up.written = [] from hheader]
      apply List.nil_prefix
    | connecting =>
      rw [hpc] at hheader
      rw [show s.up.written = [] from hheader]
      apply List.nil_prefix
    | header => rw [hpc] at hheader; exact ⟨_, hheader⟩
    | writingHeader => rw [hpc] at hheader; exact ⟨_, hheader⟩
    | start => rw [hpc] at hheader; rw [show s.up.written = conn.header from hheader]
    | returned outcome checked => rw [hpc] at hheader; exact hheader
    | watch pc => rw [hpc] at hidle; exact absurd hidle (by simp [HandlePc.isSpawned])
    | joining reason checked => rw [hpc] at hidle; exact absurd hidle (by simp [HandlePc.isSpawned])
  | down =>
    have hdown : s.copy .down = .new := h.down hidle
    rw [hdown]
    apply List.nil_prefix

structure DirOk (conn : Conn) (s : State) (dir : Dir) : Prop where
  written : (s.copy dir).written <+: conn.preamble dir ++ conn.sent dir
  preamble : (s.copy dir).readAt ≠ [] ∨ (s.copy dir).wroteAt ≠ [] →
    conn.preamble dir <+: (s.copy dir).written
  counted : (s.copy dir).total = (s.copy dir).bytes
  total : (s.copy dir).total.toNat ≤ (payload conn s dir).length
  payload : (payload conn s dir).length ≤ (s.copy dir).read.length
  read : (s.copy dir).read.length < 2 ^ 64 →
    (s.copy dir).read.length ≤ (s.copy dir).total.toNat + bufSize
  shut : (s.copy dir).shut = true → (s.copy dir).written = conn.preamble dir ++ (s.copy dir).read
  eof : (s.copy dir).exit = some .eof →
    (s.copy dir).written = conn.preamble dir ++ (s.copy dir).read

theorem StreamInv.dirOk (h : StreamInv conn s) (dir : Dir) : DirOk conn s dir := by
  cases hidle : s.handle.isSpawned with
  | false =>
    have hcopy := h.copy_of_idle hidle dir
    have hwritten := h.written_of_idle hidle dir
    generalize (s.copy dir).written = written at hcopy hwritten
    constructor <;> simp only [Tcp.payload, hcopy]
    . exact hwritten.trans (List.prefix_append _ _)
    . simp [Copy.new]
    . rfl
    . apply Nat.zero_le
    . have := hwritten.length_le
      simp [Copy.new, this]
    . simp [Copy.new]
    . simp [Copy.new]
    . simp [Copy.new]
  | true =>
    have hcopy := h.spawned hidle dir
    have hpayload := hcopy.length_payload
    have htotal := hcopy.total_le
    have hbuf := hcopy.buf
    have hread := hcopy.read
    constructor
    . exact hcopy.written_prefix
    . exact fun _ => hcopy.preamble_prefix
    . exact hcopy.bytes.symm
    . rw [Tcp.payload]
      omega
    . rw [Tcp.payload]
      omega
    . intro hlt
      have hchunk := hcopy.chunk
      rw [hcopy.total, UInt64.toNat_ofNat', Nat.mod_eq_of_lt (by omega)]
      omega
    . exact fun hshut => hcopy.written_eq (hcopy.shut hshut).1
    . exact fun heof => hcopy.written_eq (hcopy.clean (.inl heof))

theorem relay_integrity (h : (connection conn).Reachable accepted s) (dir : Dir)
    : DirOk conn s dir :=
  (streamInv_of_reach h).dirOk dir

theorem relay_integrity_first_chunk
    : let run := Label.connect ++ [.copy .up .poll, .copy .up (.read [1, 2]), .copy .up .pollWrite,
        .copy .up (.accept 1)]
      DirOk webConn ((connection webConn).exec accepted run) .up := by
  intro run
  have hruns : (connection webConn).Runs accepted run := by decide
  exact relay_integrity hruns.reachable .up

def longConn : Conn :=
  { webConn with sent := fun _ => List.replicate (2 ^ 64 + bufSize) 0 }

namespace Label

def fullChunk (dir : Dir) : List Label :=
  [.copy dir .poll, .copy dir (.read (List.replicate bufSize 0)), .copy dir .pollWrite,
    .copy dir (.accept bufSize), .copy dir .wrote]

end Label

structure Pumped (k : Nat) (s : State) : Prop where
  cancel : s.cancel = false
  pc : s.up.pc = .select
  read : s.up.read = List.replicate (bufSize * k) 0
  total : s.up.total = UInt64.ofNat (bufSize * k)

theorem Pumped.runs {k : Nat} (h : Pumped k s) (hk : k ≤ 2 ^ 50)
    : (connection longConn).Runs s (Label.fullChunk .up) := by
  have hpos : 1 ≤ bufSize := by decide
  have hne : bufSize ≠ 0 := by decide
  have hsent : List.replicate (bufSize * k + bufSize) 0 <+: longConn.sent .up := by
    rw [longConn, List.prefix_replicate_iff, List.length_replicate]
    refine ⟨?_, rfl⟩
    simp only [bufSize]
    omega
  simp [Label.fullChunk, connection, guard, effect, CopyAct.guard, CopyAct.effect, CopyAct.apply,
    State.setCopy, State.copy, h.cancel, h.pc, h.read, hpos, hne, hsent]

theorem Pumped.step {k : Nat} (h : Pumped k s)
    : Pumped (k + 1) ((connection longConn).exec s (Label.fullChunk .up)) := by
  constructor
  . simp [Label.fullChunk, connection, effect, h.cancel]
  . rfl
  . simp [Label.fullChunk, connection, effect, CopyAct.effect, CopyAct.apply, State.setCopy,
      State.copy, h.read, Nat.mul_succ]
  . simp [Label.fullChunk, connection, effect, CopyAct.effect, CopyAct.apply, State.setCopy,
      State.copy, h.total, Nat.mul_succ, UInt64.ofNat_add]

theorem pumped_reachable {k : Nat} (hk : k ≤ 2 ^ 50 + 1)
    : ∃ s, (connection longConn).Reachable accepted s ∧ Pumped k s := by
  induction k with
  | zero =>
    have hruns : (connection longConn).Runs accepted
        Label.connect := by decide
    refine ⟨_, hruns.reachable, ?_⟩
    constructor <;> rfl
  | succ k ih =>
    rcases ih (by omega) with ⟨s, hreach, hpumped⟩
    exact ⟨_, hreach.exec (hpumped.runs (by omega)) (Machine.steps_true _ _), hpumped.step⟩

theorem total_wraps_in_long_transfer
    : ∃ s, (connection longConn).Reachable accepted s
        ∧ s.up.total.toNat + bufSize < s.up.read.length := by
  rcases pumped_reachable (Nat.le_refl (2 ^ 50 + 1)) with ⟨s, hreach, hpumped⟩
  refine ⟨s, hreach, ?_⟩
  rw [hpumped.total, hpumped.read, List.length_replicate, UInt64.toNat_ofNat']
  simp only [bufSize]
  omega

end Tcp
