import Oxiduct.Udp.Lemmas.Basic

/-!
This module contains what one step of the UDP proxy can do to the cell of a session. Everything that
is proved about cells on a run goes through this case distinction.
-/

namespace Udp

inductive CellChange (s : State) (id : Nat) : Label → Cell → Prop where
  -- every step that only drops a sender or sets a token, and every step that does not touch the cell
  | flags (l : Label) (tx cancel : Bool) : CellChange s id l { s.cells id with tx, cancel }
  | hit (src : SocketAddr) (data : Packet) (session : Session) (hid : session.id = id)
    : CellChange s id (.listener (.hit src data session))
        ({ s.cells id with lastActivity := s.now }.trySend data)
  | opened (i : Nat) (task : Task) (slot : Limits.Guard)
    : CellChange s id (.setup i task (.openOk slot id)) (.opened task.src task.born s.now)
  | trySend (i : Nat) (task : Task) (session : Session) (hid : session.id = id)
    : CellChange s id (.setup i task (.trySend session)) ((s.cells id).trySend task.data)
  | relay (side : Side) (act : RelayAct)
    : CellChange s id (.relay id side act) (act.apply s.now side (s.cells id))

namespace CellChange

variable {s : State} {id : Nat} {l : Label}

theorem refl (s : State) (id : Nat) (l : Label) : CellChange s id l (s.cells id) :=
  .flags l (s.cells id).tx (s.cells id).cancel

theorem dropSessions (s : State) (id : Nat) (l : Label) (xs : List Session)
    : CellChange s id l ((s.dropSessions xs).cells id) := by
  simp only [State.dropSessions]
  split
  . exact .flags l false (s.cells id).cancel
  . apply refl

theorem cancelAll (s : State) (id : Nat) (l : Label) (ids : List Nat)
    : CellChange s id l ((s.cancelAll ids).cells id) := by
  simp only [State.cancelAll]
  split
  . exact .flags l (s.cells id).tx true
  . apply refl

theorem dropSessions_cancelAll (s : State) (id : Nat) (l : Label) (xs : List Session)
    (ids : List Nat)
    : CellChange s id l (((s.cancelAll ids).dropSessions xs).cells id) := by
  simp only [State.dropSessions]
  split
  . simp only [State.cancelAll]
    split
    . exact .flags l false true
    . exact .flags l false (s.cells id).cancel
  . apply cancelAll

theorem updCell (id' : Nat) (f : Cell → Cell) (h : id' = id → CellChange s id l (f (s.cells id)))
    : CellChange s id l ((s.updCell id' f).cells id) := by
  rw [State.cells_updCell]
  split
  . next heq =>
    subst heq
    apply h rfl
  . apply refl

end CellChange

theorem cellChange_effect (cfg : ProxyConfig) (s : State) (l : Label) (id : Nat)
    : CellChange s id l ((effect cfg s l).cells id) := by
  cases l with
  | env act =>
    cases act with
    | teardown => apply CellChange.dropSessions
    | _ => apply CellChange.refl
  | listener act =>
    cases act with
    | hit src data session =>
      refine CellChange.updCell (s := s) session.id
        (fun c => { c with lastActivity := s.now }.trySend data) ?_
      rintro rfl
      exact .hit src data session rfl
    | evict src data session => apply CellChange.dropSessions
    | shutdown => apply CellChange.cancelAll
    | _ => apply CellChange.refl
  | setup i task act =>
    cases act with
    | openOk slot id' =>
      refine CellChange.updCell (s := s) id' (fun _ => .opened task.src task.born s.now) ?_
      rintro rfl
      exact .opened i task slot
    | abort session => apply CellChange.cancelAll
    | trySend session =>
      refine CellChange.updCell (s := s) session.id (fun c => c.trySend task.data) ?_
      rintro rfl
      exact .trySend i task session rfl
    | dropSession session => apply CellChange.dropSessions
    | insert session => apply CellChange.dropSessions
    | _ => apply CellChange.refl
  | relay id' side act =>
    refine CellChange.updCell (s := s) id' (fun c => act.apply s.now side c) ?_
    rintro rfl
    exact .relay side act
  | cleanup act =>
    cases act with
    | retain now => apply CellChange.dropSessions_cancelAll
    | _ => apply CellChange.refl

end Udp
