import Oxiduct.Metrics.Impl

/-!
This module contains the results about runs of `handle_request`: the request line it judges does not
depend on how the client's bytes arrive, and what it writes is the response to that line.
-/

namespace Metrics

variable {rendered sent : Bytes}

def State.received (s : State) : Bytes :=
  s.buf.bytes.take s.n

def Wire (r : Response) (s : State) : Prop :=
  match s.pc with
  | .reading => s.response = none ∧ s.written = []
  | .parsing => s.response = none ∧ s.written = []
  | .writingHeader => s.response = some r ∧ s.written ++ s.left = r.header
  | .writingBody => s.response = some r ∧ s.written ++ s.left = r.header ++ r.body
  | .flushing => s.response = some r ∧ s.written = r.header ++ r.body
  | .shuttingDown => s.response = some r ∧ s.written = r.header ++ r.body
  | .draining => s.response = some r ∧ s.written = r.header ++ r.body
  | .returned .done => s.response = some r ∧ s.written = r.header ++ r.body
  | .returned _ =>
    (s.response = none ∧ s.written = [])
      ∨ (s.response = some r ∧ s.written <+: r.header ++ r.body)
  | .panicked => False

structure Inv (rendered sent : Bytes) (s : State) : Prop where
  n_le : s.n ≤ bufLen
  reading : s.pc = .reading → s.n < bufLen ∧ s.received ++ s.unread = sent
  parsing : s.pc = .parsing → s.received.takeWhile (· ≠ newline) = requestPrefix sent
  wire : Wire (responseTo rendered sent) s

theorem Wire.ne_panicked {r : Response} {s : State} (h : Wire r s) : s.pc ≠ .panicked := by
  intro hpc
  simp [Wire, hpc] at h

theorem Wire.answered {r : Response} {s : State} (h : Wire r s)
    : (s.response = none ∧ s.written = [])
        ∨ (s.response = some r ∧ s.written <+: r.header ++ r.body) := by
  unfold Wire at h
  split at h
  . exact .inl h
  . exact .inl h
  . have hheader : s.written <+: r.header := ⟨s.left, h.2⟩
    exact .inr ⟨h.1, hheader.trans (List.prefix_append r.header r.body)⟩
  . exact .inr ⟨h.1, ⟨s.left, h.2⟩⟩
  . exact .inr ⟨h.1, h.2 ▸ List.prefix_rfl⟩
  . exact .inr ⟨h.1, h.2 ▸ List.prefix_rfl⟩
  . exact .inr ⟨h.1, h.2 ▸ List.prefix_rfl⟩
  . exact .inr ⟨h.1, h.2 ▸ List.prefix_rfl⟩
  . exact h
  . exact h.elim

theorem Wire.eq_of_response {r r' : Response} {s : State} (h : Wire r s)
    (hresponse : s.response = some r')
    : r' = r := by
  cases h.answered with
  | inl hnone => simp [hnone.1] at hresponse
  | inr hsome =>
    rw [hsome.1, Option.some.injEq] at hresponse
    exact hresponse.symm

theorem inv_accepted : Inv rendered sent (accepted sent) where
  n_le := Nat.zero_le bufLen
  reading _ := ⟨Nat.zero_lt_succ 1023, rfl⟩
  parsing h := by simp [accepted] at h
  wire := ⟨rfl, rfl⟩

theorem length_received {s : State} (h : s.n ≤ bufLen) : s.received.length = s.n := by
  have := s.buf.length_eq
  rw [State.received, List.length_take]
  omega

theorem add_length_le {s : State} {data : Bytes} (hn : s.n ≤ bufLen)
    (hreads : Reads s (bufLen - s.n) data)
    : s.n + data.length ≤ bufLen := by
  have := hreads.2.1
  omega

theorem exit_of_breaks {s : State} {data : Bytes} (hlt : s.n < bufLen)
    (hreads : Reads s (bufLen - s.n) data)
    (hbreaks : Breaks data (s.received ++ data) (s.n + data.length))
    : newline ∈ s.received ++ data ∨ (s.received ++ data).length = bufLen
        ∨ s.unread.drop data.length = [] := by
  have hlen : (s.received ++ data).length = s.n + data.length := by
    rw [List.length_append, length_received (by omega)]
  rcases hbreaks with heof | hmem | hfull
  . have hunread : s.unread = [] := by
      apply (hreads.2.2 heof).resolve_right
      omega
    rw [hunread, List.drop_nil]
    simp
  . exact .inl hmem
  . rw [hlen]
    exact .inr (.inl hfull)

theorem inv_read {s : State} {data : Bytes} (h : Inv rendered sent s)
    (hguard : guard s (.read data))
    : Inv rendered sent (effect rendered s (.read data)) := by
  have ⟨hpc, hreads⟩ := hguard
  have ⟨hlt, hsent⟩ := h.reading hpc
  have hle := add_length_le h.n_le hreads
  have hreceived : (s.buf.fill s.n data hle).bytes.take (s.n + data.length) = s.received ++ data :=
    s.buf.take_fill hle
  have hunread : data ++ s.unread.drop data.length = s.unread :=
    List.prefix_iff_eq_append.mp hreads.1
  have hsplit : s.received ++ data ++ s.unread.drop data.length = sent := by
    rw [List.append_assoc, hunread, hsent]
  have hwire := h.wire
  simp only [Wire, hpc] at hwire
  simp only [effect]
  rw [dif_pos hle, hreceived]
  by_cases hbreaks : Breaks data (s.received ++ data) (s.n + data.length)
  . rw [if_pos hbreaks]
    have hprefix : (s.received ++ data).takeWhile (· ≠ newline) = requestPrefix sent := by
      rw [← hsplit]
      apply takeWhile_received
      . rw [List.length_append, length_received h.n_le]
        exact hle
      . exact exit_of_breaks hlt hreads hbreaks
    exact {
      n_le := hle
      reading := by simp
      parsing := by
        intro _
        rw [State.received, hreceived]
        exact hprefix
      wire := hwire
    }
  . rw [if_neg hbreaks]
    have hne : s.n + data.length ≠ bufLen := fun hfull => hbreaks (.inr (.inr hfull))
    exact {
      n_le := hle
      reading := by
        intro _
        rw [State.received, hreceived]
        exact ⟨Nat.lt_of_le_of_ne hle hne, hsplit⟩
      parsing := by simp
      wire := hwire
    }

theorem inv_of_left {s s' : State} (h : Inv rendered sent s) (hn : s'.n = s.n)
    (hreading : s'.pc ≠ .reading) (hparsing : s'.pc ≠ .parsing)
    (hwire : Wire (responseTo rendered sent) s')
    : Inv rendered sent s' where
  n_le := hn ▸ h.n_le
  reading hpc := absurd hpc hreading
  parsing hpc := absurd hpc hparsing
  wire := hwire

theorem inv_parse {s : State} (h : Inv rendered sent s) (hguard : guard s .parse)
    : Inv rendered sent (effect rendered s .parse) := by
  have hpc : s.pc = .parsing := hguard
  have hwire := h.wire
  simp only [Wire, hpc] at hwire
  have hresponse : respond rendered (isMetrics (firstLine (Utf8.decodeLossy s.received)))
      = responseTo rendered sent := by
    rw [isMetrics_firstLine_decodeLossy, h.parsing hpc]
    rfl
  simp only [effect]
  rw [if_pos h.n_le, ← State.received, hresponse]
  apply inv_of_left h <;> simp [Wire, hwire]

theorem inv_accept {s : State} {k : Nat} (h : Inv rendered sent s) (hguard : guard s (.accept k))
    : Inv rendered sent (effect rendered s (.accept k)) := by
  have hwire := h.wire
  cases hguard.1 with
  | inl hpc =>
    simp only [Wire, hpc] at hwire
    apply inv_of_left h <;> simp [effect, Wire, hpc, hwire]
  | inr hpc =>
    simp only [Wire, hpc] at hwire
    apply inv_of_left h <;> simp [effect, Wire, hpc, hwire]

theorem inv_wrote {s : State} (h : Inv rendered sent s) (hguard : guard s .wrote)
    : Inv rendered sent (effect rendered s .wrote) := by
  have hwire := h.wire
  cases hguard.1 with
  | inl hpc =>
    simp only [Wire, hpc, hguard.2, List.append_nil] at hwire
    apply inv_of_left h <;> simp [effect, Wire, hpc, hwire]
  | inr hpc =>
    simp only [Wire, hpc, hguard.2, List.append_nil] at hwire
    apply inv_of_left h <;> simp [effect, Wire, hpc, hwire]

-- a handler that fails or is given up has written no more than the response
theorem inv_abort {s s' : State} {outcome : Outcome} (h : Inv rendered sent s)
    (houtcome : outcome ≠ .done) (heq : s' = { s with pc := .returned outcome })
    : Inv rendered sent s' := by
  have hanswered := h.wire.answered
  rw [heq]
  cases outcome with
  | done => contradiction
  | failed => apply inv_of_left h <;> simp [Wire, hanswered]
  | timedOut => apply inv_of_left h <;> simp [Wire, hanswered]

theorem inv_finish {s s' : State} (h : Inv rendered sent s)
    (hpc : s.pc ∈ [.flushing, .shuttingDown, .draining])
    (hpc' : s'.pc ∈ [.shuttingDown, .draining, .returned .done])
    (heq : s' = { s with pc := s'.pc, unread := s'.unread })
    : Inv rendered sent s' := by
  have hwire : s.response = some (responseTo rendered sent)
      ∧ s.written = (responseTo rendered sent).header ++ (responseTo rendered sent).body := by
    have := h.wire
    simp only [List.mem_cons, List.not_mem_nil, or_false] at hpc
    rcases hpc with hpc | hpc | hpc <;> simpa only [Wire, hpc] using this
  rw [heq]
  simp only [List.mem_cons, List.not_mem_nil, or_false] at hpc'
  rcases hpc' with hpc' | hpc' | hpc' <;> rw [hpc'] <;> apply inv_of_left h <;> simp [Wire, hwire]

theorem inv_step {s : State} {l : Label} (h : Inv rendered sent s) (hguard : guard s l)
    : Inv rendered sent (effect rendered s l) := by
  cases l with
  | read data => exact inv_read h hguard
  | readErr => exact inv_abort h (by decide) rfl
  | parse => exact inv_parse h hguard
  | accept k => exact inv_accept h hguard
  | wrote => exact inv_wrote h hguard
  | writeErr => exact inv_abort h (by decide) rfl
  | flushed =>
    have hpc : s.pc = .flushing := hguard
    apply inv_finish h <;> simp [effect, hpc]
  | shutdown =>
    have hpc : s.pc = .shuttingDown := hguard
    apply inv_finish h <;> simp [effect, hpc]
  | drain data =>
    have hpc : s.pc = .draining := hguard.1
    by_cases heof : data = [] <;> apply inv_finish h <;> simp [effect, heof, hpc]
  | drainErr =>
    have hpc : s.pc = .draining := hguard
    apply inv_finish h <;> simp [effect, hpc]
  | drainTimeout =>
    have hpc : s.pc = .draining := hguard
    apply inv_finish h <;> simp [effect, hpc]
  | timeout => exact inv_abort h (by decide) rfl

theorem inv_exec {ls : List Label} (hruns : (handleRequest rendered).Runs (accepted sent) ls)
    : Inv rendered sent ((handleRequest rendered).exec (accepted sent) ls) :=
  hruns.reachable.invariant inv_accepted fun _ _ h hguard _ => inv_step h hguard

theorem n_effect_read {s : State} {data : Bytes} (h : Inv rendered sent s)
    (hguard : guard s (.read data))
    : (effect rendered s (.read data)).n = s.n + data.length := by
  simp only [effect]
  rw [dif_pos (add_length_le h.n_le hguard.2)]

theorem n_effect {s : State} {l : Label} (hl : l.isData = false) (h : Inv rendered sent s)
    (hguard : guard s l)
    : (effect rendered s l).n = s.n := by
  cases l with
  | read data =>
    have : data = [] := by simpa [Label.isData] using hl
    rw [n_effect_read h hguard, this]
    rfl
  | parse =>
    simp only [effect]
    rw [if_pos h.n_le]
  | wrote =>
    simp only [effect]
    split <;> rfl
  | _ => rfl

theorem countP_isData_le {ls : List Label}
    (hruns : (handleRequest rendered).Runs (accepted sent) ls)
    : ls.countP Label.isData ≤ bufLen := by
  -- each read that returns data takes room from the buffer, and nothing gives it back
  have hdata : ∀ s l, Inv rendered sent s → guard s l → True → l.isData = true →
      bufLen - (effect rendered s l).n < bufLen - s.n := by
    intro s l h hguard _ hl
    cases l with
    | read data =>
      have hlt := (h.reading hguard.1).1
      have hle := add_length_le h.n_le hguard.2
      have hne : data.length ≠ 0 := by simpa [Label.isData] using hl
      rw [n_effect_read h hguard]
      omega
    | _ => simp [Label.isData] at hl
  have hother : ∀ s l, Inv rendered sent s → guard s l → True → ¬ l.isData = true →
      bufLen - (effect rendered s l).n ≤ bufLen - s.n := by
    intro s l h hguard _ hl
    rw [n_effect (by simpa using hl) h hguard]
  have hinv : ∀ s l, Inv rendered sent s → guard s l → True →
      Inv rendered sent (effect rendered s l) :=
    fun _ _ h hguard _ => inv_step h hguard
  have hcount := Machine.countP_add_measure_le (Inv rendered sent) Label.isData
    (fun s => bufLen - s.n) hinv hdata hother inv_accepted hruns (Machine.steps_true _ ls)
  simp only [accepted] at hcount
  omega

theorem written_of_requestPrefix {ls : List Label}
    (hruns : (handleRequest rendered).Runs (accepted sent) ls)
    : let s := (handleRequest rendered).exec (accepted sent) ls
      let r := responseTo rendered sent
      s.written <+: r.header ++ r.body
        ∧ (s.pc = .returned .done → s.written = r.header ++ r.body) := by
  intro s r
  have hwire : Wire r s := (inv_exec hruns).wire
  constructor
  . cases hwire.answered with
    | inl hnone => simp [hnone.2]
    | inr hsome => exact hsome.2
  . intro hpc
    simp only [Wire, hpc] at hwire
    exact hwire.2

theorem status_respond (isMetrics : Bool)
    : (respond rendered isMetrics).status = if isMetrics then .ok else .notFound := by
  cases isMetrics <;> rfl

theorem verdict_of_requestPrefix {ls : List Label}
    (hruns : (handleRequest rendered).Runs (accepted sent) ls)
    : let s := (handleRequest rendered).exec (accepted sent) ls
      ls.countP Label.isData ≤ bufLen
        ∧ s.pc ≠ .panicked
        ∧ (s.written ≠ [] → ∃ r, s.response = some r ∧ s.written <+: r.header ++ r.body)
        ∧ (s.pc = .returned .done → ∃ r, s.response = some r ∧ s.written = r.header ++ r.body)
        ∧ ∀ r, s.response = some r →
          (r.status = .ok
            ↔ AsksForMetrics (Text.splitWhitespace (Utf8.decodeLossy (requestPrefix sent))))
          ∧ ∀ rendered' sent' ls',
            (handleRequest rendered').Runs (accepted sent') ls' →
            requestPrefix sent' = requestPrefix sent →
            ∀ r', ((handleRequest rendered').exec (accepted sent') ls').response = some r' →
              r'.status = r.status := by
  intro s
  have hwire : Wire (responseTo rendered sent) s := (inv_exec hruns).wire
  refine ⟨countP_isData_le hruns, hwire.ne_panicked, ?_, ?_, ?_⟩
  . intro hwritten
    cases hwire.answered with
    | inl hnone => exact absurd hnone.2 hwritten
    | inr hsome => exact ⟨_, hsome⟩
  . intro hpc
    simp only [Wire, hpc] at hwire
    exact ⟨_, hwire⟩
  . intro r hr
    have heq := hwire.eq_of_response hr
    constructor
    . rw [heq, responseTo, status_respond, ← isMetrics_iff]
      split <;> simp [*]
    . intro rendered' sent' ls' hruns' hprefix r' hr'
      have heq' := (inv_exec hruns').wire.eq_of_response hr'
      rw [heq, heq', responseTo, responseTo, hprefix, status_respond, status_respond]

theorem verdict_of_split_request_line
    : let line := Utf8.encode "GET /metrics HTTP/1.1\r\n".toList
      let sent := line ++ Utf8.encode "\r\n".toList
      let ls := [.read (sent.take 8), .read (sent.drop 8), .parse]
      let s := (handleRequest []).exec (accepted sent) ls
      -- the first two bytes of a character of three, cut by the end of the read
      let sent' := line ++ [0xE2, 0x82]
      let ls' := [.read (sent'.take 24), .parse]
      let s' := (handleRequest []).exec (accepted sent') ls'
      ls.countP Label.isData ≤ bufLen
        ∧ ∃ r r', s.response = some r
          ∧ s'.response = some r'
          ∧ AsksForMetrics (Text.splitWhitespace (Utf8.decodeLossy (requestPrefix sent)))
          ∧ r'.status = r.status := by
  intro line sent ls s sent' ls' s'
  have hruns : (handleRequest []).Runs (accepted sent) ls := by decide
  have hruns' : (handleRequest []).Runs (accepted sent') ls' := by decide
  have hprefix : requestPrefix sent' = requestPrefix sent := by decide
  have hresponse : s.response = some (respond [] true) := by decide
  have hresponse' : s'.response = some (respond [] true) := by decide
  have hverdict := verdict_of_requestPrefix hruns
  have ⟨hstatus, hsame⟩ := hverdict.2.2.2.2 _ hresponse
  exact ⟨hverdict.1, _, _, hresponse, hresponse', hstatus.mp rfl,
    hsame [] sent' ls' hruns' hprefix _ hresponse'⟩

end Metrics
