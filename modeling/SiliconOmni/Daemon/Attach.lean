import Mathlib.Data.Int.Notation
import Mathlib.Data.Nat.Notation
import Mathlib.Data.List.Basic
import Mathlib.Data.List.Nodup
import Mathlib.Order.Lattice
import SiliconOmni.Lib.Transition

/-! Attaching a connection to a live session: the replay from disk, and the conductor's sink that
works on a copy of the listener list. A persisted event is known by its position in the log. -/
namespace SiliconOmni.Daemon

/-- What the conductor hands to its sink. -/
inductive Published where
  | event (seq : ℕ)
  /-- The unpersisted notice that storage failed. -/
  | notice
  deriving DecidableEq, Repr

def Published.seq : Published → Option ℕ
  | event seq => some seq
  | notice => none

/-- One connection's interest in the session; its cursor is kept in the state. -/
structure Listener where
  id : ℕ
  conn : ℕ
  deriving DecidableEq, Repr

/-- Where the holder of the listener lock is in `attach`. -/
inductive Attaching where
  /-- The old listener is gone; the file is not read yet. -/
  | loading (listener : Listener)
  | replaying (listener : Listener) (rest : List ℕ)
  deriving DecidableEq, Repr

def Attaching.listener : Attaching → Listener
  | loading listener | replaying listener _ => listener

structure Feed where
  /-- The events in the file are `0 .. persisted - 1`. -/
  persisted : ℕ := 0
  /-- One past the `seq` of the snapshot. -/
  settled : ℕ := 0
  /-- Recorded, not yet handed on. -/
  unpublished : List Published := []
  /-- The event the sink is delivering, and whom it has still to deliver it to. -/
  sink : Option (Published × List Listener) := none
  listeners : List Listener := []
  /-- Who holds the listener lock across steps, if anybody does. -/
  lock : Option Attaching := none
  /-- The cursor of each listener. -/
  next : Listener → ℕ := fun _ => 0
  made : ℕ := 0
  closed : ℕ → Bool := fun _ => false
  stopping : Bool := false
  /-- Where each connection's latest replay began. -/
  start : ℕ → ℕ := fun _ => 0
  /-- What each connection was sent since then. -/
  sent : ℕ → List Published := fun _ => []

inductive FeedAct where
  /-- The conductor appends the next event to the file. -/
  | append
  /-- The snapshot and the unpublished list learn of it. -/
  | settle
  | notice
  /-- The sink takes the next event, and a copy of the listeners. -/
  | publish
  /-- The sink delivers to one listener; `full` if the outbox has no room. -/
  | deliver (full : Bool)
  | done
  | attach (conn : ℕ) (from_ : ℤ)
  | load
  /-- The replay goes on by one event; `late` if the outbox stayed full too long. -/
  | replay (late : Bool)
  | subscribe
  | detach (conn : ℕ)
  | close (conn : ℕ)
  | shut
  deriving DecidableEq, Repr

namespace Feed

/-- Queue a frame for a connection; a full outbox closes it. -/
def frame (s : Feed) (conn : ℕ) (item : Published) (full : Bool) : Feed :=
  if s.closed conn then s
  else if full then { s with closed := Function.update s.closed conn true }
  else { s with sent := Function.update s.sent conn (s.sent conn ++ [item]) }

/-- `Listener::deliver`, and `Listener::replay` alike: send this on, unless the listener has
already had it. -/
def tell (s : Feed) (listener : Listener) (item : Published) (full : Bool) : Feed :=
  match item with
  | .event seq =>
      if seq < s.next listener then s
      else { s with next := Function.update s.next listener (seq + 1) }.frame listener.conn item full
  | .notice => s.frame listener.conn item full

def without (s : Feed) (conn : ℕ) : List Listener := s.listeners.filter (·.conn ≠ conn)

/-- `attach` up to the new listener: a re-opened connection loses its old one. -/
def attach (s : Feed) (conn : ℕ) (from_ : ℤ) : Option Feed :=
  if s.lock = none ∧ !s.closed conn ∧ !s.stopping then
    let start := if from_ < 0 then s.settled else from_.toNat
    let listener : Listener := { id := s.made, conn }
    some { s with
      listeners := s.without conn
      lock := some (.loading listener)
      next := Function.update s.next listener start
      made := s.made + 1
      start := Function.update s.start conn start
      sent := Function.update s.sent conn [] }
  else none

/-- The persisted events from `start` on. -/
def events (s : Feed) (start : ℕ) : List ℕ := List.range' start (s.persisted - start)

def step (s : Feed) : FeedAct → Option Feed
  | .append =>
      -- the conductor is one thread: it records nothing while its sink delivers
      if s.sink = none ∧ s.settled = s.persisted then some { s with persisted := s.persisted + 1 }
      else none
  | .settle =>
      if s.settled < s.persisted then
        some { s with
          settled := s.persisted
          unpublished := s.unpublished ++ [.event s.settled] }
      else none
  | .notice =>
      if s.sink = none ∧ s.settled = s.persisted then
        some { s with unpublished := s.unpublished ++ [.notice] }
      else none
  | .publish =>
      match s.unpublished with
      | item :: rest =>
          if s.sink = none ∧ s.lock = none ∧ s.settled = s.persisted then
            some { s with unpublished := rest, sink := some (item, s.listeners) }
          else none
      | [] => none
  | .deliver full =>
      match s.sink with
      | some (item, listener :: rest) =>
          some { s.tell listener item full with sink := some (item, rest) }
      | _ => none
  | .done => match s.sink with
      | some (_, []) => some { s with sink := none }
      | _ => none
  | .attach conn from_ => s.attach conn from_
  | .load => match s.lock with
      | some (.loading listener) =>
          some { s with lock := some (.replaying listener (s.events (s.start listener.conn))) }
      | _ => none
  | .replay late => match s.lock with
      | some (.replaying listener (seq :: rest)) =>
          let t := s.tell listener (.event seq) late
          some { t with
            lock := some (.replaying listener (if t.closed listener.conn then [] else rest)) }
      | _ => none
  | .subscribe => match s.lock with
      | some (.replaying listener []) =>
          -- a connection closed meanwhile may have missed its one forget pass
          some { s with
            lock := none
            listeners :=
              if s.closed listener.conn then s.without listener.conn
              else s.listeners ++ [listener] }
      | _ => none
  | .detach conn =>
      if s.lock = none then some { s with listeners := s.without conn } else none
  | .close conn => some { s with closed := Function.update s.closed conn true }
  | .shut => if s.lock = none then some { s with stopping := true } else none

def machine : Lib.Machine Feed FeedAct where
  init s := s = {}
  step := step

/-- The persisted events a connection was sent since its latest replay began. -/
def heard (s : Feed) (conn : ℕ) : List ℕ := (s.sent conn).filterMap Published.seq

/-- The attached listeners, and the one whose replay is going on. -/
def current (s : Feed) : List Listener := s.listeners ++ (s.lock.map Attaching.listener).toList

/-- A connection that is attached and open was sent the persisted events from where it started,
one after the other; those handed on to the listeners are among them. -/
structure NoGapNoRepeat (s : Feed) : Prop where
  consecutive : ∀ l ∈ s.current, s.closed l.conn = false →
    s.heard l.conn = List.range' (s.start l.conn) (s.heard l.conn).length
  persisted : ∀ l ∈ s.current, s.closed l.conn = false →
    ∀ seq ∈ s.heard l.conn, seq < s.persisted
  handed : ∀ l ∈ s.listeners, s.closed l.conn = false →
    ∀ seq, s.start l.conn ≤ seq → seq < s.settled → .event seq ∉ s.unpublished →
      (∀ rest, s.sink = some (.event seq, rest) → l ∉ rest) → seq ∈ s.heard l.conn

/-- Nothing that a listener has not had yet is on its way to it. -/
def Had (s : Feed) (item : Published) (l : Listener) : Prop :=
  ∀ seq, item = .event seq → seq < s.next l

/-- A connection attaches only when the sink has no event on its way to an older listener of
that connection. -/
def Uncrossed (s : Feed) : FeedAct → Prop
  | .attach conn _ =>
      ∀ item rest, s.sink = some (item, rest) → ∀ l ∈ rest, l.conn = conn → s.Had item l
  | _ => True

instance (s : Feed) (item : Published) (l : Listener) : Decidable (s.Had item l) :=
  match item with
  | .event seq => decidable_of_iff (seq < s.next l) (by simp [Had])
  | .notice => .isTrue nofun

instance (s : Feed) : (act : FeedAct) → Decidable (s.Uncrossed act)
  | .attach conn _ => match h : s.sink with
      | none => .isTrue (by simp [Uncrossed, h])
      | some (item, rest) =>
          decidable_of_iff (∀ l ∈ rest, l.conn = conn → s.Had item l) (by simp [Uncrossed, h])
  | .append | .settle | .notice | .publish | .deliver _ | .done | .load | .replay _ | .subscribe
  | .detach _ | .close _ | .shut => .isTrue trivial

/-! ### What one delivery does -/

/-- `t` is `s` after `item` was delivered to `l`. -/
structure Told (s t : Feed) (l : Listener) (item : Published) : Prop where
  same : t = { s with next := t.next, closed := t.closed, sent := t.sent }
  next : ∀ k, k ≠ l → t.next k = s.next k
  closed : ∀ conn, t.closed conn = false → s.closed conn = false
  sent : ∀ conn, conn ≠ l.conn → t.sent conn = s.sent conn
  had : s.Had item l → t.next l = s.next l ∧
    (t.closed l.conn = false → t.heard l.conn = s.heard l.conn)
  hears : ∀ seq, item = .event seq → s.next l ≤ seq → t.next l = seq + 1 ∧
    (t.closed l.conn = false → t.heard l.conn = s.heard l.conn ++ [seq])

variable {s t : Feed} {l : Listener} {item : Published}

theorem frame_same (conn : ℕ) (item : Published) (full : Bool) :
    s.frame conn item full =
      { s with
        closed := (s.frame conn item full).closed
        sent := (s.frame conn item full).sent } := by
  unfold frame
  split_ifs <;> rfl

theorem frame_closed {conn c : ℕ} {full : Bool} (h : (s.frame conn item full).closed c = false) :
    s.closed c = false := by
  unfold frame at h
  split_ifs at h
  · exact h
  · by_cases hc : c = conn
    · subst hc
      simp at h
    · simpa [hc] using h
  · exact h

theorem frame_sent {conn c : ℕ} {full : Bool} (h : c ≠ conn) :
    (s.frame conn item full).sent c = s.sent c := by
  unfold frame
  split_ifs
  · rfl
  · rfl
  · simp [h]

theorem frame_heard {conn : ℕ} {full : Bool} (h : (s.frame conn item full).closed conn = false) :
    (s.frame conn item full).heard conn = s.heard conn ++ item.seq.toList := by
  have hopen := frame_closed h
  unfold heard
  unfold frame at h ⊢
  split_ifs at h ⊢
  · simp_all
  · simp at h
  · cases item <;> simp [List.filterMap_append, Published.seq]

theorem tell_told (s : Feed) (l : Listener) (item : Published) (full : Bool) :
    Told s (s.tell l item full) l item := by
  cases item with
  | notice =>
    have hnext : (s.frame l.conn .notice full).next = s.next := by rw [frame_same]
    have heq : s.tell l .notice full = s.frame l.conn .notice full := rfl
    rw [heq]
    refine ⟨?_, fun k _ => congrFun hnext k, fun c h => frame_closed h,
      fun c hc => frame_sent hc, fun _ => ⟨congrFun hnext l, fun h => ?_⟩, by rintro _ ⟨⟩⟩
    · rw [hnext]
      exact frame_same ..
    · have heq := frame_heard h
      simpa [Published.seq] using heq
  | event seq =>
    by_cases hlt : seq < s.next l
    · have heq : s.tell l (.event seq) full = s := by simp [tell, hlt]
      rw [heq]
      refine ⟨rfl, fun _ _ => rfl, fun _ h => h, fun _ _ => rfl, fun _ => ⟨rfl, fun _ => rfl⟩, ?_⟩
      rintro _ ⟨⟩ hle
      omega
    · have heq : s.tell l (.event seq) full =
          { s with next := Function.update s.next l (seq + 1) }.frame l.conn (.event seq) full := by
        simp [tell, hlt]
      rw [heq]
      have hnext : ({ s with next := Function.update s.next l (seq + 1) }.frame l.conn
          (.event seq) full).next = Function.update s.next l (seq + 1) := by rw [frame_same]
      refine ⟨?_, fun k hk => ?_, fun c h => ?_, fun c hc => frame_sent hc, ?_, ?_⟩
      · rw [frame_same]
      · rw [hnext, Function.update_of_ne hk]
      · have hopen := frame_closed h
        exact hopen
      · intro had
        exact absurd (had seq rfl) hlt
      · rintro _ ⟨⟩ _
        refine ⟨by rw [hnext, Function.update_self], fun h => ?_⟩
        exact frame_heard h

/-! ### The cursors -/

/-- An open connection was sent exactly what its cursor says. -/
def Cursor (s : Feed) (l : Listener) : Prop :=
  s.start l.conn ≤ s.next l ∧
    s.heard l.conn = List.range' (s.start l.conn) (s.next l - s.start l.conn) ∧
    s.next l ≤ max (s.start l.conn) s.persisted

/-- What keeps the replays and the live stream apart. The first `handed` events were handed to
the sink. -/
structure Inv (s : Feed) (handed : ℕ) : Prop where
  behind : handed ≤ s.settled
  settled : s.settled ≤ s.persisted
  ahead : s.persisted ≤ s.settled + 1
  queue : s.unpublished.filterMap Published.seq = List.range' handed (s.settled - handed)
  sinking : ∀ seq rest, s.sink = some (.event seq, rest) → seq + 1 = handed
  once : ∀ item rest, s.sink = some (item, rest) → rest.Nodup
  older : ∀ item rest, s.sink = some (item, rest) → ∀ l ∈ rest, l.id < s.made
  fresh : ∀ l ∈ s.current, l.id < s.made
  stale : ∀ item rest, s.sink = some (item, rest) → ∀ l ∈ rest, ∀ k ∈ s.current,
    l.conn = k.conn → l = k ∨ s.Had item l
  unheard : ∀ item rest, s.sink = some (item, rest) → ∀ a, s.lock = some a → a.listener ∉ rest
  conns : (s.current.map Listener.conn).Nodup
  cursor : ∀ l ∈ s.current, s.closed l.conn = false → s.Cursor l
  told : ∀ l ∈ s.listeners, s.closed l.conn = false → handed ≤ s.next l ∨
    ∃ seq rest, s.sink = some (.event seq, rest) ∧ l ∈ rest ∧ seq ≤ s.next l
  loading : ∀ l, s.lock = some (.loading l) → s.closed l.conn = false →
    s.next l = s.start l.conn
  replaying : ∀ l rest, s.lock = some (.replaying l rest) → s.closed l.conn = false →
    ∃ n, rest = List.range' (s.next l) n ∧ handed ≤ s.next l + n ∧
      s.next l + n ≤ max (s.start l.conn) s.persisted

theorem Inv.init : Inv {} 0 := by
  constructor <;> simp [current]

theorem Cursor.of_told {k : Listener} (h : s.Cursor k) (told : Told s t l item)
    (ht : t.closed k.conn = false) (apart : l.conn = k.conn → l = k ∨ s.Had item l)
    (reach : ∀ seq, item = .event seq → l = k → s.next l ≤ seq → seq = s.next l ∧
      seq < s.persisted) : t.Cursor k := by
  have hstart : t.start = s.start := by rw [told.same]
  have hpersisted : t.persisted = s.persisted := by rw [told.same]
  by_cases hconn : l.conn = k.conn
  · by_cases had : s.Had item l
    · obtain ⟨hnext, hheard⟩ := told.had had
      have hk : t.next k = s.next k := by
        by_cases hlk : k = l
        · rw [hlk, hnext]
        · exact told.next k hlk
      rw [hconn] at hheard
      refine ⟨?_, ?_, ?_⟩
      · rw [hk, hstart]
        exact h.1
      · rw [hheard ht, hk, hstart]
        exact h.2.1
      · rw [hk, hstart, hpersisted]
        exact h.2.2
    · have hlk := (apart hconn).resolve_right had
      subst hlk
      obtain ⟨seq, rfl, hle⟩ : ∃ seq, item = .event seq ∧ s.next l ≤ seq := by
        simpa [Had] using had
      obtain ⟨hseq, hlt⟩ := reach seq rfl rfl hle
      obtain ⟨hnext, hheard⟩ := told.hears seq rfl hle
      have hbase := h.1
      refine ⟨?_, ?_, ?_⟩
      · rw [hnext, hstart]
        omega
      · have hlen : s.next l + 1 - s.start l.conn = s.next l - s.start l.conn + 1 := by omega
        have hlast : s.start l.conn + (s.next l - s.start l.conn) = s.next l := by omega
        rw [hheard ht, hnext, hstart, h.2.1, hseq, hlen, List.range'_concat, Nat.one_mul, hlast]
      · rw [hnext, hstart, hpersisted]
        omega
  · have hk : t.next k = s.next k := told.next k fun e => hconn (e ▸ rfl)
    have hheard : t.heard k.conn = s.heard k.conn := by
      unfold Feed.heard
      rw [told.sent k.conn fun e => hconn e.symm]
    refine ⟨?_, ?_, ?_⟩
    · rw [hk, hstart]
      exact h.1
    · rw [hheard, hk, hstart]
      exact h.2.1
    · rw [hk, hstart, hpersisted]
      exact h.2.2

/-- A replaced or detached listener only leaves the list. -/
theorem mem_without {conn : ℕ} : l ∈ s.without conn ↔ l ∈ s.listeners ∧ l.conn ≠ conn := by
  simp [without]

/-! ### What each step keeps -/

theorem Inv.append {n : ℕ} (h : Inv s n) (step : s.step .append = some t) : Inv t n := by
  simp only [Feed.step] at step
  split_ifs at step with hif
  obtain ⟨hsink, hsettled⟩ := hif
  cases step
  have hle : s.persisted ≤ s.persisted + 1 := Nat.le_succ _
  have hmax (l : Listener) :
      max (s.start l.conn) s.persisted ≤ max (s.start l.conn) (s.persisted + 1) := by
    omega
  refine { h with
    settled := Nat.le_trans h.settled hle
    ahead := by
      show s.persisted + 1 ≤ s.settled + 1
      omega
    cursor := fun l hl hopen => ?_
    replaying := fun l rest hlock hopen => ?_ }
  · obtain ⟨hstart, hheard, hpersisted⟩ := h.cursor l hl hopen
    exact ⟨hstart, hheard, Nat.le_trans hpersisted (hmax l)⟩
  · obtain ⟨k, hrest, hlow, hhigh⟩ := h.replaying l rest hlock hopen
    exact ⟨k, hrest, hlow, Nat.le_trans hhigh (hmax l)⟩

theorem Inv.settle {n : ℕ} (h : Inv s n) (step : s.step .settle = some t) : Inv t n := by
  simp only [Feed.step] at step
  split_ifs at step with hif
  cases step
  have hnext : s.persisted = s.settled + 1 := by
    have hahead := h.ahead
    omega
  refine { h with
    behind := Nat.le_trans h.behind (Nat.le_of_lt hif)
    settled := Nat.le_refl _
    ahead := Nat.le_succ _
    queue := ?_ }
  have hbehind := h.behind
  have hlen : s.persisted - n = s.settled - n + 1 := by omega
  have hlast : n + (s.settled - n) = s.settled := by omega
  show (s.unpublished ++ [Published.event s.settled]).filterMap Published.seq = _
  rw [List.filterMap_append, h.queue, hlen, List.range'_concat, Nat.one_mul, hlast]
  rfl

theorem Inv.notice {n : ℕ} (h : Inv s n) (step : s.step .notice = some t) : Inv t n := by
  simp only [Feed.step] at step
  split_ifs at step
  cases step
  refine { h with queue := ?_ }
  show (s.unpublished ++ [Published.notice]).filterMap Published.seq = _
  rw [List.filterMap_append, h.queue]
  exact List.append_nil _

theorem Inv.publish {n : ℕ} (h : Inv s n) (step : s.step .publish = some t) :
    ∃ m, Inv t m := by
  simp only [Feed.step] at step
  split at step
  · rename_i item rest hqueue
    split_ifs at step with hif
    obtain ⟨hsink, hlock, hsettled⟩ := hif
    cases step
    have hcurrent : s.current = s.listeners := by simp [current, hlock]
    have hconns := h.conns
    rw [hcurrent] at hconns
    have stale : ∀ l ∈ s.listeners, ∀ k ∈ s.current, l.conn = k.conn → l = k ∨ s.Had item l := by
      intro l hl k hk hconn
      rw [hcurrent] at hk
      exact .inl (List.inj_on_of_nodup_map hconns hl hk hconn)
    have older : ∀ l ∈ s.listeners, l.id < s.made := fun l hl => h.fresh l (by rwa [hcurrent])
    have hq := h.queue
    rw [hqueue] at hq
    cases item with
    | notice =>
      refine ⟨n, { h with
        queue := hq
        sinking := by rintro _ _ ⟨⟩
        once := ?_
        older := ?_
        stale := ?_
        unheard := fun _ _ _ a hsome => by simp [hlock] at hsome
        told := fun l hl hopen => .inl ?_ }⟩
      · rintro _ _ ⟨⟩
        exact hconns.of_map _
      · rintro _ _ ⟨⟩
        exact older
      · rintro _ _ ⟨⟩
        exact stale
      · rcases h.told l hl hopen with hle | ⟨seq, rest, hsome, -⟩
        · exact hle
        · rw [hsink] at hsome
          cases hsome
    | event seq =>
      have hpos : s.settled - n ≠ 0 := by
        intro hzero
        rw [hzero] at hq
        cases hq
      obtain ⟨k, hk⟩ := Nat.exists_eq_succ_of_ne_zero hpos
      rw [hk, List.range'_succ] at hq
      obtain ⟨rfl, hrest⟩ := List.cons.inj hq
      have hlen : s.settled - (seq + 1) = k := by omega
      refine ⟨seq + 1, { h with
        behind := by
          show seq + 1 ≤ s.settled
          omega
        queue := by
          show rest.filterMap Published.seq = List.range' (seq + 1) (s.settled - (seq + 1))
          rw [hlen]
          exact hrest
        sinking := by
          rintro _ _ ⟨⟩
          rfl
        once := ?_
        older := ?_
        stale := ?_
        unheard := fun _ _ _ a hsome => by simp [hlock] at hsome
        told := fun l hl hopen => ?_
        replaying := fun l rest hsome => ?_ }⟩
      · rintro _ _ ⟨⟩
        exact hconns.of_map _
      · rintro _ _ ⟨⟩
        exact older
      · rintro _ _ ⟨⟩
        exact stale
      · rcases h.told l hl hopen with hle | ⟨seq, rest, hsome, -⟩
        · exact .inr ⟨seq, _, rfl, hl, hle⟩
        · rw [hsink] at hsome
          cases hsome
      · rw [show s.lock = some _ from hsome] at hlock
        cases hlock
  · cases step

/-- A delivery moves one cursor; the invariant is kept where that cursor is not ahead. -/
theorem Inv.tell_cursor {n : ℕ} (h : Inv s n) (told : Told s t l item)
    (apart : ∀ k ∈ s.current, l.conn = k.conn → l = k ∨ s.Had item l)
    (reach : ∀ seq, item = .event seq → s.next l ≤ seq → l ∈ s.current →
      t.closed l.conn = false → seq = s.next l ∧ seq < s.persisted) :
    ∀ k ∈ s.current, t.closed k.conn = false → t.Cursor k := by
  intro k hk hopen
  refine (h.cursor k hk (told.closed _ hopen)).of_told told hopen (apart k hk) ?_
  rintro seq hseq rfl hle
  exact reach seq hseq hle hk hopen

theorem Told.next_le (told : Told s t l item) (k : Listener) : s.next k ≤ t.next k := by
  by_cases hk : k = l
  · subst hk
    by_cases had : s.Had item k
    · exact Nat.le_of_eq (told.had had).1.symm
    · obtain ⟨seq, rfl, hle⟩ : ∃ seq, item = .event seq ∧ s.next k ≤ seq := by
        simpa [Had] using had
      rw [(told.hears seq rfl hle).1]
      omega
  · exact Nat.le_of_eq (told.next k hk).symm

theorem Inv.deliver {n : ℕ} {full : Bool} (h : Inv s n)
    (step : s.step (.deliver full) = some t) : Inv t n := by
  simp only [Feed.step] at step
  split at step
  · rename_i item l rest hsink
    cases step
    have told := tell_told s l item full
    generalize s.tell l item full = u at told
    obtain ⟨hl, hrest⟩ := List.nodup_cons.mp (h.once _ _ hsink)
    have told_or (k : Listener) (hk : k ∈ s.listeners) (hopen : s.closed k.conn = false) :
        n ≤ s.next k ∨ ∃ seq, item = .event seq ∧ k ∈ l :: rest ∧ seq ≤ s.next k := by
      rcases h.told k hk hopen with hle | ⟨seq, rest', hsome, hmem, hle⟩
      · exact .inl hle
      · rw [hsink] at hsome
        cases hsome
        exact .inr ⟨seq, rfl, hmem, hle⟩
    have locked (a : Attaching) (ha : s.lock = some a) : u.next a.listener = s.next a.listener := by
      refine told.next _ fun heq => h.unheard _ _ hsink a ha ?_
      rw [heq]
      exact List.mem_cons_self
    have cursor := h.tell_cursor told (h.stale _ _ hsink l List.mem_cons_self)
      (by
        rintro seq rfl hle hmem hopen
        have hn := h.sinking seq _ hsink
        have hbehind := h.behind
        have hsettled := h.settled
        have hlisteners : l ∈ s.listeners := by
          rcases List.mem_append.mp hmem with hmem | hmem
          · exact hmem
          · obtain ⟨a, ha, rfl⟩ := Option.map_eq_some_iff.mp (Option.mem_toList.mp hmem)
            exact absurd List.mem_cons_self (h.unheard _ _ hsink a ha)
        rcases told_or l hlisteners (told.closed _ hopen) with hle' | ⟨_, ⟨⟩, -, hle'⟩
        · omega
        · omega)
    rw [told.same]
    refine { h with
      sinking := ?_
      once := ?_
      older := ?_
      stale := ?_
      unheard := ?_
      cursor := ?_
      told := fun k hk hopen => ?_
      loading := fun k hk hopen => ?_
      replaying := fun k rest hk hopen => ?_ }
    · rintro _ _ ⟨⟩
      exact h.sinking _ _ hsink
    · rintro _ _ ⟨⟩
      exact hrest
    · rintro _ _ ⟨⟩ k hk
      exact h.older _ _ hsink k (List.mem_cons_of_mem _ hk)
    · rintro _ _ ⟨⟩ k hk j hj hconn
      refine (h.stale _ _ hsink k (List.mem_cons_of_mem _ hk) j hj hconn).imp_right ?_
      intro had seq hseq
      exact Nat.lt_of_lt_of_le (had seq hseq) (told.next_le k)
    · rintro _ _ ⟨⟩ a ha hmem
      exact h.unheard _ _ hsink a ha (List.mem_cons_of_mem _ hmem)
    · rw [told.same] at cursor
      exact cursor
    · rcases told_or k hk (told.closed _ hopen) with hle | ⟨seq, rfl, hmem, hle⟩
      · exact .inl (Nat.le_trans hle (told.next_le k))
      · rcases List.mem_cons.mp hmem with rfl | hmem
        · refine .inl ?_
          have hn := h.sinking seq _ hsink
          rcases Nat.lt_or_ge seq (s.next k) with hlt | hge
          · exact Nat.le_trans (by omega) (told.next_le k)
          · show n ≤ u.next k
            rw [(told.hears seq rfl hge).1]
            omega
        · exact .inr ⟨seq, _, rfl, hmem, Nat.le_trans hle (told.next_le k)⟩
    · have hnext : u.next k = s.next k := locked _ hk
      exact hnext.trans (h.loading k hk (told.closed _ hopen))
    · obtain ⟨m, hm⟩ := h.replaying k rest hk (told.closed _ hopen)
      refine ⟨m, ?_⟩
      have hnext : u.next k = s.next k := locked _ hk
      show rest = List.range' (u.next k) m ∧ n ≤ u.next k + m ∧
        u.next k + m ≤ max (s.start k.conn) s.persisted
      rw [hnext]
      exact hm
  · cases step

theorem Inv.done {n : ℕ} (h : Inv s n) (step : s.step .done = some t) : Inv t n := by
  simp only [Feed.step] at step
  split at step
  · rename_i item hsink
    cases step
    refine { h with
      sinking := by rintro _ _ ⟨⟩
      once := by rintro _ _ ⟨⟩
      older := by rintro _ _ ⟨⟩
      stale := by rintro _ _ ⟨⟩
      unheard := by rintro _ _ ⟨⟩
      told := fun k hk hopen => .inl ?_ }
    rcases h.told k hk hopen with hle | ⟨seq, rest, hsome, hmem, -⟩
    · exact hle
    · rw [hsink] at hsome
      cases hsome
      cases hmem
  · cases step

theorem Inv.attach {n conn : ℕ} {from_ : ℤ} (h : Inv s n) (ok : s.Uncrossed (.attach conn from_))
    (step : s.step (.attach conn from_) = some t) : Inv t n := by
  simp only [Feed.step, Feed.attach] at step
  generalize (if from_ < 0 then s.settled else from_.toNat) = start at step
  split_ifs at step with hif
  cases step
  obtain ⟨hlock, -, -⟩ := hif
  set l : Listener := { id := s.made, conn } with hl
  have hcurrent : s.current = s.listeners := by simp [current, hlock]
  have sub {k : Listener} (hk : k ∈ s.without conn) : k ∈ s.current := by
    rw [hcurrent]
    exact (mem_without.mp hk).1
  have apart {k : Listener} (hk : k ∈ s.without conn) : k ≠ l := by
    rintro rfl
    exact (mem_without.mp hk).2 rfl
  have cases {k : Listener} (hk : k ∈ s.without conn ++ [l]) : k ∈ s.without conn ∨ k = l := by
    simpa using hk
  have next {k : Listener} (hk : k ≠ l) : Function.update s.next l start k = s.next k :=
    Function.update_of_ne hk ..
  refine { h with
    older := fun item rest hsink k hk => Nat.lt_succ_of_lt (h.older item rest hsink k hk)
    fresh := fun k hk => ?_
    stale := fun item rest hsink k hk j hj hconn => ?_
    unheard := ?_
    conns := ?_
    cursor := fun k hk hopen => ?_
    told := fun k hk hopen => ?_
    loading := ?_
    replaying := by rintro _ _ ⟨⟩ }
  · rcases cases hk with hk | rfl
    · exact Nat.lt_succ_of_lt (h.fresh k (sub hk))
    · exact Nat.lt_succ_self _
  · have hne : k ≠ l := by
      rintro rfl
      exact absurd (h.older item rest hsink _ hk) (Nat.lt_irrefl _)
    have had : s.Had item k → ∀ seq, item = .event seq → seq < Function.update s.next l start k := by
      intro had seq hseq
      rw [next hne]
      exact had seq hseq
    rcases cases hj with hj | rfl
    · exact (h.stale item rest hsink k hk j (sub hj) hconn).imp_right had
    · exact .inr (had (ok item rest hsink k hk hconn))
  · rintro item rest hsink _ ⟨⟩ hmem
    exact absurd (h.older item rest hsink _ hmem) (Nat.lt_irrefl _)
  · show ((s.without conn ++ [l]).map Listener.conn).Nodup
    have hconns := h.conns
    rw [hcurrent] at hconns
    rw [List.map_append]
    refine List.Nodup.append (hconns.sublist (List.filter_sublist.map _)) (List.nodup_singleton _) ?_
    intro c hc hc'
    obtain ⟨k, hk, rfl⟩ := List.mem_map.mp hc
    exact (mem_without.mp hk).2 (List.mem_singleton.mp hc')
  · rcases cases hk with hk | rfl
    · have hconn := (mem_without.mp hk).2
      have hcursor := h.cursor k (sub hk) hopen
      unfold Cursor heard at hcursor ⊢
      simp only [next (apart hk), Function.update_of_ne hconn]
      exact hcursor
    · unfold Cursor heard
      simp [hl]
  · have hk' := (mem_without.mp hk).1
    show n ≤ Function.update s.next l start k ∨ _
    simp only [next (apart hk)]
    exact h.told k hk' hopen
  · rintro _ ⟨⟩ -
    simp [hl]

theorem Inv.load {n : ℕ} (h : Inv s n) (step : s.step .load = some t) : Inv t n := by
  simp only [Feed.step] at step
  split at step
  · rename_i l hlock
    cases step
    have hcurrent : ∀ k, k ∈ s.listeners ++ [l] ↔ k ∈ s.current := by
      intro k
      simp [current, hlock, Attaching.listener]
    refine { h with
      fresh := fun k hk => h.fresh k ((hcurrent k).mp hk)
      stale := fun item rest hsink j hj k hk => h.stale item rest hsink j hj k ((hcurrent k).mp hk)
      unheard := ?_
      conns := ?_
      cursor := fun k hk => h.cursor k ((hcurrent k).mp hk)
      loading := by rintro _ ⟨⟩
      replaying := ?_ }
    · rintro item rest hsink _ ⟨⟩
      have hnot : l ∉ rest := h.unheard item rest hsink _ hlock
      exact hnot
    · have hconns := h.conns
      rw [current, hlock] at hconns
      exact hconns
    · rintro _ _ ⟨⟩ hopen
      have hnext := h.loading l hlock hopen
      have hbehind := h.behind
      have hsettled := h.settled
      refine ⟨s.persisted - s.start l.conn, ?_, ?_, ?_⟩
      · show s.events (s.start l.conn) = _
        rw [hnext]
        rfl
      · show n ≤ s.next l + _
        omega
      · show s.next l + _ ≤ max (s.start l.conn) s.persisted
        omega
  · cases step

theorem Inv.replay {n : ℕ} {late : Bool} (h : Inv s n)
    (step : s.step (.replay late) = some t) : Inv t n := by
  simp only [Feed.step] at step
  split at step
  · rename_i l seq rest hlock
    cases step
    have told := tell_told s l (.event seq) late
    generalize s.tell l (.event seq) late = u at told
    have hcurrent : ∀ k, k ∈ s.listeners ++ [l] ↔ k ∈ s.current := by
      intro k
      simp [current, hlock, Attaching.listener]
    have hconns := h.conns
    rw [current, hlock] at hconns
    have mem : l ∈ s.current := by simp [current, hlock, Attaching.listener]
    have first (hopen : s.closed l.conn = false) : ∃ m, seq = s.next l ∧
        rest = List.range' (seq + 1) m ∧ n ≤ seq + 1 + m ∧
        seq + 1 + m ≤ max (s.start l.conn) s.persisted := by
      obtain ⟨m, hm, hlow, hle⟩ := h.replaying l _ hlock hopen
      cases m with
      | zero => cases hm
      | succ m =>
        rw [List.range'_succ] at hm
        obtain ⟨rfl, hrest⟩ := List.cons.inj hm
        exact ⟨m, rfl, hrest, by omega, by omega⟩
    have apart : ∀ k ∈ s.current, l.conn = k.conn → l = k ∨ s.Had (.event seq) l :=
      fun k hk hconn => .inl (List.inj_on_of_nodup_map h.conns mem hk hconn)
    have cursor := h.tell_cursor told apart (by
      rintro _ ⟨⟩ hle - hopen
      obtain ⟨m, rfl, -, -, hlt⟩ := first (told.closed _ hopen)
      have hstart := (h.cursor l mem (told.closed _ hopen)).1
      omega)
    have other (k : Listener) (hk : k ∈ s.listeners) : u.next k = s.next k := by
      refine told.next k fun heq => ?_
      have hdisjoint := (List.nodup_append.mp (List.map_append ▸ hconns)).2.2
      exact hdisjoint k.conn (List.mem_map_of_mem hk) l.conn (by simp [Attaching.listener])
        (heq ▸ rfl)
    rw [told.same]
    refine { h with
      fresh := fun k hk => h.fresh k ((hcurrent k).mp hk)
      stale := fun item rest hsink j hj k hk hconn => ?_
      unheard := ?_
      conns := hconns
      cursor := ?_
      told := fun k hk hopen => ?_
      loading := by rintro _ ⟨⟩
      replaying := ?_ }
    · refine (h.stale item rest hsink j hj k ((hcurrent k).mp hk) hconn).imp_right ?_
      intro had seq hseq
      exact Nat.lt_of_lt_of_le (had seq hseq) (told.next_le j)
    · rintro item rest hsink _ ⟨⟩
      have hnot : l ∉ rest := h.unheard item rest hsink _ hlock
      exact hnot
    · intro k hk
      rw [told.same] at cursor
      exact cursor k ((hcurrent k).mp hk)
    · have hnext : u.next k = s.next k := other k hk
      show n ≤ u.next k ∨ ∃ seq rest, s.sink = some (.event seq, rest) ∧ k ∈ rest ∧ seq ≤ u.next k
      rw [hnext]
      exact h.told k hk (told.closed _ hopen)
    · rintro _ _ ⟨⟩ hopen
      have hopen' : u.closed l.conn = false := hopen
      obtain ⟨m, hseq, hrest, hlow, hhigh⟩ := first (told.closed _ hopen)
      have hnext : u.next l = seq + 1 := (told.hears seq rfl (Nat.le_of_eq hseq.symm)).1
      refine ⟨m, ?_, ?_, ?_⟩
      · show (if u.closed l.conn then [] else rest) = List.range' (u.next l) m
        rw [hnext, hopen', hrest]
        rfl
      · show n ≤ u.next l + m
        rw [hnext]
        exact hlow
      · show u.next l + m ≤ max (s.start l.conn) s.persisted
        rw [hnext]
        exact hhigh
  · cases step

/-- The lock is given up, and the list holds some of those attached or being attached. -/
theorem Inv.unlock {n : ℕ} {listeners : List Listener} (h : Inv s n)
    (sub : listeners.Sublist s.current)
    (told : ∀ l ∈ listeners, s.closed l.conn = false → n ≤ s.next l ∨
      ∃ seq rest, s.sink = some (.event seq, rest) ∧ l ∈ rest ∧ seq ≤ s.next l) :
    Inv { s with lock := none, listeners } n := by
  have hcurrent : Feed.current { s with lock := none, listeners } = listeners := by simp [current]
  have mem {k : Listener} (hk : k ∈ Feed.current { s with lock := none, listeners }) :
      k ∈ s.current := by
    rw [hcurrent] at hk
    exact sub.subset hk
  refine { h with
    fresh := fun k hk => h.fresh k (mem hk)
    stale := fun item rest hsink j hj k hk => h.stale item rest hsink j hj k (mem hk)
    unheard := by rintro _ _ _ _ ⟨⟩
    conns := ?_
    cursor := fun k hk => h.cursor k (mem hk)
    told := told
    loading := by rintro _ ⟨⟩
    replaying := by rintro _ _ ⟨⟩ }
  rw [hcurrent]
  exact h.conns.sublist (sub.map _)

theorem Inv.subscribe {n : ℕ} (h : Inv s n) (step : s.step .subscribe = some t) : Inv t n := by
  simp only [Feed.step] at step
  split at step
  · rename_i l hlock
    cases step
    have hcurrent : s.current = s.listeners ++ [l] := by simp [current, hlock, Attaching.listener]
    by_cases hclosed : s.closed l.conn = true
    · rw [if_pos hclosed]
      have sub : (s.without l.conn).Sublist s.listeners := List.filter_sublist
      refine h.unlock ?_ fun k hk => h.told k (sub.subset hk)
      rw [hcurrent]
      exact sub.trans (List.sublist_append_left _ _)
    · rw [if_neg hclosed]
      refine h.unlock ?_ fun k hk hopen => ?_
      · rw [hcurrent]
      · rcases List.mem_append.mp hk with hk | hk
        · exact h.told k hk hopen
        · obtain rfl := List.mem_singleton.mp hk
          obtain ⟨m, hm, hlow, -⟩ := h.replaying k _ hlock hopen
          cases m with
          | zero => exact .inl hlow
          | succ m => cases hm
  · cases step

theorem Inv.detach {n conn : ℕ} (h : Inv s n) (step : s.step (.detach conn) = some t) :
    Inv t n := by
  simp only [Feed.step] at step
  split_ifs at step with hlock
  cases step
  have sub : (s.without conn).Sublist s.listeners := List.filter_sublist
  have hcurrent : s.current = s.listeners := by simp [current, hlock]
  have hinv := h.unlock (hcurrent ▸ sub) fun k hk => h.told k (sub.subset hk)
  rw [← hlock] at hinv
  exact hinv

theorem Inv.close {n conn : ℕ} (h : Inv s n) (step : s.step (.close conn) = some t) :
    Inv t n := by
  cases step
  have still {c : ℕ} (hopen : Function.update s.closed conn true c = false) :
      s.closed c = false := by
    by_cases hc : c = conn
    · subst hc
      simp at hopen
    · rwa [Function.update_of_ne hc] at hopen
  exact { h with
    cursor := fun k hk hopen => h.cursor k hk (still hopen)
    told := fun k hk hopen => h.told k hk (still hopen)
    loading := fun k hk hopen => h.loading k hk (still hopen)
    replaying := fun k rest hk hopen => h.replaying k rest hk (still hopen) }

theorem Inv.shut {n : ℕ} (h : Inv s n) (step : s.step .shut = some t) : Inv t n := by
  simp only [Feed.step] at step
  split_ifs at step
  cases step
  exact { h with }

/-- The invariant holds along every run in which no connection attaches across a delivery. -/
theorem reach_inv (h : machine.Reach Uncrossed s) : ∃ n, Inv s n := by
  refine h.invariant (I := fun s => ∃ n, Inv s n) ?_ ?_
  · rintro _ rfl
    exact ⟨0, Inv.init⟩
  · rintro s act t - ⟨n, hinv⟩ ok step
    cases act with
    | append => exact ⟨n, hinv.append step⟩
    | settle => exact ⟨n, hinv.settle step⟩
    | notice => exact ⟨n, hinv.notice step⟩
    | publish => exact hinv.publish step
    | deliver full => exact ⟨n, hinv.deliver step⟩
    | done => exact ⟨n, hinv.done step⟩
    | attach conn from_ => exact ⟨n, hinv.attach ok step⟩
    | load => exact ⟨n, hinv.load step⟩
    | replay late => exact ⟨n, hinv.replay step⟩
    | subscribe => exact ⟨n, hinv.subscribe step⟩
    | detach conn => exact ⟨n, hinv.detach step⟩
    | close conn => exact ⟨n, hinv.close step⟩
    | shut => exact ⟨n, hinv.shut step⟩

theorem Inv.noGapNoRepeat {n : ℕ} (h : Inv s n) : s.NoGapNoRepeat := by
  constructor
  · intro l hl hopen
    obtain ⟨-, hheard, -⟩ := h.cursor l hl hopen
    rw [hheard, List.length_range']
  · intro l hl hopen seq hseq
    obtain ⟨hstart, hheard, hpersisted⟩ := h.cursor l hl hopen
    rw [hheard, List.mem_range'_1] at hseq
    omega
  · intro l hl hopen seq hfrom hsettled hqueue hsink
    have hcurrent : l ∈ s.current := List.mem_append_left _ hl
    obtain ⟨hstart, hheard, -⟩ := h.cursor l hcurrent hopen
    have hbehind := h.behind
    have hhanded : seq < n := by
      by_contra hnot
      have hmem : seq ∈ s.unpublished.filterMap Published.seq := by
        rw [h.queue, List.mem_range'_1]
        omega
      obtain ⟨item, hitem, hseq⟩ := List.mem_filterMap.mp hmem
      cases item with
      | event seq' =>
        cases hseq
        exact hqueue hitem
      | notice => cases hseq
    have hnext : seq < s.next l := by
      rcases h.told l hl hopen with hle | ⟨seq', rest, hsome, hmem, hle⟩
      · omega
      · have hn := h.sinking seq' rest hsome
        have hne : seq ≠ seq' := by
          rintro rfl
          exact hsink rest hsome hmem
        omega
    rw [hheard, List.mem_range'_1]
    omega

/-- As long as no connection attaches again while an event is on its way to its older listener,
every listener is sent the events from where it started, without a gap and without a repeat. -/
theorem attached_no_gap_no_repeat (h : machine.Reach Uncrossed s) : s.NoGapNoRepeat := by
  obtain ⟨n, hinv⟩ := reach_inv h
  exact hinv.noGapNoRepeat

/-- A connection hears one event, attaches again, and hears the old event and a new one. -/
theorem attached_no_gap_no_repeat_again :
    ∃ s : Feed, s.NoGapNoRepeat ∧ s.listeners = [⟨1, 0⟩] ∧ s.heard 0 = [0, 1] := by
  let moves : List FeedAct :=
    [.attach 0 0, .load, .subscribe, .append, .settle, .publish, .deliver false, .done,
      .attach 0 0, .load, .replay false, .subscribe, .append, .settle, .publish, .deliver false,
      .done]
  have run : ∃ s, machine.exec {} moves = some s ∧ s.listeners = [⟨1, 0⟩] ∧ s.heard 0 = [0, 1] :=
    ⟨_, Option.eq_some_of_isSome (by decide +kernel), by decide +kernel, by decide +kernel⟩
  obtain ⟨s, hrun, hlisteners, hheard⟩ := run
  have along : machine.Along Uncrossed {} moves := by decide +kernel
  exact ⟨s, attached_no_gap_no_repeat ((Lib.Machine.Reach.init rfl).exec along hrun), hlisteners,
    hheard⟩

/-- The sink has copied the listeners when a connection attaches again: its replay brings the
event, and then the copy brings it once more. -/
theorem attached_across_delivery_repeats :
    ∃ s : Feed, machine.Reach (fun _ _ => True) s ∧ ¬s.NoGapNoRepeat := by
  let moves : List FeedAct :=
    [.attach 0 0, .load, .subscribe, .append, .settle, .publish, .attach 0 0, .load,
      .replay false, .subscribe, .deliver false, .done]
  have run : ∃ s, machine.exec {} moves = some s ∧ ⟨1, 0⟩ ∈ s.current ∧ s.closed 0 = false ∧
      s.start 0 = 0 ∧ s.heard 0 = [0, 0] :=
    ⟨_, Option.eq_some_of_isSome (by decide +kernel), by decide +kernel, by decide +kernel,
      by decide +kernel, by decide +kernel⟩
  obtain ⟨s, hrun, hcurrent, hopen, hstart, hheard⟩ := run
  refine ⟨s, (Lib.Machine.Reach.init rfl).exec (Lib.Machine.along_of_forall (fun _ _ => trivial) _ _)
    hrun, fun h => ?_⟩
  have hconsecutive := h.consecutive _ hcurrent hopen
  rw [hheard, hstart] at hconsecutive
  cases hconsecutive

end Feed
end SiliconOmni.Daemon
