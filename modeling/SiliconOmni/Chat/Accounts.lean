import SiliconOmni.Chat.Runs

/-! The conductor's queues are what its files say is pending, in every state of every run. -/
namespace SiliconOmni
open Lib

section events
variable {s : Conf}

theorem logged_placed_books {event : Event} (h : event.Recordable) :
    Placed s.books.sessionId s.books.log (s.chat.logged event) := logged_placed s.chat h

theorem opening_recordable (c : Chat) (message : PendingMessage) (delivery : Delivery) :
    (c.opening message delivery).Recordable := by
  unfold Chat.opening
  cases c.inTurn
  · exact ⟨rfl, by simp [Event.with_, Event.saying, Event.new, EventType.name], rfl⟩
  · exact ⟨rfl, by simp [Event.with_, Event.saying, Event.new, EventType.name], rfl⟩

theorem opening_delivers (c : Chat) (message : PendingMessage) (delivery : Delivery) :
    deliveredIds [c.logged (c.opening message delivery)] = [message.id] := by
  apply deliveredIds_opening
  · unfold Chat.opening Event.isOpening Event.is
    cases c.inTurn <;> rfl
  · unfold Event.messageId Chat.opening
    rw [Chat.logged_extra]
    cases c.inTurn
    · simp [Event.with_, Value.asStr]
    · simp only [↓reduceIte, Event.with_]
      rw [Entries.lookup_insert_ne _ _ (by decide), Entries.lookup_insert_self]
      rfl

theorem confirmation_recordable (c : Chat) {event : Event} {message : PendingMessage}
    {opening : EventType} (h : event.Recordable) (ho : opening = .start ∨ opening = .injected) :
    (c.confirmation event message opening).Recordable where
  v := h.v
  named := by
    show opening.name ≠ ""
    rcases ho with rfl | rfl <;> decide
  session := h.session

theorem confirmation_delivers (c : Chat) {event : Event} {message : PendingMessage}
    {opening : EventType} (ho : opening = .start ∨ opening = .injected) :
    deliveredIds [c.logged (c.confirmation event message opening)] = [message.id] := by
  apply deliveredIds_opening
  · show (decide (opening = .start) || decide (opening = .injected)) = true
    rcases ho with rfl | rfl <;> rfl
  · unfold Event.messageId
    rw [Chat.logged_extra]
    rcases ho with rfl | rfl
    · simp [Chat.confirmation, Value.asStr]
    · simp only [Chat.confirmation, reduceCtorEq, ↓reduceIte]
      rw [Entries.lookup_insert_ne _ _ (by decide), Entries.lookup_insert_self]
      rfl

theorem closing_placed (provider : String) (extra : Fields) :
    Placed s.books.sessionId s.books.log (s.chat.closing provider extra) :=
  logged_placed { s.chat with runner := none }
    ⟨rfl, (by decide : EventType.end_.name ≠ ""), rfl⟩

theorem stopEnd_placed : Placed s.books.sessionId s.books.log s.chat.stopEnd :=
  logged_placed s.chat ⟨rfl, (by decide : EventType.end_.name ≠ ""), rfl⟩

theorem closing_plain (c : Chat) (provider : String) (extra : Fields) :
    deliveredIds [c.closing provider extra] = [] := deliveredIds_closing rfl

theorem stopEnd_plain (c : Chat) : deliveredIds [c.stopEnd] = [] := deliveredIds_closing rfl

end events

section queues

/-- Dropping the message a next state supersedes drops it from the queues and the files alike. -/
theorem without_perm {gone : Option String} {pending awaiting outbox : List PendingMessage}
    (h : pending.Perm (awaiting ++ outbox)) :
    (MetaData.without gone pending).Perm
      (MetaData.without gone awaiting ++ MetaData.without gone outbox) := by
  cases gone with
  | none => exact h
  | some id =>
    show (pending.filter _).Perm _
    rw [show MetaData.without (some id) awaiting ++ MetaData.without (some id) outbox =
      (awaiting ++ outbox).filter (·.id ≠ id) from (List.filter_append ..).symm]
    exact h.filter _

theorem mem_without {gone : Option String} {queue : List PendingMessage} {m : PendingMessage}
    (h : m ∈ MetaData.without gone queue) : m ∈ queue := by
  cases gone with
  | none => exact h
  | some id => exact (List.mem_filter.mp h).1

/-- The books once the next recovery state is saved. -/
def Books.saved (b : Books) (next : Option Recovery) (since : Option ℤ) (front : List PendingMessage)
    (gone : Option String) (ids : ℕ) (trace : List Obs) : Books :=
  { b with
    ids
    pending := front ++ MetaData.without gone b.pending
    top := recoverTop b.top next since
    trace }

theorem books_saved (s : Conf) (next : Option Recovery) (since : Option ℤ)
    (message : Option PendingMessage) (obs : List Obs) (drawn : ℕ) (desk : Desk) :
    ({ s.saved next since message with desk, obs, drawn } : Delta).books s =
      s.books.saved next since message.toList (superseded s.chat.recovery next) (s.ids + drawn)
        (obs ++ s.trace) := by
  unfold Delta.books Conf.saved Books.saved
  simp only [List.append_nil]
  rfl

theorem disk_saved (s : Conf) (next : Option Recovery) (since : Option ℤ)
    (message : Option PendingMessage) :
    Disk.books { s.chat.disk with data := (s.saved next since message).data } s =
      s.books.saved next since message.toList (superseded s.chat.recovery next) s.ids s.trace := rfl

/-- Hearing a runner moves no message that its report does not confirm. -/
theorem reacted_queues {d d' : Desk} {autoremove : Bool} {e : Event} {calls : List Call}
    {obs : List Obs} (reacted : Reacted d autoremove e calls d' obs) :
    d'.outbox = d.outbox ∧ d'.awaiting = d.awaiting ∧ d'.recovery = d.recovery ∧
      d'.historyStart = d.historyStart := by
  cases reacted <;> exact ⟨rfl, rfl, rfl, rfl⟩

end queues

variable [Host]

theorem disk_queued (s : Conf) (stage : RecoveryStage) (text : String) (fresh : Bool) :
    let next : Recovery := ⟨stage, Host.uuid s.ids, if stage = .retrying then text else ""⟩
    Disk.books { s.chat.disk with data := (s.queuedRecovery stage text fresh).data }
        (s.synthesizing text) =
      s.books.saved (some next) (if fresh then some (s.chat.store.seq + 1) else none)
        [⟨Host.uuid s.ids, text⟩] (superseded s.chat.recovery (some next)) (s.ids + 1)
        (.synthesized ⟨Host.uuid s.ids, text⟩ :: s.trace) := rfl

theorem takenIn_plain (c : Chat) (epoch : ℕ) (report : Report) (late : Bool) :
    deliveredIds [c.logged (c.takenIn epoch report late)] = [] := by
  apply deliveredIds_plain
  unfold Event.messageId
  rw [Chat.logged_extra]
  exact takenIn_messageId c epoch report late

theorem saved_sound {b : Books} (sound : b.Sound) {next : Option Recovery} {since : Option ℤ}
    {front : List PendingMessage} {gone : Option String} {ids : ℕ} {trace : List Obs}
    (hids : b.ids ≤ ids)
    (fresh : ∀ m ∈ front, ∃ i, b.ids ≤ i ∧ i < ids ∧ m.id = Host.uuid i)
    (once : (front.map (·.id)).Nodup)
    (identified : ∀ r, next = some r → r.stage ≠ .compacting → Drawn ids r.messageId)
    (range : ∀ n, since = some n → 0 ≤ n ∧ n ≤ Store.expected b.log) :
    (b.saved next since front gone ids trace).Sound := by
  have hfilter : Books.Sound { b with pending := MetaData.without gone b.pending } := by
    cases gone with
    | none => exact sound
    | some id => exact sound.filter _ _
  have hinsert := hfilter.insert front [] trace hids
    (by simpa using fresh) (by simpa using once)
  rw [List.append_nil] at hinsert
  exact hinsert.saved identified range

/-- The desk holds the messages that are pending in the files, and the recovery saved there. -/
structure Accounted (d : Desk) (b : Books) : Prop where
  sound : b.Sound
  queues : b.pending.Perm (d.awaiting ++ d.outbox)
  apart : ∀ m ∈ b.pending, m.id ∉ b.delivered
  recovery : d.recovery = b.recovery
  historyStart : d.historyStart = b.historyStart

namespace Accounted
variable {d : Desk} {b c : Books}

theorem grows {allowed : Obs → Bool} (h : Accounted d b) (hg : b.Grows allowed c) :
    Accounted d c := by
  obtain ⟨es, he, _, hbook⟩ := hg.log
  have hdelivered : c.delivered = b.delivered := by
    unfold Books.delivered
    rw [he, deliveredIds_append, deliveredIds_bookkeeping hbook, List.append_nil]
  refine ⟨h.sound.grows hg, ?_, ?_, ?_, ?_⟩
  · rw [hg.pending]
    exact h.queues
  · rw [hg.pending, hdelivered]
    exact h.apart
  · rw [h.recovery, Books.recovery, Books.recovery, hg.top]
  · rw [h.historyStart, Books.historyStart, Books.historyStart, hg.top]

theorem mem_outbox (h : Accounted d b) {m : PendingMessage} (hm : m ∈ d.outbox) : m ∈ b.pending :=
  h.queues.mem_iff.mpr (List.mem_append_right _ hm)

theorem mem_awaiting (h : Accounted d b) {m : PendingMessage} (hm : m ∈ d.awaiting) :
    m ∈ b.pending :=
  h.queues.mem_iff.mpr (List.mem_append_left _ hm)

/-- The queues and the recovery are all of the desk that counts. -/
theorem reseat (h : Accounted d b) {d' : Desk}
    (queues : (d'.awaiting ++ d'.outbox).Perm (d.awaiting ++ d.outbox))
    (recovery : d'.recovery = d.recovery) (historyStart : d'.historyStart = d.historyStart) :
    Accounted d' b :=
  ⟨h.sound, h.queues.trans queues.symm, h.apart, recovery.trans h.recovery,
    historyStart.trans h.historyStart⟩

/-- One more event that opens no message. -/
theorem append_plain (h : Accounted d b) {e : Event} (trace : List Obs)
    (placed : Placed b.sessionId b.log e) (plain : deliveredIds [e] = []) :
    Accounted d { b with log := b.log ++ [e], trace } where
  sound := h.sound.append_plain _ placed plain
  queues := h.queues
  apart := by
    intro m hm
    rw [Books.delivered, deliveredIds_append, plain, List.append_nil]
    exact h.apart m hm
  recovery := h.recovery
  historyStart := h.historyStart

theorem trace (h : Accounted d b) (trace : List Obs) : Accounted d { b with trace } :=
  ⟨{ h.sound with }, h.queues, h.apart, h.recovery, h.historyStart⟩

end Accounted


section deltas
variable {s t : Conf}

/-- What a change makes of the desk and the books is what it leaves of them. -/
theorem Gave.accounted {d : Delta} (h : Gave s t d) (ha : Accounted d.desk (d.books s)) :
    Accounted t.chat.desk t.books := by
  rw [h.desk]
  exact ha.grows h.grows

/-- The messages of a retry have fresh ids, all different. -/
theorem retries_fresh (s : Conf) (retry : Bool) :
    (∀ m ∈ s.retries retry, ∃ i, s.ids ≤ i ∧ i < s.ids + (s.retries retry).length ∧
      m.id = Host.uuid i) ∧ ((s.retries retry).map (·.id)).Nodup := by
  unfold Conf.retries
  cases retry with
  | false => simp
  | true =>
    simp only [↓reduceIte, List.length_mapIdx]
    constructor
    · intro m hm
      obtain ⟨i, hi, rfl⟩ := List.mem_mapIdx.mp hm
      exact ⟨s.ids + i, Nat.le_add_right _ _, by omega, rfl⟩
    · rw [List.nodup_iff_injective_get]
      intro i j hij
      have hids : Host.uuid (s.ids + i.val) = Host.uuid (s.ids + j.val) := by
        simpa using hij
      have := Host.uuid_injective hids
      exact Fin.ext (by omega)

theorem retried_sound (sound : s.books.Sound) (retry : Bool) (trace : List Obs) :
    Books.Sound { s.books with
      ids := s.ids + (s.retries retry).length
      pending := s.retries retry ++ s.books.pending
      trace } := by
  obtain ⟨fresh, once⟩ := retries_fresh s retry
  have hins := sound.insert (s.retries retry) [] trace
    (Nat.le_add_right s.ids (s.retries retry).length) (by rw [List.append_nil]; exact fresh)
    (by simpa using once)
  simpa only [List.append_nil] using hins

variable (h : Accounted s.chat.desk s.books)
include h

theorem accounted_quiet {allowed : Obs → Bool} (desk : t.chat.desk = s.chat.desk)
    (grows : s.books.Grows allowed t.books) : Accounted t.chat.desk t.books := by
  rw [desk]
  exact h.grows grows

/-- Nothing pending moves, and at most one event that opens nothing is logged. -/
theorem accounted_turned {desk : Desk} {events : List Event} {obs : List Obs}
    (queues : (desk.awaiting ++ desk.outbox).Perm (s.chat.awaiting ++ s.chat.outbox))
    (recovery : desk.recovery = s.chat.recovery)
    (historyStart : desk.historyStart = s.chat.historyStart)
    (plain : events = [] ∨ ∃ e, events = [e] ∧ Placed s.books.sessionId s.books.log e ∧
      deliveredIds [e] = []) :
    Accounted desk ((s.turned desk events obs).books s) := by
  rcases plain with rfl | ⟨e, rfl, placed, hnone⟩
  · have hb : (s.turned desk [] obs).books s = { s.books with trace := obs ++ s.trace } := by
      unfold Delta.books Conf.turned
      simp only [List.append_nil]
      rfl
    rw [hb]
    exact (h.reseat queues recovery historyStart).trace _
  · exact (h.reseat queues recovery historyStart).append_plain _ placed hnone

theorem accounted_enqueued (text : String) :
    let message : PendingMessage := { id := Host.uuid s.ids, text }
    Accounted (s.enqueued message).desk ((s.enqueued message).books s) := by
  intro message
  have hb : (s.enqueued message).books s = { s.books with
      ids := s.books.ids + 1
      pending := [] ++ s.books.pending ++ [message]
      trace := .accepted message :: s.trace } := by
    unfold Delta.books Conf.enqueued
    simp only [List.append_nil]
    rfl
  have fresh : message.id ∉ s.books.delivered := fun hid =>
    not_drawn s.ids le_rfl (h.sound.deliveredDrawn _ hid)
  rw [hb]
  refine ⟨h.sound.insert [] [message] _ (Nat.le_succ _) ?_ (by simp), ?_, ?_, h.recovery, h.historyStart⟩
  · intro m hm
    rw [List.mem_singleton.mp hm]
    exact ⟨s.ids, le_rfl, Nat.lt_succ_self _, rfl⟩
  · show (s.books.pending ++ [message]).Perm (s.chat.awaiting ++ (s.chat.outbox ++ [message]))
    rw [← List.append_assoc]
    exact h.queues.append_right _
  · intro m hm
    rcases List.mem_append.mp hm with hm | hm
    · exact h.apart m hm
    · rw [List.mem_singleton.mp hm]
      exact fresh

theorem accounted_written {runner : Handle} {message : PendingMessage}
    {rest : List PendingMessage} (delivering : s.Delivering runner message rest) :
    Accounted (s.written runner message rest).desk ((s.written runner message rest).books s) := by
  have hb : (s.written runner message rest).books s =
      { s.books with trace := .sent runner message (some .echoed) s.chat.usable :: s.trace } := by
    unfold Delta.books Conf.written
    simp only [List.append_nil]
    rfl
  have hr : Accounted (s.written runner message rest).desk s.books := by
    refine h.reseat ?_ rfl rfl
    show ((s.chat.awaiting ++ [message]) ++ rest).Perm (s.chat.awaiting ++ s.chat.outbox)
    rw [delivering.outbox, List.append_assoc]
    rfl
  rw [hb]
  exact hr.trace _

/-- An opening is logged for one of the pending messages, which is then no longer pending. -/
theorem accounted_opening {e : Event} {message : PendingMessage} {d : Desk} {trace : List Obs}
    (placed : Placed s.books.sessionId s.books.log e) (opens : deliveredIds [e] = [message.id])
    (pending : message ∈ s.books.pending)
    (queues : (s.chat.awaiting ++ s.chat.outbox).Perm (message :: (d.awaiting ++ d.outbox)))
    (recovery : d.recovery = s.chat.recovery) (historyStart : d.historyStart = s.chat.historyStart) :
    Accounted d { s.books with
      log := s.books.log ++ [e]
      pending := s.books.pending.filter (·.id ≠ message.id)
      trace } := by
  have hperm := h.queues.trans queues
  have honce : (message.id :: (d.awaiting ++ d.outbox).map (·.id)).Nodup :=
    (hperm.map PendingMessage.id).nodup_iff.mp h.sound.pendingOnce
  have hkeep : (d.awaiting ++ d.outbox).filter (fun m => decide (m.id ≠ message.id)) =
      d.awaiting ++ d.outbox := by
    rw [List.filter_eq_self]
    intro m hm
    have hne : m.id ≠ message.id := fun heq =>
      (List.nodup_cons.mp honce).1 (heq ▸ List.mem_map_of_mem hm)
    simpa using hne
  have hsound := (h.sound.append_opening trace placed opens
    (h.sound.pendingDrawn _ pending) (h.apart _ pending)).filter
      (fun m => decide (m.id ≠ message.id)) trace
  refine ⟨hsound, ?_, ?_, recovery.trans h.recovery, historyStart.trans h.historyStart⟩
  · have hf := hperm.filter (fun m => decide (m.id ≠ message.id))
    rw [List.filter_cons_of_neg (by simp), hkeep] at hf
    exact hf
  · intro m hm hid
    obtain ⟨hm, hne⟩ := List.mem_filter.mp hm
    rw [Books.delivered, deliveredIds_append, opens] at hid
    rcases List.mem_append.mp hid with hid | hid
    · exact h.apart m hm hid
    · exact of_decide_eq_true hne (List.mem_singleton.mp hid)

theorem accounted_delivered {runner : Handle} {message : PendingMessage}
    {rest : List PendingMessage} (delivery : Delivery)
    (delivering : s.Delivering runner message rest) :
    Accounted (s.delivered runner message rest delivery).desk
      ((s.delivered runner message rest delivery).books s) := by
  have hmem : message ∈ s.chat.outbox := by
    rw [delivering.outbox]
    exact List.mem_cons_self ..
  refine accounted_opening h (logged_placed_books (opening_recordable _ _ _))
    (opening_delivers _ _ _) (h.mem_outbox hmem) ?_ rfl rfl
  rw [delivering.outbox]
  exact List.perm_middle

theorem accounted_confirmed {epoch : ℕ} {report : Report} {message : PendingMessage}
    {rest : List PendingMessage} {opening : EventType}
    (confirming : s.Confirming (s.chat.takenIn epoch report false) message rest opening) :
    let event := s.chat.takenIn epoch report false
    Accounted (s.confirmed message rest event opening).desk
      ((s.confirmed message rest event opening).books s) := by
  have ho := Event.confirmedAs_isOpening confirming.opens
  have hmem : message ∈ s.chat.awaiting := by
    rw [confirming.awaiting]
    exact List.mem_cons_self ..
  refine accounted_opening h
    (logged_placed_books (confirmation_recordable _ (takenIn_recordable _ _ _ _) ho))
    (confirmation_delivers _ ho) (h.mem_awaiting hmem) ?_ rfl rfl
  rw [confirming.awaiting]
  exact .refl _

theorem accounted_retried (retry : Bool) (trace : List Obs) :
    Accounted (s.closed "" [] retry).desk { s.books with
      ids := s.ids + (s.retries retry).length
      pending := s.retries retry ++ s.books.pending
      trace } := by
  refine ⟨retried_sound h.sound retry trace, ?_, ?_, h.recovery, h.historyStart⟩
  · exact h.queues.append_left _
  · intro m hm hid
    rcases List.mem_append.mp hm with hm | hm
    · obtain ⟨i, hi, _, heq⟩ := (retries_fresh s retry).1 m hm
      have hd := h.sound.deliveredDrawn _ hid
      rw [heq] at hd
      exact not_drawn _ hi hd
    · exact h.apart m hm hid

theorem accounted_closed (provider : String) (extra : Fields) (retry : Bool) :
    Accounted (s.closed provider extra retry).desk ((s.closed provider extra retry).books s) := by
  have hr := accounted_retried h retry ((s.closed provider extra retry).obs ++ s.trace)
  by_cases hopen : s.chat.inTurn = true ∧ s.chat.turnRecorded = true
  · have happ := hr.append_plain ((s.closed provider extra retry).obs ++ s.trace)
      (closing_placed (s := s) provider extra) (closing_plain s.chat provider extra)
    have hb : (s.closed provider extra retry).books s = { s.books with
        ids := s.ids + (s.retries retry).length
        log := s.books.log ++ [s.chat.closing provider extra]
        pending := s.retries retry ++ s.books.pending
        trace := (s.closed provider extra retry).obs ++ s.trace } := by
      unfold Delta.books
      simp only [Conf.closed, if_pos hopen]
      rfl
    rw [hb]
    exact happ
  · have hb : (s.closed provider extra retry).books s = { s.books with
        ids := s.ids + (s.retries retry).length
        pending := s.retries retry ++ s.books.pending
        trace := (s.closed provider extra retry).obs ++ s.trace } := by
      unfold Delta.books
      simp only [Conf.closed, if_neg hopen, List.append_nil]
      rfl
    rw [hb]
    exact hr

theorem accounted_saved {next : Option Recovery} {since : Option ℤ}
    {message : Option PendingMessage} {obs : List Obs} {drawn : ℕ} {desk : Desk}
    (fresh : ∀ m, message = some m → ∃ i, s.ids ≤ i ∧ i < s.ids + drawn ∧ m.id = Host.uuid i)
    (identified : ∀ r, next = some r → r.stage ≠ .compacting →
      Drawn (s.ids + drawn) r.messageId)
    (range : ∀ n, since = some n → 0 ≤ n ∧ n ≤ Store.expected s.books.log)
    (outbox : desk.outbox = (s.saved next since message).desk.outbox)
    (awaiting : desk.awaiting = (s.saved next since message).desk.awaiting)
    (recovery : desk.recovery = next)
    (historyStart : desk.historyStart = since.getD s.chat.historyStart) :
    Accounted desk (({ s.saved next since message with desk, obs, drawn } : Delta).books s) := by
  rw [books_saved]
  have hfresh : ∀ m ∈ message.toList, ∃ i, s.ids ≤ i ∧ i < s.ids + drawn ∧ m.id = Host.uuid i := by
    intro m hm
    exact fresh m (Option.mem_toList.mp hm)
  refine ⟨?_, ?_, ?_, ?_, ?_⟩
  · refine saved_sound h.sound (Nat.le_add_right _ _) hfresh ?_ identified range
    cases message <;> simp
  · rw [outbox, awaiting]
    refine ((without_perm h.queues).append_left _).trans ?_
    show (message.toList ++ (MetaData.without _ s.chat.awaiting ++
      MetaData.without _ s.chat.outbox)).Perm (MetaData.without _ s.chat.awaiting ++
        (message.toList ++ MetaData.without _ s.chat.outbox))
    rw [← List.append_assoc, ← List.append_assoc]
    exact List.perm_append_comm.append_right _
  · intro m hm hid
    rcases List.mem_append.mp hm with hm | hm
    · obtain ⟨i, hi, _, heq⟩ := hfresh m hm
      have hd := h.sound.deliveredDrawn _ hid
      rw [heq] at hd
      exact not_drawn _ hi hd
    · exact h.apart m (mem_without hm) hid
  · rw [recovery]
    exact (Books.recovery_saved s.books next since).symm
  · rw [historyStart]
    show _ = Books.historyStart { s.books with top := recoverTop s.books.top next since }
    rw [Books.historyStart_saved, ← h.historyStart]
    rfl

/-- The next state names a message of the outbox. -/
theorem advances_identified {recovery : Recovery} {next : Option Recovery} {calls : List Call}
    (advances : Advances s.chat recovery next calls) :
    ∀ r, next = some r → r.stage ≠ .compacting → Drawn s.ids r.messageId := by
  have drawn {message : PendingMessage} {rest : List PendingMessage}
      (outbox : s.chat.outbox = message :: rest) : Drawn s.ids message.id :=
    h.sound.pendingDrawn _ (h.mem_outbox (d := s.chat.desk) (by
      show message ∈ s.chat.outbox
      rw [outbox]
      exact List.mem_cons_self ..))
  intro r hr _
  cases advances with
  | retryQueued _ _ message rest outbox =>
    cases hr
    exact drawn outbox
  | compacted => cases hr
  | resumeQueued _ message rest outbox =>
    cases hr
    exact drawn outbox
  | complete => cases hr

theorem next_range : 0 ≤ s.chat.store.seq + 1 ∧
    s.chat.store.seq + 1 ≤ Store.expected s.books.log := by
  have hseq : s.chat.store.seq + 1 = Store.expected s.books.log := s.chat.store.seq_succ
  rw [hseq]
  exact ⟨h.sound.range.1.trans h.sound.range.2, le_rfl⟩

theorem accounted_queued (stage : RecoveryStage) (text : String) (fresh : Bool) :
    Accounted (s.queuedRecovery stage text fresh).desk
      ((s.queuedRecovery stage text fresh).books s) := by
  refine accounted_saved h (fun m hm => ?_) (fun r hr _ => ?_) (fun n hn => ?_) rfl rfl rfl rfl
  · cases hm
    exact ⟨s.ids, le_rfl, Nat.lt_succ_self _, rfl⟩
  · cases hr
    exact ⟨s.ids, Nat.lt_succ_self _, rfl⟩
  · cases fresh
    · cases hn
    · cases hn
      exact next_range h

theorem accounted_stopping : Accounted s.stopping.desk (s.stopping.books s) := by
  have hd : Accounted s.stopping.desk s.books := h.reseat (.refl _) rfl rfl
  by_cases hopen : s.chat.inTurn = true ∧ s.chat.turnRecorded = true
  · have hb : s.stopping.books s = { s.books with
        log := s.books.log ++ [s.chat.stopEnd]
        trace := s.stopping.obs ++ s.trace } := by
      unfold Delta.books
      simp only [Conf.stopping, if_pos hopen]
      rfl
    rw [hb]
    exact hd.append_plain _ stopEnd_placed (stopEnd_plain _)
  · have hb : s.stopping.books s = { s.books with trace := s.stopping.obs ++ s.trace } := by
      unfold Delta.books
      simp only [Conf.stopping, if_neg hopen, List.append_nil]
      rfl
    rw [hb]
    exact hd.trace _

theorem accounted_ran {call : Call} {calls : List Call} (ran : Ran s call calls t) :
    Accounted t.chat.desk t.books := by
  cases ran with
  | moved _ still => exact accounted_quiet h still.desk still.quiet.grows
  | replaced _ desk quiet => exact accounted_quiet h desk quiet.grows
  | enqueued gave => exact gave.accounted (accounted_enqueued h _)
  | written delivering gave => exact gave.accounted (accounted_written h delivering)
  | delivered delivering _ gave => exact gave.accounted (accounted_delivered h _ delivering)
  | refusedFull _ gave => exact gave.accounted (accounted_turned h (.refl _) rfl rfl (.inl rfl))
  | refusedMidTurn _ _ gave =>
    exact gave.accounted (accounted_turned h (.refl _) rfl rfl (.inl rfl))
  | late event _ gave =>
    exact gave.accounted (accounted_turned h (.refl _) rfl rfl (.inr ⟨_, rfl,
      event ▸ logged_placed_books (takenIn_recordable _ _ _ _), event ▸ takenIn_plain _ _ _ _⟩))
  | reacted event _ _ reacted gave =>
    obtain ⟨houtbox, hawaiting, hrecovery, hhistory⟩ := reacted_queues reacted
    refine gave.accounted (accounted_turned h ?_ hrecovery hhistory (.inr ⟨_, rfl,
      event ▸ logged_placed_books (takenIn_recordable _ _ _ _), event ▸ takenIn_plain _ _ _ _⟩))
    dsimp only [Conf.turned]
    rw [houtbox, hawaiting]
    rfl
  | confirmed _ confirming gave => exact gave.accounted (accounted_confirmed h confirming)
  | closed _ _ gave => exact gave.accounted (accounted_closed h _ _ _)
  | compacting stage _ gave =>
    refine gave.accounted (accounted_saved h (fun m hm => by cases hm) (fun r hr hs => ?_)
      (fun n hn => by cases hn) rfl rfl rfl rfl)
    cases hr
    exact absurd stage hs
  | notCompacting stage gave =>
    refine gave.accounted (accounted_saved h (fun m hm => by cases hm) (fun r hr hs => ?_)
      (fun n hn => by cases hn) rfl rfl rfl rfl)
    cases hr
    exact absurd stage hs
  | queued gave => exact gave.accounted (accounted_queued h _ _ _)
  | queuedFresh closed gave =>
    exact gave.accounted (accounted_queued (closed.accounted (accounted_closed h _ _ _)) _ _ _)
  | gaveUp closed gave =>
    have hu := closed.accounted (accounted_closed h _ _ _)
    exact gave.accounted (accounted_saved hu (fun m hm => by cases hm) (fun r hr => by cases hr)
      (fun n hn => by cases hn) rfl rfl rfl rfl)
  | nothingToEnd _ gave => exact gave.accounted (accounted_turned h (.refl _) rfl rfl (.inl rfl))
  | proceeded _ _ gave => exact gave.accounted (accounted_turned h (.refl _) rfl rfl (.inl rfl))
  | advanced _ advances gave =>
    exact gave.accounted (accounted_saved h (fun m hm => by cases hm)
      (advances_identified h advances) (fun n hn => by cases hn) rfl rfl rfl rfl)
  | refolded _ _ _ gave => exact gave.accounted (accounted_turned h (.refl _) rfl rfl (.inl rfl))
  | nextTurn _ gave => exact gave.accounted (accounted_turned h (.refl _) rfl rfl (.inl rfl))
  | awaited _ _ gave => exact gave.accounted (accounted_turned h (.refl _) rfl rfl (.inl rfl))
  | finished _ _ _ gave => exact gave.accounted (accounted_turned h (.refl _) rfl rfl (.inl rfl))
  | shutting gave => exact gave.accounted (accounted_turned h (.refl _) rfl rfl (.inl rfl))
  | stopped _ gave => exact gave.accounted (accounted_stopping h)

/-- The files once the next recovery state is saved in them. -/
theorem saved_books_sound {next : Option Recovery}
    (identified : ∀ r, next = some r → r.stage ≠ .compacting → Drawn s.ids r.messageId) :
    Books.Sound (Disk.books { s.chat.disk with data := (s.saved next none none).data } s) := by
  rw [disk_saved]
  exact saved_sound h.sound le_rfl (by simp) (by simp) identified (by simp)

theorem queued_books_sound (stage : RecoveryStage) (text : String) (fresh : Bool) :
    Books.Sound (Disk.books { s.chat.disk with data := (s.queuedRecovery stage text fresh).data }
      (s.synthesizing text)) := by
  refine (accounted_queued h stage text fresh).sound.mono le_rfl ?_
  unfold Delta.books Conf.queuedRecovery Conf.saved
  simp only [List.append_nil]
  rfl

/-- However a call halts, the files it leaves are sound. -/
theorem sound_died {call : Call} (died : Died s call t) : t.books.Sound := by
  cases died with
  | quietly ends => exact h.sound.grows ends.grows
  | @enqueued text _ ends =>
    refine Books.Sound.grows ?_ ends.grows
    refine (accounted_enqueued h text).sound.mono le_rfl ?_
    unfold Delta.books Conf.enqueued
    simp only [List.append_nil]
    rfl
  | @opened runner message rest delivery _ delivering ends =>
    have hmem : message ∈ s.chat.outbox := by
      rw [delivering.outbox]
      exact List.mem_cons_self ..
    exact (h.sound.append_opening s.trace
      (logged_placed_books (opening_recordable _ _ _)) (opening_delivers _ _ _)
      (h.sound.pendingDrawn _ (h.mem_outbox hmem)) (h.apart _ (h.mem_outbox hmem))).grows ends.grows
  | delivered delivering ends =>
    refine Books.Sound.grows ?_ ends.grows
    exact (accounted_delivered h _ delivering).sound.mono le_rfl rfl
  | heard _ ends =>
    exact (h.sound.append_plain s.trace
      (logged_placed_books (takenIn_recordable _ _ _ _)) (takenIn_plain _ _ _ _)).grows ends.grows
  | @confirming epoch report message rest opening _ confirming ends =>
    have ho := Event.confirmedAs_isOpening confirming.opens
    have hmem : message ∈ s.chat.awaiting := by
      rw [confirming.awaiting]
      exact List.mem_cons_self ..
    exact (h.sound.append_opening s.trace
      (logged_placed_books (confirmation_recordable _ (takenIn_recordable _ _ _ _) ho))
      (confirmation_delivers _ ho) (h.sound.pendingDrawn _ (h.mem_awaiting hmem))
      (h.apart _ (h.mem_awaiting hmem))).grows ends.grows
  | confirmed confirming ends =>
    refine Books.Sound.grows ?_ ends.grows
    exact (accounted_confirmed h confirming).sound.mono le_rfl rfl
  | retried _ ends => exact (retried_sound h.sound _ s.trace).grows ends.grows
  | closing _ _ ends =>
    exact ((retried_sound h.sound _ s.trace).append_plain s.trace
      (closing_placed _ _) (closing_plain _ _ _)).grows ends.grows
  | closed _ gave ends => exact (gave.accounted (accounted_closed h _ _ _)).sound.grows ends.grows
  | saved stage ends =>
    refine (saved_books_sound h (fun r hr hs => ?_)).grows ends.grows
    cases hr
    exact absurd stage hs
  | advanced _ advances ends =>
    exact (saved_books_sound h (advances_identified h advances)).grows ends.grows
  | drawing ends => exact Books.Sound.grows (h.sound.mono (Nat.le_succ _) rfl) ends.grows
  | queued ends => exact (queued_books_sound h _ _ _).grows ends.grows
  | drawingFresh closed ends =>
    have hu := closed.accounted (accounted_closed h _ _ _)
    exact Books.Sound.grows (hu.sound.mono (Nat.le_succ _) rfl) ends.grows
  | queuedFresh closed ends =>
    have hu := closed.accounted (accounted_closed h _ _ _)
    exact (queued_books_sound hu _ _ _).grows ends.grows
  | gaveUp closed ends =>
    have hu := closed.accounted (accounted_closed h _ _ _)
    exact (saved_books_sound hu (fun r hr => by cases hr)).grows ends.grows
  | stopped _ ends =>
    exact (h.sound.append_plain s.trace stopEnd_placed
      (stopEnd_plain _)).grows ends.grows
  | stoppedClosed gave ends => exact (gave.accounted (accounted_stopping h)).sound.grows ends.grows

end deltas

section runs

theorem blank_sound (sessionId : String) (env : Env) : (Conf.blank sessionId env).books.Sound where
  readable := trivial
  pendingDrawn := fun m hm => by cases hm
  deliveredDrawn := fun id hid => by cases hid
  pendingOnce := List.nodup_nil
  deliveredOnce := List.nodup_nil
  recovery := rfl
  identified := fun r hr => by cases hr
  history := fun v hv => by cases hv
  range := ⟨le_rfl, le_rfl⟩

/-- What opening a session reads back is what its conductor then holds. -/
theorem accounted_opened {past t : Conf} (sound : past.books.Sound) (opened : Opened past t) :
    Accounted t.chat.desk t.books := by
  have hb := opened.books
  rw [opened.desk]
  refine ⟨?_, .refl _, ?_, rfl, rfl⟩
  · rw [hb]
    exact sound.filter _ _
  · rw [hb]
    intro m hm hid
    have hnot := (List.mem_filter.mp hm).2
    simp only [Bool.not_eq_true', List.contains_eq_mem, decide_eq_false_iff_not] at hnot
    exact hnot hid

theorem sound_openFailed {past t : Conf} (sound : past.books.Sound) (failed : OpenFailed past t) :
    t.books.Sound := by
  obtain ⟨pending, which, grows⟩ := failed.books
  refine Books.Sound.grows ?_ grows
  rcases which with rfl | rfl
  · exact sound
  · exact sound.filter _ _

theorem accounted_invariant (ok : System → Move → Prop) :
    System.Invariant ok (fun s _ => Accounted s.chat.desk s.books) (fun s => s.books.Sound) where
  sound := id
  blank := blank_sound
  opened := accounted_opened
  failed := sound_openFailed
  left := fun h _ => h.sound
  ended := fun h _ => h.sound
  wake := fun h _ _ _ => h
  deadline := fun h _ _ => h
  call := fun _ _ h => wp_mono (run_ran _) (fun _ _ ran => accounted_ran h ran)
    fun _ _ died => sound_died h died
  published := fun h => h.mono le_rfl rfl

theorem System.Reach.accounted {ok : System → Move → Prop} {s : System} (h : System.Reach ok s)
    (running : s.ended = false) : Accounted s.conf.chat.desk s.conf.books :=
  ((accounted_invariant ok).holds h).live running

theorem System.Reach.sound {ok : System → Move → Prop} {s : System} (h : System.Reach ok s) :
    s.conf.books.Sound := by
  cases hover : s.ended with
  | false => exact (h.accounted hover).sound
  | true => exact ((accounted_invariant ok).holds h).dead hover

end runs
end SiliconOmni
