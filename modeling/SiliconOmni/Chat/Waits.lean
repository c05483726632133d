import SiliconOmni.Chat.Acceptance
import SiliconOmni.Chat.Residue

/-! What recovery waits for: the message it names is next, unconfirmed or open, as long as recovery
goes on only to a message that the files have first. -/
namespace SiliconOmni
open Lib

namespace Books
variable {b c : Books}

/-- The log holds an opening of this message since the session's history began. -/
def Since (b : Books) (id : String) : Prop :=
  ∃ e ∈ b.log, b.historyStart ≤ e.seq ∧ e.isOpening = true ∧ e.messageId = some id

/-- The message that recovery waits for is open, or is the first that a new conductor would
deliver. -/
def Awaits (b : Books) : Prop :=
  ∀ r, b.recovery = some r → r.stage ≠ .compacting →
    b.undelivered.head?.map (·.id) = some r.messageId ∨ b.Since r.messageId

theorem Since.mono {id : String} (h : b.Since id) (log : ∃ es, c.log = b.log ++ es)
    (top : c.top = b.top) : c.Since id := by
  obtain ⟨e, member, since, opens, named⟩ := h
  obtain ⟨es, log⟩ := log
  refine ⟨e, ?_, ?_, opens, named⟩
  · rw [log]
    exact List.mem_append_left es member
  · rw [historyStart, top]
    exact since

theorem awaits_of_idle (h : ∀ r, b.recovery = some r → r.stage = .compacting) : b.Awaits :=
  fun r hr stage => absurd (h r hr) stage

namespace Awaits

/-- The first message stays the first, or is opened. -/
theorem step (h : b.Awaits) (log : ∃ es, c.log = b.log ++ es) (top : c.top = b.top)
    (front : ∀ m, b.undelivered.head? = some m → c.undelivered.head? = some m ∨ c.Since m.id) :
    c.Awaits := by
  intro r hr stage
  rw [recovery, top] at hr
  rcases h r hr stage with hfront | hsince
  · obtain ⟨m, hm, hid⟩ := Option.map_eq_some_iff.mp hfront
    rw [← hid]
    rcases front m hm with hm | hm
    · left
      rw [hm]
      rfl
    · exact .inr hm
  · exact .inr (hsince.mono log top)

/-- Nothing more is opened, and messages come last. -/
theorem extend {es : List Event} {q : List PendingMessage} (h : b.Awaits)
    (log : c.log = b.log ++ es) (plain : deliveredIds es = []) (top : c.top = b.top)
    (pending : c.pending = b.pending ++ q) : c.Awaits := by
  refine h.step ⟨es, log⟩ top fun m hm => .inl ?_
  rw [undelivered, pending, delivered, log, deliveredIds_append, plain, List.append_nil,
    List.filter_append, List.head?_append]
  unfold undelivered delivered at hm
  rw [hm]
  rfl

theorem grows {allowed : Obs → Bool} (h : b.Awaits) (hg : b.Grows allowed c) : c.Awaits := by
  obtain ⟨es, log, -, hes⟩ := hg.log
  refine h.extend log (deliveredIds_bookkeeping hes) hg.top (q := []) ?_
  rw [List.append_nil]
  exact hg.pending

end Awaits

theorem since_of_opening {e : Event} {id : String} (log : c.log = b.log ++ [e]) (top : c.top = b.top)
    (seq : e.seq = Store.expected b.log) (range : b.historyStart ≤ Store.expected b.log)
    (opens : deliveredIds [e] = [id]) : c.Since id := by
  have member : id ∈ deliveredIds [e] := by simp [opens]
  obtain ⟨e', he', isOpening, named⟩ := mem_deliveredIds.mp member
  obtain rfl := List.mem_singleton.mp he'
  refine ⟨e', ?_, ?_, isOpening, named⟩
  · rw [log]
    exact List.mem_append_right _ he'
  · rw [historyStart, top, seq]
    exact range

/-- One message is opened, whether or not it has left the files. -/
theorem Awaits.opening {e : Event} {id : String} (h : b.Awaits) (log : c.log = b.log ++ [e])
    (top : c.top = b.top) (since : c.Since id) (opens : deliveredIds [e] = [id])
    (pending : c.pending = b.pending ∨ c.pending = b.pending.filter (·.id ≠ id)) : c.Awaits := by
  have left : c.undelivered = b.undelivered.filter (·.id ≠ id) := by
    rw [undelivered, undelivered, delivered, log, deliveredIds_append, opens]
    rcases pending with pending | pending
    all_goals
      rw [pending]
      simp only [List.filter_filter]
      refine List.filter_congr fun m _ => ?_
      simp [delivered, Bool.and_comm]
  refine h.step ⟨[e], log⟩ top fun m hm => ?_
  by_cases heq : m.id = id
  · exact .inr (heq ▸ since)
  · left
    obtain ⟨rest, hrest⟩ := List.head?_eq_some_iff.mp hm
    rw [left, hrest, List.filter_cons_of_pos (by simpa using heq)]
    rfl

end Books

/-- The message that recovery waits for is next, unconfirmed or open. -/
def Held (d : Desk) (b : Books) : Prop :=
  ∀ r, d.recovery = some r → r.stage ≠ .compacting →
    d.outbox.head?.map (·.id) = some r.messageId ∨ r.messageId ∈ d.awaiting.map (·.id) ∨
      b.Since r.messageId

theorem held_of_idle {d : Desk} {b : Books} (h : ∀ r, d.recovery = some r → r.stage = .compacting) :
    Held d b :=
  fun r hr stage => absurd (h r hr) stage

/-- No message is lost sight of: the next one stays so or is handed on, and an unconfirmed one stays
so or is opened. -/
theorem Held.step {d d' : Desk} {b c : Books} (h : Held d b) (recovery : d'.recovery = d.recovery)
    (since : ∀ id, b.Since id → c.Since id)
    (front : ∀ m, d.outbox.head? = some m →
      d'.outbox.head? = some m ∨ m ∈ d'.awaiting ∨ c.Since m.id)
    (unconfirmed : ∀ m ∈ d.awaiting, m ∈ d'.awaiting ∨ c.Since m.id) : Held d' c := by
  intro r hr stage
  rw [recovery] at hr
  rcases h r hr stage with hfront | hmem | hsince
  · obtain ⟨m, hm, hid⟩ := Option.map_eq_some_iff.mp hfront
    rw [← hid]
    rcases front m hm with hm | hm | hm
    · left
      rw [hm]
      rfl
    · exact .inr (.inl (List.mem_map_of_mem hm))
    · exact .inr (.inr hm)
  · obtain ⟨m, hm, hid⟩ := List.mem_map.mp hmem
    rw [← hid]
    exact .inr ((unconfirmed m hm).imp_left fun hm => List.mem_map_of_mem hm)
  · exact .inr (.inr (since _ hsince))

/-- Recovery has something to wait for, here and for the conductor that would come next. -/
structure Awaited (d : Desk) (b : Books) : Prop where
  files : b.Awaits
  held : Held d b

/-- The queues stay, nothing more is opened, and messages come last. -/
theorem Awaited.extend {d d' : Desk} {b c : Books} {es : List Event} {q : List PendingMessage}
    (h : Awaited d b) (log : c.log = b.log ++ es) (plain : deliveredIds es = [])
    (top : c.top = b.top) (pending : c.pending = b.pending ++ q) (recovery : d'.recovery = d.recovery)
    (outbox : d'.outbox = d.outbox ++ q) (awaiting : d'.awaiting = d.awaiting) : Awaited d' c where
  files := h.files.extend log plain top pending
  held := by
    refine h.held.step recovery (fun id hid => hid.mono ⟨es, log⟩ top) (fun m hm => .inl ?_)
      fun m hm => .inl (awaiting ▸ hm)
    rw [outbox, List.head?_append, hm]
    rfl

theorem Awaited.grows {allowed : Obs → Bool} {d : Desk} {b c : Books} (h : Awaited d b)
    (hg : b.Grows allowed c) : Awaited d c where
  files := h.files.grows hg
  held := by
    obtain ⟨es, log, -, -⟩ := hg.log
    exact h.held.step rfl (fun id hid => hid.mono ⟨es, log⟩ hg.top) (fun _ => .inl) fun _ => .inl

theorem Gave.awaited {s t : Conf} {d : Delta} (gave : Gave s t d) (h : Awaited d.desk (d.books s)) :
    Awaited t.chat.desk t.books := by
  rw [gave.desk]
  exact h.grows gave.grows

theorem Books.undelivered_undelivered (b : Books) :
    Books.undelivered { b with pending := b.undelivered } = b.undelivered := by
  simp [Books.undelivered, Books.delivered]

theorem Accounted.undelivered {d : Desk} {b : Books} [Host] (h : Accounted d b) :
    b.undelivered = b.pending := by
  refine List.filter_eq_self.mpr fun m hm => ?_
  simpa using h.apart m hm

theorem Accounted.awaited_of_idle {d : Desk} {b : Books} [Host] (h : Accounted d b)
    (idle : ∀ r, d.recovery = some r → r.stage = .compacting) : Awaited d b :=
  ⟨Books.awaits_of_idle fun r hr => idle r (h.recovery.trans hr), held_of_idle idle⟩

/-- Recovery goes on to the first message of the queue, and not to one it wrote itself. -/
def Recovery.queues (r : Recovery) : Bool :=
  (r.stage = .compacting ∧ r.retry = "") ∨ r.stage = .continuing ∨ r.stage = .resuming

/-- The message that recovery would go on to is the first in the files. -/
def Chat.InFront (c : Chat) : Prop :=
  ∀ r ∈ c.recovery, r.queues → ∀ m ∈ c.outbox.head?, c.meta_.data.pending.head? = some m

section stack
variable {c : Chat} {calls rest : List Call}

/-- A call that may wait for others: neither a provider's failure nor the end waits. -/
def Call.Patient : Call → Prop
  | .failed .. | .unauthenticated _ | .stopped => False
  | .attempt _ next | .replace _ _ next => Onward next
  | _ => True

/-- A provider fails only where no recovery is under way. -/
def Call.Sure (c : Chat) : Call → Prop
  | .failed .. | .unauthenticated _ => c.recovery = none
  | call => call.Patient

/-- The calls left to make: only the first one may be a provider's failure. -/
def Chat.Sure (c : Chat) : List Call → Prop
  | [] => True
  | call :: rest => call.Sure c ∧ ∀ later ∈ rest, later.Patient

theorem Call.Patient.sure {call : Call} (h : call.Patient) (c : Chat) : call.Sure c := by
  cases call <;> first | exact h | cases h

theorem sure_of_patient (h : ∀ call ∈ calls, call.Patient) (c : Chat) : c.Sure calls := by
  cases calls with
  | nil => trivial
  | cons call rest =>
    exact ⟨(h call List.mem_cons_self).sure c, fun k hk => h k (List.mem_cons_of_mem _ hk)⟩

theorem Chat.Sure.append (h : c.Sure calls) (patient : ∀ call ∈ rest, call.Patient) :
    c.Sure (calls ++ rest) := by
  cases calls with
  | nil => exact sure_of_patient patient c
  | cons call more =>
    refine ⟨h.1, fun k hk => ?_⟩
    rcases List.mem_append.mp hk with hk | hk
    · exact h.2 k hk
    · exact patient k hk

theorem Onward.patient {next : List Call} (h : Onward next) : ∀ call ∈ next, call.Patient := by
  rcases h with rfl | rfl | rfl
  all_goals simp [Call.Patient]

theorem Reacted.sure {d d' : Desk} {autoremove : Bool} {e : Event} {obs : List Obs}
    (h : Reacted d autoremove e calls d' obs) (same : c.recovery = d.recovery) : c.Sure calls := by
  cases h with
  | lostLogin _ _ idle | crashed _ _ idle | endedFailed _ _ idle =>
    exact ⟨same.trans idle, by simp⟩
  | _ => simp [Chat.Sure, Call.Sure, Call.Patient]

variable [Host] {s t : Conf} {call : Call}

theorem Ran.sure (ran : Ran s call calls t) (sure : call.Sure s.chat) : t.chat.Sure calls := by
  cases ran with
  | moved leads still =>
    cases leads with
    | proceed | again | replace =>
      have onward : Onward _ := sure
      first
      | exact sure_of_patient onward.patient _
      | exact ⟨onward, by simp⟩
    | lostLogin idle | fail idle =>
      exact ⟨(congrArg Desk.recovery still.desk).trans idle, by simp⟩
    | _ => simp [Chat.Sure, Call.Sure, Call.Patient, Onward]
  | replaced calls_eq _ _ =>
    have onward : Onward _ := sure
    rcases calls_eq with rfl | rfl | rfl
    · exact sure_of_patient onward.patient _
    · trivial
    · exact ⟨onward, by simp⟩
  | reacted _ _ _ reacted gave =>
    have same : t.chat.recovery = s.chat.recovery :=
      (congrArg Desk.recovery gave.desk).trans (reacted_queues reacted).2.2.1
    exact reacted.sure same
  | closed _ calls_eq _ =>
    rcases calls_eq with rfl | rfl <;> simp [Chat.Sure, Call.Sure, Call.Patient, Onward]
  | proceeded _ proceeds _ =>
    cases proceeds <;> simp [Chat.Sure, Call.Sure, Call.Patient]
  | advanced _ advances _ =>
    cases advances with
    | complete _ _ _ calls_eq =>
      rcases calls_eq with rfl | rfl <;> simp [Chat.Sure, Call.Sure, Call.Patient, Onward]
    | _ => simp [Chat.Sure, Call.Sure, Call.Patient]
  | finished _ _ calls_eq _ =>
    rcases calls_eq with rfl | rfl <;> simp [Chat.Sure, Call.Sure, Call.Patient, Onward]
  | _ => simp [Chat.Sure, Call.Sure, Call.Patient]

/-- Only `shutdown` begins a stop. -/
theorem Ran.stopping (ran : Ran s call calls t) :
    t.chat.stopping = s.chat.stopping ∨ (call = .shutdown ∧ t.chat.stopping = true) := by
  cases ran with
  | shutting gave => exact .inr ⟨rfl, congrArg Desk.stopping gave.desk⟩
  | moved _ still => exact .inl (congrArg Desk.stopping still.desk)
  | replaced _ desk _ => exact .inl (congrArg Desk.stopping desk)
  | reacted _ _ _ reacted gave =>
    have same : t.chat.desk.stopping = _ := congrArg Desk.stopping gave.desk
    left
    cases reacted <;> exact same
  | queuedFresh closed gave | gaveUp closed gave =>
    exact .inl ((congrArg Desk.stopping gave.desk).trans (congrArg Desk.stopping closed.desk))
  | _ =>
    rename_i gave
    exact .inl (congrArg Desk.stopping gave.desk)

theorem Ran.shuts (ran : Ran s .shutdown calls t) : t.chat.stopping = true := by
  cases ran with
  | shutting gave => exact congrArg Desk.stopping gave.desk
  | moved leads =>
    cases leads with
    | pause pauses => cases pauses
  | closed call_eq => rcases call_eq with ⟨_, _, h⟩ | ⟨_, h⟩ <;> cases h

end stack

section steps
variable [Host] {s t : Conf} {call : Call} {calls : List Call}

omit [Host] in
theorem awaited_turned (h : Awaited s.chat.desk s.books) {desk : Desk} {events : List Event}
    (obs : List Obs) (plain : deliveredIds events = []) (recovery : desk.recovery = s.chat.recovery)
    (outbox : desk.outbox = s.chat.outbox) (awaiting : desk.awaiting = s.chat.awaiting) :
    Awaited desk ((s.turned desk events obs).books s) := by
  refine h.extend rfl plain rfl (q := []) ?_ recovery ?_ awaiting
  · exact (List.append_nil _).symm
  · exact outbox.trans (List.append_nil _).symm

omit [Host] in
theorem awaited_enqueued (h : Awaited s.chat.desk s.books) (message : PendingMessage) :
    Awaited (s.enqueued message).desk ((s.enqueued message).books s) :=
  h.extend rfl rfl rfl rfl rfl rfl rfl

omit [Host] in
theorem awaited_written (h : Awaited s.chat.desk s.books) {runner : Handle}
    {message : PendingMessage} {rest : List PendingMessage}
    (delivering : s.Delivering runner message rest) :
    Awaited (s.written runner message rest).desk ((s.written runner message rest).books s) where
  files := h.files.extend rfl rfl rfl (List.append_nil _).symm
  held := by
    refine h.held.step rfl (fun id hid => hid.mono ⟨[], rfl⟩ rfl) (fun m hm => ?_) fun m hm => ?_
    · have hm : s.chat.outbox.head? = some m := hm
      rw [delivering.outbox] at hm
      obtain rfl := Option.some.inj hm
      exact .inr (.inl (List.mem_append_right _ List.mem_cons_self))
    · exact .inl (List.mem_append_left _ hm)

/-- One pending message is opened, whether or not it has left the files. -/
theorem awaits_opened (ha : Accounted s.chat.desk s.books) (h : s.books.Awaits) {e : Event}
    {id : String} {c : Books} (log : c.log = s.books.log ++ [e]) (top : c.top = s.books.top)
    (placed : Placed s.books.sessionId s.books.log e) (opens : deliveredIds [e] = [id])
    (pending : c.pending = s.books.pending ∨ c.pending = s.books.pending.filter (·.id ≠ id)) :
    c.Awaits ∧ c.Since id := by
  have since := Books.since_of_opening log top placed.seq ha.sound.range.2 opens
  exact ⟨h.opening log top since opens pending, since⟩

theorem awaited_delivered (ha : Accounted s.chat.desk s.books) (h : Awaited s.chat.desk s.books)
    {runner : Handle} {message : PendingMessage} {rest : List PendingMessage} (delivery : Delivery)
    (delivering : s.Delivering runner message rest) :
    Awaited (s.delivered runner message rest delivery).desk
      ((s.delivered runner message rest delivery).books s) := by
  obtain ⟨files, since⟩ := awaits_opened ha h.files
    (c := (s.delivered runner message rest delivery).books s) rfl rfl
    (logged_placed_books (opening_recordable _ _ _)) (opening_delivers _ _ _) (.inr rfl)
  refine ⟨files, ?_⟩
  refine h.held.step rfl (fun id hid => hid.mono ⟨_, rfl⟩ rfl) (fun m hm => ?_) fun m hm => .inl hm
  have hm : s.chat.outbox.head? = some m := hm
  rw [delivering.outbox] at hm
  obtain rfl := Option.some.inj hm
  exact .inr (.inr since)

theorem awaited_confirmed (ha : Accounted s.chat.desk s.books) (h : Awaited s.chat.desk s.books)
    {epoch : ℕ} {report : Report} {message : PendingMessage} {rest : List PendingMessage}
    {opening : EventType}
    (confirming : s.Confirming (s.chat.takenIn epoch report false) message rest opening) :
    let event := s.chat.takenIn epoch report false
    Awaited (s.confirmed message rest event opening).desk
      ((s.confirmed message rest event opening).books s) := by
  intro event
  have ho := Event.confirmedAs_isOpening confirming.opens
  have recordable : (s.chat.confirmation event message opening).Recordable :=
    confirmation_recordable s.chat (takenIn_recordable s.chat epoch report false) ho
  obtain ⟨files, since⟩ := awaits_opened ha h.files
    (c := (s.confirmed message rest event opening).books s) rfl rfl
    (logged_placed_books recordable) (confirmation_delivers _ ho) (.inr rfl)
  refine ⟨files, ?_⟩
  refine h.held.step rfl (fun id hid => hid.mono ⟨_, rfl⟩ rfl) (fun m hm => .inl hm) fun m hm => ?_
  have hm : m ∈ s.chat.awaiting := hm
  rw [confirming.awaiting] at hm
  rcases List.mem_cons.mp hm with rfl | hm
  · exact .inr since
  · exact .inl hm

omit [Host] in
/-- Only a handoff takes a message out of the queue. -/
theorem superseded_plain {old : Option Recovery} {next : Recovery} (plain : next.stage ≠ .handoff) :
    superseded old (some next) = none := by
  cases old <;> simp [superseded, plain]

/-- A message that recovery has just written is the first in the files. -/
theorem awaits_queued (sound : s.books.Sound) (next : Recovery) (text : String) (since : Option ℤ)
    (gone : Option String) (ids : ℕ) (trace : List Obs) (named : next.messageId = Host.uuid s.ids) :
    (s.books.saved (some next) since [⟨Host.uuid s.ids, text⟩] gone ids trace).Awaits := by
  intro r hr _
  have hrec := Books.recovery_saved s.books (some next) since
  obtain rfl : next = r := Option.some.inj (hrec.symm.trans hr)
  left
  have fresh : Host.uuid s.ids ∉ s.books.delivered := fun hid =>
    not_drawn s.ids le_rfl (sound.deliveredDrawn _ hid)
  have first : (s.books.saved (some next) since [⟨Host.uuid s.ids, text⟩] gone ids
      trace).undelivered.head? = some ⟨Host.uuid s.ids, text⟩ := by
    unfold Books.undelivered
    rw [show (s.books.saved (some next) since [⟨Host.uuid s.ids, text⟩] gone ids trace).pending =
      ⟨Host.uuid s.ids, text⟩ :: MetaData.without gone s.books.pending from rfl]
    have kept : (!s.books.delivered.contains (Host.uuid s.ids)) = true := by simpa using fresh
    exact congrArg List.head? (List.filter_cons_of_pos
      (p := fun m : PendingMessage => !s.books.delivered.contains m.id)
      (a := ⟨Host.uuid s.ids, text⟩) kept)
  rw [first, named]
  rfl

theorem awaited_queued (ha : Accounted s.chat.desk s.books) (stage : RecoveryStage) (text : String)
    (fresh : Bool) : Awaited (s.queuedRecovery stage text fresh).desk
      ((s.queuedRecovery stage text fresh).books s) where
  files := by
    have hb := books_saved s
      (some ⟨stage, Host.uuid s.ids, if stage = .retrying then text else ""⟩)
      (if fresh then some (s.chat.store.seq + 1) else none) (some ⟨Host.uuid s.ids, text⟩)
      [.synthesized ⟨Host.uuid s.ids, text⟩] 1 (s.queuedRecovery stage text fresh).desk
    exact hb ▸ awaits_queued ha.sound _ text _ _ _ _ rfl
  held := fun r hr _ => by
    cases hr
    exact .inl rfl

/-- Recovery goes on to the message that is first in the files. -/
theorem awaits_advanced (ha : Accounted s.chat.desk s.books) (h : s.books.Awaits)
    {recovery : Recovery} {next : Option Recovery} (active : s.chat.recovery = some recovery)
    (advances : Advances s.chat recovery next calls) (first : next = s.chat.recovery ∨ s.chat.InFront)
    {ids : ℕ} {trace : List Obs} {c : Books}
    (books : c = s.books.saved next none [] (superseded s.chat.recovery next) ids trace) :
    c.Awaits := by
  subst books
  have goes {message : PendingMessage} {rest : List PendingMessage} {r : Recovery}
      (queues : recovery.queues) (outbox : s.chat.outbox = message :: rest)
      (named : r.messageId = message.id) (plain : r.stage ≠ .handoff)
      (first : some r = s.chat.recovery ∨ s.chat.InFront) :
      (s.books.saved (some r) none [] (superseded s.chat.recovery (some r)) ids trace).Awaits := by
    have undelivered : (s.books.saved (some r) none [] none ids trace).undelivered =
        s.books.undelivered := rfl
    rw [superseded_plain plain]
    intro r' hr' stage
    have hrec := Books.recovery_saved s.books (some r) none
    obtain rfl : r = r' := Option.some.inj (hrec.symm.trans hr')
    rcases first with same | first
    · have hbooks : s.books.recovery = some r := ha.recovery.symm.trans same.symm
      refine (h r hbooks stage).imp_right fun since => ?_
      obtain ⟨e, member, hsince, opens, hid⟩ := since
      exact ⟨e, member, (Books.historyStart_saved s.books (some r) none).le.trans hsince, opens, hid⟩
    · left
      have head := first recovery active queues message (by simp [outbox])
      have head : s.books.undelivered.head? = some message := by
        rw [ha.undelivered]
        exact head
      rw [undelivered, head, named]
      rfl
  cases advances with
  | compacted | complete =>
    refine Books.awaits_of_idle fun r hr => ?_
    have hrec := Books.recovery_saved s.books none none
    cases hrec.symm.trans hr
  | retryQueued stage texts message rest outbox =>
    exact goes (by simp [Recovery.queues, stage, texts]) outbox rfl (by simp) first
  | resumeQueued stage message rest outbox =>
    refine goes ?_ outbox rfl (by simp) first
    rcases stage with stage | stage <;> simp [Recovery.queues, stage]


theorem awaits_closed (h : s.books.Awaits) (provider : String) (extra : Fields) :
    Books.Awaits ((s.closed provider extra false).books s) := by
  refine h.extend rfl ?_ rfl (q := []) (List.append_nil _).symm
  unfold Conf.closed
  dsimp only
  split
  · exact closing_plain s.chat provider extra
  · rfl

omit [Host] in
theorem awaits_stopping (h : s.books.Awaits) : Books.Awaits (s.stopping.books s) := by
  refine h.extend rfl ?_ rfl (q := []) (List.append_nil _).symm
  unfold Conf.stopping
  dsimp only
  split
  · exact stopEnd_plain s.chat
  · rfl

/-- Whatever a call does, recovery has something to wait for. -/
theorem awaited_ran (ha : Accounted s.chat.desk s.books) (h : Awaited s.chat.desk s.books)
    (sure : call.Sure s.chat)
    (first : ∀ end_, call = .recoveryEnded end_ →
      t.chat.recovery = s.chat.recovery ∨ s.chat.InFront)
    (ran : Ran s call calls t) : Awaited t.chat.desk t.books := by
  have after := accounted_ran ha ran
  cases ran with
  | moved _ still =>
    rw [still.desk]
    exact h.grows still.quiet.grows
  | replaced _ desk quiet =>
    rw [desk]
    exact h.grows quiet.grows
  | enqueued gave => exact gave.awaited (awaited_enqueued h _)
  | written delivering gave => exact gave.awaited (awaited_written h delivering)
  | delivered delivering _ gave => exact gave.awaited (awaited_delivered ha h _ delivering)
  | confirmed _ confirming gave => exact gave.awaited (awaited_confirmed ha h confirming)
  | refusedFull _ gave | refusedMidTurn _ _ gave | nothingToEnd _ gave | proceeded _ _ gave
  | refolded _ _ _ gave | nextTurn _ gave | awaited _ _ gave | finished _ _ _ gave =>
    exact gave.awaited (awaited_turned h _ rfl rfl rfl rfl)
  | shutting gave => exact gave.awaited (awaited_turned h [] rfl rfl rfl rfl)
  | late event _ gave =>
    exact gave.awaited (awaited_turned h _ (event ▸ takenIn_plain _ _ _ _) rfl rfl rfl)
  | reacted event _ _ reacted gave =>
    obtain ⟨outbox, awaiting, recovery, -⟩ := reacted_queues reacted
    exact gave.awaited
      (awaited_turned h _ (event ▸ takenIn_plain _ _ _ _) recovery outbox awaiting)
  | closed call_eq _ gave =>
    have idle : s.chat.recovery = none := by
      rcases call_eq with ⟨_, _, rfl⟩ | ⟨_, rfl⟩ <;> exact sure
    refine after.awaited_of_idle fun r hr => ?_
    rw [gave.desk] at hr
    cases idle.symm.trans hr
  | compacting stage _ gave | notCompacting stage gave =>
    refine after.awaited_of_idle fun r hr => ?_
    rw [gave.desk] at hr
    cases hr
    exact stage
  | queued gave => exact gave.awaited (awaited_queued ha _ _ _)
  | queuedFresh closed gave =>
    exact gave.awaited (awaited_queued (closed.accounted (accounted_closed ha _ _ false)) _ _ _)
  | gaveUp _ gave =>
    refine after.awaited_of_idle fun r hr => ?_
    rw [gave.desk] at hr
    cases hr
  | @advanced end_ _ _ _ _ active advances gave =>
    have first := (first end_ rfl).imp_left fun same =>
      (congrArg Desk.recovery gave.desk).symm.trans same
    refine gave.awaited ⟨?_, fun r hr _ => ?_⟩
    · exact awaits_advanced ha h.files active advances first (books_saved ..)
    · cases advances with
      | compacted | complete => cases hr
      | retryQueued _ _ message rest outbox | resumeQueued _ message rest outbox =>
        cases hr
        left
        simp [Conf.saved, Desk.cleared, Desk.ended, superseded_plain, MetaData.without, outbox]
  | stopped => exact sure.elim

/-- What is delivered again comes first, which is fine where recovery waits for nothing. -/
theorem awaits_retried (ha : Accounted s.chat.desk s.books) (h : s.books.Awaits) {retry : Bool}
    (idle : retry = true → s.chat.recovery = none) {es : List Event} {c : Books}
    (log : c.log = s.books.log ++ es) (plain : deliveredIds es = []) (top : c.top = s.books.top)
    (pending : c.pending = s.retries retry ++ s.books.pending) : c.Awaits := by
  cases retry with
  | false => exact h.extend log plain top (q := []) (pending.trans (List.append_nil _).symm)
  | true =>
    refine Books.awaits_of_idle fun r hr => ?_
    rw [Books.recovery, top] at hr
    cases (idle rfl).symm.trans (ha.recovery.trans hr)

/-- However a call halts, recovery has something to wait for when the session is opened again. -/
theorem awaits_died (ha : Accounted s.chat.desk s.books) (h : s.books.Awaits)
    (sure : call.givesUp = true → s.chat.recovery = none)
    (first : ∀ end_, call = .recoveryEnded end_ → s.chat.InFront) (died : Died s call t) :
    t.books.Awaits := by
  cases died with
  | quietly ends => exact h.grows ends.grows
  | @enqueued text _ ends =>
    refine Books.Awaits.grows ?_ ends.grows
    exact h.extend (List.append_nil _).symm rfl rfl rfl
  | opened _ ends =>
    refine Books.Awaits.grows ?_ ends.grows
    exact And.left (awaits_opened ha h rfl rfl (logged_placed_books (opening_recordable _ _ _))
      (opening_delivers _ _ _) (.inl rfl))
  | delivered _ ends =>
    refine Books.Awaits.grows ?_ ends.grows
    exact And.left (awaits_opened ha h rfl rfl (logged_placed_books (opening_recordable _ _ _))
      (opening_delivers _ _ _) (.inr rfl))
  | heard _ ends =>
    refine Books.Awaits.grows ?_ ends.grows
    exact h.extend rfl (takenIn_plain _ _ _ _) rfl (q := []) (List.append_nil _).symm
  | confirming confirming ends =>
    have ho := Event.confirmedAs_isOpening confirming.opens
    refine Books.Awaits.grows ?_ ends.grows
    exact And.left (awaits_opened ha h rfl rfl
      (logged_placed_books (confirmation_recordable _ (takenIn_recordable _ _ _ _) ho))
      (confirmation_delivers _ ho) (.inl rfl))
  | confirmed confirming ends =>
    have ho := Event.confirmedAs_isOpening confirming.opens
    refine Books.Awaits.grows ?_ ends.grows
    exact And.left (awaits_opened ha h rfl rfl
      (logged_placed_books (confirmation_recordable _ (takenIn_recordable _ _ _ _) ho))
      (confirmation_delivers _ ho) (.inr rfl))
  | retried told ends =>
    refine Books.Awaits.grows ?_ ends.grows
    exact awaits_retried ha h (fun retry => sure (told retry)) (List.append_nil _).symm rfl rfl rfl
  | closing told _ ends =>
    refine Books.Awaits.grows ?_ ends.grows
    exact awaits_retried ha h (fun retry => sure (told retry)) rfl (closing_plain _ _ _) rfl rfl
  | @closed _ provider extra retry _ _ told gave ends =>
    refine Books.Awaits.grows (Books.Awaits.grows ?_ gave.grows) ends.grows
    refine awaits_retried ha h (fun retry => sure (told retry)) rfl ?_ rfl rfl
    unfold Conf.closed
    dsimp only
    split
    · exact closing_plain s.chat provider extra
    · rfl
  | @saved _ recovery _ stage ends =>
    refine Books.Awaits.grows (Books.awaits_of_idle fun r hr => ?_) ends.grows
    have hrec := Books.recovery_saved s.books (some recovery) none
    obtain rfl := Option.some.inj (hrec.symm.trans hr)
    exact stage
  | @advanced end_ _ _ _ _ active advances ends =>
    exact (awaits_advanced ha h active advances (.inr (first end_ rfl)) (disk_saved ..)).grows ends.grows
  | drawing ends =>
    refine Books.Awaits.grows ?_ ends.grows
    exact h.extend (List.append_nil _).symm rfl rfl (List.append_nil _).symm
  | queued ends =>
    refine Books.Awaits.grows ?_ ends.grows
    rw [disk_queued]
    exact awaits_queued ha.sound _ _ _ _ _ _ rfl
  | drawingFresh closed ends =>
    have hu := (awaits_closed h _ _).grows closed.grows
    refine Books.Awaits.grows ?_ ends.grows
    exact hu.extend (List.append_nil _).symm rfl rfl (List.append_nil _).symm
  | queuedFresh closed ends =>
    have hu := closed.accounted (accounted_closed ha _ _ false)
    refine Books.Awaits.grows ?_ ends.grows
    rw [disk_queued]
    exact awaits_queued hu.sound _ _ _ _ _ _ rfl
  | @gaveUp _ _ _ u _ _ ends =>
    refine Books.Awaits.grows (Books.awaits_of_idle fun r hr => ?_) ends.grows
    have hrec := Books.recovery_saved u.books none none
    cases hrec.symm.trans hr
  | stopped _ ends =>
    refine Books.Awaits.grows ?_ ends.grows
    exact h.extend rfl (stopEnd_plain _) rfl (q := []) (List.append_nil _).symm
  | stoppedClosed gave ends => exact ((awaits_stopping h).grows gave.grows).grows ends.grows

end steps
section runs
variable [Host]

/-- The message that recovery goes on to once a turn has ended well is the first in the files. -/
def Conf.GoesOn (s : Conf) : Call → Prop
  | .recoveryEnded end_ => s.chat.turnFailed = none → end_.unfinished = false → s.chat.InFront
  | _ => True

def System.GoingOn (s : System) : Move → Prop
  | .advance => ∀ call ∈ s.stack.head?, s.conf.GoesOn call
  | _ => True

/-- The calls left to a conductor that has not stopped: a stop is made in its wake alone. -/
def Chat.Poised (c : Chat) (stack : List Call) : Prop :=
  ∃ calls tail, stack = calls ++ tail ∧ c.Sure calls ∧
    (tail = [] ∨ (tail = [.stopped, .publish] ∧ (c.stopping = true ∨ .shutdown ∈ calls)))

/-- The calls left to one that has. -/
def Chat.Over (c : Chat) (stack : List Call) : Prop :=
  c.state.status = .stopped ∧ c.stopping = true ∧ ∀ call ∈ stack, call = .publish

/-- A conductor whose recovery has something to wait for. -/
structure Expecting (s : Conf) (stack : List Call) : Prop where
  accounted : Accounted s.chat.desk s.books
  files : s.books.Awaits
  held : (s.chat.Poised stack ∧ Held s.chat.desk s.books) ∨ s.chat.Over stack

omit [Host] in
theorem poised_of_patient {calls : List Call} (h : ∀ call ∈ calls, call.Patient) (c : Chat) :
    c.Poised calls :=
  ⟨calls, [], (List.append_nil _).symm, sure_of_patient h c, .inl rfl⟩

omit [Host] in
theorem wake_poised (wake : Wake) (c : Chat) : c.Poised wake.calls := by
  cases wake with
  | stop drained =>
    refine ⟨.shutdown :: drained.map (fun heard => .absorb heard.1 heard.2), [.stopped, .publish], rfl, ?_,
      .inr ⟨rfl, .inr List.mem_cons_self⟩⟩
    refine sure_of_patient (fun call member => ?_) c
    rcases List.mem_cons.mp member with rfl | member
    · trivial
    · obtain ⟨_, -, rfl⟩ := List.mem_map.mp member
      trivial
  | _ => exact poised_of_patient (by simp [Wake.calls, Call.Patient]) c

/-- The next calls of a conductor that has not stopped, unless the call was the stop itself. -/
theorem Chat.Poised.next {s t : Conf} {call : Call} {calls rest : List Call}
    (h : s.chat.Poised (call :: rest)) (other : call ≠ .stopped) (ran : Ran s call calls t) :
    call.Sure s.chat ∧ t.chat.Poised (calls ++ rest) := by
  obtain ⟨mine, tail, split_, sure, stops⟩ := h
  cases mine with
  | nil =>
    rcases stops with rfl | ⟨rfl, -⟩
    · cases split_
    · cases split_
      exact absurd rfl other
  | cons first more =>
    obtain ⟨rfl, rfl⟩ := List.cons.inj split_
    refine ⟨sure.1, calls ++ more, tail, (List.append_assoc ..).symm,
      (ran.sure sure.1).append sure.2, stops.imp_right fun stops => ⟨stops.1, ?_⟩⟩
    rcases stops.2 with stopping | member
    · rcases ran.stopping with kept | ⟨-, stopping⟩
      · exact .inl (kept.trans stopping)
      · exact .inl stopping
    · rcases List.mem_cons.mp member with rfl | member
      · exact .inl ran.shuts
      · exact .inr (List.mem_append_right _ member)

omit [Host] in
/-- The stop comes last, in a conductor that was told to stop. -/
theorem Chat.Poised.stops {c : Chat} {rest : List Call} (h : c.Poised (.stopped :: rest)) :
    c.stopping = true ∧ rest = [.publish] := by
  obtain ⟨mine, tail, split_, sure, stops⟩ := h
  cases mine with
  | nil =>
    rcases stops with rfl | ⟨rfl, stopping | member⟩
    · cases split_
    · exact ⟨stopping, (List.cons.inj split_).2⟩
    · cases member
  | cons first more =>
    obtain ⟨rfl, -⟩ := List.cons.inj split_
    exact sure.1.elim

omit [Host] in
theorem Chat.Poised.first {c : Chat} {call : Call} {rest : List Call} (h : c.Poised (call :: rest)) :
    call.givesUp = true → c.recovery = none := by
  obtain ⟨mine, tail, split_, sure, stops⟩ := h
  intro gives
  cases mine with
  | nil =>
    rcases stops with rfl | ⟨rfl, -⟩
    · cases split_
    · cases split_
      cases gives
  | cons first more =>
    obtain ⟨rfl, -⟩ := List.cons.inj split_
    cases call <;> first | exact sure.1 | cases gives

/-- An END goes on to a message of the queue only where the turn ended well. -/
theorem goesOn_first {s : Conf} {call : Call} {rest : List Call}
    (allowed : System.GoingOn ⟨s, call :: rest, false⟩ .advance) :
    wp (run call)
      (fun _ t => ∀ end_, call = .recoveryEnded end_ →
        t.chat.recovery = s.chat.recovery ∨ s.chat.InFront)
      (fun _ _ => ∀ end_, call = .recoveryEnded end_ → s.chat.InFront) s := by
  have allowed : s.GoesOn call := allowed call rfl
  by_cases hended : ∃ end_, call = .recoveryEnded end_
  · obtain ⟨end_, rfl⟩ := hended
    refine wp_mono (recoveryEnded_fails end_) (fun _ t ht => ?_) fun _ _ ht => ?_
    · rintro _ ⟨⟩
      exact ht.imp_right fun went => allowed went.1 went.2
    · rintro _ ⟨⟩
      exact allowed ht.1 ht.2
  · have other : ∀ end_, call ≠ .recoveryEnded end_ := fun end_ heq => hended ⟨end_, heq⟩
    exact wp_mono (run_ran call) (fun _ _ _ end_ heq => absurd heq (other end_))
      fun _ _ _ end_ heq => absurd heq (other end_)

theorem expecting_ran {s t : Conf} {call : Call} {calls rest : List Call}
    (h : Expecting s (call :: rest)) (ran : Ran s call calls t)
    (first : ∀ end_, call = .recoveryEnded end_ →
      t.chat.recovery = s.chat.recovery ∨ s.chat.InFront)
    (kept : call = .publish → calls = [] ∧ t.chat.state = s.chat.state) :
    Expecting t (calls ++ rest) := by
  have accounted := accounted_ran h.accounted ran
  rcases h.held with ⟨poised, held⟩ | ⟨status, stopping, rest_⟩
  · by_cases stop : call = .stopped
    · subst stop
      obtain ⟨stopping, rfl⟩ := poised.stops
      cases ran with
      | stopped status gave =>
        refine ⟨accounted, (awaits_stopping h.files).grows gave.grows, .inr ⟨status, ?_, by simp⟩⟩
        exact (congrArg Desk.stopping gave.desk).trans stopping
      | moved leads => cases leads with | pause pauses => cases pauses
      | closed call_eq => rcases call_eq with ⟨_, _, h⟩ | ⟨_, h⟩ <;> cases h
    · obtain ⟨sure, poised⟩ := poised.next stop ran
      have awaited := awaited_ran h.accounted ⟨h.files, held⟩ sure first ran
      exact ⟨accounted, awaited.files, .inl ⟨poised, awaited.held⟩⟩
  · obtain rfl := rest_ call List.mem_cons_self
    obtain ⟨rfl, same⟩ := kept rfl
    have desk : t.chat.desk = s.chat.desk ∧ s.books.Grows Obs.isQuiet t.books := by
      cases ran with
      | moved _ still => exact ⟨still.desk, still.quiet.grows⟩
      | closed call_eq => rcases call_eq with ⟨_, _, h⟩ | ⟨_, h⟩ <;> cases h
    refine ⟨accounted, h.files.grows desk.2, .inr ⟨?_, ?_, ?_⟩⟩
    · rw [same]
      exact status
    · exact (congrArg Desk.stopping desk.1).trans stopping
    · exact fun call member => rest_ call (List.mem_cons_of_mem _ member)

theorem publish_keeps (s : Conf) (call : Call) :
    wp (run call) (fun calls t => call = .publish → calls = [] ∧ t.chat.state = s.chat.state)
      (fun _ _ => True) s := by
  by_cases publishes : call = .publish
  · subst publishes
    exact fun _ => ⟨rfl, rfl⟩
  · exact wp_mono (run_ran call) (fun _ _ _ heq => absurd heq publishes) fun _ _ _ => trivial

theorem expecting_invariant :
    System.Invariant System.GoingOn Expecting (fun s => s.books.Sound ∧ s.books.Awaits) where
  sound := And.left
  blank := fun sessionId env => ⟨blank_sound sessionId env, Books.awaits_of_idle (by rintro _ ⟨⟩)⟩
  opened := fun {past t} dead opened => by
    have accounted := accounted_opened dead.1 opened
    have files : t.books.Awaits := by
      rw [opened.books]
      refine dead.2.step ⟨[], (List.append_nil _).symm⟩ rfl fun m hm => .inl ?_
      rw [Books.undelivered_undelivered]
      exact hm
    refine ⟨accounted, files, .inl ⟨poised_of_patient (by simp) _, fun r hr stage => ?_⟩⟩
    have outbox : t.chat.desk.outbox = t.books.undelivered := by
      rw [accounted.undelivered, opened.desk]
    rw [outbox]
    exact (files r (accounted.recovery.symm.trans hr) stage).imp_right .inr
  failed := fun {past t} dead failed => by
    refine ⟨sound_openFailed dead.1 failed, ?_⟩
    obtain ⟨pending, which, grows⟩ := failed.books
    refine Books.Awaits.grows ?_ grows
    rcases which with rfl | rfl
    · exact dead.2
    · refine dead.2.step ⟨[], (List.append_nil _).symm⟩ rfl fun m hm => .inl ?_
      rw [Books.undelivered_undelivered]
      exact hm
  left := fun h _ => ⟨h.accounted.sound, h.files⟩
  ended := fun h _ => ⟨h.accounted.sound, h.files⟩
  wake := fun {s wake env} h live _ _ => by
    rcases h.held with ⟨-, held⟩ | ⟨-, stopping, -⟩
    · exact ⟨h.accounted, h.files, .inl ⟨wake_poised wake _, held⟩⟩
    · exact absurd (live.symm.trans stopping) (by simp)
  deadline := fun {s env} h live _ => by
    rcases h.held with ⟨-, held⟩ | ⟨-, stopping, -⟩
    · exact ⟨h.accounted, h.files, .inl ⟨poised_of_patient (by simp [Call.Patient]) _, held⟩⟩
    · exact absurd (live.symm.trans stopping) (by simp)
  call := fun {s call rest} _ allowed h => by
    refine wp_mono (wp_and (run_ran call) (wp_and (goesOn_first allowed) (publish_keeps s call)))
      (fun _ _ ran => expecting_ran h ran.1 ran.2.1 ran.2.2) fun _ _ died => ?_
    refine ⟨sound_died h.accounted died.1, awaits_died h.accounted h.files ?_ died.2.1 died.1⟩
    rcases h.held with ⟨poised, -⟩ | ⟨-, -, gone⟩
    · exact poised.first
    · obtain rfl := gone call List.mem_cons_self
      rintro ⟨⟩
  published := fun h => ⟨h.1.mono le_rfl rfl,
    h.2.extend (List.append_nil _).symm rfl rfl (List.append_nil _).symm⟩

/-- Recovery always waits for something that can still happen. While one is under way, past its
compaction, in a conductor that has not ended, the message it names is the next one, or written and
not confirmed, or open since the session's history began, and only one of these. -/
theorem System.recovery_awaits {s : System} (h : System.Reach System.GoingOn s)
    (running : s.ended = false) (live : s.conf.chat.state.status ≠ .stopped) {r : Recovery}
    (active : s.conf.chat.recovery = some r) (stage : r.stage ≠ .compacting) :
    let next := s.conf.chat.outbox.head?.map (·.id) = some r.messageId
    let unconfirmed := ∃ m ∈ s.conf.chat.awaiting, m.id = r.messageId
    let opened := ∃ e ∈ s.conf.chat.store.events, s.conf.chat.historyStart ≤ e.seq ∧
      e.isOpening = true ∧ e.messageId = some r.messageId
    (next ∧ ¬unconfirmed ∧ ¬opened) ∨ (¬next ∧ unconfirmed ∧ ¬opened) ∨
      (¬next ∧ ¬unconfirmed ∧ opened) := by
  intro next unconfirmed opened
  have expecting := (expecting_invariant.holds h).live running
  have accounted := expecting.accounted
  have held : next ∨ unconfirmed ∨ opened := by
    rcases expecting.held with ⟨-, held⟩ | ⟨status, -⟩
    · rcases held r active stage with hnext | hmem | ⟨e, member, since, opens⟩
      · exact .inl hnext
      · exact .inr (.inl (List.mem_map.mp hmem))
      · refine .inr (.inr ⟨e, member, ?_, opens⟩)
        exact accounted.historyStart.le.trans since
    · exact absurd status live
  -- a message is in one of the queues, and is opened only once it has left both
  have apart : next → ¬unconfirmed := by
    rintro hnext ⟨m, hm, hid⟩
    obtain ⟨m', hm', hid'⟩ := Option.map_eq_some_iff.mp hnext
    have hnodup := (accounted.queues.map (·.id)).nodup_iff.mp accounted.sound.pendingOnce
    rw [List.map_append] at hnodup
    have hout := List.mem_map_of_mem (f := PendingMessage.id) (List.mem_of_mem_head? hm')
    exact (List.nodup_append.mp hnodup).2.2 _ (List.mem_map_of_mem hm) _ hout (hid.trans hid'.symm)
  have queued : next ∨ unconfirmed → ¬opened := by
    rintro hqueued ⟨e, member, -, opens, named⟩
    have delivered : r.messageId ∈ s.conf.books.delivered :=
      mem_deliveredIds.mpr ⟨e, member, opens, named⟩
    rcases hqueued with hnext | ⟨m, hm, hid⟩
    · obtain ⟨m, hm, hid⟩ := Option.map_eq_some_iff.mp hnext
      exact accounted.apart m (accounted.mem_outbox (List.mem_of_mem_head? hm)) (hid ▸ delivered)
    · exact accounted.apart m (accounted.mem_awaiting hm) (hid ▸ delivered)
  rcases held with hnext | hunconfirmed | hopened
  · exact .inl ⟨hnext, apart hnext, queued (.inl hnext)⟩
  · exact .inr (.inl ⟨fun hnext => apart hnext hunconfirmed, hunconfirmed, queued (.inr hunconfirmed)⟩)
  · exact .inr (.inr ⟨fun hnext => queued (.inl hnext) hopened,
      fun hunconfirmed => queued (.inr hunconfirmed) hopened, hopened⟩)

end runs
instance (c : Chat) : Decidable c.InFront :=
  decidable_of_iff (∀ r ∈ c.recovery, r.queues →
    ∀ m ∈ c.outbox.head?, c.meta_.data.pending.head? = some m) Iff.rfl

instance (s : Conf) : (call : Call) → Decidable (s.GoesOn call)
  | .recoveryEnded end_ => inferInstanceAs
      (Decidable (s.chat.turnFailed = none → end_.unfinished = false → s.chat.InFront))
  | .launchOnce | .enqueue _ | .dispatchQueued | .flush | .deliver | .refused _ | .attempt ..
  | .replace .. | .absorb .. | .unauthenticated _ | .failed .. | .recoverContext _ | .startHandoff
  | .recoveryMessage .. | .recoveryFailed _ | .resumeRecovery | .finishTurn | .settleIdle | .apply _
  | .shutdown | .stopped | .publish => .isTrue trivial

instance (s : System) : (m : Move) → Decidable (s.GoingOn m)
  | .advance => inferInstanceAs (Decidable (∀ call ∈ s.stack.head?, s.conf.GoesOn call))
  | .receive .. | .deadline _ | .reopen .. => .isTrue trivial

section samples
attribute [local instance] Host.ascii

namespace System

/-- Sent while the handoff was under way, the second message is the one recovery goes on to. -/
theorem recovery_awaits_queued :
    ∃ s : System, ∃ r, s.conf.chat.recovery = some r ∧ r.stage = .resuming ∧
      let next := s.conf.chat.outbox.head?.map (·.id) = some r.messageId
      let unconfirmed := ∃ m ∈ s.conf.chat.awaiting, m.id = r.messageId
      let opened := ∃ e ∈ s.conf.chat.store.events, s.conf.chat.historyStart ≤ e.seq ∧
        e.isOpening = true ∧ e.messageId = some r.messageId
      (next ∧ ¬unconfirmed ∧ ¬opened) ∨ (¬next ∧ unconfirmed ∧ ¬opened) ∨
        (¬next ∧ ¬unconfirmed ∧ opened) := by
  let moves : List Move := filled (Env.answering "codex") ++ List.replicate 11 Move.advance ++
    .receive (.send "b") (Env.answering "codex") :: List.replicate 5 Move.advance ++
      .receive (.heard 2 { type := .end_ }) (Env.answering "codex") :: List.replicate 10 Move.advance ++
        .receive (.heard 3 { type := .end_ }) (Env.answering "codex") :: List.replicate 2 Move.advance
  have run : ∃ s, after "chat" ["codex"] Env.ascii moves = some s ∧ s.ended = false ∧
      s.conf.chat.state.status ≠ .stopped ∧
        ∃ r, s.conf.chat.recovery = some r ∧ r.stage = .resuming :=
    ⟨_, Option.eq_some_of_isSome (by decide +kernel), by decide +kernel, by decide +kernel, _,
      Option.eq_some_of_isSome (by decide +kernel), by decide +kernel⟩
  obtain ⟨s, hs, running, live, r, active, stage⟩ := run
  have start : Reach GoingOn (fresh "chat" ["codex"] none Env.ascii) :=
    .init ⟨"chat", ["codex"], none, Env.ascii, rfl⟩
  have along : machine.Along GoingOn (fresh "chat" ["codex"] none Env.ascii) moves := by
    decide +kernel
  have past : r.stage ≠ .compacting := by
    rw [stage]
    decide
  exact ⟨s, r, active, stage, recovery_awaits (start.exec along hs) running live active past⟩

/-- Claude hands a full session over, and is done in the clean one before it echoed the message that it
was to go on with; recovery goes on to the next message. Opened again, the session has the first of the
two in front of it, and waits for good. -/
theorem recovery_waits_in_vain :
    ∃ s : System, Reachable s ∧ s.ended = false ∧ s.stack = [] ∧ s.conf.chat.state.status ≠ .stopped ∧
      ∃ r, s.conf.chat.recovery = some r ∧ r.stage = .resuming ∧
        s.conf.chat.outbox.head?.map (·.id) ≠ some r.messageId ∧ s.conf.chat.awaiting = [] ∧
          ∀ e ∈ s.conf.chat.store.events, e.messageId ≠ some r.messageId := by
  let echoing : Env := { Env.answering "claude-code" with send := fun _ _ => .ok .echoed }
  let texts : ContextRecovery := {}
  let echo (text : String) : Report :=
    { type := .confirmed, text, extra := [(CONFIRMED_AS, .string "start")] }
  let moves : List Move :=
    .receive .launchReady echoing :: List.replicate 6 Move.advance ++
    .receive (.send "a") echoing :: List.replicate 6 Move.advance ++
    .receive (.heard 1 (echo "a")) echoing :: List.replicate 2 Move.advance ++
    .receive (.heard 1 { type := .error, kind := .contextLimit }) echoing :: List.replicate 2 Move.advance ++
    .receive (.heard 1 { type := .end_ }) echoing :: List.replicate 11 Move.advance ++
    .receive (.heard 2 (echo (SEED_HEADER ++ "\n\nUSER: a\n\n" ++ texts.limitMessage))) echoing ::
      List.replicate 2 Move.advance ++
    .receive (.heard 2 { type := .end_ }) echoing :: List.replicate 10 Move.advance ++
    .receive (.send "b") echoing :: List.replicate 5 Move.advance ++
    .receive (.heard 3 { type := .end_ }) echoing :: List.replicate 7 Move.advance ++
    [.reopen ["claude-code"] none echoing]
  have run : ∃ s, after "chat" ["claude-code"] Env.ascii moves = some s ∧ s.ended = false ∧
      s.stack.length = 0 ∧ s.conf.chat.state.status ≠ .stopped ∧
        ∃ r, s.conf.chat.recovery = some r ∧ r.stage = .resuming ∧
          s.conf.chat.outbox.head?.map (·.id) ≠ some r.messageId ∧ s.conf.chat.awaiting.length = 0 ∧
            ∀ e ∈ s.conf.chat.store.events, e.messageId ≠ some r.messageId :=
    ⟨_, Option.eq_some_of_isSome (by decide +kernel), by decide +kernel, by decide +kernel,
      by decide +kernel, _, Option.eq_some_of_isSome (by decide +kernel), by decide +kernel,
      by decide +kernel, by decide +kernel, by decide +kernel⟩
  obtain ⟨s, hs, running, stack, live, r, active, stage, front, unconfirmed, opened⟩ := run
  exact ⟨s, reachable_after hs, running, List.length_eq_zero_iff.mp stack, live, r, active, stage,
    front, List.length_eq_zero_iff.mp unconfirmed, opened⟩

end System
end samples
end SiliconOmni
