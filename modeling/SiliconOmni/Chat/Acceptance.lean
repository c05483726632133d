import SiliconOmni.Ascii
import SiliconOmni.Chat.Accounts

/-! An accepted message is delivered once or still pending, whatever the conductor dies of. -/
namespace SiliconOmni
open Lib

def Obs.acceptance : Obs → Option PendingMessage
  | accepted message => some message
  | _ => none

/-- The accepted messages, in the order their senders were told so. -/
def acceptances (trace : List Obs) : List PendingMessage := trace.reverse.filterMap Obs.acceptance

theorem acceptances_append {os trace : List Obs} (h : ∀ m, Obs.accepted m ∉ os) :
    acceptances (os ++ trace) = acceptances trace := by
  have hnone : os.reverse.filterMap Obs.acceptance = [] := by
    rw [List.filterMap_eq_nil_iff]
    intro o ho
    cases o <;> first | rfl | exact absurd (List.mem_reverse.mp ho) (h _)
  unfold acceptances
  rw [List.reverse_append, List.filterMap_append, hnone, List.append_nil]

theorem acceptances_plain {os trace : List Obs} (h : ∀ o ∈ os, o.isPlain) :
    acceptances (os ++ trace) = acceptances trace :=
  acceptances_append fun m hm => by cases h _ hm

theorem acceptances_synthesized (m : PendingMessage) (trace : List Obs) :
    acceptances (.synthesized m :: trace) = acceptances trace := by
  simp [acceptances, Obs.acceptance]

theorem acceptances_cons (m : PendingMessage) (trace : List Obs) :
    acceptances (.accepted m :: trace) = acceptances trace ++ [m] := by
  simp [acceptances, Obs.acceptance]

/-- The pending messages whose senders were told so. -/
def Books.promised (b : Books) : List PendingMessage :=
  b.pending.filter fun m => decide (m ∈ acceptances b.trace)

theorem superseded_cases {old next : Option Recovery} {id : String}
    (h : superseded old next = some id) :
    ∃ r, old = some r ∧ r.stage = .retrying ∧ r.retry ≠ "" ∧ r.messageId = id := by
  cases next with
  | none => cases h
  | some next =>
    cases old with
    | none => cases h
    | some old =>
      simp only [superseded, Option.bind_eq_bind, Option.bind_some] at h
      split at h
      next hc => exact ⟨old, rfl, hc.2.1, hc.2.2, Option.some.inj h⟩
      next => cases h

section
variable [Host]

/-- No accepted message is lost, none changes places with another, and recovery retires none. -/
structure Kept (b : Books) : Prop where
  drawn : ∀ m ∈ acceptances b.trace, Drawn b.ids m.id
  distinct : ((acceptances b.trace).map (·.id)).Nodup
  placed : ∀ m ∈ acceptances b.trace, m ∈ b.pending ∨ m.id ∈ b.delivered
  order : b.promised.Sublist (acceptances b.trace)
  spared : ∀ r, b.recovery = some r → r.stage = .retrying → r.retry ≠ "" →
    ∀ m ∈ acceptances b.trace, m.id ≠ r.messageId

namespace Kept
variable {b c : Books}

/-- What a step that accepts nothing must not do. -/
theorem step (h : Kept b) (past : acceptances c.trace = acceptances b.trace) (ids : b.ids ≤ c.ids)
    (delivered : ∀ id ∈ b.delivered, id ∈ c.delivered)
    (placed : ∀ m ∈ acceptances b.trace, m ∈ b.pending → m ∈ c.pending ∨ m.id ∈ c.delivered)
    (order : c.promised.Sublist b.promised)
    (spared : ∀ r, c.recovery = some r → r.stage = .retrying → r.retry ≠ "" →
      ∀ m ∈ acceptances b.trace, m.id ≠ r.messageId) : Kept c where
  drawn := by
    rw [past]
    exact fun m hm => (h.drawn m hm).mono ids
  distinct := by
    rw [past]
    exact h.distinct
  placed := by
    rw [past]
    intro m hm
    rcases h.placed m hm with hp | hd
    · exact placed m hm hp
    · exact .inr (delivered _ hd)
  order := by
    rw [past]
    exact order.trans h.order
  spared := by
    rw [past]
    exact spared

omit [Host] in
theorem promised_eq (past : acceptances c.trace = acceptances b.trace)
    (pending : c.pending = b.pending) : c.promised = b.promised := by
  unfold Books.promised
  rw [past, pending]

/-- The pending messages stay, and more of them may have been delivered. -/
theorem of_same (h : Kept b) (past : acceptances c.trace = acceptances b.trace)
    (ids : b.ids ≤ c.ids) (pending : c.pending = b.pending)
    (delivered : ∀ id ∈ b.delivered, id ∈ c.delivered) (top : c.top = b.top) : Kept c := by
  refine h.step past ids delivered ?_ ?_ ?_
  · intro m _ hp
    rw [pending]
    exact .inl hp
  · rw [promised_eq past pending]
  · intro r hr
    rw [Books.recovery, top] at hr
    exact h.spared r hr

theorem grows (h : Kept b) (hg : b.Grows Obs.isPlain c) : Kept c := by
  obtain ⟨es, he, _, hbook⟩ := hg.log
  obtain ⟨os, ho, hos⟩ := hg.trace
  refine h.of_same ?_ hg.ids hg.pending ?_ hg.top
  · rw [ho]
    exact acceptances_plain hos
  · intro id hid
    unfold Books.delivered
    rw [he, deliveredIds_append]
    exact List.mem_append_left _ hid

/-- One message fewer is pending, and it has been delivered. -/
theorem completed (h : Kept b) {id : String} (past : acceptances c.trace = acceptances b.trace)
    (ids : b.ids ≤ c.ids) (pending : c.pending = b.pending.filter (·.id ≠ id))
    (delivered : ∀ id ∈ b.delivered, id ∈ c.delivered) (retired : id ∈ c.delivered)
    (top : c.top = b.top) : Kept c := by
  refine h.step past ids delivered ?_ ?_ ?_
  · intro m _ hp
    rw [pending]
    by_cases hid : m.id = id
    · exact .inr (hid ▸ retired)
    · exact .inl (List.mem_filter.mpr ⟨hp, by simpa using hid⟩)
  · unfold Books.promised
    rw [past, pending]
    exact List.filter_sublist.filter _
  · intro r hr
    rw [Books.recovery, top] at hr
    exact h.spared r hr

/-- No sender was promised a message whose id had not been drawn. -/
theorem none_promised (h : Kept b) {new : List PendingMessage}
    (fresh : ∀ m ∈ new, ∃ i, b.ids ≤ i ∧ m.id = Host.uuid i) :
    new.filter (fun m => decide (m ∈ acceptances b.trace)) = [] := by
  rw [List.filter_eq_nil_iff]
  intro m hm hacc
  obtain ⟨i, hi, heq⟩ := fresh m hm
  have hd := h.drawn m (of_decide_eq_true hacc)
  rw [heq] at hd
  exact not_drawn _ hi hd

/-- Messages nobody was promised are put in front, and one that recovery wrote may go. -/
theorem fronted (h : Kept b) (front : List PendingMessage) (gone : Option String)
    (past : acceptances c.trace = acceptances b.trace) (ids : b.ids ≤ c.ids)
    (pending : c.pending = front ++ MetaData.without gone b.pending)
    (fresh : ∀ m ∈ front, ∃ i, b.ids ≤ i ∧ m.id = Host.uuid i)
    (unpromised : ∀ id, gone = some id → ∀ m ∈ acceptances b.trace, m.id ≠ id)
    (delivered : ∀ id ∈ b.delivered, id ∈ c.delivered)
    (spared : ∀ r, c.recovery = some r → r.stage = .retrying → r.retry ≠ "" →
      ∀ m ∈ acceptances b.trace, m.id ≠ r.messageId) : Kept c := by
  refine h.step past ids delivered ?_ ?_ spared
  · intro m hm hp
    left
    rw [pending]
    refine List.mem_append_right _ ?_
    cases gone with
    | none => exact hp
    | some id =>
      exact List.mem_filter.mpr ⟨hp, by simpa using unpromised id rfl m hm⟩
  · have hfront := h.none_promised fresh
    unfold Books.promised
    rw [past, pending, List.filter_append, hfront, List.nil_append]
    cases gone with
    | none => exact .refl _
    | some id => exact List.filter_sublist.filter _

/-- Messages nobody was promised are put behind. -/
theorem backed (h : Kept b) (back : List PendingMessage)
    (past : acceptances c.trace = acceptances b.trace) (ids : b.ids ≤ c.ids)
    (pending : c.pending = b.pending ++ back)
    (fresh : ∀ m ∈ back, ∃ i, b.ids ≤ i ∧ m.id = Host.uuid i)
    (log : c.log = b.log) (top : c.top = b.top) : Kept c := by
  refine h.step past ids ?_ ?_ ?_ ?_
  · intro id hid
    unfold Books.delivered
    rwa [log]
  · intro m _ hp
    rw [pending]
    exact .inl (List.mem_append_left _ hp)
  · have hback := h.none_promised fresh
    unfold Books.promised
    rw [past, pending, List.filter_append, hback, List.append_nil]
  · intro r hr
    rw [Books.recovery, top] at hr
    exact h.spared r hr

/-- A message that recovery drew an id for, and never wrote down. -/
theorem drawing {s : Conf} (h : Kept s.books) (text : String) :
    Kept (s.chat.disk.books (s.synthesizing text)) :=
  h.of_same (acceptances_synthesized ..) (Nat.le_succ _) rfl (fun _ hid => hid) rfl

end Kept

section steps
variable {s t : Conf} (ha : Accounted s.chat.desk s.books) (h : Kept s.books)
include ha h

theorem kept_enqueued (text : String) :
    Kept ((s.enqueued { id := Host.uuid s.ids, text }).books s) := by
  have hfresh : ∀ m ∈ acceptances s.trace, m.id ≠ Host.uuid s.ids := by
    intro m hm heq
    have hd := h.drawn m hm
    rw [heq] at hd
    exact not_drawn _ le_rfl hd
  have hpast : acceptances ((s.enqueued { id := Host.uuid s.ids, text }).books s).trace =
      acceptances s.trace ++ [{ id := Host.uuid s.ids, text }] := acceptances_cons _ _
  refine ⟨?_, ?_, ?_, ?_, ?_⟩
  · rw [hpast]
    intro m hm
    rcases List.mem_append.mp hm with hm | hm
    · exact (h.drawn m hm).mono (Nat.le_succ _)
    · rw [List.mem_singleton.mp hm]
      exact ⟨s.ids, Nat.lt_succ_self _, rfl⟩
  · rw [hpast, List.map_append]
    refine List.nodup_append.mpr ⟨h.distinct, by simp, ?_⟩
    rintro id hid _ hnew rfl
    obtain ⟨m, hm, rfl⟩ := List.mem_map.mp hid
    exact hfresh m hm (List.mem_singleton.mp hnew)
  · rw [hpast]
    intro m hm
    show m ∈ s.chat.meta_.data.pending ++ [_] ∨ m.id ∈ deliveredIds (s.chat.store.events ++ [])
    rw [List.append_nil]
    rcases List.mem_append.mp hm with hm | hm
    · exact (h.placed m hm).imp_left (List.mem_append_left _)
    · exact .inl (List.mem_append_right _ hm)
  · unfold Books.promised
    rw [hpast]
    show ((s.chat.meta_.data.pending ++ [_]).filter _).Sublist _
    have hold : s.chat.meta_.data.pending.filter (fun m =>
        decide (m ∈ acceptances s.trace ++ [{ id := Host.uuid s.ids, text }])) =
        s.chat.meta_.data.pending.filter fun m => decide (m ∈ acceptances s.trace) := by
      apply List.filter_congr
      intro m hm
      have hne : m ≠ { id := Host.uuid s.ids, text } := by
        rintro rfl
        exact not_drawn _ le_rfl (ha.sound.pendingDrawn _ hm)
      simp [hne]
    rw [List.filter_append, hold]
    exact h.order.append (by simp)
  · rw [hpast]
    intro r hr hstage hretry m hm
    rcases List.mem_append.mp hm with hm | hm
    · exact h.spared r hr hstage hretry m hm
    · rw [List.mem_singleton.mp hm]
      intro heq
      have hd := ha.sound.identified r hr (by rw [hstage]; decide)
      rw [← heq] at hd
      exact not_drawn _ le_rfl hd

omit ha in
theorem kept_turned {d : Delta} (data : d.data = s.chat.meta_.data)
    (silent : ∀ m, Obs.accepted m ∉ d.obs) : Kept (d.books s) := by
  refine h.of_same (acceptances_append silent) (Nat.le_add_right _ _)
    (congrArg MetaData.pending data) (fun id hid => ?_) (congrArg MetaData.top data)
  show id ∈ deliveredIds (s.chat.store.events ++ d.events)
  rw [deliveredIds_append]
  exact List.mem_append_left _ hid

omit ha in
theorem kept_written (runner : Handle) (message : PendingMessage) (rest : List PendingMessage) :
    Kept ((s.written runner message rest).books s) := by
  refine h.of_same (acceptances_append (by simp [Conf.written])) le_rfl rfl (fun id hid => ?_) rfl
  show id ∈ deliveredIds (s.chat.store.events ++ [])
  rwa [List.append_nil]

omit ha in
/-- The opening of a message is logged, and the message no longer pending. -/
theorem kept_opening {e : Event} {id : String} {c : Books} (opens : deliveredIds [e] = [id])
    (past : acceptances c.trace = acceptances s.trace) (ids : s.ids ≤ c.ids)
    (log : c.log = s.books.log ++ [e])
    (pending : c.pending = s.books.pending ∨ c.pending = s.books.pending.filter (·.id ≠ id))
    (top : c.top = s.books.top) : Kept c := by
  have hdelivered : c.delivered = s.books.delivered ++ [id] := by
    unfold Books.delivered
    rw [log, deliveredIds_append, opens]
  have hold : ∀ id ∈ s.books.delivered, id ∈ c.delivered := by
    intro id hid
    rw [hdelivered]
    exact List.mem_append_left _ hid
  rcases pending with pending | pending
  · exact h.of_same past ids pending hold top
  · refine h.completed past ids pending hold ?_ top
    rw [hdelivered]
    exact List.mem_append_right _ (List.mem_singleton_self _)

omit ha in
theorem kept_delivered (runner : Handle) (message : PendingMessage) (rest : List PendingMessage)
    (delivery : Delivery) : Kept ((s.delivered runner message rest delivery).books s) := by
  refine kept_opening h (opening_delivers _ _ _) (acceptances_append fun m => ?_) le_rfl rfl
    (.inr rfl) rfl
  simp only [Conf.delivered]
  split <;> simp

omit ha in
theorem kept_confirmed {message : PendingMessage} {rest : List PendingMessage} {event : Event}
    {opening : EventType} (confirming : s.Confirming event message rest opening) :
    Kept ((s.confirmed message rest event opening).books s) :=
  kept_opening h (confirmation_delivers _ (Event.confirmedAs_isOpening confirming.opens))
    (acceptances_plain (s.chat.confirming_isPlain _ _)) le_rfl rfl (.inr rfl) rfl

omit ha in
/-- Retries of what is unfinished are put in front, and an END may be logged. -/
theorem kept_retried (retry : Bool) {c : Books}
    (past : acceptances c.trace = acceptances s.trace)
    (ids : c.ids = s.ids + (s.retries retry).length)
    (log : ∃ es, c.log = s.books.log ++ es)
    (pending : c.pending = s.retries retry ++ s.books.pending) (top : c.top = s.books.top) :
    Kept c := by
  obtain ⟨es, log⟩ := log
  refine h.fronted (s.retries retry) none past (by rw [ids]; exact Nat.le_add_right _ _) pending ?_
    (fun id hid => by cases hid) (fun id hid => ?_) (fun r hr => ?_)
  · intro m hm
    obtain ⟨i, hi, _, heq⟩ := (retries_fresh s retry).1 m hm
    exact ⟨i, hi, heq⟩
  · unfold Books.delivered
    rw [log, deliveredIds_append]
    exact List.mem_append_left _ hid
  · rw [Books.recovery, top] at hr
    exact h.spared r hr

omit ha in
theorem kept_closed (provider : String) (extra : Fields) (retry : Bool) :
    Kept ((s.closed provider extra retry).books s) := by
  refine kept_retried h retry (acceptances_append fun m hm => ?_) rfl ⟨_, rfl⟩ rfl rfl
  simp only [Conf.closed] at hm
  rcases List.mem_append.mp hm with hm | hm
  · split at hm <;> simp at hm
  · exact absurd (s.chat.puttingDown_isPlain _ hm) (by simp [Obs.isPlain])

/-- The next recovery state is saved, and a message of its own put in front. -/
theorem kept_saved {next : Option Recovery} {since : Option ℤ} (front : List PendingMessage)
    {ids : ℕ} {trace : List Obs} {c : Books}
    (books : c = s.books.saved next since front (superseded s.chat.recovery next) ids trace)
    (hids : s.ids ≤ ids) (past : acceptances trace = acceptances s.trace)
    (fresh : ∀ m ∈ front, ∃ i, s.ids ≤ i ∧ m.id = Host.uuid i)
    (spared : ∀ r, next = some r → r.stage = .retrying → r.retry ≠ "" →
      ∃ i, s.ids ≤ i ∧ r.messageId = Host.uuid i) : Kept c := by
  subst books
  refine h.fronted front (superseded s.chat.recovery next) past hids rfl fresh
    ?_ (fun id hid => hid) ?_
  · intro id hgone m hm
    obtain ⟨r, hr, hstage, hretry, rfl⟩ := superseded_cases hgone
    have hrec : s.books.recovery = some r := ha.recovery.symm.trans hr
    exact h.spared r hrec hstage hretry m hm
  · intro r hr hstage hretry m hm heq
    have hr : next = some r := (Books.recovery_saved s.books next since).symm.trans hr
    obtain ⟨i, hi, hid⟩ := spared r hr hstage hretry
    have hd := h.drawn m hm
    rw [heq, hid] at hd
    exact not_drawn _ hi hd

theorem kept_queued {text : String} {since : Option ℤ}
    {trace : List Obs} {c : Books} {next : Recovery} (id : next.messageId = Host.uuid s.ids)
    (books : c = s.books.saved (some next) since [{ id := Host.uuid s.ids, text }]
      (superseded s.chat.recovery (some next)) (s.ids + 1) trace)
    (past : acceptances trace = acceptances s.trace) : Kept c := by
  refine kept_saved ha h _ books (Nat.le_succ _) past ?_ ?_
  · intro m hm
    rw [List.mem_singleton.mp hm]
    exact ⟨s.ids, le_rfl, rfl⟩
  · intro r hr _ _
    cases hr
    exact ⟨s.ids, le_rfl, id⟩

omit ha in
theorem kept_stopping : Kept (s.stopping.books s) := by
  refine h.of_same (acceptances_append fun m => ?_) le_rfl rfl (fun id hid => ?_) rfl
  · simp only [Conf.stopping]
    split <;> simp
  · show id ∈ deliveredIds (s.chat.store.events ++ s.stopping.events)
    rw [deliveredIds_append]
    exact List.mem_append_left _ hid

omit ha h in
/-- A state saved by `recovery_ended` names a message of the user's, or none. -/
theorem advances_spared {recovery : Recovery} {next : Option Recovery} {calls : List Call}
    (advances : Advances s.chat recovery next calls) :
    ∀ r, next = some r → r.stage = .retrying → r.retry ≠ "" →
      ∃ i, s.ids ≤ i ∧ r.messageId = Host.uuid i := by
  intro r hr hstage hretry
  cases advances with
  | retryQueued =>
    cases hr
    exact absurd rfl hretry
  | compacted => cases hr
  | resumeQueued =>
    cases hr
    cases hstage
  | complete => cases hr

theorem kept_ran {call : Call} {calls : List Call} (ran : Ran s call calls t) : Kept t.books := by
  cases ran with
  | moved _ still => exact h.grows still.quiet.grows.plain
  | replaced _ _ quiet => exact h.grows quiet.grows.plain
  | enqueued gave => exact (kept_enqueued ha h _).grows gave.grows.plain
  | written _ gave => exact (kept_written h _ _ _).grows gave.grows.plain
  | delivered _ _ gave => exact (kept_delivered h _ _ _ _).grows gave.grows.plain
  | refusedFull _ gave => exact (kept_turned h rfl (by simp)).grows gave.grows.plain
  | refusedMidTurn _ _ gave => exact (kept_turned h rfl (by simp)).grows gave.grows.plain
  | late _ _ gave => exact (kept_turned h rfl (by simp)).grows gave.grows.plain
  | reacted _ _ _ reacted gave =>
    refine (kept_turned h rfl fun m hm => ?_).grows gave.grows.plain
    rcases List.mem_append.mp hm with hm | hm
    · cases reacted.isPlain _ hm
    · simp at hm
  | confirmed _ confirming gave => exact (kept_confirmed h confirming).grows gave.grows.plain
  | closed _ _ gave => exact (kept_closed h _ _ _).grows gave.grows.plain
  | compacting stage _ gave =>
    refine (kept_saved ha h _ (books_saved ..) le_rfl rfl (by simp) fun r hr hs => ?_).grows
      gave.grows.plain
    cases hr
    rw [stage] at hs
    cases hs
  | notCompacting stage gave =>
    refine (kept_saved ha h _ (books_saved ..) le_rfl rfl (by simp) fun r hr hs => ?_).grows
      gave.grows.plain
    cases hr
    rw [stage] at hs
    cases hs
  | queued gave =>
    exact (kept_queued ha h rfl (books_saved ..) (acceptances_append (by simp))).grows
      gave.grows.plain
  | queuedFresh closed gave =>
    have hu := (kept_closed h _ _ _).grows closed.grows.plain
    exact (kept_queued (closed.accounted (accounted_closed ha _ _ _)) hu rfl (books_saved ..)
      (acceptances_append (by simp))).grows gave.grows.plain
  | gaveUp closed gave =>
    have hu := (kept_closed h _ _ _).grows closed.grows.plain
    exact (kept_saved (closed.accounted (accounted_closed ha _ _ _)) hu _ (books_saved ..) le_rfl
      rfl (by simp) (by simp)).grows gave.grows.plain
  | nothingToEnd _ gave => exact (kept_turned h rfl (by simp)).grows gave.grows.plain
  | proceeded _ _ gave => exact (kept_turned h rfl (by simp)).grows gave.grows.plain
  | advanced _ advances gave =>
    exact (kept_saved ha h _ (books_saved ..) le_rfl rfl (by simp)
      (advances_spared advances)).grows gave.grows.plain
  | refolded _ _ _ gave => exact (kept_turned h rfl (by simp)).grows gave.grows.plain
  | nextTurn _ gave => exact (kept_turned h rfl (by simp)).grows gave.grows.plain
  | awaited _ _ gave => exact (kept_turned h rfl (by simp)).grows gave.grows.plain
  | finished _ _ _ gave => exact (kept_turned h rfl (by simp)).grows gave.grows.plain
  | shutting gave => exact (kept_turned h rfl (by simp)).grows gave.grows.plain
  | stopped _ gave => exact (kept_stopping h).grows gave.grows.plain

theorem kept_died {call : Call} (died : Died s call t) : Kept t.books := by
  cases died with
  | quietly ends => exact h.grows ends.grows
  | @enqueued text _ ends =>
    refine Kept.grows ?_ ends.grows
    refine h.backed [⟨Host.uuid s.ids, text⟩] rfl (Nat.le_succ _) rfl ?_ rfl rfl
    intro m hm
    rw [List.mem_singleton.mp hm]
    exact ⟨s.ids, le_rfl, rfl⟩
  | opened _ ends =>
    refine Kept.grows ?_ ends.grows
    exact kept_opening h (opening_delivers ..) rfl le_rfl rfl (.inl rfl) rfl
  | delivered _ ends =>
    refine Kept.grows ?_ ends.grows
    exact kept_opening h (opening_delivers ..) rfl le_rfl rfl (.inr rfl) rfl
  | heard _ ends =>
    refine Kept.grows ?_ ends.grows
    exact kept_retried h false rfl rfl ⟨_, rfl⟩ rfl rfl
  | confirming confirming ends =>
    refine Kept.grows ?_ ends.grows
    have ho := Event.confirmedAs_isOpening confirming.opens
    exact kept_opening h (confirmation_delivers _ ho) rfl le_rfl rfl (.inl rfl) rfl
  | confirmed confirming ends =>
    refine Kept.grows ?_ ends.grows
    have ho := Event.confirmedAs_isOpening confirming.opens
    exact kept_opening h (confirmation_delivers _ ho) rfl le_rfl rfl (.inr rfl) rfl
  | retried _ ends =>
    refine Kept.grows ?_ ends.grows
    exact kept_retried h _ rfl rfl ⟨[], (List.append_nil _).symm⟩ rfl rfl
  | closing _ _ ends =>
    refine Kept.grows ?_ ends.grows
    exact kept_retried h _ rfl rfl ⟨_, rfl⟩ rfl rfl
  | closed _ gave ends =>
    refine Kept.grows ?_ ends.grows
    exact (kept_closed h _ _ _).grows gave.grows.plain
  | saved stage ends =>
    refine Kept.grows ?_ ends.grows
    refine kept_saved ha h _ (disk_saved ..) le_rfl rfl (by simp) fun r hr hs => ?_
    cases hr
    rw [stage] at hs
    cases hs
  | advanced _ advances ends =>
    refine Kept.grows ?_ ends.grows
    exact kept_saved ha h _ (disk_saved ..) le_rfl rfl (by simp) (advances_spared advances)
  | drawing ends => exact Kept.grows (h.drawing _) ends.grows
  | queued ends =>
    refine Kept.grows ?_ ends.grows
    exact kept_queued ha h rfl (disk_queued ..) (acceptances_synthesized ..)
  | drawingFresh closed ends =>
    refine Kept.grows ?_ ends.grows
    exact ((kept_closed h _ _ _).grows closed.grows.plain).drawing _
  | queuedFresh closed ends =>
    have hu := (kept_closed h _ _ _).grows closed.grows.plain
    refine Kept.grows ?_ ends.grows
    exact kept_queued (closed.accounted (accounted_closed ha _ _ _)) hu rfl
      (disk_queued ..) (acceptances_synthesized ..)
  | gaveUp closed ends =>
    have hu := (kept_closed h _ _ _).grows closed.grows.plain
    refine Kept.grows ?_ ends.grows
    exact kept_saved (closed.accounted (accounted_closed ha _ _ _)) hu _ (disk_saved ..) le_rfl rfl
      (by simp) (by simp)
  | stopped _ ends =>
    refine Kept.grows ?_ ends.grows
    exact kept_retried h false rfl rfl ⟨_, rfl⟩ rfl rfl
  | stoppedClosed gave ends =>
    refine Kept.grows ?_ ends.grows
    exact (kept_stopping h).grows gave.grows.plain

end steps

section runs
variable {past t : Conf}

theorem blank_kept (sessionId : String) (env : Env) : Kept (Conf.blank sessionId env).books where
  drawn := fun m hm => by cases hm
  distinct := List.nodup_nil
  placed := fun m hm => by cases hm
  order := .refl _
  spared := fun r hr => by cases hr

/-- Opening a session drops only what has been delivered. -/
theorem Kept.undelivered {b : Books} (h : Kept b) :
    Kept ({ b with pending := b.undelivered } : Books) := by
  refine h.step rfl le_rfl (fun id hid => hid) ?_ (List.filter_sublist.filter _) h.spared
  intro m _ hp
  by_cases hid : m.id ∈ b.delivered
  · exact .inr hid
  · exact .inl (List.mem_filter.mpr ⟨hp, by simpa using hid⟩)

theorem kept_openFailed (h : Kept past.books) (failed : OpenFailed past t) : Kept t.books := by
  obtain ⟨pending, which, grows⟩ := failed.books
  refine Kept.grows ?_ grows
  rcases which with rfl | rfl
  · exact h
  · exact h.undelivered

theorem kept_invariant (ok : System → Move → Prop) :
    System.Invariant ok (fun s _ => Accounted s.chat.desk s.books ∧ Kept s.books)
      (fun s => s.books.Sound ∧ Kept s.books) where
  sound := And.left
  blank := fun sessionId env => ⟨blank_sound sessionId env, blank_kept sessionId env⟩
  opened := fun h opened =>
    ⟨accounted_opened h.1 opened, by rw [opened.books]; exact h.2.undelivered⟩
  failed := fun h failed => ⟨sound_openFailed h.1 failed, kept_openFailed h.2 failed⟩
  left := fun h _ => ⟨h.1.sound, h.2⟩
  ended := fun h _ => ⟨h.1.sound, h.2⟩
  wake := fun h _ _ _ => h
  deadline := fun h _ _ => h
  call := fun _ _ h => wp_mono (run_ran _)
    (fun _ _ ran => ⟨accounted_ran h.1 ran, kept_ran h.1 h.2 ran⟩)
    fun _ _ died => ⟨sound_died h.1 died, kept_died h.1 h.2 died⟩
  published := fun h => ⟨h.1.mono le_rfl rfl, h.2.of_same
    (acceptances_plain (by simp [Obs.isPlain])) le_rfl rfl (fun _ hid => hid) rfl⟩

theorem System.Reach.kept {ok : System → Move → Prop} {s : System} (h : System.Reach ok s) :
    Kept s.conf.books := by
  cases hover : s.ended with
  | false => exact (((kept_invariant ok).holds h).live hover).2
  | true => exact (((kept_invariant ok).holds h).dead hover).2

omit [Host] in
theorem mem_deliveredIds {log : List Event} {id : String} :
    id ∈ deliveredIds log ↔ ∃ e ∈ log, e.isOpening ∧ e.messageId = some id := by
  simp [deliveredIds, and_assoc]

/-- Each accepted message has one opening event or one place in the outbox, which keeps the order
of acceptance. -/
structure ExactlyOnce (accepted : List PendingMessage) (log : List Event)
    (outbox : List PendingMessage) : Prop where
  placed : ∀ m ∈ accepted,
    Xor (∃ e ∈ log, e.isOpening ∧ e.messageId = some m.id) (m ∈ outbox)
  distinct : (accepted.map (·.id)).Nodup
  opensOnce : (deliveredIds log).Nodup
  queuedOnce : (outbox.map (·.id)).Nodup
  ordered : (outbox.filter fun m => decide (m ∈ accepted)).Sublist accepted

theorem exactlyOnce_opened (accounted : Accounted t.chat.desk t.books) (kept : Kept t.books)
    (trace : t.trace = past.trace) (outbox : t.chat.outbox = t.books.pending) :
    ExactlyOnce (acceptances past.trace) t.chat.store.events t.chat.outbox := by
  rw [outbox, ← trace]
  refine ⟨fun m hm => ?_, kept.distinct, accounted.sound.deliveredOnce,
    accounted.sound.pendingOnce, kept.order⟩
  rw [← mem_deliveredIds]
  rcases kept.placed m hm with hp | hd
  · exact .inr ⟨hp, accounted.apart m hp⟩
  · exact .inl ⟨hd, fun hp => accounted.apart m hp hd⟩

/-- Whatever a run was cut after, opening its files again fails only where their repair cannot be
written, and finds every accepted message once. -/
theorem accepted_exactly_once {s : System} (h : System.Reachable s) (providers : List String)
    (cwd : Option String) (env : Env) :
    let chat := s.conf.chat
    let reopened := System.opening chat.sessionId chat.disk s.conf providers cwd env
    ((∀ n, env.commit n = .done) → reopened.ended = false) ∧
      (reopened.ended = false → ExactlyOnce (acceptances s.conf.trace)
        reopened.conf.chat.store.events reopened.conf.chat.outbox) := by
  intro chat reopened
  refine opening_cases h.sound providers cwd env (P := fun reopened : System =>
    ((∀ n, env.commit n = .done) → reopened.ended = false) ∧
      (reopened.ended = false → ExactlyOnce (acceptances s.conf.trace)
        reopened.conf.chat.store.events reopened.conf.chat.outbox))
    (fun t opened => ?_) fun t _ cuts => ?_
  · refine ⟨fun _ => rfl, fun _ => ?_⟩
    have kept : Kept t.books := by
      rw [opened.books]
      exact h.kept.undelivered
    refine exactlyOnce_opened (accounted_opened h.sound opened) kept ?_ ?_
    · exact congrArg Books.trace opened.books
    · exact congrArg Desk.outbox opened.desk
  · refine ⟨fun writes => ?_, fun running => by cases running⟩
    obtain ⟨n, hn⟩ := cuts
    exact absurd (writes n) hn

end runs
end

section samples
attribute [local instance] Host.ascii

/-- One message is delivered and one of the same text pending when the process dies. -/
theorem accepted_exactly_once_same_text :
    ∃ s : System, acceptances s.conf.trace = [⟨"1", "go on"⟩, ⟨"11", "go on"⟩] ∧
      s.conf.chat.outbox = [⟨"11", "go on"⟩] ∧
      let chat := s.conf.chat
      let reopened := System.opening chat.sessionId chat.disk s.conf [] none Env.ascii
      ((∀ n, Env.ascii.commit n = .done) → reopened.ended = false) ∧
        (reopened.ended = false → ExactlyOnce (acceptances s.conf.trace)
          reopened.conf.chat.store.events reopened.conf.chat.outbox) := by
  have run : ∃ s, System.after "chat" ["claude-code"] Env.ascii
      ([.receive (.sendDurable "go on") Env.ascii] ++ List.replicate 9 .advance ++
        [.receive (.sendDurable "go on") Env.ascii, .advance]) = some s ∧
      acceptances s.conf.trace = [⟨"1", "go on"⟩, ⟨"11", "go on"⟩] ∧
        s.conf.chat.outbox = [⟨"11", "go on"⟩] := by
    refine ⟨_, Option.eq_some_of_isSome (by decide +kernel), by decide +kernel, by decide +kernel⟩
  obtain ⟨s, hs, accepted, outbox⟩ := run
  exact ⟨s, accepted, outbox,
    accepted_exactly_once (System.reachable_after hs) [] none Env.ascii⟩

end samples
end SiliconOmni
