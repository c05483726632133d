import SiliconOmni.Chat.CallSteps

/-! What the two files of a session say about its messages, and when that can be read back. -/
namespace SiliconOmni
open Lib

/-- What the files and the past say: all that a crash leaves, and all that a message's fate hangs
on. -/
structure Books where
  sessionId : String
  /-- Message ids drawn so far. -/
  ids : ℕ
  log : List Event
  pending : List PendingMessage
  top : Fields
  trace : List Obs

def Conf.books (s : Conf) : Books where
  sessionId := s.chat.sessionId
  ids := s.ids
  log := s.chat.store.events
  pending := s.chat.meta_.data.pending
  top := s.chat.meta_.data.top
  trace := s.trace

/-- The books after `s` is changed by `d`. -/
def Delta.books (d : Delta) (s : Conf) : Books where
  sessionId := s.chat.sessionId
  ids := s.ids + d.drawn
  log := s.chat.store.events ++ d.events
  pending := d.data.pending
  top := d.data.top
  trace := d.obs ++ s.trace

/-- The books of `s` if the conductor were to end with `disk`. -/
def Disk.books (disk : Disk) (s : Conf) : Books :=
  { s.books with log := disk.log, pending := disk.data.pending, top := disk.data.top }

namespace Books

/-- `c` is `b` with bookkeeping in its log and only allowed observations since. -/
structure Grows (allowed : Obs → Bool) (b c : Books) : Prop where
  session : c.sessionId = b.sessionId
  ids : b.ids ≤ c.ids
  log : ∃ es, c.log = b.log ++ es ∧ Follows b.sessionId b.log es ∧
    ∀ e ∈ es, e.eventType.isBookkeeping
  pending : c.pending = b.pending
  top : c.top = b.top
  trace : ∃ os, c.trace = os ++ b.trace ∧ ∀ o ∈ os, allowed o

theorem Grows.refl (allowed : Obs → Bool) (b : Books) : b.Grows allowed b :=
  ⟨rfl, le_rfl, ⟨[], by simp, trivial, by simp⟩, rfl, rfl, [], rfl, by simp⟩

theorem Grows.plain {b c : Books} (h : b.Grows Obs.isQuiet c) : b.Grows Obs.isPlain c :=
  { h with
    trace := by
      obtain ⟨os, ho, hos⟩ := h.trace
      exact ⟨os, ho, fun o hm => Obs.isPlain_of_isQuiet (hos o hm)⟩ }

end Books

theorem Gave.grows {s t : Conf} {d : Delta} (h : Gave s t d) :
    (d.books s).Grows Obs.isQuiet t.books :=
  ⟨h.session, h.ids.ge, h.log, h.pending, h.top, h.trace⟩

theorem Quiet.grows {s t : Conf} (h : Quiet s t) : s.books.Grows Obs.isQuiet t.books :=
  ⟨h.session, h.ids.ge, h.log, h.pending, h.top, h.trace⟩

theorem Ends.grows {s t : Conf} {disk : Disk} (h : Ends s t disk) :
    (disk.books s).Grows Obs.isPlain t.books :=
  ⟨h.later.session, h.later.ids, h.log, h.pending, h.top, h.later.trace⟩

section delivered

theorem deliveredIds_append (log events : List Event) :
    deliveredIds (log ++ events) = deliveredIds log ++ deliveredIds events := by
  simp [deliveredIds]

theorem deliveredIds_bookkeeping {events : List Event}
    (h : ∀ e ∈ events, e.eventType.isBookkeeping) : deliveredIds events = [] := by
  have hfilter : events.filter Event.isOpening = [] := by
    rw [List.filter_eq_nil_iff]
    intro e he hopen
    have hb := h e he
    rcases Bool.or_eq_true_iff.mp hopen with ho | ho
    · rw [of_decide_eq_true ho] at hb
      cases hb
    · rw [of_decide_eq_true ho] at hb
      cases hb
  rw [deliveredIds, hfilter]
  rfl

/-- An event that opens no message. -/
theorem deliveredIds_plain {event : Event} (h : event.messageId = none) :
    deliveredIds [event] = [] := by
  unfold deliveredIds
  by_cases ho : event.isOpening = true
  · simp [ho, h]
  · simp [ho]

theorem deliveredIds_closing {event : Event} (h : event.isOpening = false) :
    deliveredIds [event] = [] := by
  simp [deliveredIds, h]

theorem deliveredIds_opening {event : Event} {id : String} (ho : event.isOpening)
    (h : event.messageId = some id) : deliveredIds [event] = [id] := by
  simp [deliveredIds, ho, h]

end delivered

section
variable [Host]

def Drawn (ids : ℕ) (id : String) : Prop := ∃ i < ids, id = Host.uuid i

theorem Drawn.mono {ids ids' : ℕ} {id : String} (h : Drawn ids id) (hle : ids ≤ ids') :
    Drawn ids' id := by
  obtain ⟨i, hi, rfl⟩ := h
  exact ⟨i, hi.trans_le hle, rfl⟩

theorem not_drawn (ids : ℕ) {i : ℕ} (h : ids ≤ i) : ¬Drawn ids (Host.uuid i) := by
  rintro ⟨j, hj, heq⟩
  have := Host.uuid_injective heq
  omega

theorem Drawn.ne_empty {ids : ℕ} {id : String} (h : Drawn ids id) : id ≠ "" := by
  obtain ⟨i, _, rfl⟩ := h
  exact Host.uuid_ne_empty i

end

/-- The value a key of the metadata holds. -/
def topGet (top : Fields) (key : String) : Option Value :=
  (top.lookup key).filter fun value => !value.isNull

/-- The other keys of the metadata after a recovery state is saved. -/
def recoverTop (top : Fields) (next : Option Recovery) (since : Option ℤ) : Fields :=
  let top := Entries.insert top MetaData.RECOVERY ((next.map Recovery.toValue).getD .null)
  match since with
  | some since => Entries.insert top MetaData.HISTORY_START (.number since)
  | none => top

@[simp] theorem topGet_recovery (top : Fields) (next : Option Recovery) (since : Option ℤ) :
    topGet (recoverTop top next since) MetaData.RECOVERY = next.map Recovery.toValue := by
  have hlook : (recoverTop top next since).lookup MetaData.RECOVERY =
      some ((next.map Recovery.toValue).getD .null) := by
    unfold recoverTop
    cases since
    · exact Entries.lookup_insert_self _ _ _
    · exact (Entries.lookup_insert_ne _ _ (by decide)).trans (Entries.lookup_insert_self _ _ _)
  unfold topGet
  rw [hlook]
  cases next <;> simp [Recovery.toValue, Value.isNull]

@[simp] theorem topGet_historyStart (top : Fields) (next : Option Recovery) (since : Option ℤ) :
    topGet (recoverTop top next since) MetaData.HISTORY_START =
      (since.map Value.number).or (topGet top MetaData.HISTORY_START) := by
  unfold topGet recoverTop
  cases since with
  | none => rw [Entries.lookup_insert_ne _ _ (by decide)]; rfl
  | some since => simp [Value.isNull]

theorem MetaData.get_eq (data : MetaData) (key : String) : data.get key = topGet data.top key := rfl

namespace Books

def recovery (b : Books) : Option Recovery :=
  (topGet b.top MetaData.RECOVERY).bind Recovery.ofValue

def historyStart (b : Books) : ℤ := ((topGet b.top MetaData.HISTORY_START).bind Value.asInt).getD 0

def delivered (b : Books) : List String := deliveredIds b.log

variable [Host]

/-- Files that read back as what was written to them, and that hold no message id twice. -/
structure Sound (b : Books) : Prop where
  readable : Follows b.sessionId [] b.log
  pendingDrawn : ∀ m ∈ b.pending, Drawn b.ids m.id
  deliveredDrawn : ∀ id ∈ b.delivered, Drawn b.ids id
  pendingOnce : (b.pending.map (·.id)).Nodup
  deliveredOnce : b.delivered.Nodup
  recovery : topGet b.top MetaData.RECOVERY = b.recovery.map Recovery.toValue
  identified : ∀ r, b.recovery = some r → r.stage ≠ .compacting → Drawn b.ids r.messageId
  history : ∀ v, topGet b.top MetaData.HISTORY_START = some v → v = .number b.historyStart
  range : 0 ≤ b.historyStart ∧ b.historyStart ≤ Store.expected b.log

omit [Host] in
theorem expected_append_singleton (log : List Event) (e : Event) :
    Store.expected (log ++ [e]) = e.seq + 1 := by
  simp [Store.expected]

omit [Host] in
theorem expected_le_of_follows {sessionId : String} {log es : List Event}
    (h : Follows sessionId log es) : Store.expected log ≤ Store.expected (log ++ es) := by
  induction es generalizing log with
  | nil => simp
  | cons e es ih =>
    have hrest := ih h.2
    rw [expected_append_singleton, h.1.seq] at hrest
    rw [List.append_assoc] at hrest
    exact (by omega : Store.expected log ≤ Store.expected log + 1).trans hrest

/-- More of the log, more ids drawn, and the same metadata. -/
theorem Sound.extend {b : Books} (h : b.Sound) {es : List Event} {ids : ℕ} {trace : List Obs}
    (follows : Follows b.sessionId b.log es) (hids : b.ids ≤ ids)
    (drawn : ∀ id ∈ deliveredIds es, Drawn ids id) (once : (b.delivered ++ deliveredIds es).Nodup) :
    Sound { b with ids, log := b.log ++ es, trace } where
  readable := follows_append.mpr ⟨h.readable, by simpa using follows⟩
  pendingDrawn := fun m hm => (h.pendingDrawn m hm).mono hids
  deliveredDrawn := by
    intro id hid
    rw [delivered, deliveredIds_append] at hid
    exact (List.mem_append.mp hid).elim (fun hid => (h.deliveredDrawn id hid).mono hids) (drawn id)
  pendingOnce := h.pendingOnce
  deliveredOnce := by
    rw [delivered, deliveredIds_append]
    exact once
  recovery := h.recovery
  identified := fun r hr hs => (h.identified r hr hs).mono hids
  history := h.history
  range := ⟨h.range.1, h.range.2.trans (expected_le_of_follows follows)⟩

/-- An event that opens no message leaves the books sound. -/
theorem Sound.append_plain {b : Books} (h : b.Sound) {e : Event} (trace : List Obs)
    (placed : Placed b.sessionId b.log e) (plain : deliveredIds [e] = []) :
    Sound { b with log := b.log ++ [e], trace } := by
  refine h.extend ⟨placed, trivial⟩ (le_refl b.ids) ?_ ?_
  · rw [plain]
    simp
  · rw [plain, List.append_nil]
    exact h.deliveredOnce

theorem Sound.append_opening {b : Books} (h : b.Sound) {e : Event} {id : String} (trace : List Obs)
    (placed : Placed b.sessionId b.log e) (opens : deliveredIds [e] = [id])
    (drawn : Drawn b.ids id) (new : id ∉ b.delivered) :
    Sound { b with log := b.log ++ [e], trace } := by
  refine h.extend ⟨placed, trivial⟩ (le_refl b.ids) ?_ ?_
  · rw [opens]
    simpa using drawn
  · rw [opens]
    exact List.nodup_append.mpr ⟨h.deliveredOnce, by simp, by
      rintro a ha b hb rfl
      exact new (List.mem_singleton.mp hb ▸ ha)⟩

theorem Sound.grows {b c : Books} {allowed : Obs → Bool} (h : b.Sound) (hg : b.Grows allowed c) :
    c.Sound := by
  obtain ⟨sessionId, ids, log, pending, top, trace⟩ := c
  obtain ⟨es, he, hfollows, hbook⟩ := hg.log
  have hs := hg.session
  have hp := hg.pending
  have ht := hg.top
  dsimp only at he hs hp ht
  subst he hs hp ht
  have hnone := deliveredIds_bookkeeping hbook
  refine h.extend hfollows hg.ids ?_ ?_
  · rw [hnone]
    simp
  · rw [hnone, List.append_nil]
    exact h.deliveredOnce

/-- A change of what is pending, where nothing new is added but fresh messages. -/
theorem Sound.repend {b : Books} (h : b.Sound) {pending : List PendingMessage} {ids : ℕ}
    {trace : List Obs} (hids : b.ids ≤ ids) (drawn : ∀ m ∈ pending, Drawn ids m.id)
    (once : (pending.map (·.id)).Nodup) : Sound { b with ids, pending, trace } :=
  { h with
    pendingDrawn := drawn
    deliveredDrawn := fun id hid => (h.deliveredDrawn id hid).mono hids
    pendingOnce := once
    identified := fun r hr hs => (h.identified r hr hs).mono hids }

/-- The past does not count, and ids may have been drawn in vain. -/
theorem Sound.mono {b c : Books} (h : b.Sound) (ids : b.ids ≤ c.ids)
    (same : { c with ids := b.ids, trace := b.trace } = b) : c.Sound := by
  obtain ⟨sessionId, ids', log, pending, top, trace⟩ := c
  have hd : ({ b with ids := ids', trace } : Books).Sound :=
    h.repend ids (fun m hm => (h.pendingDrawn m hm).mono ids) h.pendingOnce
  rw [← same] at hd
  exact hd

theorem Sound.filter {b : Books} (h : b.Sound) (p : PendingMessage → Bool) (trace : List Obs) :
    Sound { b with pending := b.pending.filter p, trace } :=
  h.repend le_rfl (fun m hm => h.pendingDrawn m (List.mem_filter.mp hm).1)
    (h.pendingOnce.sublist ((List.filter_sublist).map _))

/-- Fresh messages put before and behind what is already pending. -/
theorem Sound.insert {b : Books} (h : b.Sound) (front back : List PendingMessage) {ids : ℕ}
    (trace : List Obs) (hids : b.ids ≤ ids)
    (fresh : ∀ m ∈ front ++ back, ∃ i, b.ids ≤ i ∧ i < ids ∧ m.id = Host.uuid i)
    (once : ((front ++ back).map (·.id)).Nodup) :
    Sound { b with ids, pending := front ++ b.pending ++ back, trace } := by
  have hperm : ((front ++ back) ++ b.pending).Perm (front ++ b.pending ++ back) := by
    rw [List.append_assoc, List.append_assoc]
    exact List.perm_append_comm.append_left front
  refine h.repend hids ?_ ?_
  · intro m hm
    rcases List.mem_append.mp (hperm.mem_iff.mpr hm) with hm | hm
    · obtain ⟨i, _, hi, heq⟩ := fresh m hm
      exact ⟨i, hi, heq⟩
    · exact (h.pendingDrawn m hm).mono hids
  · refine ((hperm.map _).nodup_iff).mp ?_
    rw [List.map_append]
    refine List.nodup_append.mpr ⟨once, h.pendingOnce, ?_⟩
    rintro id hf _ hp rfl
    obtain ⟨m, hm, rfl⟩ := List.mem_map.mp hf
    obtain ⟨m', hm', heq⟩ := List.mem_map.mp hp
    obtain ⟨i, hi, _, hid⟩ := fresh m hm
    have hd := h.pendingDrawn m' hm'
    rw [heq, hid] at hd
    exact not_drawn _ hi hd

omit [Host] in
@[simp] theorem recovery_saved (b : Books) (next : Option Recovery) (since : Option ℤ) :
    recovery { b with top := recoverTop b.top next since } = next := by
  unfold recovery
  rw [topGet_recovery]
  cases next <;> simp

omit [Host] in
@[simp] theorem historyStart_saved (b : Books) (next : Option Recovery) (since : Option ℤ) :
    historyStart { b with top := recoverTop b.top next since } = since.getD b.historyStart := by
  unfold historyStart
  rw [topGet_historyStart]
  cases since <;> rfl

/-- The next recovery state is saved, and the history boundary with it. -/
theorem Sound.saved {b : Books} (h : b.Sound) {next : Option Recovery} {since : Option ℤ}
    (identified : ∀ r, next = some r → r.stage ≠ .compacting → Drawn b.ids r.messageId)
    (range : ∀ n, since = some n → 0 ≤ n ∧ n ≤ Store.expected b.log) :
    Sound { b with top := recoverTop b.top next since } :=
  { h with
    recovery := by
      rw [recovery_saved]
      exact topGet_recovery _ _ _
    identified := by
      rw [recovery_saved]
      exact identified
    history := by
      intro v hv
      rw [historyStart_saved]
      rw [topGet_historyStart] at hv
      cases since with
      | some n => exact (Option.some.inj hv).symm
      | none => exact h.history v hv
    range := by
      rw [historyStart_saved]
      cases since with
      | some n => exact range n rfl
      | none => exact h.range }

end Books
end SiliconOmni
