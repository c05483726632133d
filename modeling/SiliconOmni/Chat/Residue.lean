import SiliconOmni.Chat.Authority

/-! What recovery leaves queued: a message it wrote itself is gone once recovery is, provided it was
delivered before recovery went on without it. -/
namespace SiliconOmni
open Lib

/-- The message that recovery wrote itself and waits for. -/
def Recovery.own (r : Recovery) : Option String :=
  match r.stage with
  | .retrying => if r.retry = "" then none else some r.messageId
  | .handoff | .continuing => some r.messageId
  | .compacting | .resuming => none

/-- The message that recovery wrote itself is no longer pending. -/
def Chat.Retired (c : Chat) : Prop :=
  ∀ id ∈ c.recovery.bind Recovery.own, ∀ m ∈ c.meta_.data.pending, m.id ≠ id

section books
variable [Host]

/-- A message of recovery's own is pending only while recovery waits for it. -/
structure Clean (b : Books) : Prop where
  drawn : ∀ m, Obs.synthesized m ∈ b.trace → Drawn b.ids m.id
  own : ∀ m ∈ b.pending, Obs.synthesized m ∈ b.trace →
    ∃ r, b.recovery = some r ∧ r.own = some m.id

namespace Clean
variable {b c : Books}

/-- Recovery writes nothing, and what is pending was pending or is new. -/
theorem step (h : Clean b) (ids : b.ids ≤ c.ids)
    (past : ∀ m, Obs.synthesized m ∈ c.trace → Obs.synthesized m ∈ b.trace)
    (pending : ∀ m ∈ c.pending, m ∈ b.pending ∨ ∃ i, b.ids ≤ i ∧ m.id = Host.uuid i)
    (top : c.top = b.top) : Clean c where
  drawn m hm := (h.drawn m (past m hm)).mono ids
  own m hm hs := by
    rw [Books.recovery, top]
    rcases pending m hm with hm | ⟨i, hi, hid⟩
    · exact h.own m hm (past m hs)
    · have hdrawn := h.drawn m (past m hs)
      rw [hid] at hdrawn
      exact absurd hdrawn (not_drawn _ hi)

theorem grows (h : Clean b) (hg : b.Grows Obs.isPlain c) : Clean c := by
  obtain ⟨os, ho, hos⟩ := hg.trace
  refine h.step hg.ids (fun m hm => ?_) (fun m hm => .inl (hg.pending ▸ hm)) hg.top
  rw [ho] at hm
  rcases List.mem_append.mp hm with hm | hm
  · cases hos _ hm
  · exact hm

/-- The next recovery is saved, once the last one's own message is gone or is taken out. -/
theorem saved (h : Clean b) {next : Option Recovery} {since : Option ℤ} {front : List PendingMessage}
    {gone : Option String} {ids : ℕ} {trace : List Obs}
    (books : c = b.saved next since front gone ids trace) (hids : b.ids ≤ ids)
    (past : ∀ m, Obs.synthesized m ∈ trace → Obs.synthesized m ∈ b.trace ∨ m ∈ front)
    (fresh : ∀ m ∈ front, Drawn ids m.id)
    (fronted : ∀ m ∈ front, ∃ r, next = some r ∧ r.own = some m.id)
    (settled : ∀ r id, b.recovery = some r → r.own = some id →
      gone = some id ∨ (∀ m ∈ b.pending, m.id ≠ id) ∨ next = some r) : Clean c := by
  subst books
  refine ⟨fun m hm => ?_, fun m hm hs => ?_⟩
  · rcases past m hm with hm | hm
    · exact (h.drawn m hm).mono hids
    · exact fresh m hm
  · have hrec : (b.saved next since front gone ids trace).recovery = next :=
      Books.recovery_saved b next since
    rw [hrec]
    by_cases hfront : m ∈ front
    · exact fronted m hfront
    have hm : m ∈ front ++ MetaData.without gone b.pending := hm
    have hold : m ∈ MetaData.without gone b.pending := (List.mem_append.mp hm).resolve_left hfront
    obtain ⟨r, hr, hown⟩ := h.own m (mem_without hold) ((past m hs).resolve_right hfront)
    rcases settled r m.id hr hown with rfl | hleft | hsame
    · have hne : m.id ≠ m.id := by simpa using (List.mem_filter.mp hold).2
      exact absurd rfl hne
    · exact absurd rfl (hleft m (mem_without hold))
    · exact ⟨r, hsame, hown⟩

end Clean
end books

section calls
variable {s t : Conf} {call : Call} {calls : List Call}

/-- A call that may wait for others: what recovery writes is a retry of something, a handoff or a
continuation. -/
def Call.Voiced : Call → Prop
  | .recoveryMessage stage text _ =>
      stage = .handoff ∨ stage = .continuing ∨ (stage = .retrying ∧ text ≠ "")
  | .recoverContext _ => False
  | .attempt _ next | .replace _ _ next => Onward next
  | _ => True

/-- Recovery starts where none is under way. -/
def Call.Due (c : Chat) : Call → Prop
  | .recoverContext _ => c.recovery = none
  | call => call.Voiced

/-- The calls left to make: only the first one may start a recovery. -/
def Chat.Faces (c : Chat) : List Call → Prop
  | [] => True
  | call :: rest => call.Due c ∧ ∀ later ∈ rest, later.Voiced

theorem Call.Voiced.due (h : call.Voiced) (c : Chat) : call.Due c := by
  cases call <;> first | exact h | cases h

theorem faces_of_voiced (h : ∀ call ∈ calls, call.Voiced) (c : Chat) : c.Faces calls := by
  cases calls with
  | nil => trivial
  | cons call rest =>
    exact ⟨(h call List.mem_cons_self).due c, fun k hk => h k (List.mem_cons_of_mem _ hk)⟩

theorem Chat.Faces.append {c : Chat} {rest : List Call} (h : c.Faces calls)
    (voiced : ∀ call ∈ rest, call.Voiced) : c.Faces (calls ++ rest) := by
  cases calls with
  | nil => exact faces_of_voiced voiced c
  | cons call more =>
    refine ⟨h.1, fun k hk => ?_⟩
    rcases List.mem_append.mp hk with hk | hk
    · exact h.2 k hk
    · exact voiced k hk

theorem Onward.voiced {next : List Call} (h : Onward next) : ∀ call ∈ next, call.Voiced := by
  rcases h with rfl | rfl | rfl
  all_goals simp [Call.Voiced]

theorem wake_voiced (wake : Wake) : ∀ call ∈ wake.calls, call.Voiced := by
  intro call hcall
  cases wake <;> simp [Wake.calls] at hcall
  case stop drained =>
    rcases hcall with rfl | ⟨_, _, _, rfl⟩ | rfl | rfl <;> trivial
  all_goals
    rcases hcall with rfl | rfl | rfl | rfl <;> trivial

theorem Reacted.faces {d d' : Desk} {autoremove : Bool} {e : Event} {obs : List Obs} {c : Chat}
    (h : Reacted d autoremove e calls d' obs) (same : c.recovery = d.recovery) :
    c.Faces calls := by
  cases h with
  | endedFull _ _ idle _ => exact ⟨same.trans idle, by simp⟩
  | _ => simp [Chat.Faces, Call.Due, Call.Voiced]

variable [Host]

theorem Ran.faces (ran : Ran s call calls t) (due : call.Due s.chat) : t.chat.Faces calls := by
  cases ran with
  | moved leads still =>
    cases leads with
    | proceed | again | replace =>
      have onward : Onward _ := due
      first
      | exact faces_of_voiced onward.voiced _
      | exact ⟨onward, by simp⟩
    | full idle between =>
      exact ⟨(congrArg Desk.recovery still.desk).trans idle, by simp⟩
    | _ => simp [Chat.Faces, Call.Due, Call.Voiced, Onward]
  | replaced calls_eq _ _ =>
    have onward : Onward _ := due
    rcases calls_eq with rfl | rfl | rfl
    · exact faces_of_voiced onward.voiced _
    · trivial
    · exact ⟨onward, by simp⟩
  | reacted _ _ _ reacted gave =>
    have same : t.chat.recovery = s.chat.recovery :=
      (congrArg Desk.recovery gave.desk).trans (reacted_queues reacted).2.2.1
    exact reacted.faces same
  | closed _ calls_eq _ =>
    rcases calls_eq with rfl | rfl <;> simp [Chat.Faces, Call.Due, Call.Voiced, Onward]
  | proceeded _ proceeds _ =>
    cases proceeds with
    | repeatTurn _ texts => exact ⟨.inr (.inr ⟨rfl, texts⟩), by simp⟩
    | _ => simp [Chat.Faces, Call.Due, Call.Voiced]
  | advanced _ advances _ =>
    cases advances with
    | complete _ _ _ calls_eq =>
      rcases calls_eq with rfl | rfl <;> simp [Chat.Faces, Call.Due, Call.Voiced, Onward]
    | _ => simp [Chat.Faces, Call.Due, Call.Voiced]
  | finished _ _ calls_eq _ =>
    rcases calls_eq with rfl | rfl <;> simp [Chat.Faces, Call.Due, Call.Voiced, Onward]
  | _ => simp [Chat.Faces, Call.Due, Call.Voiced]

/-- What a call relies on not to leave a message of recovery's own behind: one that it wrote has been
delivered when recovery goes on without it. -/
structure Conf.Settles (s : Conf) (call : Call) (kept : Prop) : Prop where
  gaveUp : ∀ why, call = .recoveryFailed why → s.chat.Retired
  queues : ∀ stage text fresh, call = .recoveryMessage stage text fresh →
    (stage = .handoff ∧ s.chat.recovery.any (·.stage = .retrying) = true) ∨ s.chat.Retired
  ended : ∀ end_, call = .recoveryEnded end_ → kept ∨ s.chat.Retired

theorem clean_quietly (h : Clean s.books) {d : Delta} (gave : Gave s t d)
    (silent : ∀ m, Obs.synthesized m ∉ d.obs)
    (pending : ∀ m ∈ d.data.pending, m ∈ s.chat.meta_.data.pending ∨ ∃ i, s.ids ≤ i ∧ m.id = Host.uuid i)
    (top : d.data.top = s.chat.meta_.data.top) : Clean t.books := by
  refine Clean.grows (b := d.books s) ?_ gave.grows.plain
  refine h.step (Nat.le_add_right _ _) (fun m hm => ?_) pending top
  exact (List.mem_append.mp hm).resolve_left (silent m)

theorem retries_new (s : Conf) (retry : Bool) :
    ∀ m ∈ (s.chat.meta_.data.retry (s.retries retry)).pending,
      m ∈ s.chat.meta_.data.pending ∨ ∃ i, s.ids ≤ i ∧ m.id = Host.uuid i := by
  intro m hm
  rcases List.mem_append.mp hm with hm | hm
  · obtain ⟨i, hi, -, hid⟩ := (retries_fresh s retry).1 m hm
    exact .inr ⟨i, hi, hid⟩
  · exact .inl hm

theorem clean_closed {provider : String} {extra : Fields} {retry : Bool} (h : Clean s.books)
    (gave : Gave s t (s.closed provider extra retry)) : Clean t.books := by
  refine clean_quietly h gave (fun m hm => ?_) (retries_new s retry) rfl
  have plain := s.chat.puttingDown_isPlain
  simp only [Conf.closed] at hm
  rcases List.mem_append.mp hm with hm | hm
  · split at hm <;> simp at hm
  · cases plain _ hm

theorem clean_queued (ha : Accounted s.chat.desk s.books) (h : Clean s.books) {stage : RecoveryStage}
    {text : String} {since : Option ℤ} {trace : List Obs} {c : Books}
    (voiced : Call.Voiced (.recoveryMessage stage text true))
    (books : c = s.books.saved
      (some ⟨stage, Host.uuid s.ids, if stage = .retrying then text else ""⟩) since
      [⟨Host.uuid s.ids, text⟩] (superseded s.chat.recovery
        (some ⟨stage, Host.uuid s.ids, if stage = .retrying then text else ""⟩)) (s.ids + 1) trace)
    (past : ∀ m, Obs.synthesized m ∈ trace → Obs.synthesized m ∈ s.trace ∨
      m = ⟨Host.uuid s.ids, text⟩)
    (settled : (stage = .handoff ∧ s.chat.recovery.any (·.stage = .retrying) = true) ∨
      s.chat.Retired) : Clean c := by
  refine h.saved books (Nat.le_succ _) (fun m hm => ?_) (fun m hm => ?_) (fun m hm => ?_) fun r id hr hown => ?_
  · exact (past m hm).imp_right List.mem_singleton.mpr
  · rw [List.mem_singleton.mp hm]
    exact ⟨s.ids, Nat.lt_succ_self _, rfl⟩
  · refine ⟨_, rfl, ?_⟩
    rw [List.mem_singleton.mp hm]
    rcases voiced with rfl | rfl | ⟨rfl, htext⟩
    · rfl
    · rfl
    · simp [Recovery.own, htext]
  · have hr : s.chat.recovery = some r := ha.recovery.trans hr
    rcases settled with ⟨rfl, hretrying⟩ | retired
    · left
      have hstage : r.stage = .retrying := by simpa [hr] using hretrying
      have hretry : r.retry ≠ "" ∧ r.messageId = id := by simpa [Recovery.own, hstage] using hown
      simp [superseded, hr, hstage, hretry]
    · exact .inr (.inl (retired id (by simp [hr, hown])))

theorem clean_saved (ha : Accounted s.chat.desk s.books) (h : Clean s.books) {next : Option Recovery}
    {c : Books} (books : c = s.books.saved next none [] (superseded s.chat.recovery next) s.ids s.trace)
    (settled : s.chat.recovery = next ∨ s.chat.Retired) : Clean c := by
  refine h.saved books le_rfl (fun _ => .inl) (by simp) (by simp) fun r id hr hown => ?_
  have hr : s.chat.recovery = some r := ha.recovery.trans hr
  rcases settled with rfl | retired
  · exact .inr (.inr hr)
  · exact .inr (.inl (retired id (by simp [hr, hown])))

omit [Host] in
theorem retired_of_none (idle : s.chat.recovery = none) : s.chat.Retired := by
  intro id hid
  rw [idle] at hid
  cases hid

/-- Putting the runner down changes neither the recovery nor, without a retry, what is pending. -/
theorem closed_retired {provider : String} {extra : Fields}
    (closed : Gave s t (s.closed provider extra false)) :
    t.chat.recovery = s.chat.recovery ∧ (s.chat.Retired → t.chat.Retired) := by
  have hrec : t.chat.recovery = s.chat.recovery := congrArg Desk.recovery closed.desk
  have hpending : t.chat.meta_.data.pending = s.chat.meta_.data.pending := closed.pending
  refine ⟨hrec, fun h id hid => ?_⟩
  rw [hpending]
  exact h id (hrec ▸ hid)

/-- Whatever a call does, a message of recovery's own is pending only while recovery waits for it. -/
theorem clean_ran (ha : Accounted s.chat.desk s.books) (h : Clean s.books) (due : call.Due s.chat)
    (settles : s.Settles call (t.chat.recovery = s.chat.recovery)) (ran : Ran s call calls t) :
    Clean t.books := by
  cases ran with
  | moved _ still => exact h.grows still.quiet.grows.plain
  | replaced _ _ quiet => exact h.grows quiet.grows.plain
  | @enqueued text _ gave =>
    refine clean_quietly h gave (by simp [Conf.enqueued]) (fun m hm => ?_) rfl
    rcases List.mem_append.mp hm with hm | hm
    · exact .inl hm
    · rw [List.mem_singleton.mp hm]
      exact .inr ⟨s.ids, le_rfl, rfl⟩
  | written _ gave => exact clean_quietly h gave (by simp [Conf.written]) (fun _ => .inl) rfl
  | delivered _ _ gave =>
    refine clean_quietly h gave (fun m hm => ?_) (fun m hm => .inl (List.mem_filter.mp hm).1) rfl
    simp only [Conf.delivered] at hm
    split at hm <;> simp at hm
  | refusedFull _ gave | refusedMidTurn _ _ gave | nothingToEnd _ gave | proceeded _ _ gave
  | refolded _ _ _ gave | nextTurn _ gave | awaited _ _ gave | finished _ _ _ gave | shutting gave
  | late _ _ gave =>
    exact clean_quietly h gave (by simp [Conf.turned]) (fun _ => .inl) rfl
  | reacted _ _ _ reacted gave =>
    refine clean_quietly h gave (fun m hm => ?_) (fun _ => .inl) rfl
    rcases List.mem_append.mp hm with hm | hm
    · cases reacted.isPlain _ hm
    · simp at hm
  | confirmed _ confirming gave =>
    refine clean_quietly h gave (fun m hm => ?_) (fun m hm => .inl (List.mem_filter.mp hm).1) rfl
    cases s.chat.confirming_isPlain _ _ _ hm
  | closed _ _ gave => exact clean_closed h gave
  | compacting _ _ gave | notCompacting _ gave =>
    have idle : s.chat.recovery = none := due
    exact (clean_saved ha h (books_saved ..) (.inr (retired_of_none idle))).grows gave.grows.plain
  | queued gave =>
    refine (clean_queued ha h due (books_saved ..) (fun m hm => ?_)
      (settles.queues _ _ _ rfl)).grows gave.grows.plain
    rcases List.mem_append.mp hm with hm | hm
    · right
      simpa [Conf.queuedRecovery] using hm
    · exact .inl hm
  | @queuedFresh stage text provider extra u _ closed gave =>
    have hu := closed.accounted (accounted_closed ha provider extra false)
    obtain ⟨hrec, hretired⟩ := closed_retired closed
    have settled := (settles.queues _ _ _ rfl).imp_right hretired
    rw [← hrec] at settled
    refine (clean_queued hu (clean_closed h closed) due (books_saved ..) (fun m hm => ?_)
      settled).grows gave.grows.plain
    rcases List.mem_append.mp hm with hm | hm
    · right
      simpa [Conf.queuedRecovery] using hm
    · exact .inl hm
  | gaveUp closed gave =>
    have hu := closed.accounted (accounted_closed ha _ _ false)
    have retired := (closed_retired closed).2 (settles.gaveUp _ rfl)
    exact (clean_saved hu (clean_closed h closed) (books_saved ..) (.inr retired)).grows gave.grows.plain
  | advanced _ advances gave =>
    refine (clean_saved ha h (books_saved ..) ?_).grows gave.grows.plain
    have hnext : t.chat.recovery = _ := congrArg Desk.recovery gave.desk
    exact (settles.ended _ rfl).imp_left fun hsame => hsame.symm.trans hnext
  | stopped _ gave =>
    refine clean_quietly h gave (fun m hm => ?_) (fun _ => .inl) rfl
    simp only [Conf.stopping] at hm
    split at hm <;> simp at hm

theorem clean_ends (h : Clean s.books) {disk : Disk} {u : Conf} (ends : Ends u t disk)
    (ids : s.ids ≤ u.ids) (past : ∀ m, Obs.synthesized m ∈ u.trace → Obs.synthesized m ∈ s.trace)
    (pending : ∀ m ∈ disk.data.pending,
      m ∈ s.chat.meta_.data.pending ∨ ∃ i, s.ids ≤ i ∧ m.id = Host.uuid i)
    (top : disk.data.top = s.chat.meta_.data.top) : Clean t.books :=
  Clean.grows (h.step (c := disk.books u) ids past pending top) ends.grows

theorem clean_died (ha : Accounted s.chat.desk s.books) (h : Clean s.books) (due : call.Due s.chat)
    (settles : s.Settles call False) (died : Died s call t) : Clean t.books := by
  have synthesized {u : Conf} {text : String} : ∀ m, Obs.synthesized m ∈ (u.synthesizing text).trace →
      Obs.synthesized m ∈ u.trace ∨ m = ⟨Host.uuid u.ids, text⟩ := by
    intro m hm
    rcases List.mem_cons.mp hm with hm | hm
    · right
      simpa using hm
    · exact .inl hm
  have drawing {u : Conf} {text : String} (sound : u.books.Sound) (hu : Clean u.books)
      (ends : Ends (u.synthesizing text) t u.chat.disk) : Clean t.books := by
    refine Clean.grows ⟨fun m hm => ?_, fun m hm hs => ?_⟩ ends.grows
    · rcases synthesized m hm with hm | rfl
      · exact (hu.drawn m hm).mono (Nat.le_succ _)
      · exact ⟨u.ids, Nat.lt_succ_self _, rfl⟩
    · rcases synthesized m hs with hs | rfl
      · exact hu.own m hm hs
      · exact absurd (sound.pendingDrawn _ hm) (not_drawn _ le_rfl)
  cases died with
  | quietly ends => exact h.grows ends.grows
  | enqueued ends =>
    refine clean_ends h ends (Nat.le_succ _) (fun _ => id) (fun m hm => ?_) rfl
    rcases List.mem_append.mp hm with hm | hm
    · exact .inl hm
    · rw [List.mem_singleton.mp hm]
      exact .inr ⟨s.ids, le_rfl, rfl⟩
  | opened _ ends | heard _ ends | confirming _ ends | stopped _ ends =>
    exact clean_ends h ends le_rfl (fun _ => id) (fun _ => .inl) rfl
  | delivered _ ends | confirmed _ ends =>
    exact clean_ends h ends le_rfl (fun _ => id) (fun m hm => .inl (List.mem_filter.mp hm).1) rfl
  | retried _ ends | closing _ _ ends =>
    exact clean_ends h ends (Nat.le_add_right _ _) (fun _ => id) (retries_new s _) rfl
  | closed _ gave ends => exact (clean_closed h gave).grows ends.grows
  | saved _ ends =>
    have idle : s.chat.recovery = none := due
    exact (clean_saved ha h (disk_saved ..) (.inr (retired_of_none idle))).grows ends.grows
  | advanced _ advances ends =>
    have retired := (settles.ended _ rfl).resolve_left id
    exact (clean_saved ha h (disk_saved ..) (.inr retired)).grows ends.grows
  | drawing ends => exact drawing ha.sound h ends
  | queued ends =>
    exact (clean_queued ha h due (disk_queued ..) synthesized (settles.queues _ _ _ rfl)).grows ends.grows
  | drawingFresh closed ends =>
    exact drawing (closed.accounted (accounted_closed ha _ _ false)).sound (clean_closed h closed) ends
  | @queuedFresh stage text provider extra u _ closed ends =>
    have hu := closed.accounted (accounted_closed ha provider extra false)
    obtain ⟨hrec, hretired⟩ := closed_retired closed
    have settled := (settles.queues _ _ _ rfl).imp_right hretired
    rw [← hrec] at settled
    exact (clean_queued hu (clean_closed h closed) due (disk_queued ..) synthesized settled).grows ends.grows
  | gaveUp closed ends =>
    have hu := closed.accounted (accounted_closed ha _ _ false)
    have retired := (closed_retired closed).2 (settles.gaveUp _ rfl)
    exact (clean_saved hu (clean_closed h closed) (disk_saved ..) (.inr retired)).grows ends.grows
  | stoppedClosed gave ends =>
    refine Clean.grows (clean_quietly h gave (fun m hm => ?_) (fun _ => .inl) rfl) ends.grows
    simp only [Conf.stopping] at hm
    split at hm <;> simp at hm

end calls

section runs
variable [Host]

/-- A message that recovery wrote itself is delivered before recovery gives up, goes on or queues
another, but for a retry that a handoff replaces. -/
def Conf.Retires (s : Conf) : Call → Prop
  | .recoveryFailed _ => s.chat.Retired
  | .recoveryEnded end_ => s.chat.turnFailed = none → end_.unfinished = false → s.chat.Retired
  | .recoveryMessage stage _ _ =>
      (stage = .handoff ∧ s.chat.recovery.any (·.stage = .retrying) = true) ∨ s.chat.Retired
  | _ => True

def System.Retiring (s : System) : Move → Prop
  | .advance => ∀ call ∈ s.stack.head?, s.conf.Retires call
  | _ => True

omit [Host] in
/-- An END of a turn that failed leaves the recovery state to the calls that follow. -/
theorem recoveryEnded_fails {s : Conf} (end_ : Event) :
    let went := s.chat.turnFailed = none ∧ end_.unfinished = false
    wp (recoveryEnded end_) (fun _ t => t.chat.recovery = s.chat.recovery ∨ went) (fun _ _ => went) s := by
  intro went
  have wrap {m : Conductor (List Call)} {u : Conf} (h : went) :
      wp m (fun _ t => t.chat.recovery = s.chat.recovery ∨ went) (fun _ _ => went) u := by
    refine wp_mono (Q := fun _ _ => True) (H := fun _ _ => True) ?_ (fun _ _ _ => .inr h) fun _ _ _ => h
    unfold wp
    split <;> trivial
  unfold recoveryEnded
  simp only [wp_bind, wp_self, wp_change]
  split
  · exact .inl rfl
  · by_cases hfailed : (s.chat.turnFailed.isSome || end_.unfinished) = true
    · simp only [hfailed, if_true]
      repeat' split
      all_goals exact .inl rfl
    · have h : went := by
        rw [Bool.or_eq_true, not_or] at hfailed
        exact ⟨by simpa using hfailed.1, by simpa using hfailed.2⟩
      exact wrap h

theorem retires_settles {s : Conf} {call : Call} {rest : List Call}
    (allowed : System.Retiring ⟨s, call :: rest, false⟩ .advance) :
    wp (run call) (fun _ t => s.Settles call (t.chat.recovery = s.chat.recovery))
      (fun _ _ => s.Settles call False) s := by
  have allowed : s.Retires call := allowed call rfl
  have settles (kept : Prop) (other : ∀ end_, call ≠ .recoveryEnded end_) : s.Settles call kept := by
    refine ⟨?_, ?_, fun end_ heq => absurd heq (other end_)⟩
    · rintro _ rfl
      exact allowed
    · rintro _ _ _ rfl
      exact allowed
  by_cases hended : ∃ end_, call = .recoveryEnded end_
  · obtain ⟨end_, rfl⟩ := hended
    refine wp_mono (recoveryEnded_fails end_) (fun _ t ht => ⟨?_, ?_, ?_⟩) fun _ _ ht => ⟨?_, ?_, ?_⟩
    · rintro _ ⟨⟩
    · rintro _ _ _ ⟨⟩
    · rintro _ ⟨⟩
      exact ht.imp_right fun went => allowed went.1 went.2
    · rintro _ ⟨⟩
    · rintro _ _ _ ⟨⟩
    · rintro _ ⟨⟩
      exact .inr (allowed ht.1 ht.2)
  · have other : ∀ end_, call ≠ .recoveryEnded end_ := fun end_ heq => hended ⟨end_, heq⟩
    exact wp_mono (run_ran call) (fun _ _ _ => settles _ other) fun _ _ _ => settles _ other

/-- A conductor that keeps recovery's own messages apart. -/
structure Cleaning (s : Conf) (stack : List Call) : Prop where
  accounted : Accounted s.chat.desk s.books
  clean : Clean s.books
  faces : s.chat.Faces stack

theorem cleaning_invariant :
    System.Invariant System.Retiring Cleaning (fun s => s.books.Sound ∧ Clean s.books) where
  sound := And.left
  blank := fun sessionId env => ⟨blank_sound sessionId env, by rintro _ ⟨⟩, by rintro _ ⟨⟩⟩
  opened := fun dead opened => by
    refine ⟨accounted_opened dead.1 opened, ?_, trivial⟩
    rw [opened.books]
    exact dead.2.step le_rfl (fun _ => id) (fun m hm => .inl (List.mem_filter.mp hm).1) rfl
  failed := fun dead failed => by
    refine ⟨sound_openFailed dead.1 failed, ?_⟩
    obtain ⟨pending, which, grows⟩ := failed.books
    refine Clean.grows ?_ grows
    refine dead.2.step le_rfl (fun _ => id) (fun m hm => .inl ?_) rfl
    rcases which with rfl | rfl
    · exact hm
    · exact (List.mem_filter.mp hm).1
  left := fun h _ => ⟨h.accounted.sound, h.clean⟩
  ended := fun h _ => ⟨h.accounted.sound, h.clean⟩
  wake := fun h _ _ _ => ⟨h.accounted, h.clean, faces_of_voiced (wake_voiced _) _⟩
  deadline := fun h _ _ => ⟨h.accounted, h.clean, faces_of_voiced (by simp [Call.Voiced]) _⟩
  call := fun _ allowed h =>
    wp_mono (wp_and (run_ran _) (retires_settles allowed))
      (fun _ _ ht => ⟨accounted_ran h.accounted ht.1,
        clean_ran h.accounted h.clean h.faces.1 ht.2 ht.1, (ht.1.faces h.faces.1).append h.faces.2⟩)
      fun _ _ died => ⟨sound_died h.accounted died.1,
        clean_died h.accounted h.clean h.faces.1 died.2 died.1⟩
  published := fun h => by
    refine ⟨h.1.mono le_rfl rfl, h.2.step le_rfl (fun m hm => ?_) (fun _ => .inl) rfl⟩
    rcases List.mem_append.mp hm with hm | hm
    · simp at hm
    · exact hm

/-- While no recovery is under way, no message that recovery wrote is pending on disk or queued. -/
theorem System.recovery_clears {s : System} (h : System.Reach System.Retiring s) :
    (s.conf.books.recovery = none →
      ∀ m ∈ s.conf.chat.meta_.data.pending, Obs.synthesized m ∉ s.conf.trace) ∧
    (s.ended = false → s.conf.chat.recovery = none →
      ∀ m ∈ s.conf.chat.awaiting ++ s.conf.chat.outbox, Obs.synthesized m ∉ s.conf.trace) := by
  have holds := cleaning_invariant.holds h
  have clean : Clean s.conf.books := by
    cases hended : s.ended with
    | true => exact (holds.dead hended).2
    | false => exact (holds.live hended).clean
  have durable : s.conf.books.recovery = none →
      ∀ m ∈ s.conf.chat.meta_.data.pending, Obs.synthesized m ∉ s.conf.trace := by
    intro idle m hm hs
    obtain ⟨r, hr, -⟩ := clean.own m hm hs
    rw [idle] at hr
    cases hr
  refine ⟨durable, fun running idle m hm => ?_⟩
  have accounted := (holds.live running).accounted
  exact durable (accounted.recovery.symm.trans idle) m (accounted.queues.mem_iff.mpr hm)

end runs

instance (c : Chat) : Decidable c.Retired :=
  decidable_of_iff (∀ id ∈ c.recovery.bind Recovery.own, ∀ m ∈ c.meta_.data.pending, m.id ≠ id) Iff.rfl

instance (s : Conf) : (call : Call) → Decidable (s.Retires call)
  | .recoveryFailed _ => inferInstanceAs (Decidable s.chat.Retired)
  | .recoveryEnded end_ => inferInstanceAs
      (Decidable (s.chat.turnFailed = none → end_.unfinished = false → s.chat.Retired))
  | .recoveryMessage stage _ _ => inferInstanceAs (Decidable
      ((stage = .handoff ∧ s.chat.recovery.any (·.stage = .retrying) = true) ∨ s.chat.Retired))
  | .launchOnce | .enqueue _ | .dispatchQueued | .flush | .deliver | .refused _ | .attempt ..
  | .replace .. | .absorb .. | .unauthenticated _ | .failed .. | .recoverContext _ | .startHandoff
  | .resumeRecovery | .finishTurn | .settleIdle | .apply _ | .shutdown | .stopped | .publish =>
    .isTrue trivial

instance (s : System) : (m : Move) → Decidable (s.Retiring m)
  | .advance => inferInstanceAs (Decidable (∀ call ∈ s.stack.head?, s.conf.Retires call))
  | .receive .. | .deadline _ | .reopen .. => .isTrue trivial

section samples
attribute [local instance] Host.ascii

namespace System

/-- A turn of codex ends with its context full. -/
def filled (after_ : Env) : List Move :=
  .receive (.send "a") (Env.answering "codex") :: List.replicate 8 .advance ++
    .receive (.heard 1 { type := .error, kind := .contextLimit }) (Env.answering "codex") ::
      List.replicate 2 .advance ++ [.receive (.heard 1 { type := .end_ }) after_]

/-- The handoff and the continuation are both delivered, and nothing of them stays. -/
theorem recovery_clears_handoff :
    let continuation : PendingMessage := ⟨"111", ({} : ContextRecovery).newSessionMessage⟩
    ∃ s : System, s.conf.chat.recovery = none ∧ Obs.synthesized continuation ∈ s.conf.trace ∧
      ∀ m ∈ s.conf.chat.awaiting ++ s.conf.chat.outbox, Obs.synthesized m ∉ s.conf.trace := by
  intro continuation
  let moves : List Move := filled (Env.answering "codex") ++ List.replicate 11 .advance ++
    .receive (.heard 2 { type := .end_ }) (Env.answering "codex") :: List.replicate 10 .advance ++
      .receive (.heard 3 { type := .end_ }) (Env.answering "codex") :: List.replicate 6 .advance
  have run : ∃ s, after "chat" ["codex"] Env.ascii moves = some s ∧ s.ended = false ∧
      s.conf.chat.recovery = none ∧ Obs.synthesized continuation ∈ s.conf.trace :=
    ⟨_, Option.eq_some_of_isSome (by decide +kernel), by decide +kernel, by decide +kernel,
      by decide +kernel⟩
  obtain ⟨s, hs, live, idle, written⟩ := run
  have start : Reach Retiring (fresh "chat" ["codex"] none Env.ascii) :=
    .init ⟨"chat", ["codex"], none, Env.ascii, rfl⟩
  have along : machine.Along Retiring (fresh "chat" ["codex"] none Env.ascii) moves := by
    decide +kernel
  exact ⟨s, idle, written, (recovery_clears (start.exec along hs)).2 live idle⟩

/-- The provider turns the handoff down: recovery ends, and its message stays in the queue. -/
theorem handoff_left_behind :
    ∃ s : System, Reachable s ∧ s.ended = false ∧ s.stack = [] ∧ s.conf.chat.recovery = none ∧
      ∃ m ∈ s.conf.chat.outbox, m ∈ s.conf.chat.meta_.data.pending ∧ Obs.synthesized m ∈ s.conf.trace := by
  let refusing : Env := { Env.answering "codex" with send := fun _ _ => .error "no" }
  let moves : List Move := filled refusing ++ List.replicate 12 .advance
  have run : ∃ s, after "chat" ["codex"] Env.ascii moves = some s ∧ s.ended = false ∧
      s.stack.length = 0 ∧ s.conf.chat.recovery = none ∧
        ∃ m ∈ s.conf.chat.outbox, m ∈ s.conf.chat.meta_.data.pending ∧ Obs.synthesized m ∈ s.conf.trace :=
    ⟨_, Option.eq_some_of_isSome (by decide +kernel), by decide +kernel, by decide +kernel,
      by decide +kernel, by decide +kernel⟩
  obtain ⟨s, hs, live, stack, idle, left⟩ := run
  exact ⟨s, reachable_after hs, live, List.length_eq_zero_iff.mp stack, idle, left⟩

end System
end samples
end SiliconOmni
